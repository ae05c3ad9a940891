import Mathlib.Data.List.Basic
import TrackerLinks.Proofs.Command.Work
import TrackerLinks.Proofs.Document.Loading
import TrackerLinks.Proofs.Json.Pretty
import TrackerLinks.Proofs.Repository.Nearest
import TrackerLinks.Proofs.Settings.Loading
import TrackerLinks.Proofs.Text.Lookup
import TrackerLinks.Proofs.Tree.Walk

/-! A scan says of each file what a run on that file alone says of it, though it loads the file
under a path that is spelled differently, and meets the languages of the settings in another order. -/

namespace TrackerLinks

variable {host : Host Id} {settings : Settings} {path path' : Path} {names : List Name}

/-- The host at another run, which meets the entries of tables in its own order. -/
def Host.rearranged (host : Host Id) (arrange : List (Text × Text) → List (Text × Text)) : Host Id :=
  { host with arrange := arrange }

theorem Host.IsFileSystem.rearranged (fileSystem : host.IsFileSystem)
    (arrange : List (Text × Text) → List (Text × Text)) : (host.rearranged arrange).IsFileSystem where
  size_le_of_status := fileSystem.size_le_of_status
  status_dotted := fileSystem.status_dotted
  read_dotted := fileSystem.read_dotted
  isDirectory_here := fileSystem.isDirectory_here
  allNames := fileSystem.allNames

theorem Settings.load_rearranged {arrange : List (Text × Text) → List (Text × Text)}
    {directory : Path} (permutes : ∀ table, (arrange table).Perm table)
    (loaded : load (host.rearranged id) directory = .ok settings) :
    load (host.rearranged arrange) directory =
      .ok { settings with languages := arrange settings.languages } := by
  have read (arrange : List (Text × Text) → List (Text × Text)) :
      (host.rearranged arrange).readText (Path.join directory fileName) =
        host.readText (Path.join directory fileName) := rfl
  simp only [load, read, bind, pure] at loaded ⊢
  split at loaded
  · cases loaded
    have unused : arrange standard.languages = [] := (permutes []).eq_nil
    rw [unused]
    rfl
  · cases loaded
  split at loaded
  · cases loaded
    rfl
  · cases loaded

theorem Document.load_of_perm {languages : List (Text × Text)}
    (unambiguous : Text.IsUnambiguous settings.languages)
    (same : languages.Perm settings.languages) (language? : Option Text) :
    load host { settings with languages := languages } path language? =
      load host settings path language? := by
  have told : Language.ofPath languages path = Language.ofPath settings.languages path := by
    rw [Language.ofPath, Language.ofPath, Text.lookup_eq_of_perm unambiguous same]
  simp only [load, told]

namespace Command

/-- The links of the document at a path, if it loads. -/
def linksAt? (host : Host Id) (settings : Settings) (path : Path) : Option DocumentLinks :=
  (Id.run (Document.load host settings path none)).toOption.map fun document =>
    Id.run (document.links host)

theorem isSome_linksAt?_iff :
    (linksAt? host settings path).isSome ↔
      ∃ document, Document.load host settings path none = .ok document := by
  rw [linksAt?, Option.isSome_map]
  cases Document.load host settings path none with
  | error error => simp [Except.toOption, Id.run]
  | ok document => simp [Except.toOption, Id.run]

theorem linksAt?_eq (same : host.SameFile path path') :
    linksAt? host settings path = linksAt? host settings path' := by
  rw [linksAt?, linksAt?, same.load_eq, Option.map_map]
  cases outcome : Document.load host settings path' none with
  | error error => rfl
  | ok document =>
      obtain ⟨language, _, text⟩ := document
      obtain rfl : _ = path' := Document.path_eq_of_load outcome
      exact congrArg some (same.links_eq language text)

theorem linksAt?_of_perm {languages : List (Text × Text)}
    (unambiguous : Text.IsUnambiguous settings.languages)
    (same : languages.Perm settings.languages) :
    linksAt? host { settings with languages := languages } path = linksAt? host settings path := by
  rw [linksAt?, linksAt?, Document.load_of_perm unambiguous same]

def objectAt (host : Host Id) (settings : Settings) (path : Path) : Json :=
  ((linksAt? host settings path).getD ⟨[], none⟩).json path

/-- What a scan reports of a file. -/
def report? (host : Host Id) (settings : Settings) (path : Path) : Option (Path × DocumentLinks) :=
  ((linksAt? host settings path.dotted).filter (!·.links.isEmpty)).map (path, ·)

theorem below_here (nonempty : names ≠ []) (isStep : ∀ name ∈ names, Name.IsStep name) :
    here.below names = Path.dotted (Text.joined ['/'] names) :=
  Path.below_eq (List.cons_ne_nil _ _) rfl nonempty isStep

theorem scanFile?_eq (nonempty : names ≠ []) (isStep : ∀ name ∈ names, Name.IsStep name) :
    Id.run (scanFile? host settings names) =
      report? host settings (Text.joined ['/'] names) := by
  rw [scanFile?, report?, linksAt?, below_here nonempty isStep]
  cases outcome : Document.load host settings (Path.dotted (Text.joined ['/'] names)) none with
  | error error => rfl
  | ok document =>
      simp only [bind, pure, Id.run, Except.toOption, Option.map_some, Option.filter_some]
      cases (document.links host).links.isEmpty <;> rfl

theorem of_mem_walkNames (fileSystem : host.IsFileSystem)
    (member : names ∈ Id.run (walkNames host settings here)) :
    names ≠ [] ∧ ∀ name ∈ names, Name.IsStep name := by
  cases found : host.tree here with
  | none =>
      simp only [walkNames, found, bind, pure, Id.run] at member
      cases member
  | some tree =>
      simp only [walkNames, found, bind, pure, Id.run, List.mem_filter] at member
      refine ⟨?_, Tree.forall_mem_files tree (fileSystem.allNames found) names member.1⟩
      cases tree with
      | leaf value => cases fileSystem.isDirectory_here found
      | directory entries => exact Tree.ne_nil_of_mem_files member.1

/-- The paths of a walk from here without the `./` in front of them. -/
def walked (host : Host Id) (settings : Settings) : List Path :=
  (Id.run (walkNames host settings here)).map (Text.joined ['/'])

theorem scanned_eq (fileSystem : host.IsFileSystem) :
    scanned host settings = (walked host settings).filterMap (report? host settings) := by
  rw [scanned, scanFiles_eq, walked, List.filterMap_map]
  apply List.filterMap_congr
  intro names member
  obtain ⟨nonempty, isStep⟩ := of_mem_walkNames fileSystem member
  exact scanFile?_eq nonempty isStep

theorem walk_eq (fileSystem : host.IsFileSystem) :
    walk host settings here = (walked host settings).map Path.dotted := by
  have spelled : (Id.run (walkNames host settings here)).map here.below =
      (walked host settings).map Path.dotted := by
    rw [walked, List.map_map]
    apply List.map_congr_left
    intro names member
    obtain ⟨nonempty, isStep⟩ := of_mem_walkNames fileSystem member
    exact below_here nonempty isStep
  rw [← spelled]
  rfl

theorem size_le_of_linksAt? {found : DocumentLinks} (fileSystem : host.IsFileSystem)
    (loads : linksAt? host settings path = some found) : Text.size path ≤ Path.sizeLimit := by
  cases status : host.status path with
  | ok status' => exact fileSystem.size_le_of_status status
  | error reason =>
      simp only [linksAt?, Document.load, status, bind, pure, Id.run] at loads
      cases reason <;> cases loads

theorem sameFile_of_mem_walked (fileSystem : host.IsFileSystem)
    (member : path ∈ walked host settings) (fits : Text.size path.dotted ≤ Path.sizeLimit) :
    host.SameFile path.dotted path := by
  obtain ⟨names, visited, rfl⟩ := List.mem_map.mp member
  obtain ⟨nonempty, isStep⟩ := of_mem_walkNames fileSystem visited
  exact fileSystem.sameFile_dotted (Path.joined_ne_nil nonempty isStep)
    (Path.isAbsolute_joined isStep) fits

theorem lines_ne_nil_iff {found : DocumentLinks} : found.lines path ≠ [] ↔ found.links ≠ [] := by
  cases links : found.links with
  | nil => simp [DocumentLinks.lines, links]
  | cons link more => simp [DocumentLinks.lines, links, Link.line]

/-- What a run of a command can leave behind, whatever order it meets the entries of tables in. -/
def CanYield (host : Host Id) (command : Command) (outcome : Outcome) : Prop :=
  ∃ arrange : List (Text × Text) → List (Text × Text), (∀ table, (arrange table).Perm table) ∧
    outcome = run (host.rearranged arrange) command

section Runs

variable {outcome : Outcome} {json : Bool}
  (loaded : Settings.load (host.rearranged id) here = .ok settings)
  (unambiguous : Text.IsUnambiguous settings.languages)

include loaded unambiguous

theorem loadHere_rearranged {arrange : List (Text × Text) → List (Text × Text)}
    (permutes : ∀ table, (arrange table).Perm table) :
    loadHere (host.rearranged arrange) path none = Document.load host settings path none := by
  rw [loadHere_of_settings (Settings.load_rearranged permutes loaded)]
  exact Document.load_of_perm unambiguous (permutes _) none

theorem CanYield.links_of_none (yields : CanYield host (.links path none json) outcome)
    (none_found : linksAt? host settings path = none) : ∃ error, outcome = .failure 2 error := by
  obtain ⟨arrange, permutes, rfl⟩ := yields
  rw [linksAt?, Option.map_eq_none_iff] at none_found
  rw [run_links_eq, loadHere_rearranged loaded unambiguous permutes]
  cases outcome : Document.load host settings path none with
  | error error => exact ⟨error, rfl⟩
  | ok document =>
      rw [outcome] at none_found
      cases none_found

theorem CanYield.links_of_some {found : DocumentLinks}
    (yields : CanYield host (.links path none json) outcome) (isUnicode : host.isUnicode path = true)
    (some_found : linksAt? host settings path = some found) :
    outcome = .success (if json then printed (found.json path) else found.lines path) := by
  obtain ⟨arrange, permutes, rfl⟩ := yields
  have unicode : Id.run ((host.rearranged arrange).isUnicode path) = true := isUnicode
  rw [linksAt?, Option.map_eq_some_iff] at some_found
  obtain ⟨document, document_loaded, rfl⟩ := some_found
  rw [run_links_eq, loadHere_rearranged loaded unambiguous permutes]
  cases outcome : Document.load host settings path none with
  | error error =>
      rw [outcome] at document_loaded
      cases document_loaded
  | ok other =>
      rw [outcome] at document_loaded
      cases document_loaded
      dsimp only
      rw [if_pos unicode]
      cases json <;> rfl

theorem CanYield.scan_eq (yields : CanYield host (.scan json) outcome)
    (fileSystem : host.IsFileSystem) (unicode : ∀ path, host.isUnicode path = true) :
    outcome = .success
      (if json then
        printed (.list (((walked host settings).filterMap (report? host settings)).map
          fun file => file.2.json file.1))
      else ((walked host settings).filterMap (report? host settings)).flatMap
        fun file => file.2.lines file.1) := by
  obtain ⟨arrange, permutes, rfl⟩ := yields
  have reports : scanned (host.rearranged arrange)
      { settings with languages := arrange settings.languages } =
        (walked host settings).filterMap (report? host settings) := by
    rw [scanned_eq (fileSystem.rearranged arrange)]
    apply List.filterMap_congr
    intro path _
    rw [report?, report?, ← linksAt?_of_perm unambiguous (permutes _)]
    rfl
  have all_unicode : (scanned (host.rearranged arrange)
      { settings with languages := arrange settings.languages }).all fun file =>
        Id.run ((host.rearranged arrange).isUnicode file.1) :=
    List.all_eq_true.mpr fun file _ => unicode file.1
  rw [run_scan_eq, Settings.load_rearranged permutes loaded]
  dsimp only
  rw [if_pos all_unicode, reports]
  cases json <;> rfl

theorem CanYield.exitCode_eq_zero_iff (yields : CanYield host (.links path none false) outcome)
    (isUnicode : host.isUnicode path = true) :
    outcome.exitCode = 0 ↔ (linksAt? host settings path).isSome := by
  cases h : linksAt? host settings path with
  | none =>
      obtain ⟨error, rfl⟩ := yields.links_of_none loaded unambiguous h
      simp [Outcome.failure]
  | some found => simp [yields.links_of_some loaded unambiguous isUnicode h, Outcome.success]

/-- A scan leaves a file out of which a run on it alone prints nothing, or which has no room for the
`./` in front. -/
theorem CanYield.report?_cases (yields : CanYield host (.links path none false) outcome)
    (fileSystem : host.IsFileSystem) (isUnicode : host.isUnicode path = true)
    (member : path ∈ walked host settings) :
    (report? host settings path = none ∧
      (Text.size path.dotted ≤ Path.sizeLimit → outcome.output = [])) ∨
    ∃ found, report? host settings path = some (path, found) ∧
      linksAt? host settings path = some found ∧ Text.size path.dotted ≤ Path.sizeLimit ∧
      outcome.output = found.lines path ∧ found.lines path ≠ [] := by
  by_cases fits : Text.size path.dotted ≤ Path.sizeLimit
  · have same : linksAt? host settings path.dotted = linksAt? host settings path :=
      linksAt?_eq (sameFile_of_mem_walked fileSystem member fits)
    cases h : linksAt? host settings path with
    | none =>
        obtain ⟨error, rfl⟩ := yields.links_of_none loaded unambiguous h
        exact .inl ⟨by rw [report?, same, h]; rfl, fun _ => rfl⟩
    | some found =>
        have lines := yields.links_of_some loaded unambiguous isUnicode h
        rw [report?, same, h]
        by_cases empty : found.links = []
        · refine .inl ⟨by simp [empty], fun _ => ?_⟩
          rw [lines]
          simp [Outcome.success, DocumentLinks.lines, empty]
        · refine .inr ⟨found, by simp [empty], rfl, fits, ?_, lines_ne_nil_iff.mpr empty⟩
          rw [lines]
          rfl
  · have unfound : linksAt? host settings path.dotted = none :=
      Option.eq_none_iff_forall_ne_some.mpr fun found loads =>
        fits (size_le_of_linksAt? fileSystem loads)
    exact .inl ⟨by rw [report?, unfound]; rfl, fun short => absurd short fits⟩

/-- A run on the file prints something, and there is room for the `./` in front of its path. -/
def IsPrinted (single : Path → Outcome) (path : Path) : Bool :=
  Text.size path.dotted ≤ Path.sizeLimit && !(single path).output.isEmpty

section Files

variable {single : Path → Outcome} (fileSystem : host.IsFileSystem)
  (unicode : ∀ path, host.isUnicode path = true)
  (singles : ∀ path, CanYield host (.links path none false) (single path))

include fileSystem unicode singles

theorem flatMap_lines_reports :
    ((walked host settings).filterMap (report? host settings)).flatMap
        (fun file => file.2.lines file.1) =
      (walked host settings).flatMap fun path =>
        if Text.size path.dotted ≤ Path.sizeLimit then (single path).output else [] := by
  rw [List.filterMap_eq_flatMap_toList, List.flatMap_assoc]
  apply List.flatMap_congr
  intro path member
  obtain ⟨left_out, silent⟩ | ⟨found, reported, _, fits, printed, _⟩ :=
    (singles path).report?_cases loaded unambiguous fileSystem (unicode path) member
  · rw [left_out]
    split
    · exact (silent ‹_›).symm
    · rfl
  · rw [reported, if_pos fits, printed]
    simp

theorem map_json_reports :
    ((walked host settings).filterMap (report? host settings)).map
        (fun file => file.2.json file.1) =
      ((walked host settings).filter (IsPrinted single)).map (objectAt host settings) := by
  rw [List.map_filterMap, ← List.filterMap_eq_map, List.filterMap_filter]
  apply List.filterMap_congr
  intro path member
  obtain ⟨left_out, silent⟩ | ⟨found, reported, h, fits, printed, prints⟩ :=
    (singles path).report?_cases loaded unambiguous fileSystem (unicode path) member
  · rw [left_out]
    by_cases fits : Text.size path.dotted ≤ Path.sizeLimit
    · simp [IsPrinted, silent fits]
    · simp [IsPrinted, fits]
  · rw [reported]
    simp [IsPrinted, fits, printed, prints, objectAt, h]

theorem linksAt?_of_isPrinted (member : path ∈ walked host settings)
    (prints : IsPrinted single path) : ∃ found, linksAt? host settings path = some found := by
  obtain ⟨fits, shown⟩ : Text.size path.dotted ≤ Path.sizeLimit ∧ (single path).output ≠ [] := by
    simpa [IsPrinted] using prints
  obtain ⟨_, silent⟩ | ⟨found, _, h, _⟩ :=
    (singles path).report?_cases loaded unambiguous fileSystem (unicode path) member
  · exact absurd (silent fits) shown
  · exact ⟨found, h⟩

end Files

end Runs

/-- A scan prints for each file that it visits what a run on that file alone prints, in the order of
the walk. That is nothing for a file that cannot be loaded, and such a file does not end the scan. As
JSON it prints the list of the objects that these runs print for the files with links. -/
theorem run_scan_eq_run_links {scan : Bool → Outcome} {single : Path → Bool → Outcome}
    (fileSystem : host.IsFileSystem) (unicode : ∀ path, host.isUnicode path = true)
    (loaded : Settings.load (host.rearranged id) here = .ok settings)
    (unambiguous : Text.IsUnambiguous settings.languages)
    (scans : ∀ json, CanYield host (.scan json) (scan json))
    (singles : ∀ path json, CanYield host (.links path none json) (single path json)) :
    ∃ relative : List Path, walk host settings here = relative.map Path.dotted ∧
      (∀ path ∈ relative, Text.size path.dotted ≤ Path.sizeLimit →
        ((∃ document, Document.load host settings path.dotted none = .ok document) ↔
          (single path false).exitCode = 0)) ∧
      (∀ path, (single path false).exitCode ≠ 0 → (single path false).output = []) ∧
      scan false = .success (relative.flatMap fun path =>
        if Text.size path.dotted ≤ Path.sizeLimit then (single path false).output else []) ∧
      let linked := relative.filter fun path =>
        Text.size path.dotted ≤ Path.sizeLimit && !(single path false).output.isEmpty
      ∃ object : Path → Json,
        (∀ path ∈ linked, single path true = .success (printed (object path))) ∧
        scan true = .success (printed (.list (linked.map object))) ∧
        (scan true).output = Json.enclosed '[' ']' 0 (linked.map fun path =>
          Json.indented (single path true).output.dropLast) ++ ['\n'] := by
  have reports (json : Bool) := (scans json).scan_eq loaded unambiguous fileSystem unicode
  have alone : ∀ path ∈ (walked host settings).filter (IsPrinted (single · false)),
      single path true = .success (printed (objectAt host settings path)) := by
    intro path among
    obtain ⟨member, prints⟩ := List.mem_filter.mp among
    obtain ⟨found, h⟩ := linksAt?_of_isPrinted loaded unambiguous fileSystem unicode
      (fun path => singles path false) member prints
    rw [(singles path true).links_of_some loaded unambiguous (unicode path) h, objectAt, h]
    rfl
  have listed : scan true = .success (printed (.list
      (((walked host settings).filter (IsPrinted (single · false))).map
        (objectAt host settings)))) := by
    rw [reports true, if_pos rfl, map_json_reports loaded unambiguous fileSystem unicode
      (fun path => singles path false)]
  refine ⟨walked host settings, walk_eq fileSystem, ?loads, ?silent, ?lines, objectAt host settings,
    alone, listed, ?shown⟩
  case loads =>
    intro path member fits
    rw [(singles path false).exitCode_eq_zero_iff loaded unambiguous (unicode path),
      ← linksAt?_eq (sameFile_of_mem_walked fileSystem member fits), isSome_linksAt?_iff]
  case silent =>
    intro path failed
    rw [ne_eq, (singles path false).exitCode_eq_zero_iff loaded unambiguous (unicode path),
      Option.not_isSome_iff_eq_none] at failed
    obtain ⟨error, failure⟩ := (singles path false).links_of_none loaded unambiguous failed
    rw [failure]
    rfl
  case lines =>
    rw [reports false, if_neg Bool.false_ne_true, flatMap_lines_reports loaded unambiguous
      fileSystem unicode (fun path => singles path false)]
  case shown =>
    rw [listed]
    change (Json.list _).pretty ++ ['\n'] = _
    rw [Json.pretty_list, List.map_map]
    congr 2
    apply List.map_congr_left
    intro path among
    have text : (single path true).output.dropLast = (objectAt host settings path).pretty := by
      rw [alone path among]
      exact List.dropLast_concat
    exact congrArg Json.indented text.symm

/-- A repository without settings, with bytes that are no text in one file and a reference in
another. -/
def sample : Machine where
  tree := .directory
    [(".git".toList, .empty),
      ("b.rs".toList, .leaf (.file ⟨#[0xff]⟩)),
      ("src".toList, .directory [("a.rs".toList, .leaf (.file "// see (#1)".toUTF8))])]
  workingDirectory := []
  origin _ := .printed "https://github.com/o/r".toUTF8

theorem isPlain_sample : sample.IsPlain :=
  ⟨by decide, by decide⟩

theorem load_sample : Settings.load (sample.host.rearranged id) here = .ok .standard := by
  have aside : sample.Goes "./.issuelink.toml".toList 0 [] [Settings.fileName] :=
    .enter (by decide) (by decide) rfl nofun .stay
  have missing : sample.Refuses "./.issuelink.toml".toList .notFound :=
    Machine.refuses_notFound_iff.mpr (.inr ⟨⟨by decide, by decide, by decide⟩, 0, by decide,
      _, _, _, aside, by decide, by decide, rfl⟩)
  exact Settings.load_of_hold (.standard missing.read_eq)

theorem walk_sample :
    walk sample.host .standard here = ["./b.rs".toList, "./src/a.rs".toList] := by
  have listed : sample.host.tree here = some (.directory
      [(".git".toList, .empty), ("b.rs".toList, .leaf .file),
        ("src".toList, .directory [("a.rs".toList, .leaf .file)])]) :=
    (Machine.host_tree_here rfl).trans rfl
  have files : Id.run (walkNames sample.host .standard here) =
      [["b.rs".toList], ["src".toList, "a.rs".toList]] := by
    rw [walkNames_eq_filter listed, Tree.files_directory_of_sorted (by decide)]
    simp only [Tree.branches]
    rw [Tree.files_directory_of_sorted (by decide)]
    simp only [Tree.branches, Tree.files]
    decide +kernel
  change (Id.run (walkNames sample.host .standard here)).map here.below = _
  rw [files]
  decide +kernel

theorem linksAt?_sample_garbled : linksAt? sample.host .standard "b.rs".toList = none := by
  have goes : sample.Goes "b.rs".toList 0 ["b.rs".toList] [] :=
    .enter (by decide) (by decide) rfl nofun .stay
  have isFile : sample.HasFile "b.rs".toList ⟨#[0xff]⟩ :=
    ⟨_, ⟨⟨by decide, by decide, by decide⟩, 0, by decide, goes⟩, rfl⟩
  have failed : Document.load sample.host .standard "b.rs".toList none =
      .error (.io .invalidUtf8) :=
    Document.load_of_hasFile_of_invalid isFile (by decide) (by decide)
  rw [linksAt?, failed]
  rfl

/-- What a run on the file with the reference tells of it. -/
def sampleLinks : DocumentLinks where
  links :=
    [{ start := 7
       stop := 11
       range := ⟨⟨0, 7⟩, ⟨0, 11⟩⟩
       target := "https://github.com/o/r/issues/1".toList
       tooltip := "Open GitHub Issue #1".toList }]
  repository := some ⟨.gitHub, "o/r".toList, "https://github.com/o/r".toList⟩

theorem linksAt?_sample :
    linksAt? sample.host .standard "src/a.rs".toList = some sampleLinks := by
  have goes : sample.Goes "src/a.rs".toList 0 ["src".toList, "a.rs".toList] [] :=
    .enter (by decide) (by decide) rfl nofun (.enter (by decide) (by decide) rfl nofun .stay)
  have isFile : sample.HasFile "src/a.rs".toList "// see (#1)".toList.utf8Encode := by
    rw [String.utf8Encode_toList]
    exact ⟨_, ⟨⟨by decide, by decide, by decide⟩, 0, by decide, goes⟩, rfl⟩
  have loaded : Document.load sample.host .standard "src/a.rs".toList none =
      .ok ⟨"rust".toList, "src/a.rs".toList, "// see (#1)".toList⟩ :=
    Document.load_of_hasFile isFile (by decide)
  have traversable : sample.IsTraversable "src/a.rs".toList := ⟨by decide, by decide, by decide⟩
  have url : (sample.origin []).url = .ok "https://github.com/o/r".toList := rfl
  have parsed : Repository.ofRemoteUrl? "https://github.com/o/r".toList =
      some ⟨.gitHub, "o/r".toList, "https://github.com/o/r".toList⟩ := by decide +kernel
  have repository : Repository.ofPath? sample.host "src/a.rs".toList =
      some ⟨.gitHub, "o/r".toList, "https://github.com/o/r".toList⟩ :=
    (isPlain_sample.ofPath?_of_find? traversable (by decide) url).trans parsed
  rw [linksAt?, loaded]
  simp only [Except.toOption, Id.run, Option.map_some, Document.links, repository, bind, pure]
  decide +kernel

theorem run_scan_eq_run_links_sample :
    sample.host.IsFileSystem ∧ (∀ path, sample.host.isUnicode path = true) ∧
      Settings.load (sample.host.rearranged id) here = .ok .standard ∧
      Text.IsUnambiguous Settings.standard.languages ∧
      walk sample.host .standard here = ["./b.rs".toList, "./src/a.rs".toList] ∧
      (run sample.host (.links "b.rs".toList none false)).exitCode ≠ 0 ∧
      (run sample.host (.links "b.rs".toList none false)).output = [] ∧
      (run sample.host (.links "src/a.rs".toList none false)).output =
        "src/a.rs:1:8-1:12  https://github.com/o/r/issues/1  Open GitHub Issue #1\n".toList ∧
      run sample.host (.scan false) = .success
        "src/a.rs:1:8-1:12  https://github.com/o/r/issues/1  Open GitHub Issue #1\n".toList ∧
      run sample.host (.links "src/a.rs".toList none true) =
        .success (printed (sampleLinks.json "src/a.rs".toList)) ∧
      run sample.host (.scan true) =
        .success (printed (.list [sampleLinks.json "src/a.rs".toList])) := by
  have fileSystem : sample.host.IsFileSystem := Machine.isFileSystem_host (by decide)
  have unambiguous : Text.IsUnambiguous Settings.standard.languages := nofun
  have yields (command : Command) : CanYield sample.host command (run sample.host command) :=
    ⟨id, fun table => .refl table, rfl⟩
  obtain ⟨error, failed⟩ :=
    (yields (.links "b.rs".toList none false)).links_of_none load_sample unambiguous
      linksAt?_sample_garbled
  have shown (json : Bool) := (yields (.links "src/a.rs".toList none json)).links_of_some
    load_sample unambiguous rfl linksAt?_sample
  have line : sampleLinks.lines "src/a.rs".toList =
      "src/a.rs:1:8-1:12  https://github.com/o/r/issues/1  Open GitHub Issue #1\n".toList := by
    decide +kernel
  obtain ⟨relative, visited, _, silent, lines, object, alone, listed, _⟩ :=
    run_scan_eq_run_links fileSystem (fun _ => rfl) load_sample unambiguous
      (fun json => yields (.scan json)) (fun path json => yields (.links path none json))
  obtain rfl : relative = ["b.rs".toList, "src/a.rs".toList] :=
    List.map_injective_iff.mpr Path.dotted_injective (visited.symm.trans walk_sample)
  have unprinted : (run sample.host (.links "b.rs".toList none false)).output = [] := by
    rw [failed]
    rfl
  have printed_line : (run sample.host (.links "src/a.rs".toList none false)).output =
      "src/a.rs:1:8-1:12  https://github.com/o/r/issues/1  Open GitHub Issue #1\n".toList := by
    rw [shown false, ← line]
    rfl
  have fits : Text.size (Path.dotted "src/a.rs".toList) ≤ Path.sizeLimit := by decide
  have nonempty : sampleLinks.lines "src/a.rs".toList ≠ [] := by decide +kernel
  refine ⟨fileSystem, fun _ => rfl, load_sample, unambiguous, walk_sample, ?_, unprinted,
    printed_line, ?_, shown true, ?_⟩
  · rw [failed]
    exact Nat.succ_ne_zero 1
  · rw [lines, List.flatMap_cons, List.flatMap_singleton, unprinted, ite_self, if_pos fits,
      printed_line, List.nil_append]
  · have linked : ["b.rs".toList, "src/a.rs".toList].filter (fun path =>
        Text.size path.dotted ≤ Path.sizeLimit &&
          !(run sample.host (.links path none false)).output.isEmpty) = ["src/a.rs".toList] := by
      rw [List.filter_cons_of_neg, List.filter_cons_of_pos, List.filter_nil]
      · rw [printed_line]
        decide
      · rw [unprinted]
        decide
    rw [linked] at alone listed
    have told := alone _ (List.mem_singleton_self _)
    rw [shown true] at told
    have same := congrArg Outcome.output told
    rw [listed, List.map_singleton,
      ← Json.pretty_injective (List.append_cancel_right same)]

/-- A file below directories that hold nothing else. -/
def chain (names : List Name) : Tree Entry :=
  names.foldr (fun name tree => .directory [(name, tree)]) (.leaf .file)

theorem files_chain (unskipped : ∀ name ∈ names, isSkippedName name = false) :
    (chain names).files = [names] := by
  induction names with
  | nil => rfl
  | cons name names ih =>
      obtain ⟨first, later⟩ := List.forall_mem_cons.mp unskipped
      rw [chain, List.foldr_cons, ← chain, Tree.files, Tree.branches, Tree.branches,
        List.mergeSort_singleton, ih later, first]
      simp

theorem allNames_chain (isStep : ∀ name ∈ names, Name.IsStep name) :
    (chain names).AllNames Name.IsStep := by
  induction names with
  | nil => trivial
  | cons name names ih =>
      obtain ⟨first, later⟩ := List.forall_mem_cons.mp isStep
      exact ⟨first, ih later, trivial⟩

theorem walkNames_chain (listed : host.tree here = some (chain names))
    (unskipped : ∀ name ∈ names, isSkippedName name = false)
    (allowed : settings.allows (Text.joined ['/'] names) = true) :
    Id.run (walkNames host settings here) = [names] := by
  rw [walkNames_eq_filter listed, files_chain unskipped, List.filter_singleton, allowed]
  rfl

theorem scanned_chain (listed : host.tree here = some (chain names))
    (unskipped : ∀ name ∈ names, isSkippedName name = false)
    (allowed : settings.allows (Text.joined ['/'] names) = true) :
    scanned host settings = Id.run (scanFiles host settings [names]) := by
  rw [scanned, walkNames_chain listed unskipped allowed]

/-- A file system with one source file, whose directory is a repository, and with settings if there
are any. -/
def lone (names : List Name) (settings? : Option String) : Host Id where
  workingDirectory := ['/']
  status path :=
    if Path.sizeLimit < Text.size path then .error .nameTooLong
    else if Path.names path = names then .ok ⟨false, 11⟩
    else if (Path.names path).isPrefixOf names ||
        Path.names path = names.dropLast ++ [Repository.marker] then
      .ok ⟨true, Machine.directorySize⟩
    else .error .notFound
  read path :=
    if Path.sizeLimit < Text.size path then .error .nameTooLong
    else if Path.names path = names then .ok "// see (#1)".toUTF8
    else if Path.names path = [Settings.fileName] then
      (settings?.map fun text => .ok text.toUTF8).getD (.error .notFound)
    else .error .notFound
  tree _ := some (chain names)
  origin _ := .ok "https://github.com/o/r".toList
  arrange := id
  isUnicode _ := true

theorem isFileSystem_lone {settings? : Option String} (nonempty : names ≠ [])
    (isStep : ∀ name ∈ names, Name.IsStep name) : (lone names settings?).IsFileSystem where
  size_le_of_status {path status} found := by
    by_contra long
    rw [lone] at found
    dsimp only at found
    rw [if_pos (Nat.not_le.mp long)] at found
    cases found
  status_dotted {path} _ _ fits := by
    have short : Text.size path ≤ Path.sizeLimit := by
      have longer := Path.size_dotted path
      omega
    simp only [lone, Path.names_dotted, if_neg (Nat.not_lt.mpr fits), if_neg (Nat.not_lt.mpr short)]
  read_dotted {path} _ _ fits := by
    have short : Text.size path ≤ Path.sizeLimit := by
      have longer := Path.size_dotted path
      omega
    simp only [lone, Path.names_dotted, if_neg (Nat.not_lt.mpr fits), if_neg (Nat.not_lt.mpr short)]
  isDirectory_here found := by
    cases found
    obtain ⟨name, more, rfl⟩ := List.exists_cons_of_ne_nil nonempty
    rfl
  allNames found := by
    cases found
    exact allNames_chain isStep

/-- Settings that give two languages to one extension, once with a dot in front. -/
def ambiguousText : String :=
  "[languages]\nx = \"rust\"\n\".x\" = \"python\"\n"

def ambiguous : Host Id :=
  lone ["a.x".toList] (some ambiguousText)

def ambiguousSettings : Settings :=
  { Settings.standard with
    languages := [("x".toList, "rust".toList), ("x".toList, "python".toList)] }

/-- The names that lead to a file whose path has one byte less than it may have. -/
def distantNames : List Name :=
  List.replicate 16 (List.replicate 254 'd') ++ ["0123456789a.rs".toList]

def distant : Host Id :=
  lone distantNames none

theorem walk_chain (listed : host.tree here = some (chain names)) (nonempty : names ≠ [])
    (isStep : ∀ name ∈ names, Name.IsStep name)
    (unskipped : ∀ name ∈ names, isSkippedName name = false)
    (allowed : settings.allows (Text.joined ['/'] names) = true) :
    walk host settings here = [Path.dotted (Text.joined ['/'] names)] := by
  change (Id.run (walkNames host settings here)).map here.below = _
  rw [walkNames_chain listed unskipped allowed, List.map_singleton, below_here nonempty isStep]

/-- Where two languages are given to one extension, the scan and the run on the file may choose
differently. And the `./` that a scan puts in front of a path can make it too long. -/
theorem run_scan_ne_run_links :
    (ambiguous.IsFileSystem ∧ (∀ path, ambiguous.isUnicode path = true) ∧
      Settings.load (ambiguous.rearranged id) here = .ok ambiguousSettings ∧
      walk ambiguous ambiguousSettings here = ["./a.x".toList] ∧
      ∃ scan single, CanYield ambiguous (.scan false) scan ∧
        CanYield ambiguous (.links "a.x".toList none false) single ∧
        scan.output ≠ [] ∧ single.output = []) ∧
    distant.IsFileSystem ∧ (∀ path, distant.isUnicode path = true) ∧
      Settings.load (distant.rearranged id) here = .ok .standard ∧
      walk distant .standard here = [Path.dotted (Text.joined ['/'] distantNames)] ∧
      ∃ scan single, CanYield distant (.scan false) scan ∧
        CanYield distant (.links (Text.joined ['/'] distantNames) none false) single ∧
        scan.output = [] ∧ single.output ≠ [] := by
  have permutes : ∀ table : List (Text × Text), (id table).Perm table := fun table => .refl table
  have written : (ambiguous.rearranged id).read (Path.join here Settings.fileName) =
      .ok ambiguousText.toUTF8 := rfl
  have decoded : String.fromUTF8? ambiguousText.toUTF8 = some ambiguousText := by decide +kernel
  have accepted : Settings.ofText? ambiguousText.toList = some ambiguousSettings := by
    decide +kernel
  have loaded : Settings.load (ambiguous.rearranged id) here = .ok ambiguousSettings :=
    Settings.load_of_hold (.given written decoded accepted)
  have loaded' : Settings.load (distant.rearranged id) here = .ok .standard :=
    Settings.load_of_hold (.standard rfl)
  have isStep : ∀ name ∈ ["a.x".toList], Name.IsStep name := by decide
  have isStep' : ∀ name ∈ distantNames, Name.IsStep name := by decide +kernel
  have unskipped' : ∀ name ∈ distantNames, isSkippedName name = false := by decide +kernel
  have found : scanned (ambiguous.rearranged id) ambiguousSettings =
      Id.run (scanFiles (ambiguous.rearranged id) ambiguousSettings [["a.x".toList]]) :=
    scanned_chain rfl (by decide) (by decide)
  have found' : scanned (distant.rearranged id) .standard =
      Id.run (scanFiles (distant.rearranged id) .standard [distantNames]) :=
    scanned_chain rfl unskipped' (by decide +kernel)
  refine ⟨⟨isFileSystem_lone (by decide) isStep, fun _ => rfl, loaded,
    walk_chain rfl (by decide) isStep (by decide) (by decide), _, _,
    ⟨id, permutes, rfl⟩, ⟨List.reverse, List.reverse_perm, rfl⟩, ?_, by decide +kernel⟩,
    isFileSystem_lone (by decide +kernel) isStep', fun _ => rfl, loaded',
    walk_chain rfl (by decide +kernel) isStep' unskipped' (by decide +kernel), _, _,
    ⟨id, permutes, rfl⟩, ⟨id, permutes, rfl⟩, ?_, by decide +kernel⟩
  · rw [run_scan_eq, loaded]
    dsimp only
    rw [found]
    decide +kernel
  · rw [run_scan_eq, loaded']
    dsimp only
    rw [found']
    decide +kernel

end Command

end TrackerLinks
