import TrackerLinks.Document
import TrackerLinks.Proofs.Machine.Passage
import TrackerLinks.Proofs.Text.Occurrence

namespace TrackerLinks

theorem Text.fromUTF8?_utf8Encode (text : Text) :
    String.fromUTF8? text.utf8Encode = some (String.ofList text) :=
  dif_pos ⟨text, rfl⟩

namespace Document

variable {host : Host Id} {machine : Machine} {refusal : Place → Option IoError}
  {settings : Settings} {path : Path} {language? : Option Text} {outcome : Except Error Document}

/-- What comes of loading a document from a path. -/
inductive Loading (host : Host Id) (settings : Settings) (path : Path) (language? : Option Text) :
    Except Error Document → Prop
  | absent (missing : host.status path = .error .notFound) :
      Loading host settings path language? (.error (.fileNotFound path))
  | refused {reason : IoError} (refused : host.status path = .error reason)
      (present : reason ≠ .notFound) : Loading host settings path language? (.error (.io reason))
  | large {status : Status} (found : host.status path = .ok status)
      (exceeds : settings.maxFileBytes < status.size) :
      Loading host settings path language?
        (.error (.fileTooLarge path settings.maxFileBytes status.size))
  | unreadable {status : Status} {reason : IoError} (found : host.status path = .ok status)
      (fits : status.size ≤ settings.maxFileBytes) (sealed : host.read path = .error reason) :
      Loading host settings path language? (.error (.io reason))
  | garbled {status : Status} {content : ByteArray} (found : host.status path = .ok status)
      (fits : status.size ≤ settings.maxFileBytes) (held : host.read path = .ok content)
      (invalid : ¬ content.IsValidUTF8) :
      Loading host settings path language? (.error (.io .invalidUtf8))
  | loaded {status : Status} {text : Text} (found : host.status path = .ok status)
      (fits : status.size ≤ settings.maxFileBytes) (held : host.read path = .ok text.utf8Encode) :
      Loading host settings path language?
        (.ok ⟨language?.getD (Language.ofPath settings.languages path), path, text⟩)

theorem Loading.load_eq (loading : Loading host settings path language? outcome) :
    load host settings path language? = outcome := by
  cases loading with
  | absent missing => simp only [load, missing, bind, pure]
  | refused refused present => simp only [load, refused, bind, pure]
  | large found exceeds => simp only [load, found, if_pos exceeds, bind, pure]
  | unreadable found fits sealed =>
      simp only [load, found, if_neg (Nat.not_lt.mpr fits), Host.readText, sealed, bind, pure]
  | garbled found fits held invalid =>
      simp only [load, found, if_neg (Nat.not_lt.mpr fits), Host.readText, held, String.fromUTF8?,
        dif_neg invalid, bind, pure]
  | loaded found fits held =>
      simp only [load, found, if_neg (Nat.not_lt.mpr fits), Host.readText, held,
        Text.fromUTF8?_utf8Encode, String.toList_ofList, bind, pure]

theorem exists_loading (host : Host Id) (settings : Settings) (path : Path)
    (language? : Option Text) : ∃ outcome, Loading host settings path language? outcome := by
  cases found : host.status path with
  | error reason =>
      by_cases missing : reason = .notFound
      · exact ⟨_, .absent (missing ▸ found)⟩
      · exact ⟨_, .refused found missing⟩
  | ok status =>
      by_cases exceeds : settings.maxFileBytes < status.size
      · exact ⟨_, .large found exceeds⟩
      have fits := Nat.not_lt.mp exceeds
      cases held : host.read path with
      | error reason => exact ⟨_, .unreadable found fits held⟩
      | ok content =>
          by_cases valid : content.IsValidUTF8
          · obtain ⟨text, rfl⟩ := valid
            exact ⟨_, .loaded found fits held⟩
          · exact ⟨_, .garbled found fits held valid⟩

theorem load_eq_iff_loading :
    load host settings path language? = outcome ↔ Loading host settings path language? outcome := by
  refine ⟨?_, Loading.load_eq⟩
  rintro rfl
  obtain ⟨outcome, loading⟩ := exists_loading host settings path language?
  rwa [loading.load_eq]

section Outcomes

variable {missing large : Path} {limit size : Nat} {reason : IoError} {document : Document}

theorem loading_fileTooLarge_iff :
    Loading host settings path language? (.error (.fileTooLarge large limit size)) ↔
      large = path ∧ limit = settings.maxFileBytes ∧
        ∃ status, host.status path = .ok status ∧ size = status.size ∧ limit < size := by
  constructor
  · rintro (_ | _ | ⟨found, exceeds⟩)
    exact ⟨rfl, rfl, _, found, rfl, exceeds⟩
  · rintro ⟨rfl, rfl, status, found, rfl, exceeds⟩
    exact .large found exceeds

theorem load_of_hasFile {text : Text} (isFile : machine.HasFile path text.utf8Encode)
    (fits : text.utf8Encode.size ≤ settings.maxFileBytes) :
    load machine.host settings path language? =
      .ok ⟨language?.getD (Language.ofPath settings.languages path), path, text⟩ := by
  have found : machine.host.status path = .ok ⟨false, text.utf8Encode.size⟩ := isFile.status_eq
  have held : machine.host.read path = .ok text.utf8Encode := isFile.read_eq
  exact Loading.load_eq (.loaded found fits held)

theorem load_of_hasFile_of_invalid {content : ByteArray} (isFile : machine.HasFile path content)
    (fits : content.size ≤ settings.maxFileBytes) (invalid : ¬ content.IsValidUTF8) :
    load machine.host settings path language? = .error (.io .invalidUtf8) := by
  have found : machine.host.status path = .ok ⟨false, content.size⟩ := isFile.status_eq
  have held : machine.host.read path = .ok content := isFile.read_eq
  exact Loading.load_eq (.garbled found fits held invalid)

end Outcomes

section Guarded

variable {place : Place} {content : ByteArray}

theorem status_guardedHost_of_leads (leads : machine.Leads path place)
    (stands : machine.tree.get? place = some (.leaf (.file content))) :
    (machine.guardedHost refusal).status path = .ok ⟨false, content.size⟩ :=
  Machine.HasFile.status_eq ⟨place, leads, stands⟩

theorem read_guardedHost_of_leads (leads : machine.Leads path place)
    (stands : machine.tree.get? place = some (.leaf (.file content))) :
    (machine.guardedHost refusal).read path =
      ((refusal place).map .error).getD (.ok content) := by
  have held : machine.read path = .ok content := Machine.HasFile.read_eq ⟨place, leads, stands⟩
  have located := Machine.locate_eq_ok_iff_leads.mpr leads
  unfold Machine.guardedHost
  dsimp only
  rw [located, held]

theorem read_guardedHost_eq_ok_iff {held : ByteArray} (leads : machine.Leads path place)
    (stands : machine.tree.get? place = some (.leaf (.file content))) :
    (machine.guardedHost refusal).read path = .ok held ↔ refusal place = none ∧ held = content := by
  rw [read_guardedHost_of_leads leads stands]
  cases refusal place with
  | none => exact ⟨fun same => by cases same; exact ⟨rfl, rfl⟩, fun ⟨_, same⟩ => same ▸ rfl⟩
  | some reason' => exact ⟨nofun, nofun⟩

variable (leads : machine.Leads path place)
  (stands : machine.tree.get? place = some (.leaf (.file content)))

include leads stands

omit leads stands

end Guarded

/-- The file through which a process sees its memory. It is there, and empty, and its start cannot be
read. -/
def memory : Machine where
  tree := .directory [("proc".toList, .directory [("self".toList, .directory
    [("mem".toList, .leaf (.file .empty))])])]
  workingDirectory := []
  origin _ := .exited 1

/-- A file behind a link, a link to nothing, a link that leads through itself, and a file that nobody
may read. -/
def linked : Machine where
  tree := .directory
    [("d".toList, .directory [("a.py".toList, .leaf (.file "# é".toUTF8))]),
      ("to".toList, .leaf (.link "d/a.py".toList)),
      ("gone".toList, .leaf (.link "d/b.py".toList)),
      ("loop".toList, .leaf (.link "loop/on".toList)),
      ("shut".toList, .leaf (.file "# é".toUTF8))]
  workingDirectory := []
  origin _ := .exited 1

def linkedHost : Host Id :=
  linked.guardedHost fun place =>
    if place = ["shut".toList] then some (.other "Permission denied (os error 13)".toList) else none

theorem leads_linked : linked.Leads "to".toList ["d".toList, "a.py".toList] := by
  have inside : Machine.Passage linked.tree 0 [] ["d".toList, "a.py".toList]
      ["d".toList, "a.py".toList] [] :=
    .enter (by decide) (by decide) rfl nofun (.enter (by decide) (by decide) rfl nofun .stay)
  have goes : linked.Goes "to".toList 1 ["d".toList, "a.py".toList] [] :=
    .link (by decide) (by decide) rfl inside
  exact ⟨⟨by decide, by decide, by decide⟩, 1, by decide, goes⟩

theorem leads_linked_shut : linked.Leads "shut".toList ["shut".toList] := by
  have goes : linked.Goes "shut".toList 0 ["shut".toList] [] :=
    .enter (by decide) (by decide) rfl nofun .stay
  exact ⟨⟨by decide, by decide, by decide⟩, 0, by decide, goes⟩

theorem stands_linked : linked.tree.get? ["d".toList, "a.py".toList] =
    some (.leaf (.file "# é".toList.utf8Encode)) := by
  rw [String.utf8Encode_toList]
  rfl

theorem stands_linked_shut :
    linked.tree.get? ["shut".toList] = some (.leaf (.file "# é".toList.utf8Encode)) := by
  rw [String.utf8Encode_toList]
  rfl

theorem size_linked : "# é".toList.utf8Encode.size = 4 := Text.size_utf8Encode _

end Document

end TrackerLinks
