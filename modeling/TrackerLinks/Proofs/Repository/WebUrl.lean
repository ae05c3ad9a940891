import TrackerLinks.Proofs.Repository.RemoteUrl

namespace TrackerLinks.Repository

variable {url bare host path rest front : Text} {repository : Repository}

/-- The web URL is secure, and neither it nor the slug has a slash to spare. -/
structure IsNormal (repository : Repository) : Prop where
  secure : "https://".toList <+: repository.webUrl
  webUrl_last : repository.webUrl.getLast? ≠ some '/'
  slug_ne_nil : repository.slug ≠ []
  slug_head : repository.slug.head? ≠ some '/'
  slug_last : repository.slug.getLast? ≠ some '/'

theorem IsAt.isNormal (isAt : IsAt host path repository) : repository.IsNormal where
  secure := by
    rw [isAt.webUrl_eq, List.append_assoc]
    exact List.prefix_append _ _
  webUrl_last := by
    rw [isAt.webUrl_eq, List.getLast?_append_of_ne_nil _ (List.cons_ne_nil _ _),
      List.getLast?_cons_of_ne_nil isAt.slug_ne_nil]
    exact forall_isSlash_eq_false_iff.mp isAt.isStripped.last
  slug_ne_nil := isAt.slug_ne_nil
  slug_head := forall_isSlash_eq_false_iff.mp isAt.isStripped.head
  slug_last := forall_isSlash_eq_false_iff.mp isAt.isStripped.last

/-- The text ends with `.git` twice, where slashes may stand between the two. -/
def EndsTwice (text : Text) : Prop :=
  ∃ front slashes, text = front ++ gitSuffix ++ slashes ++ gitSuffix ∧ ∀ c ∈ slashes, c = '/'

theorem EndsTwice.suffix (twice : EndsTwice bare) : gitSuffix <:+ bare := by
  obtain ⟨front, slashes, rfl, _⟩ := twice
  exact List.suffix_append _ _

theorem endsTwice_append_iff :
    EndsTwice (rest ++ gitSuffix) ↔ gitSuffix <:+ Text.trimEndWhile isSlash rest := by
  constructor
  · rintro ⟨front, slashes, same, inside⟩
    have trimmed : Text.trimEndWhile isSlash rest = front ++ gitSuffix := by
      refine Text.trimEndWhile_eq_iff.mpr ⟨?_, slashes, ?_, List.append_cancel_right same⟩
      · exact fun c ends => (solid_of_append_gitSuffix ends).2
      · exact fun c member => isSlash_iff.mpr (inside c member)
    rw [trimmed]
    exact List.suffix_append _ _
  · rintro ⟨front, ends⟩
    obtain ⟨_, slashes, inside, same⟩ := Text.trimEndWhile_eq_iff.mp ends.symm
    exact ⟨front, slashes, by rw [← same], fun c member => isSlash_iff.mp (inside c member)⟩

/-- Taking `.git` off the URL leaves another one at the end of the path if there were two. -/
theorem suffix_path_iff_endsTwice {c : Char} (absent : c ∉ gitSuffix)
    (short : Text.IsCutShort gitSuffix bare (front ++ c :: path)) (last : bare.getLast? ≠ some '/')
    (filled : Text.trimEndWhile isSlash path ≠ []) :
    gitSuffix <:+ Text.trimEndWhile isSlash path ↔ EndsTwice bare := by
  have whole : Text.trimEndWhile isSlash (front ++ c :: path) =
      front ++ c :: Text.trimEndWhile isSlash path :=
    Text.trimEndWhile_append_cons front (.inr filled)
  rw [← Text.suffix_append_cons_iff absent front, ← whole]
  rcases short with rfl | ⟨unended, same⟩
  · exact endsTwice_append_iff.symm
  · have kept : Text.trimEndWhile isSlash bare = bare :=
      Text.trimEndWhile_eq_self_iff.mpr (forall_isSlash_eq_false_iff.mpr last)
    rw [same, kept]
    exact iff_of_false unended (mt EndsTwice.suffix unended)

/-- The URL has a `.git` to keep: it ends with two of them, or `.git` is all of the path that it has
for SSH. -/
def KeepsSuffix (bare : Text) : Prop :=
  EndsTwice bare ∨ ∃ host, ':' ∉ host ∧ bare = "git@".toList ++ (host ++ ':' :: gitSuffix)

theorem Locates.suffix_iff (locates : Locates bare host path) (last : bare.getLast? ≠ some '/')
    (filled : Text.trimEndWhile isSlash path ≠ []) :
    gitSuffix <:+ Text.trimEndWhile isSlash path ↔ KeepsSuffix bare := by
  cases locates with
  | @ssh _ written _ absent _ nonempty _ isPath =>
      rw [isPathOf_iff_eq nonempty] at isPath
      split at isPath
      · rename_i alone
        subst alone isPath
        exact iff_of_true ⟨[], rfl⟩ (.inr ⟨host, absent, rfl⟩)
      · rename_i longer
        have short : Text.IsCutShort gitSuffix ("git@".toList ++ (host ++ ':' :: written))
            ("git@".toList ++ host ++ ':' :: path) := by
          rw [Text.isCutShort_iff_eq]
          rw [← List.append_assoc, Text.dropSuffix_append_cons (by decide), isPath]
        rw [suffix_path_iff_endsTwice (by decide) short last filled, KeepsSuffix]
        apply (or_iff_left _).symm
        rintro ⟨host', absent', same⟩
        have cut := cutAt?_append absent written
        rw [List.append_cancel_left same, cutAt?_append absent'] at cut
        cases cut
        exact longer rfl
  | @http _ scheme authority _ _ known short absent _ _ _ _ =>
      rw [← List.append_assoc] at short
      rw [suffix_path_iff_endsTwice (by decide) short last filled, KeepsSuffix]
      apply (or_iff_left _).symm
      rintro ⟨host', _, rfl⟩
      have starts := short.isPrefix
      simp only [List.mem_cons, List.not_mem_nil, or_false] at known
      rcases known with rfl | rfl <;> simp [List.cons_prefix_cons] at starts

theorem exists_isAt_of_ofRemoteUrl? (found : ofRemoteUrl? url = some repository) :
    ∃ host path, Locates (Text.trimEndWhile isSlash (Text.trim url)) host path ∧
      IsAt host path repository := by
  rw [ofRemoteUrl?_eq_bind, Option.bind_eq_some_iff] at found
  obtain ⟨⟨host, path⟩, parts, isAt⟩ := found
  exact ⟨host, path, locates_iff_eq.mpr parts, isAt_iff_eq.mpr isAt⟩

theorem IsAt.suffix_webUrl_iff (isAt : IsAt host path repository) :
    gitSuffix <:+ repository.webUrl ↔ gitSuffix <:+ repository.slug := by
  rw [isAt.webUrl_eq, Text.suffix_append_cons_iff (by decide)]

theorem IsAt.suffix_slug_iff (isAt : IsAt host path repository) :
    gitSuffix <:+ repository.slug ↔ gitSuffix <:+ Text.trimEndWhile isSlash path :=
  isAt.isStripped.suffix_iff isAt.slug_ne_nil fun c member => (gitSuffix_solid c member).2

theorem IsAt.path_ne_slashes (isAt : IsAt host path repository) :
    Text.trimEndWhile isSlash path ≠ [] := by
  obtain ⟨lead, _, same⟩ := isAt.isStripped.exists_trimEndWhile isAt.slug_ne_nil
  rw [same]
  exact List.append_ne_nil_of_right_ne_nil lead isAt.slug_ne_nil

/-- Web URL and slug are in normal form, and they end with `.git` exactly when the URL keeps one. -/
theorem ofRemoteUrl?_isNormal (isBare : IsBare url bare)
    (found : ofRemoteUrl? url = some repository) :
    repository.IsNormal ∧ (gitSuffix <:+ repository.webUrl ↔ KeepsSuffix bare) ∧
      (gitSuffix <:+ repository.slug ↔ KeepsSuffix bare) := by
  obtain ⟨host, path, locates, isAt⟩ := exists_isAt_of_ofRemoteUrl? found
  rw [isBare_iff_eq.mp isBare] at locates
  obtain ⟨_, _, _, _, _, last⟩ := isBare
  have slug := isAt.suffix_slug_iff.trans (locates.suffix_iff last isAt.path_ne_slashes)
  exact ⟨isAt.isNormal, isAt.suffix_webUrl_iff.trans slug, slug⟩

/-- One `.git` at the end is taken off, with the slashes after it. -/
theorem ofRemoteUrl?_isNormal_single :
    IsBare " https://me@github.com//o/r.git//\n".toList "https://me@github.com//o/r.git".toList ∧
      ofRemoteUrl? " https://me@github.com//o/r.git//\n".toList =
        some ⟨.gitHub, "o/r".toList, "https://github.com/o/r".toList⟩ ∧
      IsNormal ⟨.gitHub, "o/r".toList, "https://github.com/o/r".toList⟩ ∧
      ¬ KeepsSuffix "https://me@github.com//o/r.git".toList := by
  have isBare : IsBare " https://me@github.com//o/r.git//\n".toList
      "https://me@github.com//o/r.git".toList := by
    rw [isBare_iff_eq]
    decide +kernel
  have found : ofRemoteUrl? " https://me@github.com//o/r.git//\n".toList =
      some ⟨.gitHub, "o/r".toList, "https://github.com/o/r".toList⟩ := by
    decide +kernel
  obtain ⟨isNormal, _, slug⟩ := ofRemoteUrl?_isNormal isBare found
  refine ⟨isBare, found, isNormal, ?_⟩
  rw [← slug]
  decide

/-- The second `.git` of the origin is in the slug and in the web URL. -/
theorem suffix_webUrl_doubled :
    ofRemoteUrl? "https://github.com/o/r.git.git".toList =
        some ⟨.gitHub, "o/r.git".toList, "https://github.com/o/r.git".toList⟩ ∧
      gitSuffix <:+ "o/r.git".toList ∧ gitSuffix <:+ "https://github.com/o/r.git".toList := by
  decide +kernel

end TrackerLinks.Repository
