import TrackerLinks.Proofs.Repository.Protocols
import TrackerLinks.Proofs.Repository.WebUrl

namespace TrackerLinks.Repository

variable {url bare host path written : Text} {repository : Repository}

theorem barePath_isPrefix (path : Text) : barePath path <+: path :=
  (Text.trimEndWhile_isPrefix _ _).trans (Text.trimEndWhile_isPrefix _ _)

theorem barePath_eq_self_iff :
    barePath path = path ↔ ∀ c ∈ path.getLast?, Text.isBlank c = false ∧ isSlash c = false := by
  rw [barePath]
  constructor
  · intro same
    have solid : Text.trimEnd path = path := by
      have cut := Text.trimEndWhile_isPrefix isSlash (Text.trimEnd path)
      rw [same] at cut
      exact (Text.trimEndWhile_isPrefix _ _).eq_of_length_le cut.length_le
    rw [solid] at same
    intro c ends
    exact ⟨Text.trimEndWhile_eq_self_iff.mp solid c ends, Text.trimEndWhile_eq_self_iff.mp same c ends⟩
  · intro stops
    have solid : Text.trimEnd path = path :=
      Text.trimEndWhile_eq_self_iff.mpr fun c ends => (stops c ends).1
    rw [solid]
    exact Text.trimEndWhile_eq_self_iff.mpr fun c ends => (stops c ends).2

theorem Locates.feed_not_mem (locates : Locates bare host path) : '\n' ∉ path := by
  cases locates with
  | ssh _ _ _ unfed isPath => exact fun member => unfed (isPath.reads.isPrefix.subset member)
  | http _ _ _ _ _ unfed _ => exact unfed

theorem IsAt.slug_isInfix (isAt : IsAt host path repository) : repository.slug <:+: path := by
  obtain ⟨lead, tail, same, _⟩ := isAt.isStripped.parts
  exact ⟨lead, tail, same.symm⟩

theorem IsAt.self (isAt : IsAt host path repository) : IsAt host repository.slug repository :=
  { isAt with
    isStripped := ⟨⟨[], [], by simp, by simp, by simp⟩, isAt.isStripped.head, isAt.isStripped.last⟩ }

theorem ofRemoteUrl?_secure_iff (noSlash : '/' ∉ host) (noAt : '@' ∉ host) (written : Text) :
    ofRemoteUrl? ("https://".toList ++ host ++ '/' :: written) = some repository ↔
      isPlain (Text.dropSuffix gitSuffix (barePath written)) ∧
        IsAt host (Text.dropSuffix gitSuffix (barePath written)) repository := by
  rw [ofRemoteUrl?_http (by simp) noSlash (.self noAt), Option.ite_none_right_eq_some, isAt_iff_eq]

/-- What is taken off a slug that is read as a path: nothing, unless it ends with white space or
`.git`. -/
theorem IsAt.slug_kept_iff (isAt : IsAt host path repository) :
    Text.dropSuffix gitSuffix (barePath repository.slug) = repository.slug ↔
      ¬ gitSuffix <:+ repository.slug ∧
        ∀ c ∈ repository.slug.getLast?, Text.isBlank c = false := by
  constructor
  · intro kept
    have short := Text.dropSuffix_isPrefix gitSuffix (barePath repository.slug)
    rw [kept] at short
    have bare : barePath repository.slug = repository.slug :=
      (barePath_isPrefix _).eq_of_length_le short.length_le
    rw [bare, Text.dropSuffix_eq_self_iff gitSuffix_ne_nil] at kept
    exact ⟨kept, fun c ends => (barePath_eq_self_iff.mp bare c ends).1⟩
  · rintro ⟨unended, solid⟩
    have bare : barePath repository.slug = repository.slug :=
      barePath_eq_self_iff.mpr fun c ends => ⟨solid c ends, isAt.isStripped.last c ends⟩
    rw [bare, (Text.dropSuffix_eq_self_iff gitSuffix_ne_nil).mpr unended]

theorem IsAt.isPlain_slug (isAt : IsAt host path repository) (unfed : '\n' ∉ path) :
    isPlain repository.slug :=
  isPlain_iff.mpr ⟨isAt.slug_ne_nil, fun member => unfed (isAt.slug_isInfix.subset member)⟩

/-- A web URL names its own repository again: always when `.git` is put after it, and else exactly
when neither `.git` nor white space is at its end. -/
theorem ofRemoteUrl?_webUrl (found : ofRemoteUrl? url = some repository)
    (spelled : repository.webUrl = "https://".toList ++ host ++ '/' :: repository.slug)
    (noSlash : '/' ∉ host) (noAt : '@' ∉ host) :
    ofRemoteUrl? (repository.webUrl ++ gitSuffix) = some repository ∧
      (ofRemoteUrl? repository.webUrl = some repository ↔
        ¬ gitSuffix <:+ repository.slug ∧
          ∀ c ∈ repository.slug.getLast?, Text.isBlank c = false) := by
  obtain ⟨host', path, locates, isAt⟩ := exists_isAt_of_ofRemoteUrl? found
  obtain rfl : host' = host := by
    rw [isAt.webUrl_eq] at spelled
    exact List.append_cancel_left (List.append_cancel_right spelled)
  have plain := isAt.isPlain_slug locates.feed_not_mem
  constructor
  · have bare : barePath (repository.slug ++ gitSuffix) = repository.slug ++ gitSuffix :=
      barePath_eq_self_iff.mpr fun _ => solid_of_append_gitSuffix
    rw [spelled, List.append_assoc, List.cons_append, ofRemoteUrl?_secure_iff noSlash noAt, bare,
      Text.dropSuffix_append]
    exact ⟨plain, isAt.self⟩
  · rw [← isAt.slug_kept_iff, spelled, ofRemoteUrl?_secure_iff noSlash noAt]
    constructor
    · rintro ⟨_, again⟩
      -- What is left has the whole slug in it.
      have left := (Text.dropSuffix_isPrefix gitSuffix _).trans (barePath_isPrefix repository.slug)
      exact left.eq_of_length_le again.slug_isInfix.length_le
    · intro kept
      rw [kept]
      exact ⟨plain, isAt.self⟩

/-- With a slug that ends with `.git`, only the web URL with another one names its repository. -/
theorem ofRemoteUrl?_webUrl_doubled :
    ofRemoteUrl? "git@gitlab.com:/g/r.git.git/".toList =
        some ⟨.gitLab, "g/r.git".toList, "https://gitlab.com/g/r.git".toList⟩ ∧
      "https://gitlab.com/g/r.git".toList =
        "https://".toList ++ "gitlab.com".toList ++ '/' :: "g/r.git".toList ∧
      '/' ∉ "gitlab.com".toList ∧ '@' ∉ "gitlab.com".toList ∧
      ofRemoteUrl? ("https://gitlab.com/g/r.git".toList ++ gitSuffix) =
        some ⟨.gitLab, "g/r.git".toList, "https://gitlab.com/g/r.git".toList⟩ ∧
      ofRemoteUrl? "https://gitlab.com/g/r.git".toList ≠
        some ⟨.gitLab, "g/r.git".toList, "https://gitlab.com/g/r.git".toList⟩ := by
  have found : ofRemoteUrl? "git@gitlab.com:/g/r.git.git/".toList =
      some ⟨.gitLab, "g/r.git".toList, "https://gitlab.com/g/r.git".toList⟩ := by
    decide +kernel
  have spelled : "https://gitlab.com/g/r.git".toList =
      "https://".toList ++ "gitlab.com".toList ++ '/' :: "g/r.git".toList := by
    decide
  obtain ⟨suffixed, bare⟩ := ofRemoteUrl?_webUrl found spelled (by decide) (by decide)
  refine ⟨found, spelled, by decide, by decide, suffixed, ?_⟩
  rw [ne_eq, bare]
  decide

end TrackerLinks.Repository
