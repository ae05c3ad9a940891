import TrackerLinks.Proofs.Repository.RemoteUrl

namespace TrackerLinks.Repository

variable {authority host path written scheme url : Text}

theorem isPlain_dropSuffix (longer : written ≠ gitSuffix) :
    isPlain (Text.dropSuffix gitSuffix written) = isPlain written := by
  rw [Bool.eq_iff_iff, isPlain_iff, isPlain_iff]
  rcases Text.isCutShort_iff_eq.mpr (Eq.refl (Text.dropSuffix gitSuffix written))
    with same | ⟨_, same⟩
  · generalize Text.dropSuffix gitSuffix written = rest at same
    subst same
    have nonempty : rest ≠ [] := by
      rintro rfl
      exact longer rfl
    have unfed : '\n' ∉ gitSuffix := by decide
    simp [nonempty, unfed]
  · rw [same]

theorem isShaped_iff : (!host.isEmpty && isPlain written) = true ↔ host ≠ [] ∧ isPlain written := by
  simp

theorem parts?_ssh (absent : ':' ∉ host) (written : Text) :
    parts? ("git@".toList ++ (host ++ ':' :: written)) =
      if host ≠ [] ∧ isPlain written then
        some (host, if written = gitSuffix then written else Text.dropSuffix gitSuffix written)
      else none := by
  have spelled : ("git@".toList ++ (host ++ ':' :: written)).drop 4 = host ++ ':' :: written := rfl
  have opened : "git@".toList.isPrefixOf ("git@".toList ++ (host ++ ':' :: written)) = true := rfl
  have other : httpParts? ("git@".toList ++ (host ++ ':' :: written)) = none := rfl
  rw [parts?, other, sshParts?, spelled, opened, cutAt?_append absent]
  simp only [guard, isShaped_iff, if_true, Option.pure_def, Option.bind_eq_bind, Option.bind_some]
  split <;> rfl

theorem parts?_http (known : scheme ∈ ["http://".toList, "https://".toList])
    (absent : '/' ∉ authority) (isHost : IsHostOf authority host) (written : Text) :
    parts? (scheme ++ (authority ++ '/' :: written)) =
      if authority ≠ [] ∧ isPlain (Text.dropSuffix gitSuffix written) then
        some (host, Text.dropSuffix gitSuffix written)
      else none := by
  have isHttp (rest : Text) : scheme? (scheme ++ rest) = some scheme :=
    scheme?_eq_some_iff.mpr ⟨known, List.prefix_append _ _⟩
  have other := sshParts?_eq_none_of_scheme? (Option.isSome_of_eq_some
    (isHttp (authority ++ '/' :: written)))
  have bare : Text.dropSuffix gitSuffix (scheme ++ (authority ++ '/' :: written)) =
      scheme ++ (authority ++ '/' :: Text.dropSuffix gitSuffix written) := by
    rw [← List.append_assoc, Text.dropSuffix_append_cons (by decide), List.append_assoc]
  rw [isHostOf_iff_eq] at isHost
  rw [parts?, other, httpParts?, bare]
  simp only [isHttp, Option.isSome_some, List.drop_left, cutAt?_append absent, isHost, guard,
    isShaped_iff, if_true, Option.pure_def, Option.bind_eq_bind, Option.bind_some]
  split <;> rfl

/-- A URL with a path has a slash after those of the scheme. -/
theorem parts?_eq_none_of_isPrefix (known : scheme ∈ ["http://".toList, "https://".toList])
    (absent : '/' ∉ host) (short : url <+: scheme ++ host) : parts? url = none := by
  have slashes {scheme : Text} (known : scheme ∈ ["http://".toList, "https://".toList]) :
      scheme.count '/' = 2 := by
    revert scheme
    decide
  rw [Option.eq_none_iff_forall_ne_some]
  rintro ⟨host', path⟩ found
  cases locates_iff_eq.mpr found with
  | ssh =>
      simp only [List.mem_cons, List.not_mem_nil, or_false] at known
      rcases known with rfl | rfl <;> simp [List.cons_prefix_cons] at short
  | http known' cutShort =>
      have fewer := short.sublist.count_le '/'
      have more := cutShort.isPrefix.sublist.count_le '/'
      rw [List.count_append, slashes known, List.count_eq_zero.mpr absent] at fewer
      rw [List.count_append, slashes known', List.count_append, List.count_cons_self] at more
      omega

/-- What a spelled path is without white space and then slashes at its end. -/
def barePath (path : Text) : Text :=
  Text.trimEndWhile isSlash (Text.trimEnd path)

theorem trim_url {lead : Text} {c : Char}
    (known : lead ∈ ["git@".toList, "http://".toList, "https://".toList])
    (solid : Text.isBlank c = false) (host path : Text) :
    Text.trim (lead ++ host ++ c :: path) = lead ++ host ++ c :: Text.trimEnd path := by
  obtain ⟨first, rest, rfl, visible⟩ :
      ∃ first rest, lead = first :: rest ∧ Text.isBlank first = false := by
    simp only [List.mem_cons, List.not_mem_nil, or_false] at known
    rcases known with rfl | rfl | rfl <;> exact ⟨_, _, rfl, rfl⟩
  apply Text.trim_append_cons _ _ solid
  · exact List.cons_ne_nil first _
  · rintro _ ⟨⟩
    exact visible

theorem bare_ssh (host path : Text) :
    Text.trimEndWhile isSlash (Text.trim ("git@".toList ++ host ++ ':' :: path)) =
      "git@".toList ++ (host ++ ':' :: barePath path) := by
  rw [trim_url (by simp) rfl, Text.trimEndWhile_append_cons _ (.inl rfl), List.append_assoc,
    barePath]

theorem trim_http (known : scheme ∈ ["http://".toList, "https://".toList]) (host path : Text) :
    Text.trim (scheme ++ host ++ '/' :: path) = scheme ++ host ++ '/' :: Text.trimEnd path :=
  trim_url (List.mem_cons_of_mem _ known) rfl host path

theorem bare_http (known : scheme ∈ ["http://".toList, "https://".toList]) (host : Text)
    (nonempty : barePath path ≠ []) :
    Text.trimEndWhile isSlash (Text.trim (scheme ++ host ++ '/' :: path)) =
      scheme ++ (host ++ '/' :: barePath path) := by
  rw [trim_http known, Text.trimEndWhile_append_cons _ (.inr nonempty), List.append_assoc, barePath]

/-- Without a path, the slash after the host is at the end. -/
theorem bare_http_isPrefix (known : scheme ∈ ["http://".toList, "https://".toList]) (host : Text)
    (empty : barePath path = []) :
    Text.trimEndWhile isSlash (Text.trim (scheme ++ host ++ '/' :: path)) <+: scheme ++ host := by
  have slashes : ∀ c ∈ '/' :: Text.trimEnd path, isSlash c := by
    obtain ⟨_, tail, tails, same⟩ := Text.trimEndWhile_eq_iff.mp empty
    rw [same]
    exact List.forall_mem_cons.mpr ⟨rfl, tails⟩
  rw [trim_http known, Text.trimEndWhile_append_of_forall _ slashes]
  exact Text.trimEndWhile_isPrefix _ _

/-- That a host is not empty is asked again where the repository is put together. -/
theorem bind_at?_of_filled {found : Prop} [Decidable found] (empty : authority = [] → host = [])
    (path : Text) :
    ((if authority ≠ [] ∧ found then some (host, path) else none).bind fun (host, path) =>
        at? host path) = if found then at? host path else none := by
  by_cases filled : authority = []
  · rw [if_neg (fun h => h.1 filled), empty filled, at?_nil, ite_self]
    rfl
  · simp only [ne_eq, filled, not_false_eq_true, true_and]
    split <;> rfl

theorem ofRemoteUrl?_http (known : scheme ∈ ["http://".toList, "https://".toList])
    (absent : '/' ∉ authority) (isHost : IsHostOf authority host) (path : Text) :
    ofRemoteUrl? (scheme ++ authority ++ '/' :: path) =
      if isPlain (Text.dropSuffix gitSuffix (barePath path)) then
        at? host (Text.dropSuffix gitSuffix (barePath path))
      else none := by
  rw [ofRemoteUrl?_eq_bind]
  by_cases empty : barePath path = []
  · rw [parts?_eq_none_of_isPrefix known absent (bare_http_isPrefix known authority empty), empty]
    rfl
  · rw [bare_http known authority empty, parts?_http known absent isHost]
    apply bind_at?_of_filled
    rintro rfl
    exact isHost.nil

theorem ofRemoteUrl?_ssh (noColon : ':' ∉ host) (longer : barePath path ≠ gitSuffix) :
    ofRemoteUrl? ("git@".toList ++ host ++ ':' :: path) =
      if isPlain (barePath path) then at? host (Text.dropSuffix gitSuffix (barePath path))
      else none := by
  rw [ofRemoteUrl?_eq_bind, bare_ssh, parts?_ssh noColon, if_neg longer]
  exact bind_at?_of_filled id _

theorem ofRemoteUrl?_http_eq_ssh (known : scheme ∈ ["http://".toList, "https://".toList])
    (noColon : ':' ∉ host) (noSlash : '/' ∉ host) (noAt : '@' ∉ host)
    (longer : barePath path ≠ gitSuffix) :
    ofRemoteUrl? (scheme ++ host ++ '/' :: path) =
      ofRemoteUrl? ("git@".toList ++ host ++ ':' :: path) := by
  rw [ofRemoteUrl?_http known noSlash (.self noAt), ofRemoteUrl?_ssh noColon longer,
    isPlain_dropSuffix longer]

/-- The SSH and the HTTP spellings of one origin name one repository, or none does. -/
theorem ofRemoteUrl?_protocol_independent (host path : Text) (noColon : ':' ∉ host)
    (noSlash : '/' ∉ host) (noAt : '@' ∉ host)
    (longer : Text.trimEndWhile (· = '/') (Text.trimEnd path) ≠ ".git".toList) :
    ofRemoteUrl? ("git@".toList ++ host ++ ':' :: path) =
        ofRemoteUrl? ("https://".toList ++ host ++ '/' :: path) ∧
      ofRemoteUrl? ("http://".toList ++ host ++ '/' :: path) =
        ofRemoteUrl? ("https://".toList ++ host ++ '/' :: path) := by
  have secure : ofRemoteUrl? ("https://".toList ++ host ++ '/' :: path) =
      ofRemoteUrl? ("git@".toList ++ host ++ ':' :: path) :=
    ofRemoteUrl?_http_eq_ssh (by simp) noColon noSlash noAt longer
  have open' : ofRemoteUrl? ("http://".toList ++ host ++ '/' :: path) =
      ofRemoteUrl? ("git@".toList ++ host ++ ':' :: path) :=
    ofRemoteUrl?_http_eq_ssh (by simp) noColon noSlash noAt longer
  exact ⟨secure.symm, open'.trans secure.symm⟩

/-- Slashes and white space after the final `.git` and slashes before the path do not count. -/
theorem ofRemoteUrl?_protocol_independent_gitlab :
    ':' ∉ "gitlab.com".toList ∧ '/' ∉ "gitlab.com".toList ∧ '@' ∉ "gitlab.com".toList ∧
      Text.trimEndWhile (· = '/') (Text.trimEnd "//o/r.git.git/ \n".toList) ≠ ".git".toList ∧
      ofRemoteUrl? "git@gitlab.com://o/r.git.git/ \n".toList =
        some ⟨.gitLab, "o/r.git".toList, "https://gitlab.com/o/r.git".toList⟩ ∧
      ofRemoteUrl? "http://gitlab.com///o/r.git.git/ \n".toList =
        some ⟨.gitLab, "o/r.git".toList, "https://gitlab.com/o/r.git".toList⟩ := by
  have spelled : ofRemoteUrl? "https://gitlab.com///o/r.git.git/ \n".toList =
      some ⟨.gitLab, "o/r.git".toList, "https://gitlab.com/o/r.git".toList⟩ := by
    decide +kernel
  obtain ⟨ssh, http⟩ := ofRemoteUrl?_protocol_independent "gitlab.com".toList
    "//o/r.git.git/ \n".toList (by decide) (by decide) (by decide) (by decide)
  exact ⟨by decide, by decide, by decide, by decide, ssh.trans spelled, http.trans spelled⟩

end TrackerLinks.Repository
