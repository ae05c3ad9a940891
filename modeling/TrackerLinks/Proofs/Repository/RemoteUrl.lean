import Mathlib.Data.Option.Basic
import TrackerLinks.Proofs.Text.Occurrence
import TrackerLinks.Proofs.Text.Trimming
import TrackerLinks.Repository

/-! The two shapes of a remote URL. A URL names a repository exactly when what is left of it without
white space around it and slashes at its end has one of them, with a host and a path. -/

namespace TrackerLinks

variable {url bare host path written authority scheme text front back pattern : Text}
  {provider : Provider} {repository : Repository} {separator : Char}

theorem Text.contains_iff_isInfix : contains text pattern ↔ pattern <:+: text := by
  rw [contains, Option.isSome_iff_exists]
  constructor
  · rintro ⟨n, found⟩
    obtain ⟨_, here, _⟩ := (index?_eq_some_iff pattern text n).mp found
    exact here.isInfix.trans (List.drop_suffix n text).isInfix
  · rintro ⟨before, after, same⟩
    have occurs : OccursAt pattern text (size before) := ⟨before, after, same.symm, rfl⟩
    exact Option.ne_none_iff_exists'.mp fun none => not_occursAt_of_index?_eq_none none occurs

/-- The provider is the first of the well-known sites that the name of the host has in it. -/
def Provider.Hosts (host : Text) : Provider → Prop
  | gitHub => "github.com".toList <:+: host
  | gitLab => ¬ "github.com".toList <:+: host ∧ "gitlab.com".toList <:+: host
  | bitbucket =>
      ¬ "github.com".toList <:+: host ∧ ¬ "gitlab.com".toList <:+: host ∧
        "bitbucket.org".toList <:+: host
  | git =>
      ¬ "github.com".toList <:+: host ∧ ¬ "gitlab.com".toList <:+: host ∧
        ¬ "bitbucket.org".toList <:+: host

theorem Provider.hosts_iff_eq : provider.Hosts host ↔ ofHost host = provider := by
  simp only [ofHost, Text.contains_iff_isInfix]
  split
  · cases provider <;> simp_all [Hosts]
  · split
    · cases provider <;> simp_all [Hosts]
    · split <;> cases provider <;> simp_all [Hosts]

namespace Repository

theorem cutAt?_append (absent : separator ∉ front) (back : Text) :
    cutAt? separator (front ++ separator :: back) = some (front, back) := by
  obtain ⟨first, second⟩ := Text.cut_of_not_mem absent back
  rw [cutAt?, second, first]

theorem cutAt?_of_not_mem (absent : separator ∉ text) : cutAt? separator text = none := by
  have whole := List.takeWhile_append_dropWhile (p := (· ≠ separator)) (l := text)
  rw [Text.takeWhile_ne_of_not_mem absent, List.append_right_eq_self] at whole
  rw [cutAt?, whole]

theorem cutAt?_eq_some_iff :
    cutAt? separator text = some (front, back) ↔
      separator ∉ front ∧ text = front ++ separator :: back := by
  constructor
  · intro cut
    by_cases found : separator ∈ text
    · obtain ⟨front', back', rfl, absent⟩ := List.eq_append_cons_of_mem found
      rw [cutAt?_append absent] at cut
      cases cut
      exact ⟨absent, rfl⟩
    · rw [cutAt?_of_not_mem found] at cut
      cases cut
  · rintro ⟨absent, rfl⟩
    exact cutAt?_append absent back

theorem isPlain_iff : isPlain text ↔ text ≠ [] ∧ '\n' ∉ text := by
  simp [isPlain, List.forall_mem_ne']

theorem gitSuffix_ne_nil : gitSuffix ≠ [] :=
  List.cons_ne_nil _ _

theorem gitSuffix_solid : ∀ c ∈ gitSuffix, Text.isBlank c = false ∧ isSlash c = false := by
  have solid : gitSuffix.all fun c => !Text.isBlank c && !isSlash c := by decide
  simpa using solid

/-- After a text, `.git` is an end that no trimming takes off. -/
theorem solid_of_append_gitSuffix {c : Char} (ends : c ∈ (text ++ gitSuffix).getLast?) :
    Text.isBlank c = false ∧ isSlash c = false := by
  rw [List.getLast?_append_of_ne_nil _ gitSuffix_ne_nil] at ends
  exact gitSuffix_solid c (List.mem_of_mem_getLast? ends)

/-- `written` reads as a path that is not empty, which `.git` may follow. -/
def ReadsAs (written path : Text) : Prop :=
  path ≠ [] ∧ (written = path ∨ written = path ++ gitSuffix)

/-- `path` is the shortest path that `written` reads as. -/
structure IsPathOf (written path : Text) : Prop where
  reads : ReadsAs written path
  shortest : ∀ other, ReadsAs written other → path.length ≤ other.length

theorem ReadsAs.isPrefix (reads : ReadsAs written path) : path <+: written := by
  obtain ⟨_, rfl | rfl⟩ := reads
  · exact List.prefix_rfl
  · exact List.prefix_append _ _

theorem IsPathOf.unique {path' : Text} (isPath : IsPathOf written path)
    (isPath' : IsPathOf written path') : path = path' := by
  have same : path.length = path'.length :=
    Nat.le_antisymm (isPath.shortest _ isPath'.reads) (isPath'.shortest _ isPath.reads)
  exact (List.prefix_of_prefix_length_le isPath.reads.isPrefix isPath'.reads.isPrefix
    same.le).eq_of_length same

theorem isPathOf_gitSuffix : IsPathOf gitSuffix gitSuffix := by
  refine ⟨⟨gitSuffix_ne_nil, .inl rfl⟩, ?_⟩
  rintro other ⟨nonempty, same | same⟩
  · rw [same]
  · exact absurd (List.append_left_eq_self.mp same.symm) nonempty

theorem isPathOf_of_isCutShort (nonempty : written ≠ []) (longer : written ≠ gitSuffix)
    (short : Text.IsCutShort gitSuffix written path) : IsPathOf written path := by
  rcases short with rfl | ⟨unended, rfl⟩
  · refine ⟨⟨?_, .inr rfl⟩, ?_⟩
    · rintro rfl
      exact longer rfl
    · rintro other ⟨_, rfl | same⟩
      · exact (List.prefix_append _ _).length_le
      · rw [List.append_cancel_right same]
  · refine ⟨⟨nonempty, .inl rfl⟩, ?_⟩
    rintro other ⟨_, rfl | rfl⟩
    · exact Nat.le_refl _
    · exact absurd (List.suffix_append _ _) unended

/-- The shortest path leaves a final `.git` out, unless that is all there is. -/
theorem isPathOf_iff_eq (nonempty : written ≠ []) :
    IsPathOf written path ↔
      (if written = gitSuffix then written else Text.dropSuffix gitSuffix written) = path := by
  have meets : IsPathOf written
      (if written = gitSuffix then written else Text.dropSuffix gitSuffix written) := by
    split
    · rename_i alone
      rw [alone]
      exact isPathOf_gitSuffix
    · rename_i longer
      exact isPathOf_of_isCutShort nonempty longer (Text.isCutShort_iff_eq.mpr rfl)
  exact ⟨meets.unique, fun same => same ▸ meets⟩

theorem sshParts?_eq_some_iff :
    sshParts? url = some (host, path) ↔
      ∃ written, url = "git@".toList ++ (host ++ ':' :: written) ∧ ':' ∉ host ∧ host ≠ [] ∧
        written ≠ [] ∧ '\n' ∉ written ∧ IsPathOf written path := by
  simp only [sshParts?, Option.bind_eq_bind, Option.bind_eq_some_iff, Option.guard_eq_some',
    Prod.exists, Option.pure_def, Option.some.injEq, Prod.mk.injEq, cutAt?_eq_some_iff,
    List.isPrefixOf_iff_prefix, Bool.and_eq_true, isPlain_iff]
  constructor
  · rintro ⟨_, ⟨rest, rfl⟩, _, written, ⟨absent, same⟩, _, ⟨filled, nonempty, unfed⟩, rfl, spelled⟩
    refine ⟨written, ?_, absent, by simpa using filled, nonempty, unfed,
      (isPathOf_iff_eq nonempty).mpr spelled⟩
    rw [← same]
    rfl
  · rintro ⟨written, rfl, absent, filled, nonempty, unfed, isPath⟩
    exact ⟨(), List.prefix_append _ _, host, written, ⟨absent, rfl⟩, (),
      ⟨by simpa using filled, nonempty, unfed⟩, rfl, (isPathOf_iff_eq nonempty).mp isPath⟩

/-- The host is what follows the last `@` of the authority. -/
def IsHostOf (authority host : Text) : Prop :=
  '@' ∉ host ∧ (authority = host ∨ ∃ user, authority = user ++ '@' :: host)

theorem IsHostOf.self (noAt : '@' ∉ host) : IsHostOf host host :=
  ⟨noAt, .inl rfl⟩

theorem IsHostOf.with_user (noAt : '@' ∉ host) (user : Text) :
    IsHostOf (user ++ '@' :: host) host :=
  ⟨noAt, .inr ⟨user, rfl⟩⟩

theorem IsHostOf.nil (isHost : IsHostOf [] host) : host = [] := by
  rcases isHost with ⟨_, same | ⟨_, same⟩⟩
  · exact same.symm
  · simp at same

theorem isHostOf_iff_eq :
    IsHostOf authority host ↔ (authority.reverse.takeWhile (· ≠ '@')).reverse = host := by
  constructor
  · rintro ⟨absent, rfl | ⟨user, rfl⟩⟩
    · rw [Text.takeWhile_ne_of_not_mem (by simpa using absent), List.reverse_reverse]
    · rw [List.reverse_append, List.reverse_cons, List.append_assoc, List.singleton_append,
        (Text.cut_of_not_mem (by simpa using absent) _).1, List.reverse_reverse]
  · rintro rfl
    by_cases found : '@' ∈ authority.reverse
    · obtain ⟨front, back, same, absent⟩ := List.eq_append_cons_of_mem found
      rw [same, (Text.cut_of_not_mem absent back).1]
      refine ⟨by simpa using absent, .inr ⟨back.reverse, ?_⟩⟩
      rw [List.reverse_eq_iff.mp same]
      simp
    · rw [Text.takeWhile_ne_of_not_mem found, List.reverse_reverse]
      exact ⟨by simpa using found, .inl rfl⟩

theorem scheme?_eq_some_iff :
    scheme? url = some scheme ↔
      scheme ∈ ["http://".toList, "https://".toList] ∧ scheme <+: url := by
  constructor
  · intro found
    rw [scheme?] at found
    refine ⟨List.mem_of_find?_eq_some found, ?_⟩
    simpa using List.find?_some found
  · rintro ⟨member, starts⟩
    simp only [List.mem_cons, List.not_mem_nil, or_false] at member
    have starts' := List.isPrefixOf_iff_prefix.mpr starts
    rw [scheme?]
    rcases member with rfl | rfl
    · rw [List.find?_cons, starts']
    · have other : ¬ ("http://".toList.isPrefixOf url) := by
        intro other
        have both := List.prefix_of_prefix_length_le (List.isPrefixOf_iff_prefix.mp other) starts
          (by decide)
        revert both
        decide
      rw [List.find?_cons, Bool.eq_false_iff.mpr other, List.find?_cons, starts']

theorem isSome_scheme?_of_httpParts? {parts : Text × Text} (found : httpParts? url = some parts) :
    (scheme? url).isSome := by
  simp only [httpParts?, Option.bind_eq_bind, Option.bind_eq_some_iff, Option.guard_eq_some'] at found
  exact found.choose_spec.1

theorem httpParts?_eq_some_iff :
    httpParts? url = some (host, path) ↔
      ∃ scheme ∈ ["http://".toList, "https://".toList], ∃ authority,
        Text.IsCutShort gitSuffix url (scheme ++ (authority ++ '/' :: path)) ∧ '/' ∉ authority ∧
          authority ≠ [] ∧ path ≠ [] ∧ '\n' ∉ path ∧ IsHostOf authority host := by
  simp only [httpParts?, Option.bind_eq_bind, Option.bind_eq_some_iff, Option.guard_eq_some',
    Prod.exists, Option.pure_def, Option.some.injEq, Prod.mk.injEq, cutAt?_eq_some_iff,
    scheme?_eq_some_iff, Bool.and_eq_true, isPlain_iff, ← isHostOf_iff_eq]
  constructor
  · rintro ⟨_, _, scheme, ⟨known, rest, whole⟩, authority, path, ⟨absent, same⟩, _,
      ⟨filled, nonempty, unfed⟩, isHost, rfl⟩
    refine ⟨scheme, known, authority, ?_, absent, by simpa using filled, nonempty, unfed, isHost⟩
    rw [← whole, List.drop_left] at same
    rw [Text.isCutShort_iff_eq, ← whole, same]
  · rintro ⟨scheme, known, authority, short, absent, filled, nonempty, unfed, isHost⟩
    have starts : scheme <+: url := (List.prefix_append _ _).trans short.isPrefix
    rw [Text.isCutShort_iff_eq] at short
    rw [short]
    refine ⟨(), Option.isSome_of_eq_some (scheme?_eq_some_iff.mpr ⟨known, starts⟩), scheme,
      ⟨known, List.prefix_append _ _⟩, authority, path, ⟨absent, List.drop_left⟩, (),
      ⟨by simpa using filled, nonempty, unfed⟩, isHost, rfl⟩

/-- A bare URL of one of the two shapes, with the host and the path in it. -/
inductive Locates : (url host path : Text) → Prop
  | ssh {host written path : Text} (absent : ':' ∉ host) (filled : host ≠ [])
      (nonempty : written ≠ []) (unfed : '\n' ∉ written) (isPath : IsPathOf written path) :
      Locates ("git@".toList ++ (host ++ ':' :: written)) host path
  | http {url scheme authority host path : Text}
      (known : scheme ∈ ["http://".toList, "https://".toList])
      (short : Text.IsCutShort gitSuffix url (scheme ++ (authority ++ '/' :: path)))
      (absent : '/' ∉ authority) (filled : authority ≠ []) (nonempty : path ≠ [])
      (unfed : '\n' ∉ path) (isHost : IsHostOf authority host) : Locates url host path

theorem sshParts?_eq_none_of_scheme? (isHttp : (scheme? url).isSome) : sshParts? url = none := by
  cases found : sshParts? url with
  | none => rfl
  | some parts =>
      obtain ⟨written, rfl, _⟩ := sshParts?_eq_some_iff.mp found
      cases isHttp

/-- Host and path of a bare URL of either shape. -/
def parts? (url : Text) : Option (Text × Text) :=
  (sshParts? url).orElse fun _ => httpParts? url

theorem ofRemoteUrl?_eq_bind (url : Text) :
    ofRemoteUrl? url =
      (parts? (Text.trimEndWhile isSlash (Text.trim url))).bind fun (host, path) =>
        at? host path := by
  rw [ofRemoteUrl?, parts?]
  dsimp only
  cases (sshParts? _).orElse fun _ => httpParts? _ <;> rfl

theorem locates_iff_eq : Locates url host path ↔ parts? url = some (host, path) := by
  rw [parts?]
  constructor
  · intro locates
    cases locates with
    | ssh absent filled nonempty unfed isPath =>
        rw [sshParts?_eq_some_iff.mpr ⟨_, rfl, absent, filled, nonempty, unfed, isPath⟩]
        rfl
    | http known short absent filled nonempty unfed isHost =>
        have found := httpParts?_eq_some_iff.mpr
          ⟨_, known, _, short, absent, filled, nonempty, unfed, isHost⟩
        rw [sshParts?_eq_none_of_scheme? (isSome_scheme?_of_httpParts? found), found]
        rfl
  · intro found
    cases ssh : sshParts? url with
    | some parts =>
        rw [ssh] at found
        cases found
        obtain ⟨written, rfl, absent, filled, nonempty, unfed, isPath⟩ :=
          sshParts?_eq_some_iff.mp ssh
        exact .ssh absent filled nonempty unfed isPath
    | none =>
        rw [ssh] at found
        obtain ⟨scheme, known, authority, short, absent, filled, nonempty, unfed, isHost⟩ :=
          httpParts?_eq_some_iff.mp found
        exact .http known short absent filled nonempty unfed isHost

theorem isSlash_iff {c : Char} : isSlash c ↔ c = '/' :=
  decide_eq_true_iff

/-- The first or last character, if there is one, is not a slash. -/
theorem forall_isSlash_eq_false_iff {outer : Option Char} :
    (∀ c ∈ outer, isSlash c = false) ↔ outer ≠ some '/' := by
  constructor
  · rintro stop rfl
    cases stop '/' rfl
  · intro other c ends
    rw [Bool.eq_false_iff, ne_eq, isSlash_iff]
    rintro rfl
    exact other ends

/-- `bare` is the URL without white space around it and then without slashes at its end. -/
def IsBare (url bare : Text) : Prop :=
  ∃ trimmed slashes, Text.IsStripped Text.isBlank url trimmed ∧ trimmed = bare ++ slashes ∧
    (∀ c ∈ slashes, c = '/') ∧ bare.getLast? ≠ some '/'

theorem isBare_iff_eq : IsBare url bare ↔ Text.trimEndWhile isSlash (Text.trim url) = bare := by
  simp only [IsBare, Text.isStripped_isBlank_iff_eq, Text.trimEndWhile_eq_iff, isSlash_iff,
    forall_isSlash_eq_false_iff]
  constructor
  · rintro ⟨_, slashes, rfl, same, inside, last⟩
    exact ⟨last, slashes, inside, same⟩
  · rintro ⟨last, slashes, inside, same⟩
    exact ⟨_, slashes, rfl, same, inside, last⟩

theorem at?_nil (path : Text) : at? [] path = none := rfl

/-- The repository at a path of a host, without the slashes around the path. -/
structure IsAt (host path : Text) (repository : Repository) : Prop where
  host_ne_nil : host ≠ []
  slug_ne_nil : repository.slug ≠ []
  isStripped : Text.IsStripped isSlash path repository.slug
  webUrl_eq : repository.webUrl = "https://".toList ++ host ++ '/' :: repository.slug
  hosts : repository.provider.Hosts host

theorem isAt_iff_eq : IsAt host path repository ↔ at? host path = some repository := by
  rw [at?]
  constructor
  · rintro ⟨filled, nonempty, isStripped, webUrl_eq, hosts⟩
    obtain ⟨provider, slug, webUrl⟩ := repository
    dsimp only at *
    rw [Text.isStripped_iff_eq.mp isStripped, if_neg (by simp [filled, nonempty]),
      Provider.hosts_iff_eq.mp hosts, webUrl_eq]
  · intro found
    split at found
    · cases found
    · rename_i filled
      rw [Bool.or_eq_true, not_or, List.isEmpty_iff, List.isEmpty_iff] at filled
      cases found
      exact ⟨filled.1, filled.2, Text.isStripped_iff_eq.mpr rfl, rfl, Provider.hosts_iff_eq.mpr rfl⟩

/-- A URL names a repository exactly when it has one of the two shapes and neither its host nor its
path is empty. -/
theorem ofRemoteUrl?_eq_some_iff (url : Text) (repository : Repository) :
    ofRemoteUrl? url = some repository ↔
      ∃ bare host path, IsBare url bare ∧ Locates bare host path ∧ IsAt host path repository := by
  simp only [isBare_iff_eq, locates_iff_eq, isAt_iff_eq, ofRemoteUrl?_eq_bind,
    Option.bind_eq_some_iff, Prod.exists, exists_eq_left', exists_and_left]

end Repository

end TrackerLinks
