import TrackerLinks.Proofs.Link.WholeText
import TrackerLinks.Proofs.Repository.WebUrl

/-! The target of a link tells the issue and the repository. The number is what stands after the last
slash, the host what stands before the first one, and the host settles which of the two layouts is
between them. -/

namespace TrackerLinks

variable {url url' host path number : Text} {repository repository' : Repository}

namespace Repository

theorem exists_issuePath_eq_append_slash (provider : Provider) :
    ∃ front, provider.issuePath = front ++ ['/'] := by
  cases provider
  case gitLab => exact ⟨"/-/issues".toList, by decide⟩
  all_goals exact ⟨"/issues".toList, by decide⟩

/-- No digit of the number is taken for one of the repository. -/
theorem trimEndWhile_issueUrl (repository : Repository)
    (digits : ∀ c ∈ number, Spelling.isDigit c) :
    Text.trimEndWhile Spelling.isDigit (repository.issueUrl number) = repository.issueUrl [] := by
  obtain ⟨front, ends⟩ := exists_issuePath_eq_append_slash repository.provider
  have last : (repository.issueUrl []).getLast? = some '/' := by
    rw [issueUrl, Provider.issueUrl, ends, List.append_nil, ← List.append_assoc, List.getLast?_concat]
  rw [repository.issueUrl_eq_append, Text.trimEndWhile_append_of_forall _ digits,
    Text.trimEndWhile_eq_self_iff, last]
  intro c same
  obtain rfl := Option.some.inj same
  rfl

/-- The host, which stands between the scheme and the slug in the web URL, has no slash in it. -/
def HasPlainHost (repository : Repository) : Prop :=
  ∃ host, '/' ∉ host ∧ repository.webUrl = "https://".toList ++ host ++ '/' :: repository.slug

theorem HasPlainHost.exists_isAt (plain : repository.HasPlainHost)
    (found : ofRemoteUrl? url = some repository) :
    ∃ host path, '/' ∉ host ∧ IsAt host path repository := by
  obtain ⟨host, absent, webUrl_eq⟩ := plain
  obtain ⟨host', path, _, isAt⟩ := exists_isAt_of_ofRemoteUrl? found
  have same := isAt.webUrl_eq.symm.trans webUrl_eq
  obtain rfl : host' = host :=
    List.append_cancel_left (List.append_cancel_right same)
  exact ⟨host', path, absent, isAt⟩

theorem IsAt.cutAt?_issueUrl (isAt : IsAt host path repository) (absent : '/' ∉ host)
    (number : Text) :
    cutAt? '/' ((repository.issueUrl number).drop "https://".toList.length) =
      some (host, repository.slug ++ (repository.provider.issuePath ++ number)) := by
  rw [issueUrl, Provider.issueUrl, isAt.webUrl_eq]
  simp only [List.append_assoc, List.cons_append]
  rw [List.drop_left, cutAt?_append absent]

theorem eq_of_issueUrl_eq {host' path' : Text} (isAt : IsAt host path repository)
    (isAt' : IsAt host' path' repository') (absent : '/' ∉ host) (absent' : '/' ∉ host')
    (same : repository.issueUrl number = repository'.issueUrl number) : repository = repository' := by
  have cut := isAt.cutAt?_issueUrl absent number
  rw [same, isAt'.cutAt?_issueUrl absent' number] at cut
  obtain ⟨rfl, rest⟩ := Prod.mk.inj (Option.some.inj cut)
  have providers : repository.provider = repository'.provider := by
    rw [← Provider.hosts_iff_eq.mp isAt.hosts, Provider.hosts_iff_eq.mp isAt'.hosts]
  rw [providers] at rest
  have slugs := (List.append_cancel_right rest).symm
  have webUrls : repository.webUrl = repository'.webUrl := by
    rw [isAt.webUrl_eq, isAt'.webUrl_eq, slugs]
  obtain ⟨provider, slug, webUrl⟩ := repository
  obtain ⟨provider', slug', webUrl'⟩ := repository'
  rw [mk.injEq]
  exact ⟨providers, slugs, webUrls⟩

theorem issueUrl_eq_iff {number' : Text} (found : ofRemoteUrl? url = some repository)
    (found' : ofRemoteUrl? url' = some repository') (plain : repository.HasPlainHost)
    (plain' : repository'.HasPlainHost) (digits : ∀ c ∈ number, Spelling.isDigit c)
    (digits' : ∀ c ∈ number', Spelling.isDigit c) :
    repository.issueUrl number = repository'.issueUrl number' ↔
      number = number' ∧ repository = repository' := by
  constructor
  · intro same
    obtain ⟨host, path, absent, isAt⟩ := plain.exists_isAt found
    obtain ⟨host', path', absent', isAt'⟩ := plain'.exists_isAt found'
    have bare : repository.issueUrl [] = repository'.issueUrl [] := by
      rw [← repository.trimEndWhile_issueUrl digits, same, repository'.trimEndWhile_issueUrl digits']
    rw [repository.issueUrl_eq_append, repository'.issueUrl_eq_append, bare] at same
    exact ⟨List.append_cancel_left same, eq_of_issueUrl_eq isAt isAt' absent absent' bare⟩
  · rintro ⟨rfl, rfl⟩
    rfl

/-- Where no slash is in the hosts, issues have the same URL only when they have the same number in
the same repository, and so have references the same target. -/
theorem issueUrl_injective (found : ofRemoteUrl? url = some repository)
    (found' : ofRemoteUrl? url' = some repository') (plain : repository.HasPlainHost)
    (plain' : repository'.HasPlainHost) :
    (∀ number number' : Text, (∀ c ∈ number, Spelling.isDigit c) →
      (∀ c ∈ number', Spelling.isDigit c) →
        (repository.issueUrl number = repository'.issueUrl number' ↔
          number = number' ∧ repository = repository')) ∧
    ∀ text text', ∀ reference ∈ Reference.inText text, ∀ reference' ∈ Reference.inText text',
      ∀ range range',
        (Link.ofReference repository reference range).target =
            (Link.ofReference repository' reference' range').target ↔
          reference.number = reference'.number ∧ repository = repository' := by
  refine ⟨fun _ _ => issueUrl_eq_iff found found' plain plain', ?_⟩
  intro text text' reference member reference' member' range range'
  exact issueUrl_eq_iff found found' plain plain' (Reference.mem_inText_iff.mp member).1.number
    (Reference.mem_inText_iff.mp member').1.number

/-- The slug ends as the other layout begins, so that only the hosts tell the two URLs apart. -/
theorem issueUrl_injective_layouts :
    ofRemoteUrl? "git@gitlab.com:x.git".toList =
        some ⟨.gitLab, ['x'], "https://gitlab.com/x".toList⟩ ∧
      ofRemoteUrl? "https://git.test/x/-".toList =
        some ⟨.git, "x/-".toList, "https://git.test/x/-".toList⟩ ∧
      HasPlainHost ⟨.gitLab, ['x'], "https://gitlab.com/x".toList⟩ ∧
      HasPlainHost ⟨.git, "x/-".toList, "https://git.test/x/-".toList⟩ ∧
      issueUrl ⟨.gitLab, ['x'], "https://gitlab.com/x".toList⟩ "07".toList =
        "https://gitlab.com/x/-/issues/07".toList ∧
      issueUrl ⟨.git, "x/-".toList, "https://git.test/x/-".toList⟩ "07".toList =
        "https://git.test/x/-/issues/07".toList ∧
      issueUrl ⟨.gitLab, ['x'], "https://gitlab.com/x".toList⟩ "07".toList ≠
        issueUrl ⟨.git, "x/-".toList, "https://git.test/x/-".toList⟩ "07".toList ∧
      ∀ reference ∈ Reference.inText "(#07)".toList, ∀ range,
        (Link.ofReference ⟨.gitLab, ['x'], "https://gitlab.com/x".toList⟩ reference range).target ≠
          (Link.ofReference ⟨.git, "x/-".toList, "https://git.test/x/-".toList⟩ reference
            range).target := by
  have found : ofRemoteUrl? "git@gitlab.com:x.git".toList =
      some ⟨.gitLab, ['x'], "https://gitlab.com/x".toList⟩ := by decide +kernel
  have found' : ofRemoteUrl? "https://git.test/x/-".toList =
      some ⟨.git, "x/-".toList, "https://git.test/x/-".toList⟩ := by decide +kernel
  have plain : HasPlainHost ⟨.gitLab, ['x'], "https://gitlab.com/x".toList⟩ :=
    ⟨"gitlab.com".toList, by decide, by decide⟩
  have plain' : HasPlainHost ⟨.git, "x/-".toList, "https://git.test/x/-".toList⟩ :=
    ⟨"git.test".toList, by decide, by decide⟩
  have digits : ∀ c ∈ "07".toList, Spelling.isDigit c :=
    List.all_eq_true.mp (by decide)
  have different : (⟨.gitLab, ['x'], "https://gitlab.com/x".toList⟩ : Repository) ≠
      ⟨.git, "x/-".toList, "https://git.test/x/-".toList⟩ := by decide
  obtain ⟨urls, targets⟩ := issueUrl_injective found found' plain plain'
  refine ⟨found, found', plain, plain', by decide, by decide, ?_, ?_⟩
  · intro same
    exact different ((urls _ _ digits digits).mp same).2
  · intro reference member range same
    exact different ((targets _ _ _ member _ member _ _).mp same).2

/-- A slash in the host may be the one before the slug. -/
example :
    ofRemoteUrl? "git@a/b:c".toList = some ⟨.git, ['c'], "https://a/b/c".toList⟩ ∧
      ofRemoteUrl? "git@a:b/c".toList = some ⟨.git, "b/c".toList, "https://a/b/c".toList⟩ := by
  decide +kernel

end Repository

end TrackerLinks
