import TrackerLinks.Link
import TrackerLinks.Proofs.Repository.Protocols

namespace TrackerLinks.Repository

variable {scheme host user : Text}

theorem ofRemoteUrl?_with_user (known : scheme ∈ ["http://".toList, "https://".toList])
    (noSlash : '/' ∉ host) (noAt : '@' ∉ host) (unslashed : '/' ∉ user) (path : Text) :
    ofRemoteUrl? (scheme ++ (user ++ '@' :: host) ++ '/' :: path) =
      ofRemoteUrl? (scheme ++ host ++ '/' :: path) := by
  have absent : '/' ∉ user ++ '@' :: host := by simp [unslashed, noSlash]
  rw [ofRemoteUrl?_http known absent (.with_user noAt user),
    ofRemoteUrl?_http known noSlash (.self noAt)]

/-- With any user information, a URL names what it names without, and all links are the same. -/
theorem ofRemoteUrl?_user_independent (scheme host path : Text)
    (known : scheme ∈ ["http://".toList, "https://".toList]) (noSlash : '/' ∉ host)
    (noAt : '@' ∉ host) :
    (∀ user : Text, '/' ∉ user →
      ofRemoteUrl? (scheme ++ (user ++ '@' :: host) ++ '/' :: path) =
        ofRemoteUrl? (scheme ++ host ++ '/' :: path)) ∧
      ∀ user other : Text, '/' ∉ user → '/' ∉ other → ∀ language text : Text,
        (ofRemoteUrl? (scheme ++ (user ++ '@' :: host) ++ '/' :: path)).map (links language text) =
          (ofRemoteUrl? (scheme ++ (other ++ '@' :: host) ++ '/' :: path)).map
            (links language text) := by
  constructor
  · intro user unslashed
    exact ofRemoteUrl?_with_user known noSlash noAt unslashed path
  · intro user other unslashed unslashed' language text
    rw [ofRemoteUrl?_with_user known noSlash noAt unslashed,
      ofRemoteUrl?_with_user known noSlash noAt unslashed']

/-- A user name with the signs of a URL and the name of another provider in it. -/
theorem ofRemoteUrl?_user_independent_gitlab :
    "https://".toList ∈ ["http://".toList, "https://".toList] ∧ '/' ∉ "gitlab.com".toList ∧
      '@' ∉ "gitlab.com".toList ∧ '/' ∉ "git@github.com:.git@x".toList ∧ '/' ∉ "token".toList ∧
      ofRemoteUrl? "https://git@github.com:.git@x@gitlab.com/o/r.git".toList =
        some ⟨.gitLab, "o/r".toList, "https://gitlab.com/o/r".toList⟩ ∧
      (ofRemoteUrl? "https://git@github.com:.git@x@gitlab.com/o/r.git".toList).map
          (links "python".toList "# (#7)".toList) =
        (ofRemoteUrl? "https://token@gitlab.com/o/r.git".toList).map
          (links "python".toList "# (#7)".toList) := by
  have bare : ofRemoteUrl? "https://gitlab.com/o/r.git".toList =
      some ⟨.gitLab, "o/r".toList, "https://gitlab.com/o/r".toList⟩ := by
    decide +kernel
  obtain ⟨same, linked⟩ := ofRemoteUrl?_user_independent "https://".toList "gitlab.com".toList
    "o/r.git".toList (by decide) (by decide) (by decide)
  exact ⟨by decide, by decide, by decide, by decide, by decide,
    (same "git@github.com:.git@x".toList (by decide)).trans bare,
    linked "git@github.com:.git@x".toList "token".toList (by decide) (by decide) _ _⟩

end TrackerLinks.Repository
