import TrackerLinks.Proofs.Machine.Follow

/-! The way that a path takes where links are followed, and what stops it: a path leads to a place, or
is refused for the first thing on its way that cannot be passed. -/

namespace TrackerLinks

/-- A path that is looked up at all. -/
structure Path.IsUsable (path : Path) : Prop where
  nul : '\x00' ∉ path
  ne_nil : path ≠ []
  size_le : Text.size path ≤ Path.sizeLimit

namespace Machine

variable {machine : Machine} {tree : Tree Stored} {links used more : Nat}
  {place there : Place} {name : Name} {names rest left : List Name} {path : Path}
  {outcome : Except IoError Place} {reason : IoError}

/-- The way from a place along names and through so many links, to another place with the names that
are left there. -/
inductive Passage (tree : Tree Stored) : Nat → Place → List Name → Place → List Name → Prop
  | stay {place : Place} {names : List Name} : Passage tree 0 place names place names
  | enter {links : Nat} {place there : Place} {name : Name} {rest left : List Name}
      {sub : Tree Stored} (directory : tree.IsDirectoryAt place)
      (fits : Text.size name ≤ nameLimit) (found : tree.get? (place.enter name) = some sub)
      (unlinked : ∀ target, sub ≠ .leaf (.link target))
      (onward : Passage tree links (place.enter name) rest there left) :
      Passage tree links place (name :: rest) there left
  | link {links : Nat} {place there : Place} {name : Name} {rest left : List Name} {target : Path}
      (directory : tree.IsDirectoryAt place) (fits : Text.size name ≤ nameLimit)
      (found : tree.get? (place.enter name) = some (.leaf (.link target)))
      (onward : Passage tree links (linkStart place target) (Path.steps target ++ rest) there left) :
      Passage tree (links + 1) place (name :: rest) there left

/-- What comes of a way that leads no further, when so many more links may be followed. -/
inductive Stop (tree : Tree Stored) : Nat → Place → List Name → Except IoError Place → Prop
  | arrived {more : Nat} {there : Place} : Stop tree more there [] (.ok there)
  | blocked {more : Nat} {there : Place} {name : Name} {rest : List Name}
      (noDirectory : ¬ tree.IsDirectoryAt there) :
      Stop tree more there (name :: rest) (.error .notADirectory)
  | long {more : Nat} {there : Place} {name : Name} {rest : List Name}
      (directory : tree.IsDirectoryAt there) (exceeds : nameLimit < Text.size name) :
      Stop tree more there (name :: rest) (.error .nameTooLong)
  | missing {more : Nat} {there : Place} {name : Name} {rest : List Name}
      (directory : tree.IsDirectoryAt there) (fits : Text.size name ≤ nameLimit)
      (absent : tree.get? (there.enter name) = none) :
      Stop tree more there (name :: rest) (.error .notFound)
  | tooManyLinks {there : Place} {name : Name} {rest : List Name} {target : Path}
      (directory : tree.IsDirectoryAt there) (fits : Text.size name ≤ nameLimit)
      (found : tree.get? (there.enter name) = some (.leaf (.link target))) :
      Stop tree 0 there (name :: rest) (.error .tooManyLinks)

theorem Passage.follow_eq (passage : Passage tree used place names there left) (more : Nat) :
    follow tree true (used + more) place names = follow tree true more there left := by
  induction passage with
  | stay => rw [Nat.zero_add]
  | enter directory fits found unlinked onward ih =>
      rw [follow_passed directory fits found unlinked, ih]
  | link directory fits found onward ih =>
      rw [follow_through directory fits found, Nat.succ_add]
      exact ih

theorem Stop.follow_eq (stop : Stop tree more there left outcome) :
    follow tree true more there left = outcome := by
  cases stop with
  | arrived => rw [follow_nil]
  | blocked noDirectory => rw [follow_blocked noDirectory]
  | long directory exceeds =>
      rename_i name rest
      obtain ⟨entries, here⟩ := Tree.isDirectoryAt_iff.mp directory
      have ne_dot : name ≠ ['.'] := by
        rintro rfl
        exact absurd exceeds (by decide)
      have ne_up : name ≠ ['.', '.'] := by
        rintro rfl
        exact absurd exceeds (by decide)
      rw [follow, here]
      simp only [if_neg ne_dot, if_neg ne_up, if_pos exceeds]
  | missing directory fits absent =>
      rename_i name rest
      by_cases stays : name = ['.'] ∨ name = ['.', '.']
      · have present := (isDirectoryAt_enter directory stays).isSome
        rw [absent] at present
        cases present
      · obtain ⟨ne_dot, ne_up⟩ := not_or.mp stays
        rw [Place.enter_of_ne ne_dot ne_up] at absent
        rw [follow_absent directory ne_dot ne_up absent, if_neg (Nat.not_lt.mpr fits)]
  | tooManyLinks directory fits found => rw [follow_through directory fits found]

theorem directory_ne_link (entries : List (Name × Tree Stored)) (target : Path) :
    Tree.directory entries ≠ .leaf (.link target) := nofun

/-- What comes of a way with so many links, which leads on until something stops it. -/
def Ends (tree : Tree Stored) (links : Nat) (place : Place) (names : List Name)
    (outcome : Except IoError Place) : Prop :=
  ∃ used more there left, links = used + more ∧ Passage tree used place names there left ∧
    Stop tree more there left outcome

theorem Stop.ends (stop : Stop tree links place names outcome) :
    Ends tree links place names outcome :=
  ⟨0, links, place, names, (Nat.zero_add links).symm, .stay, stop⟩

theorem Ends.enter {sub : Tree Stored} (directory : tree.IsDirectoryAt place)
    (fits : Text.size name ≤ nameLimit) (found : tree.get? (place.enter name) = some sub)
    (unlinked : ∀ target, sub ≠ .leaf (.link target))
    (ends : Ends tree links (place.enter name) rest outcome) :
    Ends tree links place (name :: rest) outcome := by
  obtain ⟨used, more, there, left, total, passage, stop⟩ := ends
  exact ⟨used, more, there, left, total, .enter directory fits found unlinked passage, stop⟩

theorem Ends.link {target : Path} (directory : tree.IsDirectoryAt place)
    (fits : Text.size name ≤ nameLimit)
    (found : tree.get? (place.enter name) = some (.leaf (.link target)))
    (ends : Ends tree links (linkStart place target) (Path.steps target ++ rest) outcome) :
    Ends tree (links + 1) place (name :: rest) outcome := by
  obtain ⟨used, more, there, left, rfl, passage, stop⟩ := ends
  exact ⟨used + 1, more, there, left, by omega, .link directory fits found passage, stop⟩

theorem Ends.follow_eq (ends : Ends tree links place names outcome) :
    follow tree true links place names = outcome := by
  obtain ⟨used, more, there, left, rfl, passage, stop⟩ := ends
  rw [passage.follow_eq, stop.follow_eq]

theorem exists_ends (tree : Tree Stored) (links : Nat) (place : Place) (names : List Name) :
    ∃ outcome, Ends tree links place names outcome := by
  fun_induction follow tree true links place names with
  | case1 => exact ⟨_, Stop.arrived.ends⟩
  | case2 links place rest entries here ih =>
      obtain ⟨outcome, ends⟩ := ih
      have directory := Tree.isDirectoryAt_iff.mpr ⟨entries, here⟩
      exact ⟨outcome, .enter directory (by decide) here (directory_ne_link entries) ends⟩
  | case3 links place rest entries here _ ih =>
      obtain ⟨outcome, ends⟩ := ih
      have directory := Tree.isDirectoryAt_iff.mpr ⟨entries, here⟩
      obtain ⟨above, found⟩ :=
        Tree.isDirectoryAt_iff.mp (directory.of_isPrefix (List.dropLast_prefix place))
      exact ⟨outcome, .enter directory (by decide) found (directory_ne_link above) ends⟩
  | case4 links place name rest entries here _ _ exceeds =>
      have directory := Tree.isDirectoryAt_iff.mpr ⟨entries, here⟩
      exact ⟨_, (Stop.long directory exceeds).ends⟩
  | case5 links place name rest entries here ne_dot ne_up fits absent =>
      have directory := Tree.isDirectoryAt_iff.mpr ⟨entries, here⟩
      rw [← Tree.get?_concat here, ← Place.enter_of_ne ne_dot ne_up] at absent
      exact ⟨_, (Stop.missing directory (Nat.not_lt.mp fits) absent).ends⟩
  | case6 _ _ _ _ _ _ _ _ _ _ _ unasked => simp at unasked
  | case7 place name rest entries here ne_dot ne_up fits target found =>
      have directory := Tree.isDirectoryAt_iff.mpr ⟨entries, here⟩
      rw [← Tree.get?_concat here, ← Place.enter_of_ne ne_dot ne_up] at found
      exact ⟨_, (Stop.tooManyLinks directory (Nat.not_lt.mp fits) found).ends⟩
  | case8 place name rest entries here ne_dot ne_up fits target found _ links ih =>
      obtain ⟨outcome, ends⟩ := ih
      have directory := Tree.isDirectoryAt_iff.mpr ⟨entries, here⟩
      rw [← Tree.get?_concat here, ← Place.enter_of_ne ne_dot ne_up] at found
      exact ⟨outcome, .link directory (Nat.not_lt.mp fits) found ends⟩
  | case9 links place name rest entries here ne_dot ne_up fits sub unlinked found ih =>
      obtain ⟨outcome, ends⟩ := ih
      have directory := Tree.isDirectoryAt_iff.mpr ⟨entries, here⟩
      rw [← Tree.get?_concat here] at found
      rw [← Place.enter_of_ne ne_dot ne_up] at found ends
      exact ⟨outcome, .enter directory (Nat.not_lt.mp fits) found unlinked ends⟩
  | case10 links place name rest blocked =>
      have noDirectory : ¬ tree.IsDirectoryAt place := by
        intro directory
        obtain ⟨entries, here⟩ := Tree.isDirectoryAt_iff.mp directory
        exact blocked entries here
      exact ⟨_, (Stop.blocked noDirectory).ends⟩

theorem follow_eq_iff_ends :
    follow tree true links place names = outcome ↔ Ends tree links place names outcome := by
  refine ⟨?_, Ends.follow_eq⟩
  rintro rfl
  obtain ⟨outcome, ends⟩ := exists_ends tree links place names
  rwa [ends.follow_eq]

/-- The way of a path from where it starts. -/
def Goes (machine : Machine) (path : Path) (links : Nat) (there : Place) (left : List Name) : Prop :=
  Passage machine.tree links (machine.start path) (Path.steps path) there left

/-- The path leads to the place, through no more links than a path may lead through. -/
structure Leads (machine : Machine) (path : Path) (place : Place) : Prop where
  usable : path.IsUsable
  goes : ∃ links ≤ linkLimit, machine.Goes path links place []

/-- Why a path leads nowhere. -/
inductive Refuses (machine : Machine) (path : Path) : IoError → Prop
  | nul (present : '\x00' ∈ path) : Refuses machine path .nulInPath
  | empty (empty : path = []) : Refuses machine path .notFound
  | long (nul : '\x00' ∉ path) (exceeds : Path.sizeLimit < Text.size path) :
      Refuses machine path .nameTooLong
  | stopped {used more : Nat} {there : Place} {left : List Name} {reason : IoError}
      (usable : path.IsUsable) (total : linkLimit = used + more)
      (goes : machine.Goes path used there left)
      (stop : Stop machine.tree more there left (.error reason)) : Refuses machine path reason

theorem locate_eq_follow (usable : path.IsUsable) :
    machine.locate true path =
      follow machine.tree true linkLimit (machine.start path) (Path.steps path) := by
  rw [locate, if_neg (by simpa using usable.nul), if_neg (by simpa using usable.ne_nil),
    if_neg (Nat.not_lt.mpr usable.size_le)]

theorem locate_eq_ok_iff_leads : machine.locate true path = .ok place ↔ machine.Leads path place := by
  constructor
  · intro located
    obtain ⟨⟨nul, ne_nil, size_le⟩, followed⟩ := locate_eq_ok_iff.mp located
    obtain ⟨used, more, there, left, total, goes, stop⟩ := follow_eq_iff_ends.mp followed
    cases stop
    exact ⟨⟨nul, ne_nil, size_le⟩, used, by omega, goes⟩
  · rintro ⟨usable, used, few, goes⟩
    rw [locate_eq_follow usable]
    exact Ends.follow_eq ⟨used, linkLimit - used, place, [], by omega, goes, .arrived⟩

theorem Refuses.locate_eq (refuses : machine.Refuses path reason) :
    machine.locate true path = .error reason := by
  cases refuses with
  | nul present => rw [locate, if_pos (by simpa using present)]
  | empty empty =>
      subst empty
      rfl
  | long nul exceeds =>
      have filled : path.isEmpty = false := by
        cases path with
        | nil => exact absurd exceeds (by decide)
        | cons c path => rfl
      rw [locate, if_neg (by simpa using nul), filled, if_neg Bool.false_ne_true, if_pos exceeds]
  | stopped usable total goes stop =>
      rw [locate_eq_follow usable]
      exact Ends.follow_eq ⟨_, _, _, _, total, goes, stop⟩

/-- The path leads to a file that holds these bytes. -/
def HasFile (machine : Machine) (path : Path) (content : ByteArray) : Prop :=
  ∃ place, machine.Leads path place ∧ machine.tree.get? place = some (.leaf (.file content))

theorem HasFile.node_eq {content : ByteArray} (file : machine.HasFile path content) :
    machine.node true path = .ok (.leaf (.file content)) := by
  obtain ⟨place, leads, found⟩ := file
  exact node_eq_ok_iff.mpr ⟨place, locate_eq_ok_iff_leads.mpr leads, found⟩

theorem HasFile.status_eq {content : ByteArray} (file : machine.HasFile path content) :
    machine.status path = .ok ⟨false, content.size⟩ := by
  rw [Machine.status, file.node_eq]
  rfl

theorem HasFile.read_eq {content : ByteArray} (file : machine.HasFile path content) :
    machine.read path = .ok content := by
  rw [Machine.read, file.node_eq]
  rfl

theorem Refuses.read_eq (refuses : machine.Refuses path reason) :
    machine.read path = .error reason := by
  rw [Machine.read, node, refuses.locate_eq]
  rfl

theorem refuses_notFound_iff :
    machine.Refuses path .notFound ↔ path = [] ∨ path.IsUsable ∧
      ∃ links ≤ linkLimit, ∃ there name rest, machine.Goes path links there (name :: rest) ∧
        machine.tree.IsDirectoryAt there ∧ Text.size name ≤ nameLimit ∧
        machine.tree.get? (there.enter name) = none := by
  constructor
  · rintro (_ | empty | _ | ⟨usable, total, goes, stop⟩)
    · exact .inl empty
    · cases stop with
      | missing directory fits absent =>
          exact .inr ⟨usable, _, by omega, _, _, _, goes, directory, fits, absent⟩
  · rintro (empty | ⟨usable, links, few, there, name, rest, goes, directory, fits, absent⟩)
    · exact .empty empty
    · exact .stopped usable (Nat.add_sub_of_le few).symm goes (.missing directory fits absent)

end Machine

end TrackerLinks
