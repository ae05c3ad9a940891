import TrackerLinks.Proofs.Text.Occurrence
import TrackerLinks.Proofs.Text.Pieces
import TrackerLinks.Proofs.Text.Trimming
import TrackerLinks.Text.Lines

/-! Lines one after the other: a text is a last line, or a line and its line feed before a text. -/

namespace TrackerLinks

namespace Text

variable {body rest tail : Text} {start : Nat}

/-- The lines of a text that starts at the offset `start`. -/
def linesAt (start : Nat) (text : Text) : List Line :=
  linesFrom start (split '\n' text)

theorem size_concat_feed (body : Text) : size (body ++ ['\n']) = size body + 1 :=
  size_append _ _

theorem size_append_feed (body rest : Text) :
    size (body ++ '\n' :: rest) = size body + 1 + size rest := by
  rw [size_append, size_cons, ← Nat.add_assoc]
  rfl

theorem linesAt_of_not_mem (h : '\n' ∉ body) : linesAt start body = [⟨start, body, false⟩] := by
  rw [linesAt, split_of_not_mem h, linesFrom]

theorem linesAt_append_cons (h : '\n' ∉ body) (rest : Text) :
    linesAt start (body ++ '\n' :: rest) =
      ⟨start, body, true⟩ :: linesAt (start + size body + 1) rest := by
  rw [linesAt, split_append_cons h, linesAt]
  cases pieces : split '\n' rest with
  | nil => exact absurd pieces (split_ne_nil '\n' rest)
  | cons piece more => rw [linesFrom]; simp

/-- To prove a property of texts line by line. -/
@[elab_as_elim]
theorem line_induction {motive : Text → Prop}
    (last : ∀ body, '\n' ∉ body → motive body)
    (line : ∀ body rest, '\n' ∉ body → motive rest → motive (body ++ '\n' :: rest))
    (text : Text) : motive text :=
  piece_induction '\n' last line text

theorem linesAt_ordered (start : Nat) (text : Text) :
    (∀ line ∈ linesAt start text, start ≤ line.start) ∧
      (linesAt start text).Pairwise fun earlier later =>
        earlier.start + size earlier.body < later.start := by
  induction text using line_induction generalizing start with
  | last body absent =>
      rw [linesAt_of_not_mem absent]
      simp
  | line body rest absent ih =>
      obtain ⟨after, ordered⟩ := ih (start + size body + 1)
      rw [linesAt_append_cons absent]
      refine ⟨?_, ?_⟩
      · refine List.forall_mem_cons.mpr ⟨Nat.le_refl _, ?_⟩
        intro line member
        have := after line member
        omega
      · exact List.pairwise_cons.mpr ⟨after, ordered⟩

theorem occursAt_of_mem_linesAt (before text : Text) :
    ∀ line ∈ linesAt (size before) text, OccursAt line.body (before ++ text) line.start := by
  induction text using line_induction generalizing before with
  | last body absent =>
      rw [linesAt_of_not_mem absent]
      intro line member
      obtain rfl := List.mem_singleton.mp member
      exact ⟨before, [], by simp, rfl⟩
  | line body rest absent ih =>
      have later := ih (before ++ body ++ ['\n'])
      rw [size_concat_feed, size_append] at later
      rw [linesAt_append_cons absent]
      refine List.forall_mem_cons.mpr ⟨⟨before, '\n' :: rest, by simp, rfl⟩, ?_⟩
      simpa using later

theorem feed_not_mem_of_mem_linesAt (start : Nat) (text : Text) :
    ∀ line ∈ linesAt start text, '\n' ∉ line.body := by
  induction text using line_induction generalizing start with
  | last body absent =>
      rw [linesAt_of_not_mem absent]
      intro line member
      obtain rfl := List.mem_singleton.mp member
      exact absent
  | line body rest absent ih =>
      rw [linesAt_append_cons absent]
      exact List.forall_mem_cons.mpr ⟨absent, ih _⟩

theorem exists_linesAt_append_feed (start : Nat) (front : Text) :
    ∃ closed, ∀ rest,
      linesAt start (front ++ '\n' :: rest) = closed ++ linesAt (start + size front + 1) rest := by
  induction front using line_induction generalizing start with
  | last body absent => exact ⟨[⟨start, body, true⟩], linesAt_append_cons absent⟩
  | line body front absent ih =>
      obtain ⟨closed, lines⟩ := ih (start + size body + 1)
      refine ⟨⟨start, body, true⟩ :: closed, ?_⟩
      intro rest
      have place : start + size (body ++ '\n' :: front) + 1 =
          start + size body + 1 + size front + 1 := by
        rw [size_append_feed]
        omega
      rw [List.append_assoc, List.cons_append, linesAt_append_cons absent, lines, place,
        List.cons_append]

theorem dropReturn_isPrefix (body : Text) : dropReturn body <+: body :=
  (isCutShort_iff_eq.mpr rfl).isPrefix

theorem dropReturn_append_return (body : Text) : dropReturn (body ++ ['\r']) = body :=
  isCutShort_iff_eq.mp (.inl rfl)

theorem dropReturn_of_not_suffix (h : ¬ ['\r'] <:+ body) : dropReturn body = body :=
  isCutShort_iff_eq.mp (.inr ⟨h, rfl⟩)

theorem dropReturn_append (front : Text) (h : body ≠ []) :
    dropReturn (front ++ body) = front ++ dropReturn body := by
  by_cases returns : ['\r'] <:+ body
  · obtain ⟨body, rfl⟩ := returns
    rw [← List.append_assoc, dropReturn_append_return, dropReturn_append_return]
  · rw [dropReturn_of_not_suffix returns, dropReturn_of_not_suffix]
    intro returns'
    apply returns
    apply List.suffix_of_suffix_length_le returns' (List.suffix_append front body)
    exact List.length_pos_iff.mpr h

theorem dropReturn_of_getLast? (last : ∀ c ∈ body.getLast?, isBlank c = false) :
    dropReturn body = body := by
  apply dropReturn_of_not_suffix
  rintro ⟨front, rfl⟩
  cases last '\r' (by simp)

theorem exists_dropReturn_append_blank (last : ∀ c ∈ body.getLast?, isBlank c = false)
    (blank : ∀ c ∈ tail, isBlank c) :
    ∃ kept, (∀ c ∈ kept, isBlank c) ∧ dropReturn (body ++ tail) = body ++ kept := by
  by_cases empty : tail = []
  · subst empty
    refine ⟨[], by simp, ?_⟩
    rw [List.append_nil, dropReturn_of_getLast? last]
  · refine ⟨dropReturn tail, ?_, dropReturn_append body empty⟩
    intro c inside
    exact blank c ((dropReturn_isPrefix tail).subset inside)

end Text

/-- The same line when more text stands in front. -/
def Line.shift (distance : Nat) (line : Line) : Line :=
  { line with start := distance + line.start }

theorem Text.linesAt_add (distance start : Nat) (text : Text) :
    linesAt (distance + start) text = (linesAt start text).map (Line.shift distance) := by
  induction text using line_induction generalizing start with
  | last body absent =>
      rw [linesAt_of_not_mem absent, linesAt_of_not_mem absent]
      rfl
  | line body rest absent ih =>
      rw [linesAt_append_cons absent, linesAt_append_cons absent, Nat.add_assoc, Nat.add_assoc,
        ih, List.map_cons, ← Nat.add_assoc]
      rfl

namespace Text

variable {text body rest other front back tail : Text} {start : Nat}

theorem body_subset_of_mem_linesAt {line : Line} (member : line ∈ linesAt start text) :
    line.body ⊆ text := by
  rw [← Nat.add_zero start, linesAt_add] at member
  obtain ⟨line, found, rfl⟩ := List.mem_map.mp member
  exact (occursAt_of_mem_linesAt [] text line found).subset

theorem exists_linesAt_append_blank (absent : '\n' ∉ body)
    (blank : ∀ c ∈ tail, isBlank c) (start : Nat) :
    ∃ kept closed later, (∀ c ∈ kept, isBlank c) ∧
      (∀ line ∈ later, ∀ c ∈ line.body, isBlank c) ∧
      linesAt start (body ++ tail) = ⟨start, body ++ kept, closed⟩ :: later := by
  by_cases feed : '\n' ∈ tail
  · obtain ⟨kept, more, rfl, absent'⟩ := List.eq_append_cons_of_mem feed
    obtain ⟨blank, blank'⟩ := List.forall_mem_append.mp blank
    refine ⟨kept, true, linesAt (start + size (body ++ kept) + 1) more, blank, ?_, ?_⟩
    · intro line member c inside
      have inside' := body_subset_of_mem_linesAt member inside
      exact (List.forall_mem_cons.mp blank').2 c inside'
    · rw [← List.append_assoc, linesAt_append_cons]
      simpa using ⟨absent, absent'⟩
  · refine ⟨tail, false, [], blank, by simp, linesAt_of_not_mem ?_⟩
    simpa using ⟨absent, feed⟩

/-- `body` is a line of `text` without its line feed: it has none in it, and a line feed or an end of
the text on either side. -/
structure IsLineAt (text body : Text) (start : Nat) : Prop where
  feed_not_mem : '\n' ∉ body
  between : ∃ before after, text = before ++ body ++ after ∧ size before = start ∧
    (before = [] ∨ ['\n'] <:+ before) ∧ (after = [] ∨ ['\n'] <+: after)

theorem isLineAt_iff_of_not_mem (absent : '\n' ∉ body) :
    IsLineAt body other start ↔ start = 0 ∧ other = body := by
  constructor
  · rintro ⟨_, before, after, rfl, rfl, starts, ends⟩
    have first : before = [] := by
      refine starts.resolve_right ?_
      rintro ⟨front, rfl⟩
      exact absent (by simp)
    have last : after = [] := by
      refine ends.resolve_right ?_
      rintro ⟨back, rfl⟩
      exact absent (by simp)
    subst first last
    simp
  · rintro ⟨rfl, rfl⟩
    exact ⟨absent, [], [], by simp, rfl, .inl rfl, .inl rfl⟩

/-- A front that ends with a line feed has the first line in it. -/
theorem exists_append_of_feed (absent : '\n' ∉ body)
    (same : body ++ '\n' :: rest = front ++ '\n' :: back) :
    ∃ middle, front ++ ['\n'] = body ++ '\n' :: middle ∧ rest = middle ++ back ∧
      (middle = [] ∨ ['\n'] <:+ middle) := by
  rcases List.append_eq_append_iff.mp same with ⟨between, rfl, tail⟩ | ⟨between, rfl, tail⟩
  · cases between with
    | nil =>
        cases tail
        exact ⟨[], by simp, rfl, .inl rfl⟩
    | cons c between =>
        cases tail
        exact ⟨between ++ ['\n'], by simp, by simp, .inr (List.suffix_append _ _)⟩
  · cases between with
    | nil =>
        cases tail
        exact ⟨[], by simp, rfl, .inl rfl⟩
    | cons c between =>
        cases tail
        exact absurd (List.mem_append_right front List.mem_cons_self) absent

theorem isLineAt_append_cons_iff (absent : '\n' ∉ body) :
    IsLineAt (body ++ '\n' :: rest) other start ↔
      (start = 0 ∧ other = body) ∨
        ∃ offset, start = size body + 1 + offset ∧ IsLineAt rest other offset := by
  constructor
  · rintro ⟨free, before, after, same, rfl, rfl | ⟨front, rfl⟩, ends⟩
    · left
      rw [List.nil_append] at same
      rcases ends with rfl | ⟨back, rfl⟩
      · rw [List.append_nil] at same
        exact absurd (same ▸ List.mem_append_right body List.mem_cons_self) free
      · have cut := (cut_of_not_mem absent rest).1
        rw [same, List.singleton_append, (cut_of_not_mem free back).1] at cut
        exact ⟨rfl, cut⟩
    · right
      have same' : body ++ '\n' :: rest = front ++ '\n' :: (other ++ after) := by simpa using same
      obtain ⟨middle, cut, rfl, starts⟩ := exists_append_of_feed absent same'
      exact ⟨size middle, by rw [cut, size_append_feed], free, middle, after, by simp, rfl, starts, ends⟩
  · rintro (⟨rfl, rfl⟩ | ⟨_, rfl, free, before, after, rfl, rfl, starts, ends⟩)
    · exact ⟨absent, [], '\n' :: rest, by simp, rfl, .inl rfl, .inr (by simp)⟩
    · refine ⟨free, body ++ '\n' :: before, after, by simp, size_append_feed _ _, .inr ?_, ends⟩
      rcases starts with rfl | ⟨front, rfl⟩
      · exact List.suffix_append body ['\n']
      · exact ⟨body ++ '\n' :: front, by simp⟩

theorem exists_mem_linesAt_iff :
    (∃ line ∈ linesAt 0 text, line.start = start ∧ line.body = body) ↔ IsLineAt text body start := by
  induction text using line_induction generalizing start with
  | last piece absent =>
      rw [linesAt_of_not_mem absent, isLineAt_iff_of_not_mem absent]
      simp [eq_comm]
  | line piece rest absent ih =>
      have later : linesAt (0 + size piece + 1) rest =
          (linesAt 0 rest).map (Line.shift (size piece + 1)) := by
        rw [Nat.zero_add]
        exact linesAt_add (size piece + 1) 0 rest
      rw [linesAt_append_cons absent, isLineAt_append_cons_iff absent, later]
      simp only [← ih, List.mem_cons, List.mem_map, exists_eq_or_imp, exists_exists_and_eq_and]
      constructor
      · rintro (⟨rfl, rfl⟩ | ⟨line, member, rfl, rfl⟩)
        · exact .inl ⟨rfl, rfl⟩
        · exact .inr ⟨line.start, rfl, line, member, rfl, rfl⟩
      · rintro (⟨rfl, rfl⟩ | ⟨_, rfl, line, member, rfl, rfl⟩)
        · exact .inl ⟨rfl, rfl⟩
        · exact .inr ⟨line, member, rfl, rfl⟩

end Text

end TrackerLinks
