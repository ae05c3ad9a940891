import TrackerLinks.Proofs.Position.Advance
import TrackerLinks.Proofs.Text.Lines

/-! A carriage return before each line feed moves offsets by the lines before them, keeps positions,
and keeps what has no line break in it. -/

namespace TrackerLinks

namespace Text

variable {text part body before after rest : Text} {start : Nat}

/-- The text with `\r\n` for each `\n`. -/
def withReturns (text : Text) : Text :=
  text.flatMap fun c => if c = '\n' then ['\r', '\n'] else [c]

/-- No line break is in it. -/
def IsUnbroken (part : Text) : Prop :=
  '\r' ∉ part ∧ '\n' ∉ part

instance (part : Text) : Decidable part.IsUnbroken :=
  inferInstanceAs (Decidable (_ ∧ _))

theorem isUnbroken_cons_iff {c : Char} :
    IsUnbroken (c :: part) ↔ c ≠ '\r' ∧ c ≠ '\n' ∧ IsUnbroken part := by
  simp only [IsUnbroken, List.mem_cons, not_or]
  tauto

@[simp] theorem withReturns_nil : withReturns [] = [] := rfl

@[simp] theorem withReturns_feed (text : Text) :
    withReturns ('\n' :: text) = '\r' :: '\n' :: withReturns text := rfl

theorem withReturns_cons {c : Char} (different : c ≠ '\n') (text : Text) :
    withReturns (c :: text) = c :: withReturns text := by
  rw [withReturns, List.flatMap_cons, if_neg different]
  rfl

theorem withReturns_ne_nil (nonempty : text ≠ []) : withReturns text ≠ [] := by
  obtain ⟨c, text, rfl⟩ := List.exists_cons_of_ne_nil nonempty
  by_cases feed : c = '\n'
  · subst feed
    exact List.cons_ne_nil _ _
  · rw [withReturns_cons feed]
    exact List.cons_ne_nil _ _

@[simp] theorem withReturns_append (front back : Text) :
    withReturns (front ++ back) = withReturns front ++ withReturns back :=
  List.flatMap_append

theorem withReturns_of_not_mem (absent : '\n' ∉ text) : withReturns text = text := by
  induction text with
  | nil => rfl
  | cons c text ih =>
      rw [withReturns_cons (List.ne_of_not_mem_cons absent).symm,
        ih (List.not_mem_of_not_mem_cons absent)]

/-- The added returns can be told from the rest only if there were none before. -/
theorem filter_withReturns (absent : '\r' ∉ text) :
    (withReturns text).filter (· ≠ '\r') = text := by
  induction text with
  | nil => rfl
  | cons c text ih =>
      have kept := ih (List.not_mem_of_not_mem_cons absent)
      by_cases feed : c = '\n'
      · subst feed
        simpa using kept
      · have different := (List.ne_of_not_mem_cons absent).symm
        rw [withReturns_cons feed, List.filter_cons_of_pos (by simpa using different), kept]

theorem advance_withReturns (p : Position) (text : Text) :
    p.advance (withReturns text) = p.advance text := by
  induction text generalizing p with
  | nil => rfl
  | cons c text ih =>
      by_cases feed : c = '\n'
      · subst feed
        exact ih _
      · rw [withReturns_cons feed, Position.advance_cons, Position.advance_cons, ih]

theorem size_withReturns_add (p : Position) (text : Text) :
    size (withReturns text) + p.line = size text + (p.advance text).line := by
  induction text generalizing p with
  | nil => rfl
  | cons c text ih =>
      have step := ih (p.next c)
      by_cases feed : c = '\n'
      · subst feed
        rw [Position.next_feed] at step
        rw [withReturns_feed, size_cons, size_cons, size_cons, Position.advance_cons,
          Position.next_feed]
        have one : '\r'.utf8Size = 1 := rfl
        dsimp only at step
        omega
      · rw [Position.next_of_ne feed] at step
        rw [withReturns_cons feed, size_cons, size_cons, Position.advance_cons,
          Position.next_of_ne feed]
        dsimp only at step
        omega

/-- Where an offset of the text is when there are returns. -/
def moved (text : Text) (offset : Nat) : Nat :=
  offset + (positionAt text offset).line

theorem moved_append (before after : Text) :
    moved (before ++ after) (size before) = size (withReturns before) := by
  rw [moved, positionAt_append, ← size_withReturns_add]
  rfl

theorem moved_add (before middle after : Text) :
    moved (before ++ (middle ++ after)) (size before + size middle) =
      moved (before ++ (middle ++ after)) (size before) + size (withReturns middle) := by
  rw [moved_append, ← size_append, ← List.append_assoc, moved_append, withReturns_append,
    size_append]

theorem positionAt_moved {offset : Nat} (boundary : IsBoundary text offset) :
    positionAt (withReturns text) (moved text offset) = positionAt text offset := by
  obtain ⟨before, after, rfl, rfl⟩ := boundary
  rw [moved_append, withReturns_append, positionAt_append, advance_withReturns, positionAt_append]

theorem prefix_withReturns_iff (unbroken : part.IsUnbroken) :
    part <+: withReturns text ↔ part <+: text := by
  induction part generalizing text with
  | nil => simp
  | cons d part ih =>
      obtain ⟨notReturn, notFeed, unbroken⟩ := isUnbroken_cons_iff.mp unbroken
      cases text with
      | nil => simp
      | cons c text =>
          by_cases feed : c = '\n'
          · subst feed
            simp [List.cons_prefix_cons, notReturn, notFeed]
          · rw [withReturns_cons feed, List.cons_prefix_cons, List.cons_prefix_cons, ih unbroken]

theorem indexFrom_succ (pattern : Text) (skipped : Nat) (text : Text) :
    indexFrom pattern (skipped + 1) text = (indexFrom pattern skipped text).map (· + 1) := by
  induction text generalizing skipped with
  | nil =>
      simp only [indexFrom]
      split <;> rfl
  | cons c text ih =>
      simp only [indexFrom]
      split
      · rfl
      · exact ih _

theorem index?_cons (pattern : Text) (c : Char) (text : Text) :
    index? pattern (c :: text) =
      if pattern <+: c :: text then some 0 else (index? pattern text).map (· + 1) := by
  rw [index?, indexFrom, indexFrom_succ]
  simp only [List.isPrefixOf_iff_prefix]
  rfl

theorem index?_withReturns (nonempty : part ≠ []) (unbroken : part.IsUnbroken) (text : Text) :
    index? part (withReturns text) =
      (index? part text).map fun n => (withReturns (text.take n)).length := by
  induction text with
  | nil =>
      have none : index? part [] = none := by
        rw [index?, indexFrom, if_neg (by simpa using nonempty)]
      rw [withReturns_nil, none]
      rfl
  | cons c text ih =>
      by_cases feed : c = '\n'
      · subst feed
        obtain ⟨d, part, rfl⟩ := List.exists_cons_of_ne_nil nonempty
        obtain ⟨notReturn, notFeed, _⟩ := isUnbroken_cons_iff.mp unbroken
        have missed (b : Char) (different : d ≠ b) (tail : Text) : ¬ d :: part <+: b :: tail := by
          rw [List.cons_prefix_cons]
          exact fun h => different h.1
        rw [withReturns_feed, index?_cons, if_neg (missed _ notReturn _), index?_cons,
          if_neg (missed _ notFeed _), index?_cons, if_neg (missed _ notFeed _), ih]
        cases index? (d :: part) text <;> rfl
      · have same : part <+: c :: withReturns text ↔ part <+: c :: text := by
          rw [← withReturns_cons feed, prefix_withReturns_iff unbroken]
        rw [withReturns_cons feed, index?_cons, index?_cons, ih]
        simp only [same]
        split
        · rfl
        · cases index? part text with
          | none => rfl
          | some n => simp [withReturns_cons feed]

end Text

/-- The same line when there are returns. -/
def Line.withReturns (text : Text) (line : Line) : Line :=
  ⟨Text.moved text line.start, if line.isTerminated then line.body ++ ['\r'] else line.body,
    line.isTerminated⟩

namespace Text

variable {before : Text} {start : Nat}

theorem linesAt_withReturns (before rest : Text) :
    linesAt (size (withReturns before)) (withReturns rest) =
      (linesAt (size before) rest).map (Line.withReturns (before ++ rest)) := by
  induction rest using line_induction generalizing before with
  | last body absent =>
      rw [withReturns_of_not_mem absent, linesAt_of_not_mem absent, linesAt_of_not_mem absent,
        List.map_singleton, Line.withReturns, moved_append]
      rfl
  | line body rest absent ih =>
      have step := ih (before ++ body ++ ['\n'])
      have place : size (before ++ body ++ ['\n']) = size before + size body + 1 := by
        rw [size_concat_feed, size_append]
      have place' : size (withReturns (before ++ body ++ ['\n'])) =
          size (withReturns before) + size (body ++ ['\r']) + 1 := by
        simp only [withReturns_append, withReturns_of_not_mem absent, size_append, Nat.add_assoc]
        rfl
      have absent' : '\n' ∉ body ++ ['\r'] := by simpa using absent
      have lines : withReturns (body ++ '\n' :: rest) =
          (body ++ ['\r']) ++ '\n' :: withReturns rest := by
        rw [withReturns_append, withReturns_of_not_mem absent, withReturns_feed]
        simp
      rw [place, place'] at step
      rw [lines, linesAt_append_cons absent', linesAt_append_cons absent, step, List.map_cons,
        Line.withReturns, moved_append]
      simp

end Text

end TrackerLinks
