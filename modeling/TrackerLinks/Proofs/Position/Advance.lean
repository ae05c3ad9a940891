import TrackerLinks.Position
import TrackerLinks.Proofs.Text.Occurrence

/-! The position of an offset is where the characters before it lead, one by one, and so offsets and
positions have one order. -/

namespace TrackerLinks

variable {p q r : Position} {text before after body : Text} {c : Char} {offset start stop : Nat}

theorem Text.unitCount_pos (c : Char) : 0 < unitCount c := by
  rw [unitCount]
  split
  · exact Nat.one_pos
  · exact Nat.two_pos

namespace Position

/-- The position after all of a text. -/
def advance (p : Position) (text : Text) : Position :=
  text.foldl next p

@[simp] theorem advance_nil (p : Position) : p.advance [] = p := rfl

@[simp] theorem advance_cons (p : Position) (c : Char) (text : Text) :
    p.advance (c :: text) = (p.next c).advance text := rfl

@[simp] theorem advance_append (p : Position) (front back : Text) :
    p.advance (front ++ back) = (p.advance front).advance back :=
  List.foldl_append

theorem next_of_ne (different : c ≠ '\n') :
    p.next c = ⟨p.line, p.character + Text.unitCount c⟩ :=
  if_neg different

theorem next_feed (p : Position) : p.next '\n' = ⟨p.line + 1, 0⟩ := rfl

theorem advance_of_not_mem (p : Position) (h : '\n' ∉ body) :
    p.advance body = ⟨p.line, p.character + Text.units body⟩ := by
  induction body generalizing p with
  | nil => rfl
  | cons c body ih =>
      obtain ⟨different, absent⟩ := not_or.mp (mt List.mem_cons.mpr h)
      rw [advance_cons, ih _ absent, next_of_ne (Ne.symm different), Text.units_cons,
        Nat.add_assoc]

theorem advance_succ_line (line character : Nat) (text : Text) :
    advance ⟨line + 1, character⟩ text =
      ⟨(advance ⟨line, character⟩ text).line + 1, (advance ⟨line, character⟩ text).character⟩ := by
  induction text generalizing line character with
  | nil => rfl
  | cons c text ih =>
      rw [advance_cons, advance_cons]
      by_cases feed : c = '\n'
      · subst feed
        exact ih (line + 1) 0
      · rw [next_of_ne feed, next_of_ne feed]
        exact ih line _

theorem lt_iff : p < q ↔ p.line < q.line ∨ p.line = q.line ∧ p.character < q.character :=
  Iff.rfl

theorem lt_trans (h : p < q) (h' : q < r) : p < r := by
  rw [lt_iff] at *
  omega

theorem lt_next (p : Position) (c : Char) : p < p.next c := by
  rw [lt_iff]
  by_cases feed : c = '\n'
  · subst feed
    exact .inl (Nat.lt_succ_self _)
  · rw [next_of_ne feed]
    exact .inr ⟨rfl, Nat.lt_add_of_pos_right (Text.unitCount_pos c)⟩

theorem le_advance (p : Position) (text : Text) : p ≤ p.advance text := by
  induction text generalizing p with
  | nil => exact .inr rfl
  | cons c text ih =>
      left
      rcases ih (p.next c) with later | same
      · exact lt_trans (lt_next p c) later
      · rw [advance_cons, ← same]
        exact lt_next p c

theorem lt_advance (p : Position) (h : text ≠ []) : p < p.advance text := by
  obtain ⟨c, text, rfl⟩ := List.exists_cons_of_ne_nil h
  rcases le_advance (p.next c) text with later | same
  · exact lt_trans (lt_next p c) later
  · rw [advance_cons, ← same]
    exact lt_next p c

end Position

namespace Text

theorem positionFrom_append_add (p : Position) (before after : Text) (offset : Nat) :
    positionFrom p (size before + offset) (before ++ after) =
      positionFrom (p.advance before) offset after := by
  induction before generalizing p with
  | nil => rw [size_nil, Nat.zero_add, List.nil_append, Position.advance_nil]
  | cons c before ih =>
      have wide := c.utf8Size_pos
      rw [size_cons, List.cons_append, positionFrom, if_neg (by omega), if_neg (by omega),
        Nat.add_assoc, Nat.add_sub_cancel_left, ih, Position.advance_cons]

theorem positionFrom_append (p : Position) (before after : Text) :
    positionFrom p (size before) (before ++ after) = p.advance before := by
  have here := positionFrom_append_add p before after 0
  rw [Nat.add_zero] at here
  rw [here]
  cases after <;> simp [positionFrom]

theorem positionAt_append (before after : Text) :
    positionAt (before ++ after) (size before) = Position.advance ⟨0, 0⟩ before :=
  positionFrom_append ⟨0, 0⟩ before after

theorem positionFrom_of_size_le (p : Position) (past : size text ≤ offset) :
    positionFrom p offset text = p.advance text := by
  induction text generalizing p offset with
  | nil => rfl
  | cons c text ih =>
      have wide := c.utf8Size_pos
      rw [size_cons] at past
      rw [positionFrom, if_neg (by omega), if_neg (by omega), ih _ (by omega),
        Position.advance_cons]

theorem positionAt_min (text : Text) (offset : Nat) :
    positionAt text (min offset (size text)) = positionAt text offset := by
  rcases Nat.le_total offset (size text) with inside | past
  · rw [Nat.min_eq_left inside]
  · rw [Nat.min_eq_right past, positionAt, positionAt, positionFrom_of_size_le _ past,
      positionFrom_of_size_le _ (Nat.le_refl _)]

theorem exists_append_of_boundaries (starts : IsBoundary text start) (stops : IsBoundary text stop)
    (ordered : start ≤ stop) :
    ∃ before middle after, text = before ++ (middle ++ after) ∧ size before = start ∧
      size (before ++ middle) = stop := by
  obtain ⟨before, rest, rfl, rfl⟩ := starts
  obtain ⟨front, after, same, rfl⟩ := stops
  obtain ⟨middle, rfl, rfl⟩ := exists_append_of_size_le same ordered
  exact ⟨before, middle, after, rfl, rfl, rfl⟩

theorem positionAt_lt_of_lt (starts : IsBoundary text start) (stops : IsBoundary text stop)
    (ordered : start < stop) : positionAt text start < positionAt text stop := by
  obtain ⟨before, middle, after, rfl, rfl, rfl⟩ :=
    exists_append_of_boundaries starts stops (Nat.le_of_lt ordered)
  rw [positionAt_append, ← List.append_assoc, positionAt_append, Position.advance_append]
  apply Position.lt_advance
  intro empty
  subst empty
  simp at ordered

theorem positionAt_le_of_le (starts : IsBoundary text start) (stops : IsBoundary text stop)
    (ordered : start ≤ stop) : positionAt text start ≤ positionAt text stop := by
  rcases Nat.eq_or_lt_of_le ordered with rfl | later
  · exact .inr rfl
  · exact .inl (positionAt_lt_of_lt starts stops later)

end Text

end TrackerLinks
