import TrackerLinks.Proofs.Position.Advance

/-! Positions in the back part of a text are those of the part on its own, counted from where the
part starts: only what stands on its first line has the column of the start added. -/

namespace TrackerLinks

variable {base p : Position} {text front back : Text} {offset : Nat}

namespace Position

/-- Where `p` comes to stand when its text starts at the position `base` of another. -/
def after (p base : Position) : Position :=
  if p.line = 0 then ⟨base.line, base.character + p.character⟩
  else ⟨base.line + p.line, p.character⟩

@[simp] theorem zero_after (base : Position) : after ⟨0, 0⟩ base = base := rfl

theorem next_after (p base : Position) (c : Char) : (p.after base).next c = (p.next c).after base := by
  by_cases feed : c = '\n'
  · subst feed
    have lines : (p.after base).line = base.line + p.line := by
      rw [after]
      split
      · rename_i first
        rw [first, Nat.add_zero]
      · rfl
    rw [next_feed, next_feed, lines, after, if_neg (Nat.succ_ne_zero p.line), Nat.add_assoc]
  · rw [next_of_ne feed, next_of_ne feed, after, after]
    split
    · rw [Nat.add_assoc]
    · rfl

theorem advance_after (p base : Position) (text : Text) :
    (p.after base).advance text = (p.advance text).after base := by
  induction text generalizing p with
  | nil => rfl
  | cons c text ih => rw [advance_cons, advance_cons, next_after, ih]

end Position

namespace Text

theorem positionFrom_append_of_le (p : Position) (back : Text) (inside : offset ≤ size front) :
    positionFrom p offset (front ++ back) = positionFrom p offset front := by
  induction front generalizing p offset with
  | nil =>
      obtain rfl : offset = 0 := Nat.le_zero.mp inside
      cases back <;> rfl
  | cons c front ih =>
      rw [size_cons] at inside
      rw [List.cons_append, positionFrom, positionFrom, ih (p.next c) (by omega)]

theorem positionAt_append_of_le (back : Text) (inside : offset ≤ size front) :
    positionAt (front ++ back) offset = positionAt front offset :=
  positionFrom_append_of_le ⟨0, 0⟩ back inside

theorem positionAt_append_add (front : Text) (boundary : IsBoundary back offset) :
    positionAt (front ++ back) (size front + offset) =
      (positionAt back offset).after (positionAt (front ++ back) (size front)) := by
  obtain ⟨before, rest, rfl, rfl⟩ := boundary
  calc positionAt (front ++ (before ++ rest)) (size front + size before)
    _ = Position.advance ⟨0, 0⟩ (front ++ before) := by
        rw [← List.append_assoc, ← size_append, positionAt_append]
    _ = (Position.after ⟨0, 0⟩ (Position.advance ⟨0, 0⟩ front)).advance before := by
        rw [Position.advance_append, Position.zero_after]
    _ = (Position.advance ⟨0, 0⟩ before).after (Position.advance ⟨0, 0⟩ front) :=
        Position.advance_after _ _ _
    _ = _ := by rw [positionAt_append, positionAt_append]

end Text

end TrackerLinks
