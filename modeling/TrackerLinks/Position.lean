import TrackerLinks.Text.Lines

/-! Byte offsets of a text, and positions by line and UTF-16 column, both counted from zero. -/

namespace TrackerLinks

structure Position where
  line : Nat
  character : Nat
  deriving DecidableEq

structure Range where
  start : Position
  stop : Position
  deriving DecidableEq

namespace Position

def order (p q : Position) : Ordering :=
  (compare p.line q.line).then (compare p.character q.character)

instance : LT Position where
  lt p q := p.line < q.line ∨ (p.line = q.line ∧ p.character < q.character)

instance : LE Position where
  le p q := p < q ∨ p = q

instance (p q : Position) : Decidable (p < q) :=
  inferInstanceAs (Decidable (_ ∨ _))

instance (p q : Position) : Decidable (p ≤ q) :=
  inferInstanceAs (Decidable (_ ∨ _))

theorem order_eq_lt_iff {p q : Position} : p.order q = .lt ↔ p < q := by
  simp only [order, Ordering.then_eq_lt, Nat.compare_eq_lt, Nat.compare_eq_eq]
  exact Iff.rfl

def next (p : Position) (c : Char) : Position :=
  if c = '\n' then ⟨p.line + 1, 0⟩ else ⟨p.line, p.character + Text.unitCount c⟩

end Position

namespace Text

def positionFrom (p : Position) (offset : Nat) : Text → Position
  | [] => p
  | c :: rest =>
      if offset = 0 then p
      else if offset < c.utf8Size then ⟨p.line, 0⟩
      else positionFrom (p.next c) (offset - c.utf8Size) rest

/-- The position of an offset. One past the end counts as the end, and one inside a character as
the start of its line. -/
def positionAt (text : Text) (offset : Nat) : Position :=
  positionFrom ⟨0, 0⟩ offset text

def rangeOf (text : Text) (start stop : Nat) : Range :=
  ⟨positionAt text start, positionAt text stop⟩

def columnFrom (offset units : Nat) : Text → Option Nat
  | [] => if units = 0 then some offset else none
  | c :: rest =>
      if units = 0 then some offset
      else if units < unitCount c then none
      else columnFrom (offset + c.utf8Size) (units - unitCount c) rest

/-- The offset of a position in lines, if the line exists and has that column outside its ending and
not between the halves of a surrogate pair. -/
def offsetIn? (lines : List Line) (p : Position) : Option Nat := do
  let line ← lines[p.line]?
  columnFrom line.start p.character line.content

def offsetAt? (text : Text) (p : Position) : Option Nat :=
  offsetIn? (lines text) p

end Text

end TrackerLinks
