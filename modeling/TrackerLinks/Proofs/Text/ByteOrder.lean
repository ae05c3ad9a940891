import Mathlib.Tactic.SplitIfs
import TrackerLinks.Text.Basic

/-! Texts are in the same order by their characters as by their bytes: the first byte of a character
tells how many more there are, and each of those holds six bits, the highest ones first. -/

namespace TrackerLinks.Text

variable {a b : Text} {c d : Char} {m n count : Nat} {x y : List UInt8}

/-- The bytes that a text takes in UTF-8. -/
def bytes (text : Text) : List UInt8 :=
  text.flatMap String.utf8EncodeChar

/-- The last `count` bytes of the character with this value. -/
def trail : Nat → Nat → List UInt8
  | 0, _ => []
  | count + 1, value => trail count (value / 64) ++ [UInt8.ofNat (value % 64 + 128)]

/-- What the last `count` bytes leave of the value. -/
def beyond : Nat → Nat → Nat
  | 0, value => value
  | count + 1, value => beyond count (value / 64)

def trailLength (value : Nat) : Nat :=
  if value ≤ 127 then 0 else if value ≤ 2047 then 1 else if value ≤ 65535 then 2 else 3

/-- The first byte of the character with this value. -/
def lead (value : Nat) : Nat :=
  if value ≤ 127 then value
  else if value ≤ 2047 then value / 64 + 192
  else if value ≤ 65535 then value / 4096 + 224
  else value / 262144 + 240

theorem toNat_lt (c : Char) : c.val.toNat < 1114112 := by
  rcases c.valid with low | high
  · exact Nat.lt_trans low (by decide)
  · exact high.2

theorem utf8EncodeChar_eq (c : Char) :
    String.utf8EncodeChar c =
      UInt8.ofNat (lead c.val.toNat) :: trail (trailLength c.val.toNat) c.val.toNat := by
  have bound := toNat_lt c
  rw [String.utf8EncodeChar.eq_def, lead, trailLength]
  generalize c.val.toNat = value at bound
  dsimp only
  split
  · rfl
  split
  · have low : value / 64 % 32 = value / 64 := by omega
    rw [low]
    rfl
  split
  · have low : value / 4096 % 16 = value / 4096 := by omega
    have shift : value / 64 / 64 = value / 4096 := by omega
    rw [low]
    rfl
  · have low : value / 262144 % 8 = value / 262144 := by omega
    have shift : value / 64 / 64 = value / 4096 := by omega
    rw [low, ← shift]
    rfl

theorem ofNat_lt_ofNat (h : m < n) (byte : n < 256) : UInt8.ofNat m < UInt8.ofNat n := by
  rw [UInt8.lt_iff_toNat_lt, UInt8.toNat_ofNat', UInt8.toNat_ofNat']
  omega

theorem trail_append_lt (lower : m < n) (same : beyond count m = beyond count n) :
    trail count m ++ x < trail count n ++ y := by
  induction count generalizing m n x y with
  | zero => exact absurd same (Nat.ne_of_lt lower)
  | succ count ih =>
      rw [trail, trail, List.append_assoc, List.append_assoc]
      -- The last byte counts only if what comes before it is the same.
      have ordered : m / 64 ≤ n / 64 := Nat.div_le_div_right (Nat.le_of_lt lower)
      rcases Nat.lt_or_eq_of_le ordered with high | high
      · exact ih high same
      · have last : m % 64 < n % 64 := by omega
        rw [high]
        apply List.append_left_lt
        exact List.cons_lt_cons_iff.mpr (.inl (ofNat_lt_ofNat (by omega) (by omega)))

/-- Two characters differ in their first bytes, or else only in what follows those. -/
theorem lead_lt_or (lower : m < n) (bound : n < 1114112) :
    lead m < lead n ∨
      lead m = lead n ∧ trailLength m = trailLength n ∧
        beyond (trailLength n) m = beyond (trailLength n) n := by
  simp only [lead, trailLength]
  split_ifs <;> simp only [beyond, true_and] <;> omega

theorem lead_lt (bound : n < 1114112) : lead n < 256 := by
  rw [lead]
  split_ifs <;> omega

theorem utf8EncodeChar_append_lt (h : c < d) :
    String.utf8EncodeChar c ++ x < String.utf8EncodeChar d ++ y := by
  have lower : c.val.toNat < d.val.toNat := h
  rw [utf8EncodeChar_eq, utf8EncodeChar_eq, List.cons_append, List.cons_append,
    List.cons_lt_cons_iff]
  rcases lead_lt_or lower (toNat_lt d) with first | ⟨first, length, same⟩
  · exact .inl (ofNat_lt_ofNat first (lead_lt (toNat_lt d)))
  · rw [first, length]
    exact .inr ⟨rfl, trail_append_lt lower same⟩

theorem bytes_lt_bytes (h : a < b) : bytes a < bytes b := by
  induction a generalizing b with
  | nil =>
      cases b with
      | nil => exact absurd h (List.not_lt_nil [])
      | cons d b =>
          rw [bytes, bytes, List.flatMap_cons, utf8EncodeChar_eq]
          exact List.nil_lt_cons _ _
  | cons c a ih =>
      cases b with
      | nil => exact absurd h (List.not_lt_nil _)
      | cons d b =>
          rw [bytes, bytes, List.flatMap_cons, List.flatMap_cons]
          rcases List.cons_lt_cons_iff.mp h with first | ⟨rfl, later⟩
          · exact utf8EncodeChar_append_lt first
          · exact List.append_left_lt (ih later)

end TrackerLinks.Text
