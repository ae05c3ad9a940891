/-! Texts are lists of characters; places in them are counted in UTF-8 bytes and columns in UTF-16 units. -/

namespace TrackerLinks

abbrev Text := List Char

namespace Text

def size (text : Text) : Nat :=
  text.foldr (fun c bytes => c.utf8Size + bytes) 0

@[simp] theorem size_nil : size [] = 0 := rfl

@[simp] theorem size_cons (c : Char) (text : Text) :
    size (c :: text) = c.utf8Size + size text := rfl

@[simp] theorem size_append (front back : Text) :
    size (front ++ back) = size front + size back := by
  induction front with
  | nil => simp
  | cons c front ih => simp [ih, Nat.add_assoc]

/-- Characters beyond the basic plane take a surrogate pair. -/
def unitCount (c : Char) : Nat :=
  if c.val < 0x10000 then 1 else 2

def units (text : Text) : Nat :=
  text.foldr (fun c taken => unitCount c + taken) 0

@[simp] theorem units_nil : units [] = 0 := rfl

@[simp] theorem units_cons (c : Char) (text : Text) :
    units (c :: text) = unitCount c + units text := rfl

@[simp] theorem units_append (front back : Text) :
    units (front ++ back) = units front + units back := by
  induction front with
  | nil => simp
  | cons c front ih => simp [ih, Nat.add_assoc]

/-- `part` stands in `text` at the byte offset `start`. -/
def OccursAt (part text : Text) (start : Nat) : Prop :=
  ∃ before after, text = before ++ part ++ after ∧ size before = start

/-- `offset` does not fall inside a character of `text`. -/
def IsBoundary (text : Text) (offset : Nat) : Prop :=
  ∃ before after, text = before ++ after ∧ size before = offset

def indexFrom (pattern : Text) (skipped : Nat) : Text → Option Nat
  | [] => if pattern.isEmpty then some skipped else none
  | c :: rest =>
      if pattern.isPrefixOf (c :: rest) then some skipped
      else indexFrom pattern (skipped + 1) rest

/-- How many characters precede the first occurrence of `pattern`. -/
def index? (pattern text : Text) : Option Nat :=
  indexFrom pattern 0 text

def contains (text pattern : Text) : Bool :=
  (index? pattern text).isSome

theorem indexFrom_eq_some_iff (pattern : Text) (skipped n : Nat) (text : Text) :
    indexFrom pattern skipped text = some n ↔
      ∃ k ≤ text.length, n = skipped + k ∧ pattern <+: text.drop k ∧
        ∀ m < k, ¬ pattern <+: text.drop m := by
  induction text generalizing skipped with
  | nil =>
      simp only [indexFrom, List.drop_nil, List.prefix_nil, List.length_nil]
      cases pattern with
      | nil => simp [eq_comm]
      | cons _ _ => simp
  | cons c rest ih =>
      simp only [indexFrom]
      split
      · rename_i found
        rw [List.isPrefixOf_iff_prefix] at found
        constructor
        · rintro ⟨⟩
          exact ⟨0, by simp, by simp, by simpa using found, by simp⟩
        · rintro ⟨k, _, rfl, _, first⟩
          cases k with
          | zero => rfl
          | succ k => exact absurd (by simpa using found) (first 0 (by omega))
      · rename_i missed
        rw [List.isPrefixOf_iff_prefix] at missed
        rw [ih]
        constructor
        · rintro ⟨k, bound, rfl, here, first⟩
          refine ⟨k + 1, by simpa using bound, by omega, by simpa using here, ?_⟩
          intro m before
          cases m with
          | zero => simpa using missed
          | succ m => simpa using first m (by omega)
        · rintro ⟨k, bound, rfl, here, first⟩
          cases k with
          | zero => exact absurd (by simpa using here) missed
          | succ k =>
              refine ⟨k, by simpa using bound, by omega, by simpa using here, ?_⟩
              intro m before
              simpa using first (m + 1) (by omega)

theorem index?_eq_some_iff (pattern text : Text) (n : Nat) :
    index? pattern text = some n ↔
      n ≤ text.length ∧ pattern <+: text.drop n ∧
        ∀ m < n, ¬ pattern <+: text.drop m := by
  rw [index?, indexFrom_eq_some_iff]
  constructor
  · rintro ⟨k, bound, rfl, here, first⟩
    simpa using ⟨bound, here, first⟩
  · rintro ⟨bound, here, first⟩
    exact ⟨n, bound, by simp, here, first⟩

def trimEndWhile (p : Char → Bool) (text : Text) : Text :=
  (text.reverse.dropWhile p).reverse

def dropSuffix? (suffix text : Text) : Option Text :=
  if suffix.isSuffixOf text then some (text.take (text.length - suffix.length)) else none

def dropSuffix (suffix text : Text) : Text :=
  (dropSuffix? suffix text).getD text

/-- The pieces between separators, of which there is one more than separators. -/
def split (separator : Char) (text : Text) : List Text :=
  text.foldr (fun c pieces =>
    if c = separator then [] :: pieces
    else
      match pieces with
      | [] => [[c]]
      | piece :: more => (c :: piece) :: more) [[]]

@[simp] theorem split_nil (separator : Char) : split separator [] = [[]] := rfl

theorem split_ne_nil (separator : Char) (text : Text) : split separator text ≠ [] := by
  cases text with
  | nil => simp
  | cons c rest =>
      simp only [split, List.foldr_cons]
      split
      · simp
      · split <;> simp

def joined (separator : Text) (pieces : List Text) : Text :=
  pieces.intersperse separator |>.flatten

end Text

end TrackerLinks
