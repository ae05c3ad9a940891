import TrackerLinks.Text.Blank

/-! References to issues, written `(#42)`, with white space allowed around each part. -/

namespace TrackerLinks

structure Spelling where
  beforeHash : Text
  afterHash : Text
  number : Text
  afterNumber : Text
  deriving DecidableEq

namespace Spelling

def text (spelling : Spelling) : Text :=
  '(' :: (spelling.beforeHash ++
    '#' :: (spelling.afterHash ++ (spelling.number ++ (spelling.afterNumber ++ [')']))))

def isDigit (c : Char) : Bool :=
  '0' ≤ c && c ≤ '9'

/-- The number is a run of ASCII digits, and the rest of the padding is white space. -/
structure WellFormed (spelling : Spelling) : Prop where
  beforeHash : ∀ c ∈ spelling.beforeHash, Text.isBlank c
  afterHash : ∀ c ∈ spelling.afterHash, Text.isBlank c
  number : ∀ c ∈ spelling.number, isDigit c
  number_ne_nil : spelling.number ≠ []
  afterNumber : ∀ c ∈ spelling.afterNumber, Text.isBlank c

/-- The reference at the head of a text, and what follows it. -/
def ofText? : Text → Option (Spelling × Text)
  | '(' :: afterParen =>
      match afterParen.dropWhile Text.isBlank with
      | '#' :: afterHash =>
          let digits := afterHash.dropWhile Text.isBlank
          let afterDigits := digits.dropWhile isDigit
          match digits.takeWhile isDigit, afterDigits.dropWhile Text.isBlank with
          | first :: more, ')' :: rest =>
              some (⟨afterParen.takeWhile Text.isBlank, afterHash.takeWhile Text.isBlank,
                first :: more, afterDigits.takeWhile Text.isBlank⟩, rest)
          | _, _ => none
      | _ => none
  | _ => none

theorem eq_append_of_ofText? {text rest : Text} {spelling : Spelling}
    (h : ofText? text = some (spelling, rest)) : text = spelling.text ++ rest := by
  unfold ofText? at h
  split at h
  · rename_i afterParen
    split at h
    · rename_i afterHash hash
      dsimp only at h
      split at h
      · rename_i first more after digits close
        cases h
        have paren := List.takeWhile_append_dropWhile (p := Text.isBlank) (l := afterParen)
        have blank := List.takeWhile_append_dropWhile (p := Text.isBlank) (l := afterHash)
        have number := List.takeWhile_append_dropWhile (p := isDigit)
          (l := afterHash.dropWhile Text.isBlank)
        have tail := List.takeWhile_append_dropWhile (p := Text.isBlank)
          (l := (afterHash.dropWhile Text.isBlank).dropWhile isDigit)
        rw [hash] at paren
        rw [digits] at number
        rw [close] at tail
        calc '(' :: afterParen
          _ = '(' :: (afterParen.takeWhile Text.isBlank ++ '#' :: afterHash) := by rw [paren]
          _ = '(' :: (afterParen.takeWhile Text.isBlank ++ '#' ::
                (afterHash.takeWhile Text.isBlank ++ afterHash.dropWhile Text.isBlank)) := by
              rw [blank]
          _ = _ := by
              conv => lhs; rw [← number]
              simp [Spelling.text, tail]
      · cases h
    · cases h
  · cases h

theorem text_length_pos (spelling : Spelling) : 0 < spelling.text.length := by
  simp [Spelling.text]

end Spelling

structure Reference where
  start : Nat
  spelling : Spelling
  deriving DecidableEq

namespace Reference

def stop (reference : Reference) : Nat :=
  reference.start + Text.size reference.spelling.text

def number (reference : Reference) : Text :=
  reference.spelling.number

def inTextFrom (offset : Nat) : Text → List Reference
  | [] => []
  | c :: rest =>
      match _found : Spelling.ofText? (c :: rest) with
      | none => inTextFrom (offset + c.utf8Size) rest
      | some (spelling, after) =>
          ⟨offset, spelling⟩ :: inTextFrom (offset + Text.size spelling.text) after
termination_by text => text.length
decreasing_by
  · simp
  · have parts := congrArg List.length (Spelling.eq_append_of_ofText? _found)
    have nonempty := spelling.text_length_pos
    simp only [List.length_append] at parts
    omega

theorem inTextFrom_of_ofText?_eq_none {c : Char} {rest : Text} (offset : Nat)
    (h : Spelling.ofText? (c :: rest) = none) :
    inTextFrom offset (c :: rest) = inTextFrom (offset + c.utf8Size) rest := by
  rw [inTextFrom]
  split
  · rfl
  · simp_all

theorem inTextFrom_of_ofText?_eq_some {c : Char} {rest after : Text} {spelling : Spelling}
    (offset : Nat) (h : Spelling.ofText? (c :: rest) = some (spelling, after)) :
    inTextFrom offset (c :: rest) =
      ⟨offset, spelling⟩ :: inTextFrom (offset + Text.size spelling.text) after := by
  rw [inTextFrom]
  split
  · simp_all
  · simp_all

def inText (text : Text) : List Reference :=
  inTextFrom 0 text

end Reference

end TrackerLinks
