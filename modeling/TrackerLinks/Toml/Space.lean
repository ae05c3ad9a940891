import TrackerLinks.Text.Basic

/-! What stands between the words of a TOML document. A reader gives what it read and the rest. -/

namespace TrackerLinks.Toml

abbrev Reader (α : Type) := Text → Option (α × Text)

def Reader.Shortens (reader : Reader α) : Prop :=
  ∀ text found rest, reader text = some (found, rest) → rest.length ≤ text.length

/-- What a line may hold: all but control characters, the tab apart. -/
def isInline (c : Char) : Bool :=
  c = '\t' || (' ' ≤ c && c ≠ '\x7f')

def isSpace (c : Char) : Bool :=
  c = ' ' || c = '\t'

def skipSpaces (text : Text) : Text :=
  text.dropWhile isSpace

def newline? : Text → Option Text
  | '\n' :: rest => some rest
  | '\r' :: '\n' :: rest => some rest
  | _ => none

def skipComment : Text → Text
  | '#' :: rest => rest.dropWhile isInline
  | text => text

/-- The text after the end of a line that holds nothing more than a comment. -/
def lineEnd? (text : Text) : Option Text :=
  match skipComment (skipSpaces text) with
  | [] => some []
  | rest => newline? rest

theorem skipSpaces_length_le (text : Text) : (skipSpaces text).length ≤ text.length :=
  (List.dropWhile_suffix _).length_le

theorem newline?_length_lt {text rest : Text} (h : newline? text = some rest) :
    rest.length < text.length := by
  unfold newline? at h
  split at h <;> cases h
  all_goals simp only [List.length_cons]; omega

theorem skipComment_length_le (text : Text) : (skipComment text).length ≤ text.length := by
  unfold skipComment
  split
  · exact Nat.le_succ_of_le (List.dropWhile_suffix _).length_le
  · exact Nat.le_refl _

theorem lineEnd?_length_lt {text rest : Text} (h : lineEnd? text = some rest)
    (nonempty : text ≠ []) : rest.length < text.length := by
  have spaces := skipSpaces_length_le text
  have comment := skipComment_length_le (skipSpaces text)
  unfold lineEnd? at h
  split at h
  · cases h
    exact List.length_pos_iff.mpr nonempty
  · have newline := newline?_length_lt h
    omega

theorem lineEnd?_length_le {text rest : Text} (h : lineEnd? text = some rest) :
    rest.length ≤ text.length := by
  by_cases nonempty : text = []
  · subst nonempty
    cases h
    exact Nat.le_refl _
  · exact Nat.le_of_lt (lineEnd?_length_lt h nonempty)

def skipGap (text : Text) : Text :=
  match _found : newline? (skipComment (skipSpaces text)) with
  | some rest => skipGap rest
  | none => skipSpaces text
termination_by text.length
decreasing_by
  exact Nat.lt_of_lt_of_le (newline?_length_lt _found)
    (Nat.le_trans (skipComment_length_le _) (skipSpaces_length_le _))

theorem skipGap_length_le (text : Text) : (skipGap text).length ≤ text.length := by
  fun_induction skipGap text with
  | case1 text rest found ih =>
      have newline := newline?_length_lt found
      have comment := skipComment_length_le (skipSpaces text)
      have spaces := skipSpaces_length_le text
      omega
  | case2 text _ => exact skipSpaces_length_le text

def expect? (c : Char) : Text → Option Text
  | [] => none
  | first :: rest => if first = c then some rest else none

theorem expect?_length_lt {c : Char} {text rest : Text} (h : expect? c text = some rest) :
    rest.length < text.length := by
  unfold expect? at h
  split at h
  · cases h
  · split at h
    · cases h
      exact Nat.lt_succ_self _
    · cases h

def spaced (reader : Reader α) : Reader α := fun text => do
  let (found, rest) ← reader (skipSpaces text)
  return (found, skipSpaces rest)

theorem spaced_shortens {reader : Reader α} (h : reader.Shortens) : (spaced reader).Shortens := by
  intro text found rest read
  simp only [spaced, Option.bind_eq_bind, Option.bind_eq_some_iff] at read
  obtain ⟨⟨inner, after⟩, read, result⟩ := read
  cases result
  exact Nat.le_trans (skipSpaces_length_le after)
    (Nat.le_trans (h _ _ _ read) (skipSpaces_length_le text))

def separated (separator : Char) (item : Reader α) (shortens : item.Shortens) (text : Text) :
    Option (List α × Text) :=
  match _found : item text with
  | none => none
  | some (first, rest) =>
      match _more : expect? separator rest with
      | none => some ([first], rest)
      | some after =>
          (separated separator item shortens after).map fun (more, last) => (first :: more, last)
termination_by text.length
decreasing_by exact Nat.lt_of_lt_of_le (expect?_length_lt _more) (shortens _ _ _ _found)

theorem separated_shortens {item : Reader α} (separator : Char) (shortens : item.Shortens) :
    Reader.Shortens (separated separator item shortens) := by
  intro text
  fun_induction separated separator item shortens text with
  | case1 => simp
  | case2 text first rest found _ =>
      intro items last read
      cases read
      exact shortens _ _ _ found
  | case3 text first rest found after more ih =>
      intro items last read
      simp only [Option.map_eq_some_iff] at read
      obtain ⟨⟨inner, last⟩, read, result⟩ := read
      cases result
      exact Nat.le_trans (ih _ _ read)
        (Nat.le_trans (Nat.le_of_lt (expect?_length_lt more)) (shortens _ _ _ found))

end TrackerLinks.Toml
