import TrackerLinks.Toml.Moment.Reader
import TrackerLinks.Toml.Number
import TrackerLinks.Toml.Quoted

namespace TrackerLinks.Toml

inductive Value
  | text (text : Text)
  | number (n : Nat)
  | moment (moment : Moment)
  | list (items : List Text)
  | table (entries : List (Text × Text))
  deriving DecidableEq

def isBareKeyChar (c : Char) : Bool :=
  c.isAlphanum || c = '_' || c = '-'

def key? : Reader Text := fun text =>
  match text with
  | '"' :: rest => basicBody? rest
  | '\'' :: rest => literalBody? rest
  | _ =>
      match text.takeWhile isBareKeyChar with
      | [] => none
      | bare => some (bare, text.dropWhile isBareKeyChar)

theorem key?_shortens : key?.Shortens := by
  intro text found rest read
  unfold key? at read
  split at read
  · exact Nat.le_succ_of_le (basicBody?_shortens _ _ _ read)
  · exact Nat.le_succ_of_le (literalBody?_shortens _ _ _ read)
  · split at read
    · cases read
    · cases read
      exact (List.dropWhile_suffix _).length_le

/-- An item of a list, or none before the closing bracket. -/
def item? : Reader (Option Text) := fun text =>
  match skipGap text with
  | ']' :: rest => some (none, ']' :: rest)
  | start => (quoted? start).map fun (item, rest) => (some item, skipGap rest)

theorem item?_shortens : item?.Shortens := by
  intro text found rest read
  have gap := skipGap_length_le text
  unfold item? at read
  split at read
  · rename_i closed
    cases read
    rw [closed] at gap
    exact gap
  · obtain ⟨⟨item, after⟩, itemRead, result⟩ := Option.map_eq_some_iff.mp read
    cases result
    exact Nat.le_trans (skipGap_length_le after)
      (Nat.le_trans (quoted?_shortens _ _ _ itemRead) gap)

def list? : Reader (List Text) := fun text => do
  let (items, rest) ← separated ',' item? item?_shortens text
  return (items.filterMap id, ← expect? ']' rest)

theorem list?_shortens : list?.Shortens := by
  intro text found rest read
  simp only [list?, Option.bind_eq_bind, Option.bind_eq_some_iff] at read
  obtain ⟨⟨items, _⟩, itemsRead, _, closed, result⟩ := read
  cases result
  exact Nat.le_trans (Nat.le_of_lt (expect?_length_lt closed))
    (separated_shortens ',' item?_shortens _ _ _ itemsRead)

def pair? : Reader (Text × Text) := fun text => do
  let (key, rest) ← spaced key? text
  let (value, rest) ← spaced quoted? (← expect? '=' rest)
  return ((key, value), rest)

theorem pair?_shortens : pair?.Shortens := by
  intro text found rest read
  simp only [pair?, Option.bind_eq_bind, Option.bind_eq_some_iff] at read
  obtain ⟨⟨key, _⟩, keyRead, _, equals, ⟨value, _⟩, valueRead, result⟩ := read
  cases result
  exact Nat.le_trans (spaced_shortens quoted?_shortens _ _ _ valueRead)
    (Nat.le_trans (Nat.le_of_lt (expect?_length_lt equals))
      (spaced_shortens key?_shortens _ _ _ keyRead))

def pairs? : Reader (List (Text × Text)) := fun text =>
  match skipSpaces text with
  | '\x7d' :: rest => some ([], '\x7d' :: rest)
  | _ => separated ',' pair? pair?_shortens text

theorem pairs?_shortens : pairs?.Shortens := by
  intro text found rest read
  have spaces := skipSpaces_length_le text
  unfold pairs? at read
  split at read
  · rename_i closed
    cases read
    rw [closed] at spaces
    exact spaces
  · exact separated_shortens ',' pair?_shortens _ _ _ read

def table? : Reader (List (Text × Text)) := fun text => do
  let (entries, rest) ← pairs? text
  return (entries, ← expect? '\x7d' rest)

theorem table?_shortens : table?.Shortens := by
  intro text found rest read
  simp only [table?, Option.bind_eq_bind, Option.bind_eq_some_iff] at read
  obtain ⟨⟨entries, _⟩, entriesRead, _, closed, result⟩ := read
  cases result
  exact Nat.le_trans (Nat.le_of_lt (expect?_length_lt closed))
    (pairs?_shortens _ _ _ entriesRead)

/-- A moment, or else a number, which may start with the same digits. -/
def scalar? : Reader Value := fun text =>
  match moment? text with
  | some (moment, rest) => some (.moment moment, rest)
  | none => (number? text).map fun (n, rest) => (.number n, rest)

theorem scalar?_shortens : scalar?.Shortens := by
  intro text found rest read
  unfold scalar? at read
  split at read
  · rename_i momentRead
    cases read
    exact moment?_shortens _ _ _ momentRead
  · obtain ⟨⟨n, _⟩, numberRead, result⟩ := Option.map_eq_some_iff.mp read
    cases result
    exact number?_shortens _ _ _ numberRead

def value? : Reader Value := fun text =>
  match text with
  | '[' :: rest => (list? rest).map fun (items, rest) => (.list items, rest)
  | '\x7b' :: rest => (table? rest).map fun (entries, rest) => (.table entries, rest)
  | '"' :: _ | '\'' :: _ => (quoted? text).map fun (found, rest) => (.text found, rest)
  | _ => scalar? text

theorem value?_shortens : value?.Shortens := by
  intro text found rest read
  unfold value? at read
  split at read
  · obtain ⟨⟨items, _⟩, itemsRead, result⟩ := Option.map_eq_some_iff.mp read
    cases result
    exact Nat.le_succ_of_le (list?_shortens _ _ _ itemsRead)
  · obtain ⟨⟨entries, _⟩, entriesRead, result⟩ := Option.map_eq_some_iff.mp read
    cases result
    exact Nat.le_succ_of_le (table?_shortens _ _ _ entriesRead)
  · obtain ⟨⟨item, _⟩, itemRead, result⟩ := Option.map_eq_some_iff.mp read
    cases result
    exact quoted?_shortens _ _ _ itemRead
  · obtain ⟨⟨item, _⟩, itemRead, result⟩ := Option.map_eq_some_iff.mp read
    cases result
    exact quoted?_shortens _ _ _ itemRead
  · exact scalar?_shortens _ _ _ read

end TrackerLinks.Toml
