import TrackerLinks.Toml.Value

namespace TrackerLinks.Toml

inductive Statement
  | entry (keys : List Text) (value : Value)
  | header (keys : List Text)
  deriving DecidableEq

def keys? : Reader (List Text) :=
  separated '.' (spaced key?) (spaced_shortens key?_shortens)

theorem keys?_shortens : keys?.Shortens :=
  separated_shortens '.' (spaced_shortens key?_shortens)

/-- The keys of a header after its opening bracket. -/
def header? : Reader (List Text) := fun text => do
  let (keys, rest) ← keys? text
  return (keys, ← expect? ']' rest)

theorem header?_shortens : header?.Shortens := by
  intro text found rest read
  simp only [header?, Option.bind_eq_bind, Option.bind_eq_some_iff] at read
  obtain ⟨⟨keys, _⟩, keysRead, _, closed, result⟩ := read
  cases result
  exact Nat.le_trans (Nat.le_of_lt (expect?_length_lt closed)) (keys?_shortens _ _ _ keysRead)

def assignment? : Reader (List Text × Value) := fun text => do
  let (keys, rest) ← keys? text
  let (value, rest) ← value? (skipSpaces (← expect? '=' rest))
  return ((keys, value), rest)

theorem assignment?_length_lt {text rest : Text} {found : List Text × Value}
    (h : assignment? text = some (found, rest)) : rest.length < text.length := by
  simp only [assignment?, Option.bind_eq_bind, Option.bind_eq_some_iff] at h
  obtain ⟨⟨keys, _⟩, keysRead, after, equals, ⟨value, _⟩, valueRead, result⟩ := h
  cases result
  exact Nat.lt_of_le_of_lt
    (Nat.le_trans (value?_shortens _ _ _ valueRead) (skipSpaces_length_le after))
    (Nat.lt_of_lt_of_le (expect?_length_lt equals) (keys?_shortens _ _ _ keysRead))

def statement? : Reader Statement
  | '[' :: rest => (header? rest).map fun (keys, rest) => (.header keys, rest)
  | text => (assignment? text).map fun ((keys, value), rest) => (.entry keys value, rest)

theorem statement?_length_lt {text rest : Text} {found : Statement}
    (h : statement? text = some (found, rest)) : rest.length < text.length := by
  unfold statement? at h
  split at h
  · obtain ⟨⟨keys, _⟩, keysRead, result⟩ := Option.map_eq_some_iff.mp h
    cases result
    exact Nat.lt_succ_of_le (header?_shortens _ _ _ keysRead)
  · obtain ⟨⟨⟨keys, value⟩, _⟩, entryRead, result⟩ := Option.map_eq_some_iff.mp h
    cases result
    exact assignment?_length_lt entryRead

/-- The statement of one line, if it makes one, and the lines after it. -/
def line? : Reader (Option Statement) := fun text =>
  match lineEnd? text with
  | some rest => some (none, rest)
  | none => do
      let (statement, rest) ← statement? (skipSpaces text)
      return (some statement, ← lineEnd? rest)

theorem line?_length_lt {text rest : Text} {found : Option Statement}
    (h : line? text = some (found, rest)) (nonempty : text ≠ []) : rest.length < text.length := by
  unfold line? at h
  split at h
  · rename_i ended
    cases h
    exact lineEnd?_length_lt ended nonempty
  · simp only [Option.bind_eq_bind, Option.bind_eq_some_iff] at h
    obtain ⟨⟨statement, _⟩, statementRead, _, ended, result⟩ := h
    cases result
    exact Nat.lt_of_le_of_lt (lineEnd?_length_le ended)
      (Nat.lt_of_lt_of_le (statement?_length_lt statementRead) (skipSpaces_length_le text))

def statementsFrom? (text : Text) : Option (List Statement) :=
  if _nonempty : text = [] then some []
  else
    match _found : line? text with
    | none => none
    | some (statement, rest) => (statementsFrom? rest).map (statement.toList ++ ·)
termination_by text.length
decreasing_by exact line?_length_lt _found _nonempty

/-- The statements of a document, which may start with a byte order mark. -/
def statements? : Text → Option (List Statement)
  | '\ufeff' :: rest => statementsFrom? rest
  | text => statementsFrom? text

end TrackerLinks.Toml
