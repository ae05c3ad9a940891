import TrackerLinks.Text.Digits
import TrackerLinks.Text.Hidden

/-! Texts in quotes on one line, with escapes for what would end the text or the line or not show. -/

namespace TrackerLinks.Text

def escape (c : Char) : Text :=
  match c with
  | '\x00' => ['\\', '0']
  | '\t' => ['\\', 't']
  | '\r' => ['\\', 'r']
  | '\n' => ['\\', 'n']
  | '\\' => ['\\', '\\']
  | '"' => ['\\', '"']
  | _ => if isHidden c then "\\u\x7b".toList ++ hexadecimal c.toNat ++ "\x7d".toList else [c]

def quote (text : Text) : Text :=
  '"' :: (text.flatMap escape ++ ['"'])

/-- One character of a quoted text, and what follows it. -/
def unescape? : Text → Option (Char × Text)
  | '\\' :: '0' :: rest => some ('\x00', rest)
  | '\\' :: 't' :: rest => some ('\t', rest)
  | '\\' :: 'r' :: rest => some ('\r', rest)
  | '\\' :: 'n' :: rest => some ('\n', rest)
  | '\\' :: '\\' :: rest => some ('\\', rest)
  | '\\' :: '"' :: rest => some ('"', rest)
  | '\\' :: 'u' :: '\x7b' :: rest =>
      match rest.dropWhile (isDigitOf 16) with
      | '\x7d' :: after => (charOfHex? (rest.takeWhile (isDigitOf 16))).map (·, after)
      | _ => none
  | '\\' :: _ => none
  | c :: rest => some (c, rest)
  | [] => none

theorem unescape?_length_lt {text rest : Text} {c : Char}
    (h : unescape? text = some (c, rest)) : rest.length < text.length := by
  unfold unescape? at h
  split at h
  all_goals first
    | (cases h; done)
    | (cases h; simp only [List.length_cons]; omega)
    | skip
  rename_i tail
  split at h
  · rename_i after close
    obtain ⟨_, _, found⟩ := Option.map_eq_some_iff.mp h
    cases found
    have shorter := (List.dropWhile_suffix (isDigitOf 16) (l := tail)).length_le
    rw [close] at shorter
    simp only [List.length_cons] at shorter ⊢
    omega
  · cases h

/-- The text after its opening quote, up to a closing quote at the end. -/
def unquoteBody? (text : Text) : Option Text :=
  if text = ['"'] then some []
  else if text.head? = some '"' then none
  else
    match _found : unescape? text with
    | none => none
    | some (c, rest) => (unquoteBody? rest).map (c :: ·)
termination_by text.length
decreasing_by exact unescape?_length_lt _found

def unquote? : Text → Option Text
  | '"' :: rest => unquoteBody? rest
  | _ => none

end TrackerLinks.Text
