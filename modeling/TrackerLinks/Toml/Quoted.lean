import TrackerLinks.Text.Digits
import TrackerLinks.Toml.Space

/-! The four kinds of quoted text: basic ones know escapes, literal ones do not, and each has a form
that runs over lines. -/

namespace TrackerLinks.Toml

def escape? : Reader Char
  | 'b' :: rest => some ('\x08', rest)
  | 't' :: rest => some ('\t', rest)
  | 'n' :: rest => some ('\n', rest)
  | 'f' :: rest => some ('\x0c', rest)
  | 'r' :: rest => some ('\r', rest)
  | '"' :: rest => some ('"', rest)
  | '\\' :: rest => some ('\\', rest)
  | 'u' :: rest =>
      if (rest.take 4).length < 4 then none
      else (Text.charOfHex? (rest.take 4)).map (·, rest.drop 4)
  | 'U' :: rest =>
      if (rest.take 8).length < 8 then none
      else (Text.charOfHex? (rest.take 8)).map (·, rest.drop 8)
  | _ => none

theorem escape?_length_lt {text rest : Text} {c : Char} (h : escape? text = some (c, rest)) :
    rest.length < text.length := by
  unfold escape? at h
  split at h
  all_goals first
    | (cases h; done)
    | (cases h; exact Nat.lt_succ_self _)
    | (split at h
       · cases h
       · obtain ⟨_, _, rfl, rfl⟩ := Option.map_eq_some_iff.mp h
         exact Nat.lt_succ_of_le (List.drop_suffix _ _).length_le)

def before (c : Char) (found : Option (Text × Text)) : Option (Text × Text) :=
  found.map fun (text, rest) => (c :: text, rest)

theorem eq_some_of_before {c : Char} {found : Option (Text × Text)} {text rest : Text}
    (h : before c found = some (text, rest)) : ∃ inner, found = some (inner, rest) := by
  obtain ⟨⟨inner, _⟩, read, result⟩ := Option.map_eq_some_iff.mp h
  cases result
  exact ⟨inner, read⟩

/-- The rest of a basic text after its opening quote. -/
def basicBody? (text : Text) : Option (Text × Text) :=
  match text with
  | [] => none
  | '"' :: rest => some ([], rest)
  | '\\' :: rest =>
      match _found : escape? rest with
      | none => none
      | some (c, after) => before c (basicBody? after)
  | c :: rest => if isInline c then before c (basicBody? rest) else none
termination_by text.length
decreasing_by
  · exact Nat.lt_succ_of_lt (escape?_length_lt _found)
  · simp

theorem basicBody?_shortens : Reader.Shortens basicBody? := by
  intro text
  fun_induction basicBody? text with
  | case1 => simp
  | case2 => simp
  | case3 => simp
  | case4 rest c after found ih =>
      intro _ last read
      obtain ⟨_, read⟩ := eq_some_of_before read
      have escape := escape?_length_lt found
      have body := ih _ _ read
      simp only [List.length_cons]
      omega
  | case5 c rest _ _ _ ih =>
      intro _ last read
      obtain ⟨_, read⟩ := eq_some_of_before read
      exact Nat.le_succ_of_le (ih _ _ read)
  | case6 => simp

def skipBlankLines : Text → Text
  | '\r' :: '\n' :: rest => skipBlankLines rest
  | c :: rest => if isSpace c || c = '\n' then skipBlankLines rest else c :: rest
  | [] => []

theorem skipBlankLines_length_le (text : Text) : (skipBlankLines text).length ≤ text.length := by
  fun_induction skipBlankLines text with
  | case1 rest ih => simp only [List.length_cons]; omega
  | case2 c rest _ _ ih => simp only [List.length_cons]; omega
  | case3 => exact Nat.le_refl _
  | case4 => exact Nat.le_refl _

/-- The rest of a basic text over lines after its first line break. A backslash at the end of a line
takes the white space after it away, and up to two quotes may stand before the closing ones. -/
def basicLines? (text : Text) : Option (Text × Text) :=
  match text with
  | [] => none
  | '"' :: '"' :: '"' :: '"' :: '"' :: rest => some (['"', '"'], rest)
  | '"' :: '"' :: '"' :: '"' :: rest => some (['"'], rest)
  | '"' :: '"' :: '"' :: rest => some ([], rest)
  | '\\' :: rest =>
      match _wrapped : newline? (skipSpaces rest) with
      | some after => basicLines? (skipBlankLines after)
      | none =>
          match _found : escape? rest with
          | none => none
          | some (c, after) => before c (basicLines? after)
  | '\r' :: '\n' :: rest => before '\n' (basicLines? rest)
  | c :: rest => if isInline c || c = '\n' then before c (basicLines? rest) else none
termination_by text.length
decreasing_by
  · exact Nat.lt_succ_of_lt (Nat.lt_of_le_of_lt (skipBlankLines_length_le after)
      (Nat.lt_of_lt_of_le (newline?_length_lt _wrapped) (skipSpaces_length_le rest)))
  · exact Nat.lt_succ_of_lt (escape?_length_lt _found)
  · simp only [List.length_cons]; omega
  · simp

theorem basicLines?_shortens : Reader.Shortens basicLines? := by
  intro text
  fun_induction basicLines? text with
  | case1 => simp
  | case2 => rintro _ _ ⟨⟩; simp only [List.length_cons]; omega
  | case3 => rintro _ _ ⟨⟩; simp only [List.length_cons]; omega
  | case4 => rintro _ _ ⟨⟩; simp only [List.length_cons]; omega
  | case5 rest after wrapped ih =>
      intro _ last read
      have spaces := skipSpaces_length_le rest
      have newline := newline?_length_lt wrapped
      have blank := skipBlankLines_length_le after
      have body := ih _ _ read
      simp only [List.length_cons]
      omega
  | case6 => simp
  | case7 rest _ c after found ih =>
      intro _ last read
      obtain ⟨_, read⟩ := eq_some_of_before read
      have escape := escape?_length_lt found
      have body := ih _ _ read
      simp only [List.length_cons]
      omega
  | case8 rest ih =>
      intro _ last read
      obtain ⟨_, read⟩ := eq_some_of_before read
      exact Nat.le_succ_of_le (Nat.le_succ_of_le (ih _ _ read))
  | case9 c rest _ _ _ _ _ _ ih =>
      intro _ last read
      obtain ⟨_, read⟩ := eq_some_of_before read
      exact Nat.le_succ_of_le (ih _ _ read)
  | case10 => simp

def literalBody? : Text → Option (Text × Text)
  | [] => none
  | '\'' :: rest => some ([], rest)
  | c :: rest => if isInline c then before c (literalBody? rest) else none

theorem literalBody?_shortens : Reader.Shortens literalBody? := by
  intro text
  fun_induction literalBody? text with
  | case1 => simp
  | case2 => simp
  | case3 c rest _ _ ih =>
      intro _ last read
      obtain ⟨_, read⟩ := eq_some_of_before read
      exact Nat.le_succ_of_le (ih _ _ read)
  | case4 => simp

def literalLines? : Text → Option (Text × Text)
  | [] => none
  | '\'' :: '\'' :: '\'' :: '\'' :: '\'' :: rest => some (['\'', '\''], rest)
  | '\'' :: '\'' :: '\'' :: '\'' :: rest => some (['\''], rest)
  | '\'' :: '\'' :: '\'' :: rest => some ([], rest)
  | '\r' :: '\n' :: rest => before '\n' (literalLines? rest)
  | c :: rest => if isInline c || c = '\n' then before c (literalLines? rest) else none

theorem literalLines?_shortens : Reader.Shortens literalLines? := by
  intro text
  fun_induction literalLines? text with
  | case1 => simp
  | case2 => rintro _ _ ⟨⟩; simp only [List.length_cons]; omega
  | case3 => rintro _ _ ⟨⟩; simp only [List.length_cons]; omega
  | case4 => rintro _ _ ⟨⟩; simp only [List.length_cons]; omega
  | case5 rest ih =>
      intro _ last read
      obtain ⟨_, read⟩ := eq_some_of_before read
      exact Nat.le_succ_of_le (Nat.le_succ_of_le (ih _ _ read))
  | case6 c rest _ _ _ _ _ ih =>
      intro _ last read
      obtain ⟨_, read⟩ := eq_some_of_before read
      exact Nat.le_succ_of_le (ih _ _ read)
  | case7 => simp

/-- A line break right after the opening quotes is not part of the text. -/
def skipFirstNewline (text : Text) : Text :=
  (newline? text).getD text

theorem skipFirstNewline_length_le (text : Text) :
    (skipFirstNewline text).length ≤ text.length := by
  unfold skipFirstNewline
  cases found : newline? text with
  | none => exact Nat.le_refl _
  | some rest => exact Nat.le_of_lt (newline?_length_lt found)

def quoted? : Reader Text
  | '"' :: '"' :: '"' :: rest => basicLines? (skipFirstNewline rest)
  | '"' :: rest => basicBody? rest
  | '\'' :: '\'' :: '\'' :: rest => literalLines? (skipFirstNewline rest)
  | '\'' :: rest => literalBody? rest
  | _ => none

theorem quoted?_shortens : Reader.Shortens quoted? := by
  intro text found rest read
  unfold quoted? at read
  split at read
  · rename_i inner
    have first := skipFirstNewline_length_le inner
    have lines := basicLines?_shortens _ _ _ read
    simp only [List.length_cons]
    omega
  · exact Nat.le_succ_of_le (basicBody?_shortens _ _ _ read)
  · rename_i inner
    have first := skipFirstNewline_length_le inner
    have lines := literalLines?_shortens _ _ _ read
    simp only [List.length_cons]
    omega
  · exact Nat.le_succ_of_le (literalBody?_shortens _ _ _ read)
  · cases read

end TrackerLinks.Toml
