import TrackerLinks.Proofs.Text.Digits
import TrackerLinks.Settings

namespace TrackerLinks

namespace Toml

variable {base n : Nat} {digits key text rest : Text} {c separator : Char}

theorem expect?_of_not_mem (absent : c ∉ text) : expect? c text = none := by
  cases text with
  | nil => rfl
  | cons first rest =>
      rw [expect?, if_neg]
      rintro rfl
      exact absent List.mem_cons_self

theorem moreDigits_of_digits (inside : ∀ c ∈ digits, Text.isDigitOf base c) (high : base ≤ 16) :
    moreDigits base digits = (digits, []) := by
  induction digits with
  | nil => rfl
  | cons c digits ih =>
      obtain ⟨first, later⟩ := List.forall_mem_cons.mp inside
      have ne_score : c ≠ '_' := by
        rintro rfl
        rw [Text.isDigitOf, decide_eq_true_eq] at first
        exact absurd first (by simp [Text.digitValue]; omega)
      rw [moreDigits]
      · simp only [if_pos first, ih later]
      · intro d rest score _
        exact ne_score score

theorem digits?_of_digits (nonempty : digits ≠ []) (inside : ∀ c ∈ digits, Text.isDigitOf base c)
    (high : base ≤ 16) : digits? base digits = some (Text.ofDigits base digits, []) := by
  obtain ⟨c, digits, rfl⟩ := List.exists_cons_of_ne_nil nonempty
  obtain ⟨first, later⟩ := List.forall_mem_cons.mp inside
  simp only [digits?, if_pos first, moreDigits_of_digits later high]

/-- Digits without a dash and a colon between them are no moment. -/
theorem moment?_of_digits (inside : ∀ c ∈ digits, Text.isDigitOf 10 c) : moment? digits = none := by
  have absent (c : Char) (other : Text.isDigitOf 10 c = false) (count : Nat) :
      expect? c (digits.drop count) = none := by
    apply expect?_of_not_mem
    intro member
    rw [inside c (List.mem_of_mem_drop member)] at other
    cases other
  have fixed {count year : Nat} {rest : Text}
      (read : fixedDigits? count digits = some (year, rest)) : rest = digits.drop count := by
    simp only [fixedDigits?] at read
    split at read
    · cases read
      rfl
    · cases read
  have noDate : date? digits = none := by
    cases read : fixedDigits? 4 digits with
    | none => simp [date?, read]
    | some found =>
        obtain ⟨year, rest⟩ := found
        obtain rfl := fixed read
        simp [date?, read, absent '-' (by decide)]
  have noTime : time? digits = none := by
    cases read : between? 0 23 digits with
    | none => simp [time?, read]
    | some found =>
        obtain ⟨hour, rest⟩ := found
        obtain rfl := fixed (Option.filter_eq_some_iff.mp read).1
        simp [time?, read, absent ':' (by decide)]
  rw [moment?, noDate, noTime]
  rfl

theorem decimal?_decimal (n : Nat) : decimal? (Text.decimal n) = some (n, []) := by
  rcases Nat.eq_zero_or_pos n with rfl | pos
  · rw [Text.decimal_zero]
    rfl
  have first := Text.head_decimal_ne_zero pos
  unfold decimal?
  split
  · rename_i zero
    rw [zero] at first
    exact absurd rfl (first '0' rfl)
  · rw [digits?_of_digits (Text.decimal_ne_nil n) (Text.forall_mem_decimal n) (by decide),
      Text.ofDigits_decimal]

theorem numeral?_of_head (plain : ∀ c ∈ text.head?, c ≠ '0' ∧ c ≠ '+' ∧ c ≠ '-') :
    numeral? text = decimal? text := by
  unfold numeral?
  split
  case h_6 => rfl
  all_goals simp at plain

theorem numeral?_decimal (n : Nat) : numeral? (Text.decimal n) = some (n, []) := by
  rcases Nat.eq_zero_or_pos n with rfl | pos
  · rw [Text.decimal_zero]
    rfl
  rw [numeral?_of_head, decimal?_decimal]
  intro c first
  have digit := Text.forall_mem_decimal n c (List.mem_of_mem_head? first)
  refine ⟨Text.head_decimal_ne_zero pos c first, ?_, ?_⟩
  · rintro rfl
    exact absurd digit (by decide)
  · rintro rfl
    exact absurd digit (by decide)

theorem scalar?_decimal (bound : n ≤ largestNumber) :
    scalar? (Text.decimal n) = some (.number n, []) := by
  rw [scalar?, moment?_of_digits (Text.forall_mem_decimal n), number?, numeral?_decimal,
    Option.filter_some, if_pos (decide_eq_true bound)]
  rfl

theorem value?_of_head (digit : ∀ c ∈ text.head?, Text.isDigitOf 10 c) :
    value? text = scalar? text := by
  unfold value?
  split
  case h_5 => rfl
  all_goals exact absurd (digit _ rfl) (by decide)

theorem separated_of_last {item : Reader α} {shortens : item.Shortens} {first : α}
    (read : item text = some (first, rest)) (last : expect? separator rest = none) :
    separated separator item shortens text = some ([first], rest) := by
  rw [separated]
  split
  · rename_i missed
    rw [read] at missed
    cases missed
  · rename_i found
    rw [read] at found
    cases found
    split
    · rfl
    · rename_i more
      rw [last] at more
      cases more

theorem statementsFrom?_of_line {statement : Statement}
    (read : line? text = some (some statement, [])) (nonempty : text ≠ []) :
    statementsFrom? text = some [statement] := by
  rw [statementsFrom?, dif_neg nonempty]
  split
  · rename_i missed
    rw [read] at missed
    cases missed
  · rename_i found
    rw [read] at found
    cases found
    rw [statementsFrom?, dif_pos rfl]
    rfl

theorem skipSpaces_append {front : Text} (blank : ∀ c ∈ front, isSpace c)
    (solid : ∀ c ∈ rest.head?, isSpace c = false) : skipSpaces (front ++ rest) = rest :=
  (Text.cut_of_stop blank solid).2

theorem key?_of_bare (nonempty : key ≠ []) (bare : ∀ c ∈ key, isBareKeyChar c)
    (stop : ∀ c ∈ rest.head?, isBareKeyChar c = false) : key? (key ++ rest) = some (key, rest) := by
  obtain ⟨taken, dropped⟩ := Text.cut_of_stop bare stop
  obtain ⟨c, tail, rfl⟩ := List.exists_cons_of_ne_nil nonempty
  have first := bare c List.mem_cons_self
  unfold key?
  split
  · rename_i spelled
    cases spelled
    exact absurd first (by decide)
  · rename_i spelled
    cases spelled
    exact absurd first (by decide)
  · rw [taken, dropped]

theorem head_of_bare {motive : Char → Prop} (nonempty : key ≠ [])
    (bare : ∀ c ∈ key, isBareKeyChar c) (solid : ∀ c, isBareKeyChar c → motive c) (rest : Text) :
    ∀ c ∈ (key ++ rest).head?, motive c := by
  intro c first
  rw [List.head?_append_of_ne_nil _ nonempty] at first
  exact solid c (bare c (List.mem_of_mem_head? first))

theorem isSpace_of_isBareKeyChar (bare : isBareKeyChar c) : isSpace c = false := by
  by_contra space
  rw [Bool.not_eq_false, isSpace, Bool.or_eq_true, decide_eq_true_eq, decide_eq_true_eq] at space
  rcases space with rfl | rfl
  · exact absurd bare (by decide)
  · exact absurd bare (by decide)

theorem lineEnd?_of_bare (nonempty : key ≠ []) (bare : ∀ c ∈ key, isBareKeyChar c)
    (found : skipSpaces text = key ++ rest) : lineEnd? text = none := by
  obtain ⟨c, tail, rfl⟩ := List.exists_cons_of_ne_nil nonempty
  have first := bare c List.mem_cons_self
  have comment : skipComment (c :: (tail ++ rest)) = c :: (tail ++ rest) := by
    unfold skipComment
    split
    · rename_i spelled
      cases spelled
      exact absurd first (by decide)
    · rfl
  have newline : newline? (c :: (tail ++ rest)) = none := by
    unfold newline?
    split
    case h_3 => rfl
    all_goals
      rename_i spelled
      obtain ⟨rfl, _⟩ := List.cons.inj spelled
      exact absurd first (by decide)
  rw [lineEnd?, found, List.cons_append, comment]
  exact newline

theorem assignment?_number (nonempty : key ≠ []) (bare : ∀ c ∈ key, isBareKeyChar c)
    (bound : n ≤ largestNumber) :
    assignment? (key ++ ' ' :: '=' :: ' ' :: Text.decimal n) = some (([key], .number n), []) := by
  have digit : ∀ c ∈ (Text.decimal n).head?, Text.isDigitOf 10 c := fun c first =>
    Text.forall_mem_decimal n c (List.mem_of_mem_head? first)
  have unindented : skipSpaces (key ++ ' ' :: '=' :: ' ' :: Text.decimal n) =
      key ++ ' ' :: '=' :: ' ' :: Text.decimal n :=
    skipSpaces_append (List.forall_mem_nil _)
      (head_of_bare nonempty bare (fun _ => isSpace_of_isBareKeyChar) _)
  have keys : keys? (key ++ ' ' :: '=' :: ' ' :: Text.decimal n) =
      some ([key], '=' :: ' ' :: Text.decimal n) := by
    apply separated_of_last
    · rw [spaced, unindented, key?_of_bare nonempty bare (Text.stop_of_head (by decide))]
      rfl
    · rfl
  have spaces : skipSpaces (' ' :: Text.decimal n) = Text.decimal n := by
    refine skipSpaces_append (List.all_eq_true.mp (rfl : [' '].all isSpace)) ?_
    intro c first
    have alphanumeric : c.isAlphanum := by
      rw [Char.isAlphanum, Text.isDigit_of_isDigitOf (digit c first), Bool.or_true]
    exact isSpace_of_isBareKeyChar (by simp [isBareKeyChar, alphanumeric])
  have value : value? (Text.decimal n) = some (.number n, []) := by
    rw [value?_of_head digit, scalar?_decimal bound]
  have equals : expect? '=' ('=' :: ' ' :: Text.decimal n) = some (' ' :: Text.decimal n) := rfl
  simp only [assignment?, keys, equals, spaces, value, Option.bind_eq_bind, Option.bind_some,
    Option.pure_def]

theorem statement?_of_bare (nonempty : key ≠ []) (bare : ∀ c ∈ key, isBareKeyChar c) (rest : Text) :
    statement? (key ++ rest) =
      (assignment? (key ++ rest)).map fun ((keys, value), rest) => (.entry keys value, rest) := by
  unfold statement?
  split
  · rename_i spelled
    have bracket := head_of_bare nonempty bare (fun _ => id) rest '[' (by rw [spelled]; rfl)
    cases bracket
  · rfl

theorem statements?_of_head (plain : ∀ c ∈ text.head?, c ≠ '\ufeff') :
    statements? text = statementsFrom? text := by
  unfold statements?
  split
  · exact absurd rfl (plain _ rfl)
  · rfl

/-- A number given to a bare key, as a document of its own. -/
theorem statements?_number {front : Text} (blank : ∀ c ∈ front, isSpace c) (nonempty : key ≠ [])
    (bare : ∀ c ∈ key, isBareKeyChar c) (bound : n ≤ largestNumber) :
    statements? (front ++ (key ++ ' ' :: '=' :: ' ' :: Text.decimal n)) =
      some [.entry [key] (.number n)] := by
  have spaces : skipSpaces (front ++ (key ++ ' ' :: '=' :: ' ' :: Text.decimal n)) =
      key ++ ' ' :: '=' :: ' ' :: Text.decimal n :=
    skipSpaces_append blank (head_of_bare nonempty bare (fun _ => isSpace_of_isBareKeyChar) _)
  have line : line? (front ++ (key ++ ' ' :: '=' :: ' ' :: Text.decimal n)) =
      some (some (.entry [key] (.number n)), []) := by
    rw [line?, lineEnd?_of_bare nonempty bare spaces, spaces, statement?_of_bare nonempty bare,
      assignment?_number nonempty bare bound]
    rfl
  have plain :
      ∀ c ∈ (front ++ (key ++ ' ' :: '=' :: ' ' :: Text.decimal n)).head?, c ≠ '\ufeff' := by
    cases front with
    | nil =>
        exact head_of_bare nonempty bare (fun c bare mark => absurd (mark ▸ bare) (by decide)) _
    | cons c front =>
        intro d first mark
        cases first
        exact absurd (mark ▸ blank c List.mem_cons_self) (by decide)
  rw [statements?_of_head plain]
  exact statementsFrom?_of_line line (by simp [nonempty])

end Toml

/-- The line of a settings file that sets the size limit, as it is written in a diagnostic. -/
def Settings.limitLine (n : Nat) : Text :=
  "    max_file_bytes = ".toList ++ Text.decimal n

theorem Settings.ofText?_limitLine {n : Nat} (bound : n ≤ Toml.largestNumber) :
    ofText? (limitLine n) = some { standard with maxFileBytes := n } := by
  have spelled : limitLine n = "    ".toList ++
      ("max_file_bytes".toList ++ ' ' :: '=' :: ' ' :: Text.decimal n) := by
    rfl
  have read : Toml.statements? ("    ".toList ++
      ("max_file_bytes".toList ++ ' ' :: '=' :: ' ' :: Text.decimal n)) =
        some [.entry ["max_file_bytes".toList] (.number n)] :=
    Toml.statements?_number (List.all_eq_true.mp rfl) (by decide) (List.all_eq_true.mp rfl) bound
  rw [ofText?, spelled, read]
  rfl

end TrackerLinks
