import TrackerLinks.Proofs.Text.Digits
import TrackerLinks.Text.Quoted

namespace TrackerLinks.Text

variable {c : Char} {text rest front back : Text}

/-- A text without characters that do not show as themselves. It takes one line. -/
def IsShown (text : Text) : Prop :=
  ∀ c ∈ text, isHidden c = false

instance : DecidablePred IsShown := fun text =>
  List.decidableBAll (isHidden · = false) text

theorem isShown_append : IsShown (front ++ back) ↔ IsShown front ∧ IsShown back :=
  List.forall_mem_append

theorem isShown_cons : IsShown (c :: text) ↔ isHidden c = false ∧ IsShown text :=
  List.forall_mem_cons

theorem IsShown.feed_not_mem (shown : IsShown text) : '\n' ∉ text := by
  intro member
  exact absurd (shown _ member) (by decide)

/-- The characters between the control codes and the first code beyond them show. -/
theorem isHidden_eq_false (low : 0x20 ≤ c.toNat) (high : c.toNat < 0x7F) : isHidden c = false := by
  have afterFirst : ¬ c.toNat ≤ 0x1F := by omega
  have beforeSecond : c.toNat ≤ 0xA0 := by omega
  rw [isHidden, hiddenCodes, List.find?_cons_of_neg (by simpa using afterFirst),
    List.find?_cons_of_pos (by simpa using beforeSecond)]
  simpa using high

theorem isHidden_of_isDigitOf {base : Nat} (high : base ≤ 36) (digit : isDigitOf base c) :
    isHidden c = false := by
  have shown (low high : Char) (printable : 0x20 ≤ low.toNat ∧ high.toNat < 0x7F)
      (between : (decide (low ≤ c) && decide (c ≤ high)) = true) : isHidden c = false := by
    obtain ⟨above, below⟩ : low ≤ c ∧ c ≤ high := by simpa using between
    have least : low.toNat ≤ c.toNat := UInt32.le_iff_toNat_le.mp above
    have most : c.toNat ≤ high.toNat := UInt32.le_iff_toNat_le.mp below
    exact isHidden_eq_false (by omega) (by omega)
  rw [isDigitOf, decide_eq_true_eq, digitValue] at digit
  split at digit
  · rename_i decimal
    exact shown '0' '9' (by decide) decimal
  split at digit
  · rename_i small
    exact shown 'a' 'z' (by decide) small
  split at digit
  · rename_i large
    exact shown 'A' 'Z' (by decide) large
  · omega

theorem isShown_digits {base : Nat} (low : 2 ≤ base) (high : base ≤ 16) (n : Nat) :
    IsShown (digits base n) := by
  intro c member
  exact isHidden_of_isDigitOf (by omega) (forall_mem_digits low high n c member)

theorem isShown_decimal (n : Nat) : IsShown (decimal n) :=
  isShown_digits (by decide) (by decide) n

theorem isShown_hexadecimal (n : Nat) : IsShown (hexadecimal n) :=
  isShown_digits (by decide) (by decide) n

theorem charOfHex?_hexadecimal (c : Char) : charOfHex? (hexadecimal c.toNat) = some c := by
  have digits : (hexadecimal c.toNat).all (isDigitOf 16) :=
    List.all_eq_true.mpr (forall_mem_digits (by decide) (by decide) c.toNat)
  have filled : (hexadecimal c.toNat).isEmpty = false :=
    List.isEmpty_eq_false_iff.mpr (digits_ne_nil 16 c.toNat)
  have value : ofDigits 16 (hexadecimal c.toNat) = c.toNat :=
    ofDigits_digits (by decide) (by decide) c.toNat
  have valid : c.toNat.isValidChar := c.valid
  simp [charOfHex?, digits, filled, value, valid]

theorem unescape?_cons (plain : c ≠ '\\') (rest : Text) :
    unescape? (c :: rest) = some (c, rest) := by
  rw [unescape?]
  -- The equations before this one are for backslashes.
  all_goals
    intros
    exact plain ‹_›

theorem unescape?_hexadecimal (c : Char) (rest : Text) :
    unescape? ('\\' :: 'u' :: '\x7b' :: (hexadecimal c.toNat ++ '\x7d' :: rest)) =
      some (c, rest) := by
  have stop : ∀ d ∈ ('\x7d' :: rest).head?, isDigitOf 16 d = false := stop_of_head (by decide)
  obtain ⟨taken, left⟩ := cut_of_stop (forall_mem_digits (by decide) (by decide) c.toNat) stop
  rw [← hexadecimal] at taken left
  rw [unescape?, left, taken, charOfHex?_hexadecimal]
  rfl

/-- How a character is spelled between quotes: as itself, by its code, or by a name after a
backslash. -/
inductive Spelling (c : Char) : Text → Prop
  | itself (plain : c ≠ '\\') (ne_quote : c ≠ '"') (shown : isHidden c = false) : Spelling c [c]
  | code : Spelling c ('\\' :: 'u' :: '\x7b' :: (hexadecimal c.toNat ++ ['\x7d']))
  | named {name : Char} (shown : isHidden name = false)
      (read : ∀ rest, unescape? ('\\' :: name :: rest) = some (c, rest)) :
      Spelling c ['\\', name]

theorem spelling_escape (c : Char) : Spelling c (escape c) := by
  unfold escape
  split
  · exact .named (by decide) fun _ => rfl
  · exact .named (by decide) fun _ => rfl
  · exact .named (by decide) fun _ => rfl
  · exact .named (by decide) fun _ => rfl
  · exact .named (by decide) fun _ => rfl
  · exact .named (by decide) fun _ => rfl
  · rename_i _ _ _ _ ne_backslash ne_quote
    split
    · exact .code
    · rename_i shown
      exact .itself ne_backslash ne_quote (by simpa using shown)

namespace Spelling

variable {spelled : Text}

theorem unescape?_append (spelling : Spelling c spelled) (rest : Text) :
    unescape? (spelled ++ rest) = some (c, rest) := by
  cases spelling with
  | itself plain => exact unescape?_cons plain rest
  | code =>
      rw [List.cons_append, List.cons_append, List.cons_append, List.append_assoc]
      exact unescape?_hexadecimal c rest
  | named _ read => exact read rest

/-- No quote stands open between quotes. -/
theorem exists_cons (spelling : Spelling c spelled) :
    ∃ first more, spelled = first :: more ∧ first ≠ '"' := by
  cases spelling with
  | itself _ ne_quote => exact ⟨c, [], rfl, ne_quote⟩
  | code => exact ⟨_, _, rfl, by decide⟩
  | named => exact ⟨_, _, rfl, by decide⟩

theorem isShown (spelling : Spelling c spelled) : IsShown spelled := by
  cases spelling with
  | itself _ _ shown => exact isShown_cons.mpr ⟨shown, by decide⟩
  | code =>
      rw [isShown_cons, isShown_cons, isShown_cons, isShown_append]
      exact ⟨by decide, by decide, by decide, isShown_hexadecimal _, by decide⟩
  | named shown => exact isShown_cons.mpr ⟨by decide, isShown_cons.mpr ⟨shown, by decide⟩⟩

end Spelling

theorem unquoteBody?_flatMap_escape (text : Text) :
    unquoteBody? (text.flatMap escape ++ ['"']) = some text := by
  induction text with
  | nil =>
      rw [unquoteBody?]
      rfl
  | cons c text ih =>
      obtain ⟨first, more, written, ne_quote⟩ := (spelling_escape c).exists_cons
      have read := (spelling_escape c).unescape?_append (text.flatMap escape ++ ['"'])
      rw [List.flatMap_cons, List.append_assoc, unquoteBody?, written, List.cons_append,
        if_neg (by simp [ne_quote]), if_neg (by simpa using ne_quote)]
      rw [written, List.cons_append] at read
      split
      · rename_i failed
        rw [read] at failed
        cases failed
      · rename_i found
        rw [read] at found
        cases found
        rw [ih]
        rfl

theorem unquote?_quote (text : Text) : unquote? (quote text) = some text :=
  unquoteBody?_flatMap_escape text

/-- Quoted, a text takes no second line and controls nothing, whatever its characters. -/
theorem isShown_quote (text : Text) : IsShown (quote text) := by
  rw [quote, isShown_cons, isShown_append]
  refine ⟨by decide, ?_, by decide⟩
  intro d member
  obtain ⟨c, _, inside⟩ := List.mem_flatMap.mp member
  exact (spelling_escape c).isShown d inside

end TrackerLinks.Text
