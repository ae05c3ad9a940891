import TrackerLinks.Proofs.Text.Trimming
import TrackerLinks.Text.Digits

namespace TrackerLinks.Text

variable {base n : Nat}

theorem isDigitOf_digitChar (small : n < base) (high : base ≤ 16) :
    isDigitOf base (Nat.digitChar n) := by
  rw [isDigitOf, digitValue_digitChar (by omega)]
  exact decide_eq_true small

theorem isDigit_of_isDigitOf {c : Char} (h : isDigitOf 10 c) : c.isDigit := by
  rw [isDigitOf, decide_eq_true_eq, digitValue] at h
  by_contra other
  rw [if_neg other] at h
  split at h
  · omega
  · split at h <;> omega

theorem forall_mem_digits (low : 2 ≤ base) (high : base ≤ 16) (n : Nat) :
    ∀ c ∈ digits base n, isDigitOf base c := by
  induction n using Nat.strongRecOn with
  | ind n ih =>
      rw [digits]
      split
      · refine List.forall_mem_singleton.mpr (isDigitOf_digitChar ?_ high)
        omega
      · have last : n % base < base := Nat.mod_lt _ (by omega)
        have inner := ih (n / base) (Nat.div_lt_self (by omega) (by omega))
        exact List.forall_mem_append.mpr
          ⟨inner, List.forall_mem_singleton.mpr (isDigitOf_digitChar last high)⟩

theorem digits_ne_nil (base n : Nat) : digits base n ≠ [] := by
  rw [digits]
  split <;> simp

/-- A number that is not zero is written without a zero in front. -/
theorem head_digits_ne_zero (low : 2 ≤ base) (high : base ≤ 16) (pos : 0 < n) :
    ∀ c ∈ (digits base n).head?, c ≠ '0' := by
  induction n using Nat.strongRecOn with
  | ind n ih =>
      rw [digits]
      split
      · have value : digitValue (Nat.digitChar n) = n := digitValue_digitChar (by omega)
        intro c first zero
        cases first
        rw [zero] at value
        exact absurd value (by simp [digitValue]; omega)
      · have inner := ih (n / base) (Nat.div_lt_self pos (by omega))
          (Nat.div_pos (by omega) (by omega))
        rwa [List.head?_append_of_ne_nil _ (digits_ne_nil base _)]

theorem decimal_zero : decimal 0 = ['0'] := by
  rw [decimal, digits]
  rfl

theorem decimal_ne_nil (n : Nat) : decimal n ≠ [] :=
  digits_ne_nil 10 n

theorem forall_mem_decimal (n : Nat) : ∀ c ∈ decimal n, isDigitOf 10 c :=
  forall_mem_digits (by decide) (by decide) n

theorem not_mem_decimal {c : Char} (other : isDigitOf 10 c = false) (n : Nat) : c ∉ decimal n :=
  fun member => absurd (forall_mem_decimal n c member) (Bool.eq_false_iff.mp other)

theorem head_decimal_ne_zero (pos : 0 < n) : ∀ c ∈ (decimal n).head?, c ≠ '0' :=
  head_digits_ne_zero (by decide) (by decide) pos

theorem ofDigits_decimal (n : Nat) : ofDigits 10 (decimal n) = n :=
  ofDigits_digits (by decide) (by decide) n

end TrackerLinks.Text
