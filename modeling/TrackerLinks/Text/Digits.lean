import TrackerLinks.Text.Basic

/-! Natural numbers as digits, without leading zeros and with small letters after nine. -/

namespace TrackerLinks.Text

/-- The digits of a number, the highest first. -/
def digits (base n : Nat) : Text :=
  if _small : base < 2 ∨ n < base then [Nat.digitChar n]
  else digits base (n / base) ++ [Nat.digitChar (n % base)]
termination_by n
decreasing_by exact Nat.div_lt_self (by omega) (by omega)

def decimal (n : Nat) : Text :=
  digits 10 n

def hexadecimal (n : Nat) : Text :=
  digits 16 n

/-- What a character is worth as a digit, letters of both cases counting on from ten. -/
def digitValue (c : Char) : Nat :=
  if c.isDigit then c.toNat - '0'.toNat
  else if 'a' ≤ c && c ≤ 'z' then c.toNat - 'a'.toNat + 10
  else if 'A' ≤ c && c ≤ 'Z' then c.toNat - 'A'.toNat + 10
  else 36

def isDigitOf (base : Nat) (c : Char) : Bool :=
  digitValue c < base

def ofDigits (base : Nat) (digits : Text) : Nat :=
  digits.foldl (fun n c => n * base + digitValue c) 0

theorem digitValue_digitChar {n : Nat} (h : n < 16) : digitValue (Nat.digitChar n) = n := by
  revert n
  decide

@[simp] theorem ofDigits_append_singleton (base : Nat) (front : Text) (c : Char) :
    ofDigits base (front ++ [c]) = ofDigits base front * base + digitValue c := by
  simp [ofDigits]

theorem ofDigits_digits {base : Nat} (hlow : 2 ≤ base) (hhigh : base ≤ 16) (n : Nat) :
    ofDigits base (digits base n) = n := by
  induction n using Nat.strongRecOn with
  | ind n ih =>
      rw [digits]
      split
      · have small : digitValue (Nat.digitChar n) = n := digitValue_digitChar (by omega)
        simpa [ofDigits] using small
      · have inner := ih (n / base) (Nat.div_lt_self (by omega) (by omega))
        have last : n % base < base := Nat.mod_lt _ (by omega)
        rw [ofDigits_append_singleton, inner, digitValue_digitChar (by omega)]
        exact Nat.div_add_mod' n base

/-- The character with the code that hexadecimal digits write, surrogates being none. -/
def charOfHex? (digits : Text) : Option Char :=
  let code := ofDigits 16 digits
  if digits.all (isDigitOf 16) && !digits.isEmpty && code.isValidChar then some (Char.ofNat code)
  else none

end TrackerLinks.Text
