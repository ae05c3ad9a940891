import TrackerLinks.Text.Digits
import TrackerLinks.Toml.Space

namespace TrackerLinks.Toml

def largestNumber : Nat :=
  9223372036854775807

/-- Digits after a first one, an underscore being allowed between two of them. -/
def moreDigits (base : Nat) : Text → Text × Text
  | '_' :: c :: rest =>
      if Text.isDigitOf base c then
        let (digits, last) := moreDigits base rest
        (c :: digits, last)
      else ([], '_' :: c :: rest)
  | c :: rest =>
      if Text.isDigitOf base c then
        let (digits, last) := moreDigits base rest
        (c :: digits, last)
      else ([], c :: rest)
  | [] => ([], [])

theorem moreDigits_length_le (base : Nat) (text : Text) :
    (moreDigits base text).2.length ≤ text.length := by
  fun_induction moreDigits base text with
  | case1 c rest _ digits last read ih =>
      rw [read] at ih
      exact Nat.le_succ_of_le (Nat.le_succ_of_le ih)
  | case2 => exact Nat.le_refl _
  | case3 c rest _ _ digits last read ih =>
      rw [read] at ih
      exact Nat.le_succ_of_le ih
  | case4 => exact Nat.le_refl _
  | case5 => exact Nat.le_refl _

def digits? (base : Nat) : Reader Nat
  | [] => none
  | c :: rest =>
      if Text.isDigitOf base c then
        let (more, last) := moreDigits base rest
        some (Text.ofDigits base (c :: more), last)
      else none

theorem digits?_shortens (base : Nat) : (digits? base).Shortens := by
  intro text n last read
  unfold digits? at read
  split at read
  · cases read
  · split at read
    · cases read
      exact Nat.le_succ_of_le (moreDigits_length_le base _)
    · cases read

/-- Decimal digits, of which a leading zero is the only one. -/
def decimal? : Reader Nat
  | '0' :: rest => some (0, rest)
  | text => digits? 10 text

theorem decimal?_shortens : decimal?.Shortens := by
  intro text n last read
  unfold decimal? at read
  split at read
  · cases read
    exact Nat.le_succ _
  · exact digits?_shortens 10 _ _ _ read

/-- A number of any size, of no sign but a plus, or zero. -/
def numeral? : Reader Nat
  | '0' :: 'x' :: digits => digits? 16 digits
  | '0' :: 'o' :: digits => digits? 8 digits
  | '0' :: 'b' :: digits => digits? 2 digits
  | '+' :: digits => decimal? digits
  | '-' :: digits => (decimal? digits).filter (·.1 = 0)
  | text => decimal? text

theorem numeral?_shortens : numeral?.Shortens := by
  intro text n last read
  unfold numeral? at read
  split at read
  · exact Nat.le_succ_of_le (Nat.le_succ_of_le (digits?_shortens 16 _ _ _ read))
  · exact Nat.le_succ_of_le (Nat.le_succ_of_le (digits?_shortens 8 _ _ _ read))
  · exact Nat.le_succ_of_le (Nat.le_succ_of_le (digits?_shortens 2 _ _ _ read))
  · exact Nat.le_succ_of_le (decimal?_shortens _ _ _ read)
  · exact Nat.le_succ_of_le (decimal?_shortens _ _ _ (Option.filter_eq_some_iff.mp read).1)
  · exact decimal?_shortens _ _ _ read

def number? : Reader Nat := fun text =>
  (numeral? text).filter (·.1 ≤ largestNumber)

theorem number?_shortens : number?.Shortens := by
  intro text n last read
  exact numeral?_shortens _ _ _ (Option.filter_eq_some_iff.mp read).1

end TrackerLinks.Toml
