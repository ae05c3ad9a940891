import TrackerLinks.Toml.Moment.Basic
import TrackerLinks.Toml.Space

/-! Reading moments. The parts of a date or time have a fixed number of digits, and a date takes a time
along that follows it. -/

namespace TrackerLinks.Toml

def fixedDigits? (count : Nat) : Reader Nat := fun text =>
  let digits := text.take count
  if digits.length = count && digits.all (Text.isDigitOf 10) then
    some (Text.ofDigits 10 digits, text.drop count)
  else none

theorem fixedDigits?_shortens (count : Nat) : (fixedDigits? count).Shortens := by
  intro text n rest read
  simp only [fixedDigits?] at read
  split at read
  · cases read
    exact (List.drop_suffix _ _).length_le
  · cases read

def between? (low high : Nat) : Reader Nat := fun text =>
  (fixedDigits? 2 text).filter fun (n, _) => low ≤ n && n ≤ high

theorem between?_shortens (low high : Nat) : (between? low high).Shortens := by
  intro text n rest read
  exact fixedDigits?_shortens 2 _ _ _ (Option.filter_eq_some_iff.mp read).1

def date? : Reader Date := fun text => do
  let (year, rest) ← fixedDigits? 4 text
  let (month, rest) ← between? 1 12 (← expect? '-' rest)
  let (day, rest) ← between? 1 (daysInMonth year month) (← expect? '-' rest)
  return (⟨year, month, day⟩, rest)

theorem date?_shortens : date?.Shortens := by
  intro text found rest read
  simp only [date?, Option.bind_eq_bind, Option.bind_eq_some_iff] at read
  obtain ⟨⟨year, _⟩, yearRead, _, firstDash, ⟨month, _⟩, monthRead, _, secondDash, ⟨day, _⟩,
    dayRead, result⟩ := read
  cases result
  have year := fixedDigits?_shortens 4 _ _ _ yearRead
  have firstDash := expect?_length_lt firstDash
  have month := between?_shortens _ _ _ _ _ monthRead
  have secondDash := expect?_length_lt secondDash
  have day := between?_shortens _ _ _ _ _ dayRead
  dsimp only at *
  omega

/-- The places of a fraction that count. -/
def fractionPlaces : Nat :=
  9

/-- The fraction of a second, which may be left out. Zeros at its end do not count. -/
def fraction (text : Text) : Text × Text :=
  match text with
  | '.' :: c :: rest =>
      if Text.isDigitOf 10 c then
        let digits := (c :: rest).takeWhile (Text.isDigitOf 10)
        (Text.trimEndWhile (· = '0') (digits.take fractionPlaces),
          (c :: rest).dropWhile (Text.isDigitOf 10))
      else ([], text)
  | _ => ([], text)

theorem fraction_length_le (text : Text) : (fraction text).2.length ≤ text.length := by
  unfold fraction
  split
  · split
    · exact Nat.le_succ_of_le (List.dropWhile_suffix _).length_le
    · exact Nat.le_refl _
  · exact Nat.le_refl _

def time? : Reader Time := fun text => do
  let (hour, rest) ← between? 0 23 text
  let (minute, rest) ← between? 0 59 (← expect? ':' rest)
  let (second, rest) ← between? 0 60 (← expect? ':' rest)
  let (fraction, rest) := fraction rest
  return (⟨hour, minute, second, fraction⟩, rest)

theorem time?_shortens : time?.Shortens := by
  intro text found rest read
  simp only [time?, Option.bind_eq_bind, Option.bind_eq_some_iff] at read
  obtain ⟨⟨hour, _⟩, hourRead, _, firstColon, ⟨minute, _⟩, minuteRead, _, secondColon,
    ⟨second, last⟩, secondRead, result⟩ := read
  cases result
  have hour := between?_shortens _ _ _ _ _ hourRead
  have firstColon := expect?_length_lt firstColon
  have minute := between?_shortens _ _ _ _ _ minuteRead
  have secondColon := expect?_length_lt secondColon
  have second := between?_shortens _ _ _ _ _ secondRead
  have fraction := fraction_length_le last
  dsimp only at *
  omega

def hoursMinutes? : Reader (Nat × Nat) := fun text => do
  let (hours, rest) ← between? 0 23 text
  let (minutes, rest) ← between? 0 59 (← expect? ':' rest)
  return ((hours, minutes), rest)

theorem hoursMinutes?_shortens : hoursMinutes?.Shortens := by
  intro text found rest read
  simp only [hoursMinutes?, Option.bind_eq_bind, Option.bind_eq_some_iff] at read
  obtain ⟨⟨hours, _⟩, hoursRead, _, colon, ⟨minutes, _⟩, minutesRead, result⟩ := read
  cases result
  have hours := between?_shortens _ _ _ _ _ hoursRead
  have colon := expect?_length_lt colon
  have minutes := between?_shortens _ _ _ _ _ minutesRead
  dsimp only at *
  omega

def offset? : Reader Offset
  | 'Z' :: rest | 'z' :: rest => some (.universal, rest)
  | '+' :: rest => (hoursMinutes? rest).map fun ((h, m), last) => (.ahead h m, last)
  | '-' :: rest => (hoursMinutes? rest).map fun ((h, m), last) => (.behind h m, last)
  | _ => none

theorem offset?_shortens : offset?.Shortens := by
  intro text found last read
  unfold offset? at read
  split at read
  · cases read
    exact Nat.le_succ _
  · cases read
    exact Nat.le_succ _
  · obtain ⟨⟨⟨h, m⟩, _⟩, read, result⟩ := Option.map_eq_some_iff.mp read
    cases result
    exact Nat.le_succ_of_le (hoursMinutes?_shortens _ _ _ read)
  · obtain ⟨⟨⟨h, m⟩, _⟩, read, result⟩ := Option.map_eq_some_iff.mp read
    cases result
    exact Nat.le_succ_of_le (hoursMinutes?_shortens _ _ _ read)
  · cases read

def isTimeMark (c : Char) : Bool :=
  c = 'T' || c = 't' || c = ' '

def timeAfterDate? : Reader Time
  | [] => none
  | c :: rest => if isTimeMark c then time? rest else none

theorem timeAfterDate?_shortens : timeAfterDate?.Shortens := by
  intro text found rest read
  unfold timeAfterDate? at read
  split at read
  · cases read
  · split at read
    · exact Nat.le_succ_of_le (time?_shortens _ _ _ read)
    · cases read

/-- A moment from its date on, with as much of the rest as there is. -/
def Moment.ofDate (date : Date) (text : Text) : Moment × Text :=
  match timeAfterDate? text with
  | none => (.date date, text)
  | some (found, rest) =>
      match offset? rest with
      | none => (.dateTime date found none, rest)
      | some (offset, last) => (.dateTime date found (some offset), last)

theorem Moment.ofDate_length_le (date : Date) (text : Text) :
    (Moment.ofDate date text).2.length ≤ text.length := by
  unfold Moment.ofDate
  split
  · exact Nat.le_refl _
  · rename_i timeRead
    have time := timeAfterDate?_shortens _ _ _ timeRead
    split
    · exact time
    · rename_i offsetRead
      exact Nat.le_trans (offset?_shortens _ _ _ offsetRead) time

def moment? : Reader Moment := fun text =>
  match date? text with
  | some (date, rest) => some (Moment.ofDate date rest)
  | none => (time? text).map fun (time, rest) => (.time time, rest)

theorem moment?_shortens : moment?.Shortens := by
  intro text found rest read
  simp only [moment?] at read
  split at read
  · rename_i date after dateRead
    have moment := Moment.ofDate_length_le date after
    rw [Option.some.inj read] at moment
    exact Nat.le_trans moment (date?_shortens _ _ _ dateRead)
  · obtain ⟨⟨time, _⟩, timeRead, result⟩ := Option.map_eq_some_iff.mp read
    cases result
    exact time?_shortens _ _ _ timeRead

end TrackerLinks.Toml
