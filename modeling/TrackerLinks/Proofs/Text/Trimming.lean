import Mathlib.Data.List.DropRight
import Mathlib.Data.List.TakeWhile
import TrackerLinks.Proofs.Text.Occurrence
import TrackerLinks.Text.Blank

namespace TrackerLinks.Text

variable {p : Char → Bool} {text core front back rest suffix part tail : Text} {start : Nat}

theorem cut_of_stop (inside : ∀ c ∈ front, p c) (stop : ∀ c ∈ rest.head?, p c = false) :
    (front ++ rest).takeWhile p = front ∧ (front ++ rest).dropWhile p = rest := by
  rw [List.takeWhile_append_of_pos inside, List.dropWhile_append_of_pos inside]
  cases rest with
  | nil => simp
  | cons c rest => simp [stop c rfl]

theorem stop_of_head {c : Char} (h : p c = false) : ∀ d ∈ (c :: rest).head?, p d = false := by
  intro d head
  obtain rfl := Option.some.inj head
  exact h

theorem cut_of_not_mem {separator : Char} (absent : separator ∉ front) (back : Text) :
    (front ++ separator :: back).takeWhile (· ≠ separator) = front ∧
      (front ++ separator :: back).dropWhile (· ≠ separator) = separator :: back := by
  apply cut_of_stop
  · intro c member
    exact decide_eq_true (ne_of_mem_of_not_mem member absent)
  · exact stop_of_head (decide_eq_false (not_not_intro rfl))

theorem takeWhile_ne_of_not_mem {separator : Char} (absent : separator ∉ text) :
    text.takeWhile (· ≠ separator) = text := by
  apply List.takeWhile_eq_self_iff.mpr
  intro c member
  exact decide_eq_true (ne_of_mem_of_not_mem member absent)

theorem dropWhile_eq_iff :
    text.dropWhile p = core ↔
      (∀ c ∈ core.head?, p c = false) ∧ ∃ lead, (∀ c ∈ lead, p c) ∧ text = lead ++ core := by
  constructor
  · rintro rfl
    refine ⟨?_, text.takeWhile p, fun c => List.mem_takeWhile_imp,
      List.takeWhile_append_dropWhile.symm⟩
    have stop := List.head?_dropWhile_not p text
    intro c head
    rw [Option.mem_def.mp head] at stop
    exact stop
  · rintro ⟨stop, lead, inside, rfl⟩
    exact (cut_of_stop inside stop).2

theorem exists_dropWhile_append (inside : ∀ c ∈ tail, p c) (text : Text) :
    ∃ kept, (∀ c ∈ kept, p c) ∧ (text ++ tail).dropWhile p = text.dropWhile p ++ kept := by
  rw [List.dropWhile_append]
  split
  · rename_i gone
    refine ⟨[], by simp, ?_⟩
    rw [List.isEmpty_iff.mp gone, List.dropWhile_eq_nil_iff.mpr inside, List.append_nil]
  · exact ⟨tail, inside, rfl⟩

theorem trimEndWhile_eq_iff :
    trimEndWhile p text = core ↔
      (∀ c ∈ core.getLast?, p c = false) ∧ ∃ tail, (∀ c ∈ tail, p c) ∧ text = core ++ tail := by
  rw [trimEndWhile, List.reverse_eq_iff, dropWhile_eq_iff, List.head?_reverse]
  apply and_congr_right
  intro _
  constructor
  · rintro ⟨lead, inside, same⟩
    refine ⟨lead.reverse, by simpa using inside, ?_⟩
    rw [List.reverse_eq_iff.mp same]
    simp
  · rintro ⟨tail, inside, rfl⟩
    exact ⟨tail.reverse, by simpa using inside, List.reverse_append⟩

/-- `core` is what stays of `text` when all that satisfies `p` is taken off both of its ends. -/
structure IsStripped (p : Char → Bool) (text core : Text) : Prop where
  parts : ∃ lead tail, text = lead ++ core ++ tail ∧ (∀ c ∈ lead, p c) ∧ ∀ c ∈ tail, p c
  head : ∀ c ∈ core.head?, p c = false
  last : ∀ c ∈ core.getLast?, p c = false

theorem isStripped_iff_eq : IsStripped p text core ↔ trimEndWhile p (text.dropWhile p) = core := by
  rw [trimEndWhile_eq_iff]
  constructor
  · rintro ⟨⟨lead, tail, rfl, leads, tails⟩, head, last⟩
    refine ⟨last, ?_⟩
    cases core with
    | nil =>
        refine ⟨[], by simp, ?_⟩
        rw [List.append_nil, List.nil_append, List.dropWhile_eq_nil_iff]
        intro c member
        rcases List.mem_append.mp member with first | second
        · exact leads c first
        · exact tails c second
    | cons c core =>
        refine ⟨tail, tails, ?_⟩
        rw [List.append_assoc]
        exact (cut_of_stop leads (stop_of_head (head c rfl))).2
  · rintro ⟨last, tail, tails, same⟩
    obtain ⟨stop, lead, leads, rfl⟩ := dropWhile_eq_iff.mp same
    refine ⟨⟨lead, tail, by simp, leads, tails⟩, ?_, last⟩
    intro c head
    apply stop
    rw [List.head?_append, Option.mem_def.mp head]
    rfl

theorem isStripped_isBlank_iff_eq : IsStripped isBlank text core ↔ trim text = core :=
  isStripped_iff_eq

theorem trimEndWhile_append_cons {c : Char} (front : Text)
    (stop : p c = false ∨ trimEndWhile p back ≠ []) :
    trimEndWhile p (front ++ c :: back) = front ++ c :: trimEndWhile p back := by
  obtain ⟨last, tail, tails, same⟩ := trimEndWhile_eq_iff.mp (Eq.refl (trimEndWhile p back))
  refine trimEndWhile_eq_iff.mpr ⟨?_, tail, tails, ?_⟩
  · intro d ends
    rw [List.getLast?_append_of_ne_nil _ (List.cons_ne_nil _ _)] at ends
    cases kept : trimEndWhile p back with
    | nil =>
        rw [kept] at ends
        obtain rfl := Option.some.inj ends
        exact stop.resolve_right (not_not_intro kept)
    | cons e rest =>
        rw [kept, List.getLast?_cons_cons, ← kept] at ends
        exact last d ends
  · rw [List.append_assoc, List.cons_append, ← same]

theorem trimEndWhile_append_of_forall (front : Text) (inside : ∀ c ∈ back, p c) :
    trimEndWhile p (front ++ back) = trimEndWhile p front := by
  obtain ⟨last, tail, tails, same⟩ := trimEndWhile_eq_iff.mp (Eq.refl (trimEndWhile p front))
  refine trimEndWhile_eq_iff.mpr ⟨last, tail ++ back, ?_, ?_⟩
  · exact List.forall_mem_append.mpr ⟨tails, inside⟩
  · rw [← List.append_assoc, ← same]

theorem trimEndWhile_eq_self_iff :
    trimEndWhile p text = text ↔ ∀ c ∈ text.getLast?, p c = false := by
  rw [trimEndWhile_eq_iff, and_iff_left_iff_imp]
  intro _
  exact ⟨[], by simp, by simp⟩

theorem trimEndWhile_isPrefix (p : Char → Bool) (text : Text) : trimEndWhile p text <+: text :=
  List.rdropWhile_prefix p text

/-- What stands between two characters other than white space stays. -/
theorem trim_append_cons {c : Char} (nonempty : front ≠ [])
    (first : ∀ d ∈ front.head?, isBlank d = false) (last : isBlank c = false) (back : Text) :
    trim (front ++ c :: back) = front ++ c :: trimEnd back := by
  have started : trimStart (front ++ c :: back) = front ++ c :: back := by
    refine dropWhile_eq_iff.mpr ⟨?_, [], by simp, rfl⟩
    rwa [List.head?_append_of_ne_nil _ nonempty]
  rw [trim, started]
  exact trimEndWhile_append_cons front (.inl last)

/-- `rest` is `text` without a final `suffix`, if it has one. -/
def IsCutShort (suffix text rest : Text) : Prop :=
  text = rest ++ suffix ∨ (¬ suffix <:+ text ∧ rest = text)

theorem isCutShort_iff_eq : IsCutShort suffix text rest ↔ dropSuffix suffix text = rest := by
  rw [IsCutShort, dropSuffix, dropSuffix?]
  by_cases ends : suffix <:+ text
  · rw [if_pos (List.isSuffixOf_iff_suffix.mpr ends), Option.getD_some]
    obtain ⟨front, rfl⟩ := ends
    simp [eq_comm]
  · rw [if_neg (mt List.isSuffixOf_iff_suffix.mp ends), Option.getD_none]
    simp only [ends, not_false_eq_true, true_and, eq_comm, or_iff_right_iff_imp]
    rintro rfl
    exact absurd (List.suffix_append rest suffix) ends

theorem IsCutShort.isPrefix (short : IsCutShort suffix text rest) : rest <+: text := by
  rcases short with rfl | ⟨_, rfl⟩
  · exact List.prefix_append _ _
  · exact List.prefix_refl _

theorem dropSuffix_isPrefix (suffix text : Text) : dropSuffix suffix text <+: text :=
  (isCutShort_iff_eq.mpr rfl).isPrefix

theorem dropSuffix_append (text suffix : Text) : dropSuffix suffix (text ++ suffix) = text :=
  isCutShort_iff_eq.mp (.inl rfl)

theorem dropSuffix_eq_self_iff (nonempty : suffix ≠ []) :
    dropSuffix suffix text = text ↔ ¬ suffix <:+ text := by
  rw [← isCutShort_iff_eq, IsCutShort]
  simp [nonempty]

/-- A suffix does not reach back over a character that is not in it. -/
theorem suffix_append_cons_iff {c : Char} (absent : c ∉ suffix) (front : Text) :
    suffix <:+ front ++ c :: rest ↔ suffix <:+ rest := by
  constructor
  · intro ends
    rcases List.suffix_or_suffix_of_suffix ends (List.suffix_append front (c :: rest))
      with inside | outside
    · rcases List.suffix_cons_iff.mp inside with rfl | inside
      · exact absurd List.mem_cons_self absent
      · exact inside
    · exact absurd (outside.subset List.mem_cons_self) absent
  · intro ends
    exact ends.trans ((List.suffix_cons c rest).trans (List.suffix_append front _))

/-- A character that is not in the suffix keeps what stands before it. -/
theorem dropSuffix_append_cons {c : Char} (absent : c ∉ suffix) (front rest : Text) :
    dropSuffix suffix (front ++ c :: rest) = front ++ c :: dropSuffix suffix rest := by
  rw [← isCutShort_iff_eq]
  rcases isCutShort_iff_eq.mpr (Eq.refl (dropSuffix suffix rest)) with same | ⟨unended, same⟩
  · left
    conv => lhs; rw [same]
    simp
  · rw [same]
    exact .inr ⟨mt (suffix_append_cons_iff absent front).mp unended, rfl⟩

theorem IsStripped.exists_trimEndWhile (stripped : IsStripped p text core) (kept : core ≠ []) :
    ∃ lead, (∀ c ∈ lead, p c) ∧ trimEndWhile p text = lead ++ core := by
  obtain ⟨lead, tail, same, leads, tails⟩ := stripped.parts
  refine ⟨lead, leads, trimEndWhile_eq_iff.mpr ⟨?_, tail, tails, same⟩⟩
  rw [List.getLast?_append_of_ne_nil _ kept]
  exact stripped.last

/-- What is taken off the front of a text has no part in a suffix without such characters. -/
theorem IsStripped.suffix_iff (stripped : IsStripped p text core) (kept : core ≠ [])
    (apart : ∀ c ∈ suffix, p c = false) : suffix <:+ core ↔ suffix <:+ trimEndWhile p text := by
  obtain ⟨lead, leads, same⟩ := stripped.exists_trimEndWhile kept
  rw [same]
  rcases List.eq_nil_or_concat lead with rfl | ⟨front, c, rfl⟩
  · rfl
  · have absent : c ∉ suffix := by
      intro member
      have inside : p c := leads c (by simp)
      rw [apart c member] at inside
      cases inside
    rw [List.concat_eq_append, List.append_assoc, List.singleton_append,
      suffix_append_cons_iff absent]

/-- What does not end with such a character has no part in a tail of them. -/
theorem occursAt_append_of_forall_iff (nonempty : part ≠ [])
    (last : ∀ c ∈ part.getLast?, p c = false) (inside : ∀ c ∈ tail, p c) :
    OccursAt part (text ++ tail) start ↔ OccursAt part text start := by
  constructor
  · rintro ⟨before, after, same, rfl⟩
    rcases Nat.le_total (size (before ++ part)) (size text) with fits | past
    · obtain ⟨middle, rfl, _⟩ := exists_append_of_size_le same.symm fits
      exact ⟨before, middle, rfl, rfl⟩
    · obtain ⟨middle, ends, rfl⟩ := exists_append_of_size_le same past
      rcases List.eq_nil_or_concat middle with rfl | ⟨middle, c, rfl⟩
      · exact ⟨before, [], by simpa using ends.symm, rfl⟩
      · have same_last := congrArg List.getLast? ends
        rw [List.getLast?_append_of_ne_nil _ nonempty, List.concat_eq_append, ← List.append_assoc,
          List.getLast?_concat] at same_last
        have blank := inside c (by simp)
        rw [last c same_last] at blank
        cases blank
  · rintro ⟨before, after, rfl, rfl⟩
    exact ⟨before, after ++ tail, by simp, rfl⟩

theorem prefix_append_of_forall_iff (nonempty : part ≠ [])
    (last : ∀ c ∈ part.getLast?, p c = false) (inside : ∀ c ∈ tail, p c) :
    part <+: text ++ tail ↔ part <+: text := by
  rw [← occursAt_zero_iff, occursAt_append_of_forall_iff nonempty last inside, occursAt_zero_iff]

end TrackerLinks.Text
