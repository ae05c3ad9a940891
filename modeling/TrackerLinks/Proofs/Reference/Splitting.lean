import TrackerLinks.Proofs.Reference.Extraction

namespace TrackerLinks

variable {text front back piece : Text} {reference : Reference} {spelling : Spelling}

/-- The same reference when more text stands in front. -/
def Reference.shift (distance : Nat) (reference : Reference) : Reference :=
  { reference with start := distance + reference.start }

namespace Reference

theorem shift_zero : shift 0 = id := by
  funext reference
  rw [shift, Nat.zero_add]
  rfl

theorem shift_comp_shift (distance distance' : Nat) :
    shift distance ∘ shift distance' = shift (distance + distance') := by
  funext reference
  simp only [Function.comp_apply, shift, Nat.add_assoc]

/-- The text can be cut here: no reference reaches over it. -/
def IsCut (front back : Text) : Prop :=
  ∀ reference ∈ inText (front ++ back),
    ¬ (reference.start < Text.size front ∧ Text.size front < reference.stop)

instance (front back : Text) : Decidable (IsCut front back) :=
  inferInstanceAs (Decidable (∀ reference ∈ inText (front ++ back),
    ¬ (reference.start < Text.size front ∧ Text.size front < reference.stop)))

theorem mem_inText_append_left_iff (front back : Text) :
    reference ∈ inText front ↔
      reference ∈ inText (front ++ back) ∧ reference.stop ≤ Text.size front := by
  rw [mem_inText_iff, mem_inText_iff, (Text.occursAt_append_left front back).inner_iff,
    Nat.zero_add, and_assoc]
  rfl

theorem mem_inText_append_right_iff (front : Text) :
    reference ∈ (inText back).map (shift (Text.size front)) ↔
      reference ∈ inText (front ++ back) ∧ Text.size front ≤ reference.start := by
  rw [List.mem_map]
  constructor
  · rintro ⟨inner, member, rfl⟩
    rw [mem_inText_iff] at member ⊢
    exact ⟨⟨member.1, Text.occursAt_append_add_iff.mpr member.2⟩, Nat.le_add_right _ _⟩
  · rintro ⟨member, later⟩
    obtain ⟨wellFormed, occurs⟩ := mem_inText_iff.mp member
    refine ⟨⟨reference.start - Text.size front, reference.spelling⟩, ?_, ?_⟩
    · exact mem_inText_iff.mpr ⟨wellFormed, (Text.occursAt_append_iff later).mp occurs⟩
    · rw [shift, Nat.add_sub_cancel' later]

theorem inText_append (cut : IsCut front back) :
    inText (front ++ back) = inText front ++ (inText back).map (shift (Text.size front)) := by
  apply eq_of_ordered (inText_ordered _)
  · refine List.pairwise_append.mpr ⟨inText_ordered front, ?_, ?_⟩
    · rw [List.pairwise_map]
      apply (inText_ordered back).imp
      intro earlier later apart
      rw [stop] at apart ⊢
      simp only [shift]
      omega
    · intro earlier member later member'
      exact ((mem_inText_append_left_iff front back).mp member).2.trans
        ((mem_inText_append_right_iff front).mp member').2
  · intro reference
    rw [List.mem_append, mem_inText_append_left_iff front back, mem_inText_append_right_iff,
      ← and_or_left]
    constructor
    · intro member
      have := cut reference member
      exact ⟨member, by omega⟩
    · exact And.left

theorem inText_text (wellFormed : spelling.WellFormed) : inText spelling.text = [⟨0, spelling⟩] := by
  have read := Spelling.ofText?_text_append wellFormed []
  rw [List.append_nil] at read
  have opens : spelling.text = '(' :: spelling.text.tail := rfl
  rw [opens] at read
  rw [inText, opens, inTextFrom_of_ofText?_eq_some 0 read, inTextFrom]

/-- The text is a reference, or it opens none. -/
def IsPiece (text : Text) : Prop :=
  '(' ∉ text ∨ ∃ spelling : Spelling, spelling.WellFormed ∧ spelling.text = text

theorem IsPiece.isCut (isPiece : IsPiece front) (back : Text) : IsCut front back := by
  intro reference member
  obtain ⟨wellFormed', occurs'⟩ := mem_inText_iff.mp member
  rintro ⟨before, after⟩
  rcases isPiece with unopened | ⟨spelling, wellFormed, rfl⟩
  · have inside : Text.OccursAt ['('] front reference.start := by
      rw [(Text.occursAt_append_left front back).inner_iff, Nat.zero_add]
      exact ⟨Spelling.occursAt_paren occurs', before⟩
    exact unopened (inside.subset List.mem_cons_self)
  · have occurs := Text.occursAt_append_left spelling.text back
    rcases Nat.eq_zero_or_pos reference.start with start | later
    · rw [start] at occurs'
      rw [stop, start, wellFormed'.eq_of_occursAt wellFormed occurs' occurs, Nat.zero_add] at after
      exact Nat.lt_irrefl _ after
    · have := wellFormed.stop_le_of_start_lt occurs occurs' later
      omega

/-- The references of texts that stand one after the other from the offset on. -/
def inPieces (offset : Nat) : List Text → List Reference
  | [] => []
  | piece :: more =>
      (inText piece).map (shift offset) ++ inPieces (offset + Text.size piece) more

theorem inText_flatten (offset : Nat) (pieces : List Text)
    (arePieces : ∀ piece ∈ pieces, IsPiece piece) :
    (inText pieces.flatten).map (shift offset) = inPieces offset pieces := by
  induction pieces generalizing offset with
  | nil => rw [List.flatten_nil, inText, inTextFrom, List.map_nil, inPieces]
  | cons piece pieces ih =>
      obtain ⟨isPiece, arePieces⟩ := List.forall_mem_cons.mp arePieces
      rw [List.flatten_cons, inText_append (isPiece.isCut _), List.map_append, List.map_map,
        shift_comp_shift, ih _ arePieces, inPieces]

/-- Cut outside its references, a text has those of the front and then those of the back. So a reference
read again on its own is the one reference there, and texts one after the other that are each a
reference or open none have the references of each. -/
theorem inText_append_and_flatten :
    (∀ front back, IsCut front back →
      inText (front ++ back) = inText front ++ (inText back).map (shift (Text.size front))) ∧
    (∀ text, ∀ reference ∈ inText text, ∃ slice, Text.OccursAt slice text reference.start ∧
      reference.start + Text.size slice = reference.stop ∧
      (inText slice).map outline = [(0, Text.size slice, reference.number)]) ∧
    ∀ pieces : List Text, (∀ piece ∈ pieces, IsPiece piece) →
      inText pieces.flatten = inPieces 0 pieces := by
  refine ⟨fun _ _ => inText_append, ?_, ?_⟩
  · intro text reference member
    obtain ⟨wellFormed, occurs⟩ := mem_inText_iff.mp member
    refine ⟨reference.spelling.text, occurs, rfl, ?_⟩
    rw [inText_text wellFormed, List.map_singleton, outline, stop, Nat.zero_add]
    rfl
  · intro pieces arePieces
    have parts := inText_flatten 0 pieces arePieces
    rwa [shift_zero, List.map_id] at parts

/-- The cut is inside the number of a near miss. One piece has a parenthesis that closes nothing. -/
theorem inText_append_and_flatten_near_miss :
    IsCut "ü(#1)(# 4".toList "2 (#٣)(#5)".toList ∧
      (inText "ü(#1)(# 42 (#٣)(#5)".toList).map outline =
        [(2, 6, "1".toList), (17, 21, "5".toList)] ∧
      (∃ slice, Text.OccursAt slice "ü(#1)(# 42 (#٣)(#5)".toList 17 ∧ 17 + Text.size slice = 21 ∧
        (inText slice).map outline = [(0, Text.size slice, "5".toList)]) ∧
      IsPiece "( #\n07)".toList ∧ IsPiece "ü#9)".toList ∧
      (inText "( #\n07)ü#9)( #\n07)".toList).map outline =
        [(0, 7, "07".toList), (12, 19, "07".toList)] := by
  obtain ⟨split, again, flatten⟩ := inText_append_and_flatten
  have cut : IsCut "ü(#1)(# 4".toList "2 (#٣)(#5)".toList := by decide +kernel
  have whole := split _ _ cut
  have member : ⟨17, ⟨[], [], "5".toList, []⟩⟩ ∈ inText "ü(#1)(# 42 (#٣)(#5)".toList := by
    decide +kernel
  have wellFormed : (⟨[' '], ['\n'], "07".toList, []⟩ : Spelling).WellFormed :=
    ⟨List.all_eq_true.mp (by decide), List.all_eq_true.mp (by decide),
      List.all_eq_true.mp (by decide), by decide, by simp⟩
  have isPiece : IsPiece "( #\n07)".toList := .inr ⟨_, wellFormed, by decide⟩
  have isPiece' : IsPiece "ü#9)".toList := .inl (by decide)
  have arePieces : ∀ piece ∈ ["( #\n07)".toList, "ü#9)".toList, "( #\n07)".toList],
      IsPiece piece := by
    rw [List.forall_mem_cons, List.forall_mem_cons, List.forall_mem_singleton]
    exact ⟨isPiece, isPiece', isPiece⟩
  have parts := flatten _ arePieces
  refine ⟨cut, (congrArg (List.map outline) whole).trans ?_, again _ _ member, isPiece, isPiece',
    (congrArg (List.map outline) parts).trans ?_⟩
  · decide +kernel
  · decide +kernel

end Reference

end TrackerLinks
