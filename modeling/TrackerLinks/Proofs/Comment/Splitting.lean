import TrackerLinks.Proofs.Comment.Soundness

/-! A scan looks neither back nor ahead: cut outside its comments, a text has the comments of the
front and those of the back. Where only whole lines are comments, the cut is between lines. -/

namespace TrackerLinks.Comment

variable {delimiters : Delimiters} {openers : List Text} {marker : Marker} {text front back : Text}
  {span : Span}

/-- The same comment when more text stands in front. -/
def Span.shift (distance : Nat) (span : Span) : Span :=
  { span with start := distance + span.start }

theorem Span.shift_zero : shift 0 = id := by
  funext span
  rw [shift, Nat.zero_add]
  rfl

theorem Marker.extent_le_length (opens : marker.opener <+: text) :
    marker.extent text ≤ text.length := by
  have opened := opens.length_le
  cases marker with
  | line opener =>
      have kept := (List.takeWhile_prefix (!isLineBreak ·) (l := text.drop opener.length)).length_le
      rw [List.length_drop] at kept
      simp only [Marker.extent, Marker.opener] at opened ⊢
      omega
  | block opener closer =>
      simp only [Marker.extent, Marker.opener] at opened ⊢
      split
      · rename_i inside found
        obtain ⟨bound, closes, _⟩ := (Text.index?_eq_some_iff closer _ inside).mp found
        have closed := closes.length_le
        rw [List.length_drop] at bound closed
        rw [List.length_drop] at closed
        omega
      · omega

theorem Marker.extent_of_append (fits : marker.extent (front ++ back) ≤ front.length) :
    marker.extent front = marker.extent (front ++ back) := by
  have opened := (marker.opener_length_le_extent (front ++ back)).trans fits
  cases marker with
  | line opener =>
      simp only [Marker.extent, Marker.opener] at fits opened ⊢
      rw [List.drop_append_of_le_length opened, List.takeWhile_append] at fits ⊢
      split
      · rename_i whole
        rw [if_pos whole, List.length_append, List.length_drop] at fits
        rw [List.length_append, whole]
        omega
      · rfl
  | block opener closer =>
      simp only [Marker.extent, Marker.opener] at fits opened ⊢
      rw [List.drop_append_of_le_length opened] at fits ⊢
      cases found : Text.index? closer (front.drop opener.length ++ back) with
      | some inside =>
          simp only [found] at fits ⊢
          rw [Text.index?_of_append found]
          rw [List.length_drop]
          omega
      | none =>
          simp only [found, List.length_append] at fits ⊢
          obtain rfl : back = [] := List.eq_nil_of_length_eq_zero (by omega)
          rw [List.append_nil] at found
          rw [found, List.length_nil, Nat.add_zero]

theorem Delimiters.markerAt?_of_append_eq_none
    (unopened : delimiters.markerAt? (front ++ back) = none) :
    delimiters.markerAt? front = none := by
  rw [markerAt?_eq_none_iff] at unopened ⊢
  intro marker member opens
  exact unopened marker member (opens.trans (List.prefix_append front back))

/-- The longest opener is the longest in the front too, since those in it are not longer. -/
theorem Delimiters.markerAt?_of_append (found : delimiters.markerAt? (front ++ back) = some marker)
    (fits : marker.opener.length ≤ front.length) : delimiters.markerAt? front = some marker := by
  rw [← found]
  apply markerAt?_congr
  intro other member
  constructor
  · intro opens
    exact opens.trans (List.prefix_append front back)
  · intro opens
    have shorter := Text.length_le_of_size_le opens (opener_prefix_of_markerAt? found)
      (size_le_of_markerAt? found member opens)
    exact List.prefix_of_prefix_length_le opens (List.prefix_append front back)
      (shorter.trans fits)

theorem delimitedFrom_add (distance offset : Nat) (text : Text) :
    delimitedFrom delimiters (distance + offset) text =
      (delimitedFrom delimiters offset text).map (Span.shift distance) := by
  fun_induction delimitedFrom delimiters offset text with
  | case1 offset => simp [delimitedFrom]
  | case2 offset c rest none ih =>
      rw [delimitedFrom_of_markerAt?_eq_none _ none, Nat.add_assoc, ih]
  | case3 offset c rest marker found comment =>
      rename_i ih
      rw [delimitedFrom_of_markerAt?_eq_some _ found, Nat.add_assoc, ih]
      rfl

theorem delimitedFrom_eq_cons (offset : Nat) (found : delimiters.markerAt? text = some marker) :
    delimitedFrom delimiters offset text =
      ⟨offset, text.take (marker.extent text)⟩ ::
        delimitedFrom delimiters (offset + Text.size (text.take (marker.extent text)))
          (text.drop (marker.extent text)) := by
  cases text with
  | nil =>
      have opens := Delimiters.opener_prefix_of_markerAt? found
      exact absurd (List.prefix_nil.mp opens) (Delimiters.opener_ne_nil_of_markerAt? found)
  | cons c rest => exact delimitedFrom_of_markerAt?_eq_some offset found

theorem delimitedFrom_of_length_le_extent (offset : Nat)
    (found : delimiters.markerAt? text = some marker) (reaches : text.length ≤ marker.extent text) :
    delimitedFrom delimiters offset text = [⟨offset, text⟩] := by
  rw [delimitedFrom_eq_cons offset found, List.take_of_length_le reaches,
    List.drop_of_length_le reaches, delimitedFrom]

/-- A comment that lies in the front is the first one of the front and of the whole text. -/
theorem exists_comment_of_extent_le (offset : Nat)
    (found : delimiters.markerAt? (front ++ back) = some marker)
    (fits : marker.extent (front ++ back) ≤ front.length) :
    ∃ comment rest, front = comment ++ rest ∧ comment ≠ [] ∧
      delimitedFrom delimiters offset front =
        ⟨offset, comment⟩ :: delimitedFrom delimiters (offset + Text.size comment) rest ∧
      delimitedFrom delimiters offset (front ++ back) =
        ⟨offset, comment⟩ ::
          delimitedFrom delimiters (offset + Text.size comment) (rest ++ back) := by
  have covered := marker.opener_length_le_extent (front ++ back)
  have opened := List.length_pos_iff.mpr (Delimiters.opener_ne_nil_of_markerAt? found)
  refine ⟨front.take (marker.extent (front ++ back)), front.drop (marker.extent (front ++ back)),
    (List.take_append_drop _ front).symm, ?_, ?_, ?_⟩
  · apply List.ne_nil_of_length_pos
    rw [List.length_take_of_le fits]
    exact opened.trans_le covered
  · have found' := Delimiters.markerAt?_of_append found (covered.trans fits)
    rw [delimitedFrom_eq_cons offset found', Marker.extent_of_append fits]
  · rw [delimitedFrom_eq_cons offset found, List.take_append_of_le_length fits,
      List.drop_append_of_le_length fits]

/-- A comment that goes past the front has all of it. -/
theorem exists_comment_of_lt_extent (offset : Nat)
    (found : delimiters.markerAt? (front ++ back) = some marker)
    (past : front.length < marker.extent (front ++ back)) :
    ∃ middle rest, back = middle ++ rest ∧ middle ≠ [] ∧
      delimitedFrom delimiters offset (front ++ back) =
        ⟨offset, front ++ middle⟩ ::
          delimitedFrom delimiters (offset + Text.size (front ++ middle)) rest := by
  have bound := Marker.extent_le_length (Delimiters.opener_prefix_of_markerAt? found)
  rw [List.length_append] at bound
  refine ⟨_, _, (List.take_append_drop (marker.extent (front ++ back) - front.length) back).symm,
    ?_, ?_⟩
  · apply List.ne_nil_of_length_pos
    rw [List.length_take]
    omega
  · rw [delimitedFrom_eq_cons offset found, List.take_append, List.drop_append,
      List.take_of_length_le (Nat.le_of_lt past), List.drop_of_length_le (Nat.le_of_lt past),
      List.nil_append]

/-- To prove something of the scan of a front that is followed by a back. The scan of the front alone
and that of the whole text skip the same characters and take the same comments, until one goes past
the front. -/
@[elab_as_elim]
theorem front_induction (delimiters : Delimiters) (back : Text) {motive : Nat → Text → Prop}
    (empty : ∀ offset, motive offset [])
    (skip : ∀ offset c front,
      delimitedFrom delimiters offset (c :: front) =
        delimitedFrom delimiters (offset + c.utf8Size) front →
      delimitedFrom delimiters offset (c :: front ++ back) =
        delimitedFrom delimiters (offset + c.utf8Size) (front ++ back) →
      motive (offset + c.utf8Size) front → motive offset (c :: front))
    (take : ∀ offset comment front,
      delimitedFrom delimiters offset (comment ++ front) =
        ⟨offset, comment⟩ :: delimitedFrom delimiters (offset + Text.size comment) front →
      delimitedFrom delimiters offset (comment ++ front ++ back) =
        ⟨offset, comment⟩ ::
          delimitedFrom delimiters (offset + Text.size comment) (front ++ back) →
      motive (offset + Text.size comment) front → motive offset (comment ++ front))
    (pass : ∀ offset front marker, front ≠ [] →
      delimiters.markerAt? (front ++ back) = some marker →
      front.length < marker.extent (front ++ back) → motive offset front)
    (offset : Nat) (front : Text) : motive offset front := by
  induction length : front.length using Nat.strongRecOn generalizing offset front with
  | ind _ ih =>
      subst length
      cases front with
      | nil => exact empty offset
      | cons c front =>
          cases found : delimiters.markerAt? (c :: front ++ back) with
          | none =>
              have found' := Delimiters.markerAt?_of_append_eq_none found
              exact skip offset c front (delimitedFrom_of_markerAt?_eq_none _ found')
                (delimitedFrom_of_markerAt?_eq_none _ found)
                (ih front.length (Nat.lt_succ_self _) _ front rfl)
          | some marker =>
              by_cases fits : marker.extent (c :: front ++ back) ≤ (c :: front).length
              · obtain ⟨comment, rest, same, nonempty, alone, both⟩ :=
                  exists_comment_of_extent_le offset found fits
                rw [same] at alone both ih ⊢
                have shorter : rest.length < (comment ++ rest).length := by
                  rw [List.length_append]
                  exact Nat.lt_add_of_pos_left (List.length_pos_iff.mpr nonempty)
                exact take offset comment rest alone both (ih _ shorter _ rest rfl)
              · exact pass offset (c :: front) marker (List.cons_ne_nil c front) found
                  (Nat.lt_of_not_le fits)

theorem delimitedFrom_append (offset : Nat) (front back : Text)
    (cut : ∀ span ∈ delimitedFrom delimiters offset (front ++ back),
      ¬ (span.start < offset + Text.size front ∧ offset + Text.size front < span.stop)) :
    delimitedFrom delimiters offset (front ++ back) =
      delimitedFrom delimiters offset front ++
        delimitedFrom delimiters (offset + Text.size front) back := by
  induction offset, front using front_induction delimiters back with
  | empty offset => simp [delimitedFrom]
  | skip offset c front alone both ih =>
      rw [both, Text.size_cons, ← Nat.add_assoc] at cut ⊢
      rw [ih cut, alone]
  | take offset comment front alone both ih =>
      rw [both, Text.size_append, ← Nat.add_assoc] at cut ⊢
      rw [ih (List.forall_mem_cons.mp cut).2, alone, List.cons_append]
  | pass offset front marker nonempty found past =>
      obtain ⟨middle, rest, rfl, nonempty', both⟩ := exists_comment_of_lt_extent offset found past
      rw [both] at cut
      have inside := Text.size_pos nonempty
      have inside' := Text.size_pos nonempty'
      apply absurd _ (cut _ List.mem_cons_self)
      rw [Span.stop, Text.size_append]
      dsimp only
      omega

theorem exists_markerAt?_of_mem_delimitedFrom {offset : Nat}
    (member : span ∈ delimitedFrom delimiters offset text) :
    ∃ marker rest, delimiters.markerAt? rest = some marker ∧
      span.text = rest.take (marker.extent rest) := by
  fun_induction delimitedFrom delimiters offset text with
  | case1 => cases member
  | case2 offset c rest none ih => exact ih member
  | case3 offset c rest marker found comment =>
      rename_i ih
      rcases List.mem_cons.mp member with rfl | later
      · exact ⟨marker, c :: rest, found, rfl⟩
      · exact ih later

theorem delimitedFrom_text {offset : Nat} (member : span ∈ delimitedFrom delimiters offset text) :
    delimitedFrom delimiters 0 span.text = [⟨0, span.text⟩] := by
  obtain ⟨marker, rest, found, comment⟩ := exists_markerAt?_of_mem_delimitedFrom member
  have bound := Marker.extent_le_length (Delimiters.opener_prefix_of_markerAt? found)
  have whole : span.text ++ rest.drop (marker.extent rest) = rest := by
    rw [comment, List.take_append_drop]
  have length : span.text.length = marker.extent rest := by
    rw [comment, List.length_take_of_le bound]
  rw [← whole] at found length
  have found' := Delimiters.markerAt?_of_append found
    (length ▸ marker.opener_length_le_extent _)
  apply delimitedFrom_of_length_le_extent 0 found'
  rw [Marker.extent_of_append (Nat.le_of_eq length.symm), ← length]

/-- The comment that a line is, if it is one. -/
def commentOfLine? (openers : List Text) (line : Line) : Option Span :=
  let content := Text.dropReturn line.body
  if opensLine openers content then some ⟨line.start, content⟩ else none

theorem commentLines_eq_filterMap (openers : List Text) (text : Text) :
    commentLines openers text = (Text.linesAt 0 text).filterMap (commentOfLine? openers) := rfl

theorem commentOfLine?_shift (openers : List Text) (distance : Nat) (line : Line) :
    commentOfLine? openers (line.shift distance) =
      (commentOfLine? openers line).map (Span.shift distance) := by
  rw [commentOfLine?, commentOfLine?, Line.shift]
  dsimp only
  split <;> rfl

theorem commentLines_nil (nonempty : ∀ opener ∈ openers, opener ≠ []) :
    commentLines openers [] = [] := by
  have closed : ¬ opensLine openers (Text.dropReturn []) := fun opens =>
    content_ne_nil_of_opensLine nonempty opens rfl
  rw [commentLines_eq_filterMap, Text.linesAt_of_not_mem List.not_mem_nil, List.filterMap_cons,
    commentOfLine?, if_neg closed]
  rfl

theorem commentLines_append_feed (nonempty : ∀ opener ∈ openers, opener ≠ []) (front back : Text) :
    commentLines openers (front ++ '\n' :: back) =
      commentLines openers (front ++ ['\n']) ++
        (commentLines openers back).map (Span.shift (Text.size front + 1)) := by
  obtain ⟨closed, lines⟩ := Text.exists_linesAt_append_feed 0 front
  have later (rest : Text) :
      (Text.linesAt (0 + Text.size front + 1) rest).filterMap (commentOfLine? openers) =
        (commentLines openers rest).map (Span.shift (Text.size front + 1)) := by
    have shifted := Text.linesAt_add (Text.size front + 1) 0 rest
    rw [Nat.add_zero] at shifted
    rw [Nat.zero_add, shifted, List.filterMap_map, commentLines_eq_filterMap, List.map_filterMap]
    apply List.filterMap_congr
    intro line _
    exact commentOfLine?_shift openers _ line
  rw [commentLines_eq_filterMap, commentLines_eq_filterMap, lines, lines, List.filterMap_append,
    List.filterMap_append, later, later, commentLines_nil nonempty, List.map_nil, List.append_nil]

/-- The text can be cut here for a scan: outside the comments or, where only whole lines are
comments, at an end of the text or right after a line feed. -/
def IsCut (profile : Profile) (front back : Text) : Prop :=
  if profile.delimiters.isDelimited then
    ∀ span ∈ spans profile (front ++ back),
      ¬ (span.start < Text.size front ∧ Text.size front < span.stop)
  else front = [] ∨ back = [] ∨ ['\n'] <:+ front

instance (profile : Profile) (front back : Text) : Decidable (IsCut profile front back) :=
  inferInstanceAs (Decidable
    (if profile.delimiters.isDelimited then
      ∀ span ∈ spans profile (front ++ back),
        ¬ (span.start < Text.size front ∧ Text.size front < span.stop)
    else front = [] ∨ back = [] ∨ ['\n'] <:+ front))

theorem commentLines_append (nonempty : ∀ opener ∈ openers, opener ≠ [])
    (cut : front = [] ∨ back = [] ∨ ['\n'] <:+ front) :
    commentLines openers (front ++ back) =
      commentLines openers front ++
        (commentLines openers back).map (Span.shift (Text.size front)) := by
  rcases cut with rfl | rfl | ⟨front, rfl⟩
  · rw [commentLines_nil nonempty, Text.size_nil, Span.shift_zero, List.map_id]
    rfl
  · rw [commentLines_nil nonempty]
    simp
  · rw [Text.size_concat_feed, List.append_assoc, List.singleton_append]
    exact commentLines_append_feed nonempty front back

theorem spans_append {profile : Profile} (cut : IsCut profile front back) :
    spans profile (front ++ back) =
      spans profile front ++ (spans profile back).map (Span.shift (Text.size front)) := by
  rw [IsCut] at cut
  rw [spans, spans, spans]
  split at cut
  · rename_i delimited
    rw [spans, if_pos delimited] at cut
    rw [if_pos delimited, if_pos delimited, if_pos delimited]
    have parts := delimitedFrom_append 0 front back (by simpa using cut)
    have shifted : delimitedFrom profile.delimiters (Text.size front) back =
        (delimitedFrom profile.delimiters 0 back).map (Span.shift (Text.size front)) :=
      delimitedFrom_add (Text.size front) 0 back
    rw [parts, Nat.zero_add, shifted]
  · rename_i whole
    rw [if_neg whole, if_neg whole, if_neg whole]
    exact commentLines_append profile.delimiters.lineOpeners_ne_nil cut

end TrackerLinks.Comment
