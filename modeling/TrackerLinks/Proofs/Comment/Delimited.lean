import TrackerLinks.Proofs.Comment.Marker

/-! The comments of a language with blocks. A list of spans is the scan of a text exactly when it is
ordered, leaves no opener uncovered, and gives each span the extent of its longest opener. -/

namespace TrackerLinks.Comment

variable {delimiters : Delimiters} {marker : Marker} {text before rest : Text} {low : Nat}
  {comments : List Span}

/-- `comments` are the comments of `text` from the offset `low` on. -/
structure IsScanFrom (delimiters : Delimiters) (text : Text) (low : Nat) (comments : List Span) :
    Prop where
  occurs : ∀ span ∈ comments, Text.OccursAt span.text text span.start
  le_start : ∀ span ∈ comments, low ≤ span.start
  /-- So delimiters inside a span open no span of their own. -/
  ordered : comments.Pairwise fun earlier later => earlier.stop ≤ later.start
  covered : ∀ marker ∈ delimiters.markers, ∀ offset, low ≤ offset →
    Text.OccursAt marker.opener text offset →
      ∃ span ∈ comments, span.start ≤ offset ∧ offset < span.stop
  governed : ∀ span ∈ comments, ∃ marker : Marker, marker.Governs delimiters text span.start ∧
    marker.EndsAt text span.start span.stop

theorem IsScanFrom.start_lt_stop (scan : IsScanFrom delimiters text low comments) {span : Span}
    (member : span ∈ comments) : span.start < span.stop := by
  obtain ⟨marker, governs, ends⟩ := scan.governed span member
  exact governs.start_lt ends

theorem isScanFrom_size_iff :
    IsScanFrom delimiters text (Text.size text) comments ↔ comments = [] := by
  constructor
  · intro scan
    apply List.eq_nil_iff_forall_not_mem.mpr
    intro span member
    have reached := scan.le_start span member
    have nonempty := scan.start_lt_stop member
    have inside := (scan.occurs span member).stop_le
    rw [Span.stop] at nonempty
    omega
  · intro empty
    subst empty
    refine ⟨by simp, by simp, .nil, ?_, by simp⟩
    intro marker member offset reached occurs
    have opened := Text.size_pos (delimiters.opener_ne_nil marker member)
    have inside := occurs.stop_le
    omega

theorem isScanFrom_skip_iff {c : Char} (none : delimiters.markerAt? (c :: rest) = none) :
    IsScanFrom delimiters (before ++ c :: rest) (Text.size before) comments ↔
      IsScanFrom delimiters (before ++ c :: rest) (Text.size before + c.utf8Size) comments := by
  have unopened : ∀ marker ∈ delimiters.markers,
      ¬ Text.OccursAt marker.opener (before ++ c :: rest) (Text.size before) :=
    Delimiters.not_occursAt_of_markerAt?_eq_none none
  constructor
  · intro scan
    refine ⟨scan.occurs, ?_, scan.ordered, ?_, scan.governed⟩
    · intro span member
      rcases Text.start_eq_or_le_of_occursAt (scan.le_start span member) (scan.occurs span member)
        with here | later
      · obtain ⟨marker, governs, _⟩ := scan.governed span member
        exact absurd (here ▸ governs.opens) (unopened marker governs.mem)
      · exact later
    · intro marker member offset reached
      exact scan.covered marker member offset (by omega)
  · intro scan
    refine ⟨scan.occurs, ?_, scan.ordered, ?_, scan.governed⟩
    · intro span member
      have := scan.le_start span member
      omega
    · intro marker member offset reached occurs
      rcases Text.start_eq_or_le_of_occursAt reached occurs with rfl | later
      · exact absurd occurs (unopened marker member)
      · exact scan.covered marker member offset later occurs

theorem IsScanFrom.cons {first : Span} {more : List Span}
    (occurs : Text.OccursAt first.text text first.start)
    (governs : marker.Governs delimiters text first.start)
    (ends : marker.EndsAt text first.start first.stop)
    (scan : IsScanFrom delimiters text first.stop more) :
    IsScanFrom delimiters text first.start (first :: more) := by
  have nonempty := governs.start_lt ends
  refine ⟨?_, ?_, ?_, ?_, ?_⟩
  · exact List.forall_mem_cons.mpr ⟨occurs, scan.occurs⟩
  · refine List.forall_mem_cons.mpr ⟨Nat.le_refl _, ?_⟩
    intro span member
    have := scan.le_start span member
    omega
  · exact List.pairwise_cons.mpr ⟨scan.le_start, scan.ordered⟩
  · intro other member offset reached opens
    by_cases inside : offset < first.stop
    · exact ⟨first, List.mem_cons_self, reached, inside⟩
    · obtain ⟨span, found, covers⟩ :=
        scan.covered other member offset (Nat.le_of_not_lt inside) opens
      exact ⟨span, List.mem_cons_of_mem _ found, covers⟩
  · exact List.forall_mem_cons.mpr ⟨⟨marker, governs, ends⟩, scan.governed⟩

theorem IsScanFrom.tail {first : Span} {more : List Span}
    (scan : IsScanFrom delimiters text low (first :: more)) :
    IsScanFrom delimiters text first.stop more := by
  have nonempty := scan.start_lt_stop List.mem_cons_self
  have reached := scan.le_start first List.mem_cons_self
  obtain ⟨after, ordered⟩ := List.pairwise_cons.mp scan.ordered
  refine ⟨(List.forall_mem_cons.mp scan.occurs).2, after, ordered, ?_,
    (List.forall_mem_cons.mp scan.governed).2⟩
  intro marker member offset passed opens
  obtain ⟨span, found, starts, stops⟩ := scan.covered marker member offset (by omega) opens
  rcases List.mem_cons.mp found with rfl | found
  · omega
  · exact ⟨span, found, starts, stops⟩

theorem IsScanFrom.exists_cons (scan : IsScanFrom delimiters text low comments)
    (governs : marker.Governs delimiters text low) :
    ∃ first more, comments = first :: more ∧ first.start = low := by
  obtain ⟨span, found, starts, stops⟩ :=
    scan.covered marker governs.mem low (Nat.le_refl _) governs.opens
  cases comments with
  | nil => cases found
  | cons first more =>
      refine ⟨first, more, rfl, ?_⟩
      have reached := scan.le_start first List.mem_cons_self
      rcases List.mem_cons.mp found with rfl | found
      · omega
      · have nonempty := scan.start_lt_stop List.mem_cons_self
        have after := (List.pairwise_cons.mp scan.ordered).1 span found
        omega

theorem isScanFrom_take_iff (distinct : delimiters.Distinct) {comment : Text}
    (governs : marker.Governs delimiters text low)
    (occurs : Text.OccursAt comment text low)
    (ends : marker.EndsAt text low (low + Text.size comment)) :
    IsScanFrom delimiters text low comments ↔
      ∃ more, comments = ⟨low, comment⟩ :: more ∧
        IsScanFrom delimiters text (low + Text.size comment) more := by
  constructor
  · intro scan
    obtain ⟨⟨start, comment'⟩, more, rfl, rfl⟩ := scan.exists_cons governs
    obtain ⟨marker', governs', ends'⟩ := scan.governed _ List.mem_cons_self
    -- One marker governs here, and it ends its comment in one place.
    obtain rfl := governs'.unique distinct governs
    have sizes : Text.size comment' = Text.size comment :=
      Nat.add_left_cancel (ends'.unique ends)
    have occurs' := scan.occurs _ List.mem_cons_self
    obtain rfl := occurs'.eq_of_size_eq occurs sizes
    exact ⟨more, rfl, scan.tail⟩
  · intro h
    obtain ⟨more, rfl, scan⟩ := h
    have after : IsScanFrom delimiters text (Span.stop ⟨low, comment⟩) more := scan
    exact .cons occurs governs ends after

theorem isScanFrom_iff_eq_delimitedFrom (distinct : delimiters.Distinct) (before rest : Text)
    (comments : List Span) {offset : Nat} (place : Text.size before = offset) :
    IsScanFrom delimiters (before ++ rest) offset comments ↔
      comments = delimitedFrom delimiters offset rest := by
  -- What is already scanned stays in front, so that all offsets count from the start of the text.
  fun_induction delimitedFrom delimiters offset rest generalizing before comments with
  | case1 offset =>
      subst place
      rw [List.append_nil, isScanFrom_size_iff]
  | case2 offset c rest none ih =>
      subst place
      rw [isScanFrom_skip_iff none]
      have step := ih (before ++ [c]) comments (by simp)
      rwa [List.append_assoc] at step
  | case3 offset c rest marker found comment =>
      rename_i ih
      subst place
      have opens := Delimiters.opener_prefix_of_markerAt? found
      have cut : comment ++ (c :: rest).drop (marker.extent (c :: rest)) = c :: rest :=
        List.take_append_drop _ _
      have occurs : Text.OccursAt comment (before ++ c :: rest) (Text.size before) := by
        rw [Text.occursAt_append_size_iff]
        exact List.take_prefix _ _
      have ends : marker.EndsAt (before ++ c :: rest) (Text.size before)
          (Text.size before + Text.size comment) :=
        Marker.endsAt_extent opens
      rw [isScanFrom_take_iff distinct (Delimiters.governs_of_markerAt? found) occurs ends]
      have step (more : List Span) := ih (before ++ comment) more (by simp)
      simp only [List.append_assoc, cut] at step
      simp only [step, exists_eq_right]

theorem Delimiters.isDelimited_iff : delimiters.isDelimited ↔ delimiters.blocks ≠ [] := by
  rw [isDelimited, List.any_eq_true, blocks, Ne, List.filterMap_eq_nil_iff, not_forall]
  apply exists_congr
  intro marker
  cases marker <;> simp [Marker.isBlock, Marker.block?]

theorem isScanFrom_delimitedFrom (distinct : delimiters.Distinct) (text : Text) :
    IsScanFrom delimiters text 0 (delimitedFrom delimiters 0 text) :=
  (isScanFrom_iff_eq_delimitedFrom distinct [] text _ Text.size_nil).mpr rfl

/-- The comments of a language with blocks are the one scan of the text. -/
theorem spans_eq_iff_isScanFrom (profile : Profile) (delimited : profile.delimiters.blocks ≠ [])
    (text : Text) (comments : List Span) :
    spans profile text = comments ↔ IsScanFrom profile.delimiters text 0 comments := by
  rw [spans, if_pos (Delimiters.isDelimited_iff.mpr delimited), eq_comm]
  exact (isScanFrom_iff_eq_delimitedFrom profile.delimiters_distinct [] text comments
    Text.size_nil).symm

/-- The long opener wins over the short one in it, and half a closer closes nothing. -/
theorem isScanFrom_lua_blocks :
    Profile.lua.delimiters.blocks ≠ [] ∧
      IsScanFrom Profile.lua.delimiters "--[[ -- ]\n]]x--".toList 0
        [⟨0, "--[[ -- ]\n]]".toList⟩, ⟨13, "--".toList⟩] :=
  ⟨by decide, (spans_eq_iff_isScanFrom .lua (by decide) _ _).mp (by decide +kernel)⟩

end TrackerLinks.Comment
