import TrackerLinks.Text.Basic

namespace TrackerLinks.Text

variable {separator : Char} {text front back piece : Text} {pieces more : List Text}

theorem split_eq_splitOn (separator : Char) (text : Text) :
    split separator text = text.splitOn separator := by
  induction text with
  | nil => rfl
  | cons c text ih =>
      rw [List.splitOn_cons_eq_if_modifyHead, ← ih]
      simp only [split, List.foldr_cons, beq_iff_eq]
      split
      · rfl
      · cases rest : List.foldr _ [[]] text with
        | nil => exact absurd rest (split_ne_nil separator text)
        | cons piece more => rfl

theorem joined_eq_intercalate (separator : Text) (pieces : List Text) :
    joined separator pieces = separator.intercalate pieces := rfl

theorem split_of_not_mem (absent : separator ∉ text) : split separator text = [text] := by
  rw [split_eq_splitOn, List.splitOn_eq_singleton absent]

theorem split_append (front back : Text) :
    split separator (front ++ separator :: back) =
      split separator front ++ split separator back := by
  rw [split_eq_splitOn, split_eq_splitOn, split_eq_splitOn, List.splitOn_append_cons_self]

theorem split_append_cons (absent : separator ∉ front) (back : Text) :
    split separator (front ++ separator :: back) = front :: split separator back := by
  rw [split_append, split_of_not_mem absent]
  rfl

/-- Pieces that each end with a separator, after which nothing is left. -/
theorem split_flatMap_append (absent : ∀ piece ∈ pieces, separator ∉ piece) :
    split separator (pieces.flatMap (· ++ [separator])) = pieces ++ [[]] := by
  induction pieces with
  | nil => rfl
  | cons piece pieces ih =>
      obtain ⟨first, later⟩ := List.forall_mem_cons.mp absent
      rw [List.flatMap_cons, List.append_assoc, List.singleton_append, split_append_cons first,
        ih later, List.cons_append]

theorem joined_split (separator : Char) (text : Text) :
    joined [separator] (split separator text) = text := by
  rw [split_eq_splitOn, joined_eq_intercalate, List.intercalate_splitOn]

theorem split_joined (nonempty : pieces ≠ []) (absent : ∀ piece ∈ pieces, separator ∉ piece) :
    split separator (joined [separator] pieces) = pieces := by
  rw [split_eq_splitOn, joined_eq_intercalate, List.splitOn_intercalate separator absent nonempty]

@[simp] theorem joined_singleton (separator piece : Text) : joined separator [piece] = piece := by
  rw [joined_eq_intercalate, List.intercalate_singleton]

theorem joined_cons (piece : Text) (nonempty : more ≠ []) :
    joined [separator] (piece :: more) = piece ++ separator :: joined [separator] more := by
  rw [joined_eq_intercalate, List.intercalate_cons_of_ne_nil nonempty, ← joined_eq_intercalate]
  simp

theorem joined_append (nonempty : pieces ≠ []) (nonempty' : more ≠ []) :
    joined [separator] (pieces ++ more) =
      joined [separator] pieces ++ separator :: joined [separator] more := by
  induction pieces with
  | nil => exact absurd rfl nonempty
  | cons piece pieces ih =>
      cases pieces with
      | nil =>
          rw [List.singleton_append, joined_cons piece nonempty', joined_singleton]
      | cons second pieces =>
          rw [List.cons_append, joined_cons piece (by simp), ih (List.cons_ne_nil _ _),
            joined_cons piece (List.cons_ne_nil _ _)]
          simp

theorem eq_or_exists_of_mem_joined {c : Char} (member : c ∈ joined [separator] pieces) :
    c = separator ∨ ∃ piece ∈ pieces, c ∈ piece := by
  induction pieces with
  | nil => cases member
  | cons piece pieces ih =>
      by_cases last : pieces = []
      · rw [last, joined_singleton] at member
        exact .inr ⟨piece, List.mem_cons_self, member⟩
      rw [joined_cons piece last, List.mem_append, List.mem_cons] at member
      rcases member with inside | at_separator | later
      · exact .inr ⟨piece, List.mem_cons_self, inside⟩
      · exact .inl at_separator
      · rcases ih later with at_separator | ⟨piece', member, inside⟩
        · exact .inl at_separator
        · exact .inr ⟨piece', List.mem_cons_of_mem _ member, inside⟩

theorem joined_isPrefix {front : List Text} (h : front <+: pieces) :
    joined [separator] front <+: joined [separator] pieces := by
  obtain ⟨back, rfl⟩ := h
  by_cases first : front = []
  · rw [first]
    exact List.nil_prefix
  by_cases second : back = []
  · simp [second]
  · rw [joined_append first second]
    exact List.prefix_append _ _

/-- To prove a property of texts piece by piece. -/
@[elab_as_elim]
theorem piece_induction (separator : Char) {motive : Text → Prop}
    (last : ∀ piece, separator ∉ piece → motive piece)
    (piece : ∀ piece rest, separator ∉ piece → motive rest → motive (piece ++ separator :: rest))
    (text : Text) : motive text := by
  induction h : text.length using Nat.strongRecOn generalizing text with
  | ind _ ih =>
      subst h
      by_cases found : separator ∈ text
      · obtain ⟨front, rest, rfl, absent⟩ := List.eq_append_cons_of_mem found
        apply piece front rest absent
        apply ih rest.length _ rest rfl
        simp only [List.length_append, List.length_cons]
        omega
      · exact last text found

theorem not_mem_of_mem_split (member : piece ∈ split separator text) : separator ∉ piece := by
  induction text using piece_induction separator with
  | last text absent =>
      rw [split_of_not_mem absent] at member
      rw [List.mem_singleton.mp member]
      exact absent
  | piece front rest absent ih =>
      rw [split_append_cons absent] at member
      rcases List.mem_cons.mp member with rfl | later
      · exact absent
      · exact ih later

end TrackerLinks.Text
