import TrackerLinks.Proofs.Comment.Trailing
import TrackerLinks.Proofs.Link.Splitting

namespace TrackerLinks

variable {text core tail : Text} {reference : Reference}

theorem Reference.mem_inText_append_blank_iff (blank : ∀ c ∈ tail, Text.isBlank c) :
    reference ∈ inText (text ++ tail) ↔ reference ∈ inText text := by
  obtain ⟨front, closed⟩ := reference.spelling.exists_text_eq_append_close
  have last : ∀ c ∈ reference.spelling.text.getLast?, Text.isBlank c = false := by
    intro c ends
    rw [closed, List.getLast?_concat] at ends
    obtain rfl := Option.some.inj ends
    rfl
  have nonempty := List.length_pos_iff.mp reference.spelling.text_length_pos
  rw [mem_inText_iff, mem_inText_iff, Text.occursAt_append_of_forall_iff nonempty last blank]

theorem commentReferences_append_blank (language : Text)
    (last : ∀ c ∈ core.getLast?, Text.isBlank c = false) (blank : ∀ c ∈ tail, Text.isBlank c) :
    commentReferences language (core ++ tail) = commentReferences language core := by
  apply Reference.eq_of_ordered (commentReferences_ordered _ _) (commentReferences_ordered _ _)
  intro reference
  rw [mem_commentReferences_iff, mem_commentReferences_iff,
    Reference.mem_inText_append_blank_iff blank]
  apply and_congr_right
  intro member
  have fits := (Reference.mem_inText_iff.mp member).2.stop_le
  exact Comment.isCovered_spans_append_blank_iff _ last blank fits

theorem links_trimEnd (language text : Text) (repository : Repository) :
    links language (Text.trimEnd text) repository = links language text repository := by
  obtain ⟨last, tail, blank, same⟩ := Text.trimEndWhile_eq_iff.mp (Eq.refl (Text.trimEnd text))
  have references := commentReferences_append_blank language last blank
  conv => rhs; rw [same]
  rw [links_eq_map, links_eq_map, references]
  apply List.map_congr_left
  intro reference member
  rw [rangeOf_append_left (mem_commentReferences_iff.mp member).1]

/-- White space at the end of a text, line breaks included, is nothing to its links. -/
theorem links_append_blank (language text tail : Text) (repository : Repository)
    (blank : ∀ c ∈ tail, Text.isBlank c) :
    links language (text ++ tail) repository = links language text repository := by
  have trimmed : Text.trimEnd (text ++ tail) = Text.trimEnd text :=
    Text.trimEndWhile_append_of_forall text blank
  rw [← links_trimEnd language (text ++ tail), trimmed, links_trimEnd]

/-- The block is open, so that it takes the white space in. -/
theorem links_append_blank_open :
    (∀ c ∈ "\n\u2028\u3000\r\n".toList, Text.isBlank c) ∧
      Comment.spansIn "rust".toList "/*\r\n(# 1)\r".toList = [⟨0, "/*\r\n(# 1)\r".toList⟩] ∧
      Comment.spansIn "rust".toList "/*\r\n(# 1)\r\n\u2028\u3000\r\n".toList =
        [⟨0, "/*\r\n(# 1)\r\n\u2028\u3000\r\n".toList⟩] ∧
      (links "rust".toList "/*\r\n(# 1)\r\n\u2028\u3000\r\n".toList ⟨.gitHub, [], []⟩).map
          (fun link => (link.start, link.stop, link.range)) =
        [(4, 9, ⟨⟨1, 0⟩, ⟨1, 5⟩⟩)] := by
  have blank : ∀ c ∈ "\n\u2028\u3000\r\n".toList, Text.isBlank c :=
    List.all_eq_true.mp (by decide)
  have same := links_append_blank "rust".toList "/*\r\n(# 1)\r".toList _ ⟨.gitHub, [], []⟩ blank
  have whole : "/*\r\n(# 1)\r".toList ++ "\n\u2028\u3000\r\n".toList =
      "/*\r\n(# 1)\r\n\u2028\u3000\r\n".toList := by decide
  rw [whole] at same
  refine ⟨blank, by decide +kernel, by decide +kernel, ?_⟩
  rw [same]
  decide +kernel

end TrackerLinks
