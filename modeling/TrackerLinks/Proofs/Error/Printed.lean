import TrackerLinks.Error
import TrackerLinks.Proofs.Text.Lines

namespace TrackerLinks

namespace Text

variable {body : Text}

theorem endedLines_append (front back : Text) :
    endedLines (front ++ '\n' :: back) =
      (split '\n' front).map dropReturn ++ endedLines back := by
  rw [endedLines, split_append, List.dropLast_append_of_ne_nil (split_ne_nil '\n' back),
    List.map_append]
  rfl

theorem endedLines_append_cons (absent : '\n' ∉ body) (rest : Text) :
    endedLines (body ++ '\n' :: rest) = dropReturn body :: endedLines rest := by
  rw [endedLines_append, split_of_not_mem absent]
  rfl

end Text

namespace Error

theorem ending_not_mem_title (error : Error) : '\n' ∉ error.title ∧ '\r' ∉ error.title := by
  cases error <;> dsimp only [title] <;> decide

theorem endedLines_markdown (error : Error) :
    Text.endedLines error.markdown =
      ("# ".toList ++ error.title) :: [] :: Text.endedLines (error.body ++ ['\n']) := by
  obtain ⟨noFeed, noReturn⟩ := error.ending_not_mem_title
  have heading : '\n' ∉ "# ".toList ++ error.title := by simpa using noFeed
  have kept : Text.dropReturn ("# ".toList ++ error.title) = "# ".toList ++ error.title :=
    Text.dropReturn_of_not_suffix fun ends => by
      have member := ends.subset List.mem_cons_self
      simp [noReturn] at member
  have spelled : error.markdown = ("# ".toList ++ error.title) ++ '\n' ::
      ([] ++ '\n' :: (error.body ++ ['\n'])) := by
    unfold markdown
    simp
  rw [spelled, Text.endedLines_append_cons heading, kept,
    Text.endedLines_append_cons List.not_mem_nil]
  rfl

end Error

end TrackerLinks
