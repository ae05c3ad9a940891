import TrackerLinks.Proofs.Comment.Locality

/-! White space after a text changes how far its last comment goes and which lines it has, but not
which part of the text is in a comment. -/

namespace TrackerLinks.Comment

variable {delimiters : Delimiters} {openers : List Text} {text core tail content : Text}
  {start stop : Nat}

/-- White space does not end an opener. -/
def Delimiters.IsSolid (delimiters : Delimiters) : Prop :=
  ∀ marker ∈ delimiters.markers, ∀ c ∈ marker.opener.getLast?, Text.isBlank c = false

theorem Profile.delimiters_isSolid (profile : Profile) : profile.delimiters.IsSolid := by
  have solid : profile.delimiters.markers.all fun marker =>
      marker.opener.getLast?.all (!Text.isBlank ·) := by
    cases profile <;> decide
  intro marker member c last
  have ends := List.all_eq_true.mp solid marker member
  rw [Option.mem_def.mp last] at ends
  exact Bool.not_eq_true' _ ▸ ends

theorem Delimiters.markerAt?_append_blank (solid : delimiters.IsSolid)
    (blank : ∀ c ∈ tail, Text.isBlank c) (text : Text) :
    delimiters.markerAt? (text ++ tail) = delimiters.markerAt? text := by
  apply markerAt?_congr
  intro marker member
  exact Text.prefix_append_of_forall_iff (delimiters.opener_ne_nil marker member)
    (solid marker member) blank

theorem delimitedFrom_of_blank (solid : delimiters.IsSolid) (offset : Nat)
    (blank : ∀ c ∈ tail, Text.isBlank c) : delimitedFrom delimiters offset tail = [] := by
  induction tail generalizing offset with
  | nil => rw [delimitedFrom]
  | cons c tail ih =>
      have unopened : delimiters.markerAt? (c :: tail) = none := by
        cases found : delimiters.markerAt? ([] ++ c :: tail) with
        | none => exact found
        | some marker =>
            rw [Delimiters.markerAt?_append_blank solid blank] at found
            exact absurd (List.prefix_nil.mp (Delimiters.opener_prefix_of_markerAt? found))
              (Delimiters.opener_ne_nil_of_markerAt? found)
      rw [delimitedFrom_of_markerAt?_eq_none offset unopened]
      exact ih _ (List.forall_mem_cons.mp blank).2

theorem isCovered_delimitedFrom_append_blank_iff (solid : delimiters.IsSolid)
    (blank : ∀ c ∈ tail, Text.isBlank c) (offset : Nat) (text : Text)
    (fits : stop ≤ offset + Text.size text) :
    IsCovered (delimitedFrom delimiters offset (text ++ tail)) start stop ↔
      IsCovered (delimitedFrom delimiters offset text) start stop := by
  induction offset, text using front_induction delimiters tail with
  | empty offset =>
      rw [List.nil_append, delimitedFrom_of_blank solid offset blank, delimitedFrom]
  | skip offset c front alone both ih =>
      rw [Text.size_cons, ← Nat.add_assoc] at fits
      rw [both, alone, ih fits]
  | take offset comment front alone both ih =>
      rw [Text.size_append, ← Nat.add_assoc] at fits
      rw [both, alone, isCovered_cons_iff, isCovered_cons_iff, ih fits]
  | pass offset front marker _ found past =>
      -- The same opener stands in the front alone, and its comment goes on to the end of it.
      have found' := Delimiters.markerAt?_append_blank solid blank front ▸ found
      have reaches : front.length ≤ marker.extent front := by
        by_contra inside
        rw [Marker.extent_append_of_lt (Nat.lt_of_not_le inside)] at past
        omega
      obtain ⟨middle, rest, rfl, _, both⟩ := exists_comment_of_lt_extent offset found past
      have ended := delimitedFrom_of_blank solid (offset + Text.size (front ++ middle))
        (List.forall_mem_append.mp blank).2
      rw [both, ended, delimitedFrom_of_length_le_extent offset found' reaches]
      simp only [isCovered_cons_iff, not_isCovered_nil, or_false, Span.stop, Text.size_append]
      omega

/-- The line is a comment that holds all from `start` to `stop`. -/
def IsHeldBy (openers : List Text) (start stop : Nat) (line : Line) : Prop :=
  opensLine openers (Text.dropReturn line.body) ∧ line.start ≤ start ∧
    stop ≤ line.start + Text.size (Text.dropReturn line.body)

theorem isCovered_commentLines_iff :
    IsCovered (commentLines openers text) start stop ↔
      ∃ line ∈ Text.linesAt 0 text, IsHeldBy openers start stop line := by
  simp only [IsCovered, mem_commentLines_iff, IsHeldBy]
  constructor
  · rintro ⟨_, ⟨line, member, opens, rfl⟩, starts, stops⟩
    exact ⟨line, member, opens, starts, stops⟩
  · rintro ⟨line, member, opens, starts, stops⟩
    exact ⟨_, ⟨line, member, opens, rfl⟩, starts, stops⟩

theorem Delimiters.IsSolid.lineOpeners (solid : delimiters.IsSolid) :
    ∀ opener ∈ delimiters.lineOpeners, ∀ c ∈ opener.getLast?, Text.isBlank c = false := by
  intro opener member
  exact solid _ (line_mem_markers member)

section

variable (nonempty : ∀ opener ∈ openers, opener ≠ [])
  (solid : ∀ opener ∈ openers, ∀ c ∈ opener.getLast?, Text.isBlank c = false)

include nonempty solid

theorem opensLine_append_blank (blank : ∀ c ∈ tail, Text.isBlank c) (content : Text) :
    opensLine openers (content ++ tail) = opensLine openers content := by
  obtain ⟨kept, blank', trimmed⟩ := Text.exists_dropWhile_append blank content
  rw [Bool.eq_iff_iff, opensLine, opensLine, List.any_eq_true, List.any_eq_true, Text.trimStart,
    trimmed]
  apply exists_congr
  intro opener
  apply and_congr_right
  intro member
  rw [List.isPrefixOf_iff_prefix, List.isPrefixOf_iff_prefix]
  exact Text.prefix_append_of_forall_iff (nonempty opener member) (solid opener member) blank'

theorem not_opensLine_of_blank (blank : ∀ c ∈ content, Text.isBlank c) :
    ¬ opensLine openers content := by
  have empty := opensLine_append_blank nonempty solid blank []
  rw [List.nil_append] at empty
  rw [empty]
  intro opens
  exact content_ne_nil_of_opensLine nonempty opens rfl

theorem isHeldBy_append_blank_iff (blank : ∀ c ∈ tail, Text.isBlank c) {offset : Nat}
    (closed closed' : Bool) (last : ∀ c ∈ content.getLast?, Text.isBlank c = false)
    (fits : stop ≤ offset + Text.size content) :
    IsHeldBy openers start stop ⟨offset, content ++ tail, closed⟩ ↔
      IsHeldBy openers start stop ⟨offset, content, closed'⟩ := by
  obtain ⟨kept, blank', cut⟩ := Text.exists_dropReturn_append_blank last blank
  have fits' : stop ≤ offset + (Text.size content + Text.size kept) := by omega
  simp only [IsHeldBy, cut, Text.dropReturn_of_getLast? last, Text.size_append, fits, fits',
    opensLine_append_blank nonempty solid blank']

theorem exists_isHeldBy_append_blank_iff (blank : ∀ c ∈ tail, Text.isBlank c) (offset : Nat)
    (last : ∀ c ∈ core.getLast?, Text.isBlank c = false) (fits : stop ≤ offset + Text.size core) :
    (∃ line ∈ Text.linesAt offset (core ++ tail), IsHeldBy openers start stop line) ↔
      ∃ line ∈ Text.linesAt offset core, IsHeldBy openers start stop line := by
  induction core using Text.line_induction generalizing offset with
  | last body absent =>
      obtain ⟨kept, closed, later, blank', blanks, lines⟩ :=
        Text.exists_linesAt_append_blank absent blank offset
      have unheld : ¬ ∃ line ∈ later, IsHeldBy openers start stop line := by
        rintro ⟨line, member, opens, _⟩
        refine not_opensLine_of_blank nonempty solid ?_ opens
        intro c inside
        exact blanks line member c ((Text.dropReturn_isPrefix line.body).subset inside)
      rw [lines, Text.linesAt_of_not_mem absent]
      simp only [List.mem_cons, List.not_mem_nil, or_false, exists_eq_or_imp, exists_eq_left, unheld]
      exact isHeldBy_append_blank_iff nonempty solid blank' closed false last fits
  | line body rest absent ih =>
      have place : offset + Text.size (body ++ '\n' :: rest) =
          offset + Text.size body + 1 + Text.size rest := by
        rw [Text.size_append_feed, ← Nat.add_assoc, ← Nat.add_assoc]
      have last' : ∀ c ∈ rest.getLast?, Text.isBlank c = false := by
        intro c ends
        apply last
        cases rest with
        | nil => cases ends
        | cons d rest => simpa [List.getLast?_append] using ends
      rw [place] at fits
      rw [List.append_assoc, List.cons_append, Text.linesAt_append_cons absent,
        Text.linesAt_append_cons absent]
      simp only [List.mem_cons, exists_eq_or_imp, ih _ last' fits]

end

/-- With white space after it, a text that white space does not end has the same of it in its
comments. -/
theorem isCovered_spans_append_blank_iff (profile : Profile)
    (last : ∀ c ∈ core.getLast?, Text.isBlank c = false) (blank : ∀ c ∈ tail, Text.isBlank c)
    (fits : stop ≤ Text.size core) :
    IsCovered (spans profile (core ++ tail)) start stop ↔
      IsCovered (spans profile core) start stop := by
  have solid := profile.delimiters_isSolid
  rw [← Nat.zero_add (Text.size core)] at fits
  rw [spans, spans]
  split
  · exact isCovered_delimitedFrom_append_blank_iff solid blank 0 core fits
  · rw [isCovered_commentLines_iff, isCovered_commentLines_iff]
    exact exists_isHeldBy_append_blank_iff profile.delimiters.lineOpeners_ne_nil solid.lineOpeners
      blank 0 last fits

end TrackerLinks.Comment
