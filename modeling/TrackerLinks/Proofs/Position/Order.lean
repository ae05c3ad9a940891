import TrackerLinks.Proofs.Position.LineIndex

/-! A position counts the line feeds before an offset, and the UTF-16 units after the last of them.
So positions are in the order of the offsets that they belong to. -/

namespace TrackerLinks

variable {text : Text} {p q : Position} {offset start stop : Nat}

namespace Text

/-- What stands after the last line feed of a text. -/
def lastLine (text : Text) : Text :=
  text.rtakeWhile (· ≠ '\n')

theorem lastLine_of_not_mem {body : Text} (absent : '\n' ∉ body) : lastLine body = body := by
  apply List.rtakeWhile_eq_self_iff.mpr
  intro c member
  exact decide_eq_true (ne_of_mem_of_not_mem member absent)

theorem lastLine_append_feed (front back : Text) :
    lastLine (front ++ '\n' :: back) = lastLine back := by
  have cut (rest : Text) : lastLine (rest ++ ['\n']) = [] :=
    List.rtakeWhile_concat_neg _ _ _ (by simp)
  induction back using List.reverseRecOn with
  | nil => exact cut front
  | append_singleton back c ih =>
      rw [← List.cons_append, ← List.append_assoc]
      by_cases feed : c = '\n'
      · subst feed
        rw [cut, cut]
      · have kept (rest : Text) : lastLine (rest ++ [c]) = lastLine rest ++ [c] :=
          List.rtakeWhile_concat_pos _ _ _ (decide_eq_true feed)
        rw [kept, kept, ih]

end Text

namespace Position

theorem advance_start (text : Text) :
    advance ⟨0, 0⟩ text = ⟨text.count '\n', Text.units (Text.lastLine text)⟩ := by
  induction text using Text.line_induction with
  | last body absent =>
      rw [advance_of_not_mem _ absent, List.count_eq_zero_of_not_mem absent,
        Text.lastLine_of_not_mem absent, Nat.zero_add]
  | line body rest absent ih =>
      rw [advance_append, advance_of_not_mem _ absent, advance_cons, next_feed, advance_succ_line,
        ih, Text.lastLine_append_feed, List.count_append, List.count_eq_zero_of_not_mem absent,
        List.count_cons_self, Nat.zero_add]

theorem order_self (p : Position) : p.order p = .eq := by
  rw [order, Ordering.then_eq_eq]
  exact ⟨Nat.compare_eq_eq.mpr rfl, Nat.compare_eq_eq.mpr rfl⟩

theorem order_eq_gt_iff : p.order q = .gt ↔ q < p := by
  rw [lt_iff, order, Ordering.then_eq_gt, Nat.compare_eq_gt, Nat.compare_eq_eq, Nat.compare_eq_gt,
    @eq_comm _ p.line]

end Position

namespace Text

theorem order_positionAt (starts : IsBoundary text start) (stops : IsBoundary text stop) :
    (positionAt text start).order (positionAt text stop) = compare start stop := by
  rcases Nat.lt_trichotomy start stop with before | same | after
  · rw [Nat.compare_eq_lt.mpr before, Position.order_eq_lt_iff]
    exact positionAt_lt_of_lt starts stops before
  · rw [Nat.compare_eq_eq.mpr same, same, Position.order_self]
  · rw [Nat.compare_eq_gt.mpr after, Position.order_eq_gt_iff]
    exact positionAt_lt_of_lt stops starts after

theorem positionAt_lt_iff (starts : IsBoundary text start) (stops : IsBoundary text stop) :
    positionAt text start < positionAt text stop ↔ start < stop := by
  rw [← Position.order_eq_lt_iff, order_positionAt starts stops, Nat.compare_eq_lt]

/-- The table holds the line starts in order, and a search in it ends at the start of a line or
between two. So the position of an offset between characters, or past the end, is the number of line
feeds before it and of UTF-16 units after the last of them, and such offsets compare as their
positions do. A range is therefore never the wrong way round. -/
theorem positionAt_orderEmbedding (text : Text) :
    let index := LineIndex.ofText text
    (∀ offset, (∃ start ∈ index.starts, start.offset = offset) ↔
      offset = 0 ∨ ∃ feed, OccursAt ['\n'] text feed ∧ offset = feed + 1) ∧
    index.Ascends ∧
    (∀ offset, index.Finds offset (index.search offset)) ∧
    (∀ offset, IsBoundary text offset ∨ size text ≤ offset →
      ∃ before after, text = before ++ after ∧ size before = min offset (size text) ∧
        index.positionAt offset = ⟨before.count '\n', units (lastLine before)⟩) ∧
    (∀ start stop, IsBoundary text start → IsBoundary text stop →
      (start < stop ↔ index.positionAt start < index.positionAt stop) ∧
      (index.positionAt start).order (index.positionAt stop) = compare start stop ∧
      (start ≤ stop → (index.range start stop).start ≤ (index.range start stop).stop)) ∧
    ∀ offset, index.positionAt offset = positionAt text offset := by
  intro index
  refine ⟨fun _ => LineIndex.exists_mem_starts_ofText_iff, LineIndex.ofText_ascends text,
    LineIndex.search_ofText_finds text, ?counts, ?orders, LineIndex.positionAt_ofText text⟩
  case counts =>
    intro offset place
    have boundary : IsBoundary text (min offset (size text)) := by
      rcases place with inside | past
      · obtain ⟨before, after, rfl, rfl⟩ := inside
        rw [size_append, Nat.min_eq_left (Nat.le_add_right _ _)]
        exact ⟨before, after, rfl, rfl⟩
      · rw [Nat.min_eq_right past]
        exact ⟨text, [], by simp, rfl⟩
    obtain ⟨before, after, rfl, same⟩ := boundary
    refine ⟨before, after, rfl, same, ?_⟩
    rw [LineIndex.positionAt_ofText, ← positionAt_min, ← same, positionAt_append, Position.advance_start]
  case orders =>
    intro start stop starts stops
    rw [LineIndex.range_ofText, LineIndex.positionAt_ofText, LineIndex.positionAt_ofText]
    exact ⟨(positionAt_lt_iff starts stops).symm, order_positionAt starts stops,
      positionAt_le_of_le starts stops⟩

/-- Right after the last line feed a line is empty, and an offset past the end is the end. -/
theorem positionAt_orderEmbedding_feed :
    let index := LineIndex.ofText "é😀\n\n".toList
    IsBoundary "é😀\n\n".toList 6 ∧ IsBoundary "é😀\n\n".toList 8 ∧
      (∃ start ∈ index.starts, start.offset = 7) ∧ index.Finds 6 (index.search 6) ∧
      index.positionAt 8 = ⟨2, 0⟩ ∧ index.positionAt 9 = ⟨2, 0⟩ ∧
      (index.positionAt 6).order (index.positionAt 8) = .lt := by
  intro index
  obtain ⟨table, _, finds, counts, orders, _⟩ := positionAt_orderEmbedding "é😀\n\n".toList
  have inside : IsBoundary "é😀\n\n".toList 6 := ⟨"é😀".toList, "\n\n".toList, rfl, rfl⟩
  have atEnd : IsBoundary "é😀\n\n".toList 8 := ⟨"é😀\n\n".toList, [], rfl, rfl⟩
  have feed : OccursAt ['\n'] "é😀\n\n".toList 6 := ⟨"é😀".toList, "\n".toList, rfl, rfl⟩
  have last (offset : Nat) (past : size "é😀\n\n".toList ≤ offset) :
      index.positionAt offset = ⟨2, 0⟩ := by
    obtain ⟨before, after, same, whole, counted⟩ := counts offset (.inr past)
    rw [Nat.min_eq_right past] at whole
    have cut : before ++ after = "é😀\n\n".toList ++ [] := by rw [← same, List.append_nil]
    obtain ⟨rfl, -⟩ := append_inj_of_size_eq cut whole
    exact counted
  exact ⟨inside, atEnd, (table 7).mpr (.inr ⟨6, feed, rfl⟩), finds 6, last 8 (by decide),
    last 9 (by decide), (orders 6 8 inside atEnd).2.1⟩

end Text

end TrackerLinks
