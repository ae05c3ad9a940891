import TrackerLinks.LineIndex
import TrackerLinks.Proofs.Position.Advance
import TrackerLinks.Proofs.Text.Lines

/-! The table of line starts ascends, so that halving it finds the line of an offset, and what the
table tells of positions is what a walk along the text tells. -/

namespace TrackerLinks

variable {text body front back rest : Text} {base bytes offset line later count number column : Nat}
  {start : LineStart}

namespace Text

theorem front?_append (front back : Text) : front? (size front) (front ++ back) = some front := by
  induction front with
  | nil => cases back <;> rfl
  | cons c front ih =>
      have wide := c.utf8Size_pos
      rw [size_cons, List.cons_append, front?, if_neg (by omega), if_neg (by omega),
        Nat.add_sub_cancel_left, ih, Option.map_some]

/-- On one line, the position of an offset is told by the text in front of it. -/
theorem positionFrom_of_not_mem (p : Position) (back : Text) (absent : '\n' ∉ front)
    (inside : bytes ≤ size front) :
    positionFrom p bytes (front ++ back) =
      ⟨p.line, ((front? bytes (front ++ back)).map (p.character + units ·)).getD 0⟩ := by
  induction front generalizing p bytes with
  | nil =>
      obtain rfl : bytes = 0 := Nat.le_zero.mp inside
      cases back <;> rfl
  | cons c front ih =>
      obtain ⟨different, absent⟩ := not_or.mp (mt List.mem_cons.mpr absent)
      rw [size_cons] at inside
      rw [List.cons_append, positionFrom, front?]
      split
      · rfl
      split
      · rfl
      · rw [ih _ absent (by omega), Position.next_of_ne (Ne.symm different), Option.map_map]
        congr 3
        funext front
        rw [Function.comp_apply, units_cons, Nat.add_assoc]

end Text

namespace LineIndex

/-- The starts of the lines after the first, in a text that starts at `base`. -/
def laterStarts (base : Nat) : Text → List LineStart
  | [] => []
  | c :: rest =>
      let later := laterStarts (base + c.utf8Size) rest
      if c = '\n' then ⟨base + c.utf8Size, rest⟩ :: later else later

def startsAt (base : Nat) (text : Text) : List LineStart :=
  ⟨base, text⟩ :: laterStarts base text

theorem toList_addStarts (starts : Array LineStart) (base : Nat) (text : Text) :
    (addStarts starts base text).toList = starts.toList ++ laterStarts base text := by
  induction text generalizing starts base with
  | nil => rw [addStarts, laterStarts, List.append_nil]
  | cons c rest ih =>
      rw [addStarts, laterStarts, ih]
      split
      · rw [Array.toList_push, List.append_assoc, List.singleton_append]
      · rfl

theorem toList_starts_ofText (text : Text) : (ofText text).starts.toList = startsAt 0 text :=
  toList_addStarts #[⟨0, text⟩] 0 text

theorem laterStarts_append (base : Nat) (absent : '\n' ∉ body) (rest : Text) :
    laterStarts base (body ++ rest) = laterStarts (base + Text.size body) rest := by
  induction body generalizing base with
  | nil => rfl
  | cons c body ih =>
      obtain ⟨different, absent⟩ := not_or.mp (mt List.mem_cons.mpr absent)
      rw [List.cons_append, laterStarts, if_neg (Ne.symm different), ih _ absent, Text.size_cons,
        Nat.add_assoc]

theorem startsAt_of_not_mem (base : Nat) (absent : '\n' ∉ body) :
    startsAt base body = [⟨base, body⟩] := by
  have none := laterStarts_append base absent []
  rw [List.append_nil] at none
  rw [startsAt, none, laterStarts]

theorem startsAt_append_cons (base : Nat) (absent : '\n' ∉ body) (rest : Text) :
    startsAt base (body ++ '\n' :: rest) =
      ⟨base, body ++ '\n' :: rest⟩ :: startsAt (base + Text.size body + 1) rest := by
  rw [startsAt, laterStarts_append base absent, laterStarts, if_pos rfl]
  rfl

theorem startsAt_ordered (base : Nat) (text : Text) :
    (∀ start ∈ startsAt base text, base ≤ start.offset) ∧
      (startsAt base text).Pairwise fun earlier later => earlier.offset < later.offset := by
  induction text using Text.line_induction generalizing base with
  | last body absent =>
      rw [startsAt_of_not_mem base absent]
      simp
  | line body rest absent ih =>
      obtain ⟨after, ordered⟩ := ih (base + Text.size body + 1)
      rw [startsAt_append_cons base absent]
      have beyond (start : LineStart)
          (member : start ∈ startsAt (base + Text.size body + 1) rest) : base < start.offset := by
        have reached := after start member
        omega
      exact ⟨List.forall_mem_cons.mpr
          ⟨Nat.le_refl _, fun start member => Nat.le_of_lt (beyond start member)⟩,
        List.pairwise_cons.mpr ⟨beyond, ordered⟩⟩

theorem exists_mem_laterStarts_iff :
    (∃ start ∈ laterStarts base text, start.offset = offset) ↔
      ∃ feed, Text.OccursAt ['\n'] text feed ∧ offset = base + feed + 1 := by
  induction text generalizing base with
  | nil =>
      constructor
      · rintro ⟨start, member, _⟩
        cases member
      · rintro ⟨feed, ⟨before, after, same, _⟩, _⟩
        simp at same
  | cons c rest ih =>
      have wide := c.utf8Size_pos
      rw [laterStarts]
      constructor
      · intro listed
        by_cases feeds : c = '\n'
        · subst feeds
          rw [if_pos rfl, List.exists_mem_cons_iff, ih] at listed
          rcases listed with rfl | ⟨feed, occurs, rfl⟩
          · exact ⟨0, Text.occursAt_zero_iff.mpr ⟨rest, rfl⟩, rfl⟩
          · refine ⟨('\n').utf8Size + feed, ?_, by omega⟩
            exact Text.occursAt_cons_iff.mpr (.inr ⟨by omega, by simpa using occurs⟩)
        · rw [if_neg feeds, ih] at listed
          obtain ⟨feed, occurs, rfl⟩ := listed
          refine ⟨c.utf8Size + feed, ?_, by omega⟩
          exact Text.occursAt_cons_iff.mpr (.inr ⟨by omega, by simpa using occurs⟩)
      · rintro ⟨feed, occurs, rfl⟩
        rcases Text.occursAt_cons_iff.mp occurs with ⟨rfl, ahead⟩ | ⟨far, occurs⟩
        · obtain rfl : '\n' = c := (List.cons_prefix_cons.mp ahead).1
          exact ⟨_, by rw [if_pos rfl]; exact List.mem_cons_self, rfl⟩
        · have place : base + feed + 1 = base + c.utf8Size + (feed - c.utf8Size) + 1 := by omega
          obtain ⟨start, member, starts⟩ := ih.mpr ⟨_, occurs, place⟩
          refine ⟨start, ?_, starts⟩
          split
          · exact List.mem_cons_of_mem _ member
          · exact member

/-- The line is the last that starts no later than the offset. -/
structure IsLineOf (index : LineIndex) (offset line : Nat) : Prop where
  lt_size : line < index.starts.size
  start_le : (index.startOf line).offset ≤ offset
  lt_start : ∀ later, line < later → later < index.starts.size →
    offset < (index.startOf later).offset

section Search

variable {index : LineIndex}

/-- Each line starts after the one before it. -/
def Ascends (index : LineIndex) : Prop :=
  ∀ line later, line < later → later < index.starts.size →
    (index.startOf line).offset < (index.startOf later).offset

/-- Halving keeps the line of the offset among those that are left. -/
theorem Ascends.bisect_isLineOf (ascends : index.Ascends) (some : 0 < count)
    (reached : (index.startOf base).offset ≤ offset) (inside : base + count ≤ index.starts.size)
    (beyond : ∀ later, base + count ≤ later → later < index.starts.size →
      offset < (index.startOf later).offset) :
    index.IsLineOf offset (index.bisect offset base count) := by
  fun_induction index.bisect offset base count with
  | case1 base count many half middle ih =>
      have cut : half = count / 2 := rfl
      have place : middle = base + half := rfl
      split at ih
      · rename_i past
        rw [if_pos past]
        refine ih (by omega) reached (by omega) ?_
        intro later behind listed
        rcases Nat.eq_or_lt_of_le (show middle ≤ later by omega) with rfl | after
        · exact past
        · exact Nat.lt_trans past (ascends middle later after listed)
      · rename_i arrived
        rw [if_neg arrived]
        refine ih (by omega) (Nat.not_lt.mp arrived) (by omega) ?_
        intro later behind listed
        exact beyond later (by omega) listed
  | case2 base count few =>
      refine ⟨by omega, reached, ?_⟩
      intro later behind listed
      exact beyond later (by omega) listed

/-- A search comes upon the start of a line, or upon the place where it would be in the table. -/
inductive Finds (index : LineIndex) (offset : Nat) : Except Nat Nat → Prop
  | start {line : Nat} (listed : line < index.starts.size)
      (starts : (index.startOf line).offset = offset) : Finds index offset (.ok line)
  | between {next : Nat} (inside : next ≤ index.starts.size)
      (before : ∀ line, line < next → (index.startOf line).offset < offset)
      (after : ∀ line, next ≤ line → line < index.starts.size →
        offset < (index.startOf line).offset) : Finds index offset (.error next)

theorem Ascends.search_finds (ascends : index.Ascends) (some : 0 < index.starts.size)
    (reached : (index.startOf 0).offset ≤ offset) : index.Finds offset (index.search offset) := by
  have isLine : index.IsLineOf offset (index.bisect offset 0 index.starts.size) :=
    ascends.bisect_isLineOf some reached (by omega) fun later behind listed => by omega
  have filled : index.starts.isEmpty = false := by simpa using Nat.pos_iff_ne_zero.mp some
  rw [search, filled, if_neg Bool.false_ne_true]
  dsimp only
  generalize index.bisect offset 0 index.starts.size = line at isLine
  rcases Nat.eq_or_lt_of_le isLine.start_le with equal | less
  · rw [Nat.compare_eq_eq.mpr equal]
    exact .start isLine.lt_size equal
  · rw [Nat.compare_eq_lt.mpr less]
    refine .between isLine.lt_size ?_ isLine.lt_start
    intro earlier before
    rcases Nat.eq_or_lt_of_le (Nat.le_of_lt_succ before) with rfl | before
    · exact less
    · exact Nat.lt_trans (ascends earlier line before isLine.lt_size) less

theorem Ascends.lineAt_isLineOf (ascends : index.Ascends) (some : 0 < index.starts.size)
    (reached : (index.startOf 0).offset ≤ offset) : index.IsLineOf offset (index.lineAt offset) := by
  have finds := ascends.search_finds some reached
  rw [lineAt]
  generalize index.search offset = found at finds
  cases finds with
  | start listed starts =>
      refine ⟨listed, Nat.le_of_eq starts, ?_⟩
      intro later behind listed'
      rw [← starts]
      exact ascends _ later behind listed'
  | @between next inside before after =>
      -- The first line starts no later than the offset, so that another is in front of the place.
      have beyond : next ≠ 0 := by
        rintro rfl
        exact absurd (after 0 (Nat.le_refl _) some) (Nat.not_lt.mpr reached)
      dsimp only
      refine ⟨by omega, Nat.le_of_lt (before _ (by omega)), ?_⟩
      intro later behind listed
      exact after later (by omega) listed

end Search

/-- The table holds the start of the text and the offset after each line feed, and nothing else. -/
theorem exists_mem_starts_ofText_iff :
    (∃ start ∈ (ofText text).starts, start.offset = offset) ↔
      offset = 0 ∨ ∃ feed, Text.OccursAt ['\n'] text feed ∧ offset = feed + 1 := by
  simp only [← Array.mem_toList_iff, toList_starts_ofText, startsAt, List.exists_mem_cons_iff,
    exists_mem_laterStarts_iff, Nat.zero_add, @eq_comm _ 0]

theorem getElem?_starts_ofText (text : Text) (line : Nat) :
    (ofText text).starts[line]? = (startsAt 0 text)[line]? := by
  rw [← toList_starts_ofText, Array.getElem?_toList]

theorem size_starts_ofText (text : Text) :
    (ofText text).starts.size = (startsAt 0 text).length := by
  rw [← toList_starts_ofText, Array.length_toList]

theorem startOf_ofText (found : (startsAt 0 text)[line]? = some start) :
    (ofText text).startOf line = start := by
  rw [startOf, getElem?_starts_ofText, found, Option.getD_some]

theorem ofText_ascends (text : Text) : (ofText text).Ascends := by
  intro line later before listed
  rw [size_starts_ofText] at listed
  have first := List.getElem?_eq_getElem (Nat.lt_trans before listed)
  have second := List.getElem?_eq_getElem listed
  rw [startOf_ofText first, startOf_ofText second]
  exact List.pairwise_iff_getElem.mp (startsAt_ordered 0 text).2 line later _ listed before

theorem starts_ofText_pos (text : Text) : 0 < (ofText text).starts.size := by
  rw [size_starts_ofText]
  exact Nat.succ_pos _

theorem search_ofText_finds (text : Text) (offset : Nat) :
    (ofText text).Finds offset ((ofText text).search offset) := by
  apply (ofText_ascends text).search_finds (starts_ofText_pos text)
  rw [startOf_ofText rfl]
  exact Nat.zero_le offset

theorem lineAt_ofText_isLineOf (text : Text) (offset : Nat) :
    (ofText text).IsLineOf offset ((ofText text).lineAt offset) := by
  apply (ofText_ascends text).lineAt_isLineOf (starts_ofText_pos text)
  rw [startOf_ofText rfl]
  exact Nat.zero_le offset

/-- The walk from the start of a text comes to the line that starts last before the offset. -/
theorem positionFrom_eq_of_startsAt (number : Nat)
    (found : (startsAt base text)[line]? = some start)
    (reached : start.offset ≤ base + bytes)
    (next : ∀ later, (startsAt base text)[line + 1]? = some later → base + bytes < later.offset)
    (inside : bytes ≤ Text.size text) :
    Text.positionFrom ⟨number, 0⟩ bytes text =
      ⟨number + line,
        ((Text.front? (base + bytes - start.offset) start.rest).map Text.units).getD 0⟩ := by
  induction text using Text.line_induction generalizing base bytes line number with
  | last body absent =>
      rw [startsAt_of_not_mem base absent] at found
      cases line with
      | zero =>
          cases found
          have here := Text.positionFrom_of_not_mem ⟨number, 0⟩ [] absent inside
          rw [List.append_nil] at here
          simpa [Nat.add_sub_cancel_left] using here
      | succ line => cases found
  | line body rest absent ih =>
      rw [startsAt_append_cons base absent] at found next
      cases line with
      | zero =>
          cases found
          have short : base + bytes < base + Text.size body + 1 := next _ rfl
          have here := Text.positionFrom_of_not_mem ⟨number, 0⟩ ('\n' :: rest) absent
            (show bytes ≤ Text.size body by omega)
          simpa [Nat.add_sub_cancel_left] using here
      | succ line =>
          rw [List.getElem?_cons_succ] at found
          rw [Text.size_append_feed] at inside
          have beyond := (startsAt_ordered _ rest).1 start (List.mem_of_getElem? found)
          obtain ⟨more, rfl⟩ := Nat.exists_eq_add_of_le (show Text.size body + 1 ≤ bytes by omega)
          have passed := Text.positionFrom_append_add ⟨number, 0⟩ (body ++ ['\n']) rest more
          rw [Text.size_concat_feed, List.append_assoc, List.singleton_append,
            Position.advance_append, Position.advance_of_not_mem _ absent, Position.advance_cons,
            Position.next_feed, Position.advance_nil] at passed
          have shift : base + (Text.size body + 1 + more) = base + Text.size body + 1 + more := by
            omega
          rw [shift] at reached next ⊢
          rw [passed, ih _ found reached (fun later listed => next later listed) (by omega),
            Nat.add_assoc, Nat.add_comm 1]

/-- What the table tells of an offset is what the walk along the text tells. -/
theorem positionAt_ofText (text : Text) (offset : Nat) :
    (ofText text).positionAt offset = Text.positionAt text offset := by
  have isLine := lineAt_ofText_isLineOf text (min offset (Text.size text))
  have listed := isLine.lt_size
  rw [size_starts_ofText] at listed
  have found := List.getElem?_eq_getElem listed
  have reached := isLine.start_le
  rw [startOf_ofText found] at reached
  have next (later : LineStart)
      (follows : (startsAt 0 text)[(ofText text).lineAt (min offset (Text.size text)) + 1]? =
        some later) : min offset (Text.size text) < later.offset := by
    obtain ⟨within, _⟩ := List.getElem?_eq_some_iff.mp follows
    rw [← size_starts_ofText] at within
    have before := isLine.lt_start _ (Nat.lt_succ_self _) within
    rwa [startOf_ofText follows] at before
  have walked := positionFrom_eq_of_startsAt 0 found (Nat.le_trans reached (Nat.zero_add _).ge)
    (fun later follows => by simpa using next later follows) (Nat.min_le_right _ _)
  rw [← Text.positionAt_min, Text.positionAt, walked, positionAt, Nat.zero_add, Nat.zero_add]
  have size : (ofText text).size = Text.size text := rfl
  rw [size, startOf_ofText found]

theorem exists_line_of_startsAt (found : (startsAt base text)[line]? = some start) :
    ∃ found, (Text.linesAt base text)[line]? = some found ∧ found.start = start.offset ∧
      '\n' ∉ found.body ∧
      Text.front? (((startsAt base text)[line + 1]?.map (·.offset)).getD (base + Text.size text) -
          start.offset) start.rest =
        some (if found.isTerminated then found.body ++ ['\n'] else found.body) := by
  induction text using Text.line_induction generalizing base line with
  | last body absent =>
      rw [startsAt_of_not_mem base absent] at found ⊢
      rw [Text.linesAt_of_not_mem absent]
      cases line with
      | zero =>
          cases found
          have whole := Text.front?_append body []
          rw [List.append_nil] at whole
          exact ⟨_, rfl, rfl, absent, by simpa using whole⟩
      | succ line => cases found
  | line body rest absent ih =>
      rw [startsAt_append_cons base absent] at found ⊢
      rw [Text.linesAt_append_cons absent]
      cases line with
      | zero =>
          cases found
          have width : base + Text.size body + 1 - base = Text.size (body ++ ['\n']) := by
            rw [Text.size_concat_feed]
            omega
          have whole := Text.front?_append (body ++ ['\n']) rest
          rw [← width, List.append_assoc] at whole
          exact ⟨_, rfl, rfl, absent, whole⟩
      | succ line =>
          obtain ⟨line', listed, starts, unfed, whole⟩ := ih found
          refine ⟨line', listed, starts, unfed, ?_⟩
          rw [List.getElem?_cons_succ, Text.size_append_feed, ← Nat.add_assoc, ← Nat.add_assoc]
          exact whole

theorem length_startsAt (base : Nat) (text : Text) :
    (startsAt base text).length = (Text.linesAt base text).length := by
  induction text using Text.line_induction generalizing base with
  | last body absent => rw [startsAt_of_not_mem base absent, Text.linesAt_of_not_mem absent]; rfl
  | line body rest absent ih =>
      rw [startsAt_append_cons base absent, Text.linesAt_append_cons absent, List.length_cons,
        List.length_cons, ih]

theorem dropSuffix?_feed (body : Text) : Text.dropSuffix? ['\n'] (body ++ ['\n']) = some body := by
  simp [Text.dropSuffix?]

theorem dropSuffix?_of_not_mem (absent : '\n' ∉ body) : Text.dropSuffix? ['\n'] body = none := by
  rw [Text.dropSuffix?, if_neg]
  intro ends
  exact absent ((List.isSuffixOf_iff_suffix.mp ends).subset List.mem_cons_self)

/-- The offset of a position is read off the table as it is read off the lines themselves. -/
theorem offsetAt?_ofText (text : Text) (p : Position) :
    (ofText text).offsetAt? p = Text.offsetAt? text p := by
  rw [offsetAt?, line?, getElem?_starts_ofText, getElem?_starts_ofText, Text.offsetAt?,
    Text.offsetIn?]
  change _ = (Text.linesAt 0 text)[p.line]?.bind _
  cases found : (startsAt 0 text)[p.line]? with
  | none =>
      rw [List.getElem?_eq_none_iff, length_startsAt, ← List.getElem?_eq_none_iff] at found
      rw [found]
      rfl
  | some start =>
      obtain ⟨line, listed, starts, unfed, whole⟩ := exists_line_of_startsAt found
      rw [Nat.zero_add] at whole
      have size : (ofText text).size = Text.size text := rfl
      simp only [Option.bind_eq_bind, Option.bind_some, size, whole, startOf_ofText found, listed,
        starts, Line.content]
      cases line.isTerminated with
      | true => rw [if_pos rfl, if_pos rfl, dropSuffix?_feed]
      | false =>
          rw [if_neg Bool.false_ne_true, if_neg Bool.false_ne_true, dropSuffix?_of_not_mem unfed]

theorem range_ofText (text : Text) (first last : Nat) :
    (ofText text).range first last = Text.rangeOf text first last := by
  rw [range, positionAt_ofText, positionAt_ofText, Text.rangeOf]

end LineIndex

end TrackerLinks
