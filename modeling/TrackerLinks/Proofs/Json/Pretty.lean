import TrackerLinks.Json
import TrackerLinks.Proofs.Text.Digits
import TrackerLinks.Proofs.Text.Pieces

/-! The text of a JSON value stands one level deeper with two more spaces after each line feed, and no
other value has the same text. -/

namespace TrackerLinks

namespace Json

variable {c d : Char} {front other rest rest' : Text} {depth : Nat}

/-- The characters that have a short escape, each with its letter. -/
def letters : List (Char × Char) :=
  [('"', '"'), ('\\', '\\'), ('\x08', 'b'), ('\x0c', 'f'), ('\n', 'n'), ('\r', 'r'), ('\t', 't')]

/-- How a character is spelled between quotes: as itself, by its letter after a backslash, or by its
code. -/
inductive Spelling (c : Char) : Text → Prop
  | itself (ne_quote : c ≠ '"') (ne_backslash : c ≠ '\\') (ne_feed : c ≠ '\n') : Spelling c [c]
  | named {letter : Char} (named : (c, letter) ∈ letters) : Spelling c ['\\', letter]
  | coded (small : c.toNat < 32) :
      Spelling c ("\\u00".toList ++ [Nat.digitChar (c.toNat / 16), Nat.digitChar (c.toNat % 16)])

theorem ne_of_mem_letters {letter : Char} (named : (c, letter) ∈ letters) :
    letter ≠ 'u' ∧ letter ≠ '\n' := by
  have others : letters.all fun named => named.2 ≠ 'u' && named.2 ≠ '\n' := by decide
  simpa using List.all_eq_true.mp others _ named

theorem eq_of_mem_letters {letter : Char} (named : (c, letter) ∈ letters)
    (named' : (d, letter) ∈ letters) : c = d := by
  have unique : letters.all fun named => letters.all fun named' =>
      named.2 ≠ named'.2 || named.1 = named'.1 := by decide
  simpa using List.all_eq_true.mp (List.all_eq_true.mp unique _ named) _ named'

theorem padded_hexadecimal {n : Nat} (small : n < 256) :
    List.replicate (4 - (Text.hexadecimal n).length) '0' ++ Text.hexadecimal n =
      "00".toList ++ [Nat.digitChar (n / 16), Nat.digitChar (n % 16)] := by
  by_cases one : n < 16
  · rw [Text.hexadecimal, Text.digits, dif_pos (.inr one), Nat.div_eq_of_lt one,
      Nat.mod_eq_of_lt one]
    rfl
  · have first : n / 16 < 16 := Nat.div_lt_of_lt_mul small
    rw [Text.hexadecimal, Text.digits, dif_neg (by omega), Text.digits, dif_pos (.inr first)]
    rfl

theorem spelling_escape (c : Char) : Spelling c (escape c) := by
  unfold escape
  split
  case h_8 quote backslash _ _ feed _ _ =>
    split
    · rename_i control
      have small : c.toNat < 32 := UInt32.lt_iff_toNat_lt.mp control
      dsimp only
      rw [List.append_assoc, padded_hexadecimal (n := c.toNat) (by omega)]
      exact .coded small
    · exact .itself quote backslash feed
  all_goals exact .named (by decide)

theorem Spelling.cancel {spelled spelled' : Text} (first : Spelling c spelled)
    (second : Spelling d spelled') (same : spelled ++ rest = spelled' ++ rest') :
    c = d ∧ rest = rest' := by
  cases first with
  | itself ne_quote ne_backslash shown =>
      cases second with
      | itself => simpa using same
      | named | coded => exact absurd (List.cons.inj same).1 ne_backslash
  | named code =>
      cases second with
      | itself _ ne_backslash _ => exact absurd (List.cons.inj same).1.symm ne_backslash
      | named code' =>
          obtain ⟨letter, left⟩ := List.cons.inj (List.cons.inj same).2
          subst letter
          exact ⟨eq_of_mem_letters code code', left⟩
      | coded => exact absurd (List.cons.inj (List.cons.inj same).2).1 (ne_of_mem_letters code).1
  | coded small =>
      cases second with
      | itself _ ne_backslash _ => exact absurd (List.cons.inj same).1.symm ne_backslash
      | named code =>
          exact absurd (List.cons.inj (List.cons.inj same).2).1.symm (ne_of_mem_letters code).1
      | coded small' =>
          obtain ⟨digits, left⟩ := List.append_inj same rfl
          have pair := List.append_cancel_left digits
          simp only [List.cons.injEq, and_true] at pair
          have high := congrArg Text.digitValue pair.1
          have low := congrArg Text.digitValue pair.2
          rw [Text.digitValue_digitChar (by omega), Text.digitValue_digitChar (by omega)] at high low
          refine ⟨Char.toNat_inj.mp ?_, left⟩
          omega

theorem Spelling.exists_head {spelled : Text} (spelling : Spelling c spelled) :
    ∃ first tail, spelled = first :: tail ∧ first ≠ '"' := by
  cases spelling with
  | itself ne_quote => exact ⟨c, [], rfl, ne_quote⟩
  | named => exact ⟨_, _, rfl, by decide⟩
  | coded => exact ⟨_, _, rfl, by decide⟩

theorem Spelling.feed_not_mem {spelled : Text} (spelling : Spelling c spelled) :
    '\n' ∉ spelled := by
  cases spelling with
  | itself _ _ ne_feed => simpa using ne_feed.symm
  | named code => simpa using (ne_of_mem_letters code).2.symm
  | coded => simp

theorem cancel_quoted (same : quoted front ++ rest = quoted other ++ rest') :
    front = other ∧ rest = rest' := by
  simp only [quoted, List.cons_append, List.append_assoc, List.nil_append, List.cons.injEq,
    true_and] at same
  induction front generalizing other with
  | nil =>
      cases other with
      | nil => exact ⟨rfl, (List.cons.inj same).2⟩
      | cons d other =>
          obtain ⟨first, tail, spelled, ne_quote⟩ := (spelling_escape d).exists_head
          rw [List.flatMap_cons, spelled] at same
          exact absurd (List.cons.inj same).1.symm ne_quote
  | cons c front ih =>
      cases other with
      | nil =>
          obtain ⟨first, tail, spelled, ne_quote⟩ := (spelling_escape c).exists_head
          rw [List.flatMap_cons, spelled] at same
          exact absurd (List.cons.inj same).1 ne_quote
      | cons d other =>
          rw [List.flatMap_cons, List.flatMap_cons, List.append_assoc, List.append_assoc] at same
          obtain ⟨rfl, left⟩ := (spelling_escape c).cancel (spelling_escape d) same
          obtain ⟨rfl, after⟩ := ih left
          exact ⟨rfl, after⟩

/-- What may follow a value: nothing, or anything but a digit. -/
def Ends (rest : Text) : Prop :=
  ∀ c ∈ rest.head?, Text.isDigitOf 10 c = false

theorem ends_nil : Ends [] := by
  simp [Ends]

/-- No other value has a text that starts as the text of this one does and ends there too. -/
def Cancels (shown : α → Text) (value : α) : Prop :=
  ∀ value' rest rest', Ends rest → Ends rest' → shown value ++ rest = shown value' ++ rest' →
    value = value' ∧ rest = rest'

theorem cancels_decimal (n : Nat) : Cancels Text.decimal n := by
  intro n' rest rest' ends ends' same
  obtain ⟨digits, left⟩ := Text.cut_of_stop (Text.forall_mem_decimal n) ends
  obtain ⟨digits', left'⟩ := Text.cut_of_stop (Text.forall_mem_decimal n') ends'
  rw [same] at digits left
  refine ⟨?_, left.symm.trans left'⟩
  rw [← Text.ofDigits_decimal n, ← digits, digits', Text.ofDigits_decimal]

section Members

variable {shown : α → Text} {items : List α} {opening closing : Char}

/-- What follows a member inside of brackets. -/
def following (closing : Char) (depth : Nat) : List Text → Text
  | [] => newline depth ++ [closing]
  | member :: more =>
      ',' :: (newline (depth + 1) ++ (member ++ following closing depth more))

theorem enclosed_cons (opening closing : Char) (depth : Nat) (member : Text) (more : List Text) :
    enclosed opening closing depth (member :: more) =
      opening :: (newline (depth + 1) ++ (member ++ following closing depth more)) := by
  have inside : Text.joined (',' :: newline (depth + 1)) (member :: more) ++
      (newline depth ++ [closing]) = member ++ following closing depth more := by
    induction more generalizing member with
    | nil => rw [Text.joined_singleton, following]
    | cons next more ih =>
        have inserted : Text.joined (',' :: newline (depth + 1)) (member :: next :: more) =
            member ++ (',' :: newline (depth + 1) ++
              Text.joined (',' :: newline (depth + 1)) (next :: more)) := by
          simp [Text.joined]
        rw [inserted, following, ← ih next]
        simp
  rw [enclosed, if_neg (by simp), inside]

theorem ends_following (closing : Char) (depth : Nat) (members : List Text) (rest : Text) :
    Ends (following closing depth members ++ rest) := by
  cases members with
  | nil => exact Text.stop_of_head (by decide)
  | cons => exact Text.stop_of_head (by decide)

theorem cancel_following (each : ∀ item ∈ items, Cancels shown item) {items' : List α}
    (same : following closing depth (items.map shown) ++ rest =
      following closing depth (items'.map shown) ++ rest') : items = items' ∧ rest = rest' := by
  induction items generalizing items' with
  | nil =>
      cases items' with
      | nil => exact ⟨rfl, List.append_cancel_left same⟩
      | cons => exact absurd (List.cons.inj same).1 (by decide)
  | cons item items ih =>
      cases items' with
      | nil => exact absurd (List.cons.inj same).1 (by decide)
      | cons item' items' =>
          obtain ⟨first, later⟩ := List.forall_mem_cons.mp each
          simp only [List.map_cons, following, List.cons_append, List.append_assoc,
            List.cons.injEq, true_and, List.append_cancel_left_eq] at same
          obtain ⟨rfl, left⟩ := first _ _ _ (ends_following _ _ _ _) (ends_following _ _ _ _) same
          obtain ⟨rfl, after⟩ := ih later left
          exact ⟨rfl, after⟩

theorem cancel_enclosed (each : ∀ item ∈ items, Cancels shown item) (visible : closing ≠ '\n')
    {items' : List α} (same : enclosed opening closing depth (items.map shown) ++ rest =
      enclosed opening closing depth (items'.map shown) ++ rest') : items = items' ∧ rest = rest' := by
  cases items with
  | nil =>
      cases items' with
      | nil => exact ⟨rfl, List.append_cancel_left same⟩
      | cons item' items' =>
          rw [List.map_cons, enclosed_cons] at same
          exact absurd (List.cons.inj (List.cons.inj same).2).1 visible
  | cons item items =>
      obtain ⟨first, later⟩ := List.forall_mem_cons.mp each
      cases items' with
      | nil =>
          rw [List.map_cons, enclosed_cons] at same
          exact absurd (List.cons.inj (List.cons.inj same).2).1.symm visible
      | cons item' items' =>
          simp only [List.map_cons, enclosed_cons, List.cons_append, List.append_assoc,
            List.cons.injEq, true_and, List.append_cancel_left_eq] at same
          obtain ⟨rfl, left⟩ := first _ _ _ (ends_following _ _ _ _) (ends_following _ _ _ _) same
          obtain ⟨rfl, after⟩ := cancel_following later left
          exact ⟨rfl, after⟩

end Members

/-- The text of a member of an object. -/
def prettyField (depth : Nat) (field : Text × Json) : Text :=
  quoted field.1 ++ (": ".toList ++ field.2.prettyAt depth)

theorem prettyItems_eq_map (depth : Nat) (items : List Json) :
    prettyItems depth items = items.map (prettyAt depth) := by
  induction items with
  | nil => rfl
  | cons item items ih => rw [prettyItems, ih, List.map_cons]

theorem prettyFields_eq_map (depth : Nat) (fields : List (Text × Json)) :
    prettyFields depth fields = fields.map (prettyField depth) := by
  induction fields with
  | nil => rfl
  | cons field fields ih => rw [prettyFields, ih, List.map_cons, prettyField]

/-- The values by how their texts begin. -/
inductive Kind
  | null
  | bool
  | number
  | text
  | list
  | object
  deriving DecidableEq

def kind : Json → Kind
  | null => .null
  | bool _ => .bool
  | number _ => .number
  | text _ => .text
  | list _ => .list
  | object _ => .object

def kindOf (first : Char) : Kind :=
  match first with
  | 'n' => .null
  | 't' | 'f' => .bool
  | '"' => .text
  | '[' => .list
  | '\x7b' => .object
  | _ => .number

theorem exists_head_enclosed (opening closing : Char) (depth : Nat) (members : List Text) :
    ∃ tail, enclosed opening closing depth members = opening :: tail := by
  cases members with
  | nil => exact ⟨_, rfl⟩
  | cons => exact ⟨_, rfl⟩

theorem kindOf_of_isDigitOf (digit : Text.isDigitOf 10 c) : kindOf c = .number := by
  unfold kindOf
  split
  case h_7 => rfl
  all_goals exact absurd digit (by decide)

theorem exists_head_prettyAt (depth : Nat) (json : Json) :
    ∃ first tail, json.prettyAt depth = first :: tail ∧ kindOf first = json.kind := by
  cases json with
  | null => exact ⟨_, _, rfl, rfl⟩
  | bool value => cases value <;> exact ⟨_, _, rfl, rfl⟩
  | number value =>
      obtain ⟨first, tail, digits⟩ := List.exists_cons_of_ne_nil (Text.decimal_ne_nil value)
      refine ⟨first, tail, by rw [prettyAt, digits], ?_⟩
      exact kindOf_of_isDigitOf (Text.forall_mem_decimal value first (by rw [digits]; simp))
  | text value => exact ⟨_, _, rfl, rfl⟩
  | list items =>
      obtain ⟨tail, spelled⟩ := exists_head_enclosed '[' ']' depth (prettyItems (depth + 1) items)
      exact ⟨_, tail, spelled, rfl⟩
  | object fields =>
      obtain ⟨tail, spelled⟩ :=
        exists_head_enclosed '\x7b' '\x7d' depth (prettyFields (depth + 1) fields)
      exact ⟨_, tail, spelled, rfl⟩

theorem kind_eq {json json' : Json}
    (same : json.prettyAt depth ++ rest = json'.prettyAt depth ++ rest') :
    json.kind = json'.kind := by
  obtain ⟨first, tail, spelled, kind⟩ := exists_head_prettyAt depth json
  obtain ⟨first', tail', spelled', kind'⟩ := exists_head_prettyAt depth json'
  rw [spelled, spelled'] at same
  rw [← kind, ← kind', (List.cons.inj same).1]

theorem Cancels.field {name : Text} {json : Json} (value : Cancels (prettyAt depth) json) :
    Cancels (prettyField depth) (name, json) := by
  rintro ⟨name', json'⟩ rest rest' ends ends' same
  simp only [prettyField, List.append_assoc] at same
  obtain ⟨rfl, left⟩ := cancel_quoted same
  obtain ⟨rfl, after⟩ := value _ _ _ ends ends' (List.append_cancel_left left)
  exact ⟨rfl, after⟩

mutual

theorem cancels_prettyAt (depth : Nat) : (json : Json) → Cancels (prettyAt depth) json
  | null => by
      intro json' rest rest' _ _ same
      have kinds := kind_eq same
      cases json' with
      | null => exact ⟨rfl, List.append_cancel_left same⟩
      | _ => cases kinds
  | bool value => by
      intro json' rest rest' _ _ same
      have kinds := kind_eq same
      cases json' with
      | bool value' =>
          cases value <;> cases value' <;>
            first
            | exact ⟨rfl, List.append_cancel_left same⟩
            | exact absurd (List.cons.inj same).1 (by decide)
      | _ => cases kinds
  | number value => by
      intro json' rest rest' ends ends' same
      have kinds := kind_eq same
      cases json' with
      | number value' =>
          obtain ⟨rfl, left⟩ := cancels_decimal value _ _ _ ends ends' same
          exact ⟨rfl, left⟩
      | _ => cases kinds
  | text value => by
      intro json' rest rest' _ _ same
      have kinds := kind_eq same
      cases json' with
      | text value' =>
          obtain ⟨rfl, left⟩ := cancel_quoted same
          exact ⟨rfl, left⟩
      | _ => cases kinds
  | list items => by
      intro json' rest rest' _ _ same
      have kinds := kind_eq same
      cases json' with
      | list items' =>
          simp only [prettyAt, prettyItems_eq_map] at same
          obtain ⟨rfl, left⟩ := cancel_enclosed (cancels_items (depth + 1) items) (by decide) same
          exact ⟨rfl, left⟩
      | _ => cases kinds
  | object fields => by
      intro json' rest rest' _ _ same
      have kinds := kind_eq same
      cases json' with
      | object fields' =>
          simp only [prettyAt, prettyFields_eq_map] at same
          obtain ⟨rfl, left⟩ := cancel_enclosed (cancels_fields (depth + 1) fields) (by decide) same
          exact ⟨rfl, left⟩
      | _ => cases kinds

theorem cancels_items (depth : Nat) :
    (items : List Json) → ∀ item ∈ items, Cancels (prettyAt depth) item
  | [] => nofun
  | item :: items => List.forall_mem_cons.mpr
      ⟨cancels_prettyAt depth item, cancels_items depth items⟩

theorem cancels_fields (depth : Nat) :
    (fields : List (Text × Json)) → ∀ field ∈ fields, Cancels (prettyField depth) field
  | [] => nofun
  | (_, json) :: fields => List.forall_mem_cons.mpr
      ⟨(cancels_prettyAt depth json).field, cancels_fields depth fields⟩

end

theorem pretty_injective {json json' : Json} (same : json.pretty = json'.pretty) : json = json' := by
  have alone : json.prettyAt 0 ++ [] = json'.prettyAt 0 ++ [] := by
    rw [List.append_nil, List.append_nil]
    exact same
  exact (cancels_prettyAt 0 json _ _ _ ends_nil ends_nil alone).1

/-- A text as it stands one level deeper. -/
def indented (text : Text) : Text :=
  text.flatMap fun c => if c = '\n' then newline 1 else [c]

theorem indented_append (front back : Text) :
    indented (front ++ back) = indented front ++ indented back :=
  List.flatMap_append

theorem indented_of_not_mem (absent : '\n' ∉ front) : indented front = front := by
  have kept : indented front = front.flatMap fun c => [c] := List.flatMap_congr fun c member => by
    rw [if_neg (ne_of_mem_of_not_mem member absent)]
  rw [kept, List.flatMap_singleton']

theorem indented_cons (visible : c ≠ '\n') (back : Text) :
    indented (c :: back) = c :: indented back := by
  rw [indented, List.flatMap_cons, if_neg visible]
  rfl

theorem newline_succ (depth : Nat) : newline (depth + 1) = indented (newline depth) := by
  have spaces : '\n' ∉ List.replicate (2 * depth) ' ' := by simp
  have first : newline depth = ['\n'] ++ List.replicate (2 * depth) ' ' := rfl
  have feed : indented ['\n'] = newline 1 := rfl
  rw [first, indented_append, feed, indented_of_not_mem spaces, newline, newline, Nat.mul_add,
    Nat.add_comm, List.replicate_add]
  rfl

section Members

variable {opening closing : Char}

theorem following_succ (visible : closing ≠ '\n') (depth : Nat) (members : List Text) :
    following closing (depth + 1) (members.map indented) =
      indented (following closing depth members) := by
  induction members with
  | nil =>
      rw [following, indented_append, ← newline_succ, indented_cons visible]
      rfl
  | cons member more ih =>
      rw [List.map_cons, following, ih, following, indented_cons (by decide), indented_append,
        indented_append, ← newline_succ]

theorem enclosed_succ (visible : opening ≠ '\n') (visible' : closing ≠ '\n') (depth : Nat)
    (members : List Text) :
    enclosed opening closing (depth + 1) (members.map indented) =
      indented (enclosed opening closing depth members) := by
  cases members with
  | nil =>
      have whole : enclosed opening closing depth [] = [opening, closing] := rfl
      rw [whole, indented_cons visible, indented_cons visible']
      rfl
  | cons member more =>
      rw [List.map_cons, enclosed_cons, enclosed_cons, following_succ visible', newline_succ,
        indented_cons visible, indented_append, indented_append]

end Members

theorem feed_not_mem_quoted (text : Text) : '\n' ∉ quoted text := by
  have spelled : ∀ c ∈ text, '\n' ∉ escape c := fun c _ => (spelling_escape c).feed_not_mem
  simpa [quoted] using spelled

mutual

theorem prettyAt_succ (depth : Nat) :
    (json : Json) → json.prettyAt (depth + 1) = indented (json.prettyAt depth)
  | null => by rw [prettyAt, prettyAt, indented_of_not_mem (by decide)]
  | bool true => by rw [prettyAt, prettyAt, indented_of_not_mem (by decide)]
  | bool false => by rw [prettyAt, prettyAt, indented_of_not_mem (by decide)]
  | number value => (indented_of_not_mem (Text.not_mem_decimal (by decide) value)).symm
  | text value => (indented_of_not_mem (feed_not_mem_quoted value)).symm
  | list items => by
      rw [prettyAt, prettyItems_succ (depth + 1) items, enclosed_succ (by decide) (by decide)]
      rfl
  | object fields => by
      rw [prettyAt, prettyFields_succ (depth + 1) fields, enclosed_succ (by decide) (by decide)]
      rfl

theorem prettyItems_succ (depth : Nat) :
    (items : List Json) → prettyItems (depth + 1) items = (prettyItems depth items).map indented
  | [] => rfl
  | item :: items => by
      rw [prettyItems, prettyItems, prettyAt_succ depth item, prettyItems_succ depth items,
        List.map_cons]

theorem prettyFields_succ (depth : Nat) :
    (fields : List (Text × Json)) →
      prettyFields (depth + 1) fields = (prettyFields depth fields).map indented
  | [] => rfl
  | (name, json) :: fields => by
      rw [prettyFields, prettyFields, prettyAt_succ depth json, prettyFields_succ depth fields,
        List.map_cons, indented_append, indented_append,
        indented_of_not_mem (feed_not_mem_quoted name)]
      rfl

end

theorem pretty_list (items : List Json) :
    (list items).pretty = enclosed '[' ']' 0 (items.map fun item => indented item.pretty) := by
  rw [pretty, prettyAt, prettyItems_succ, prettyItems_eq_map, List.map_map]
  rfl

end Json

end TrackerLinks
