import TrackerLinks.Proofs.Command.Work
import TrackerLinks.Proofs.Comment.Soundness
import TrackerLinks.Proofs.Document.Loading
import TrackerLinks.Proofs.Position.LineIndex
import TrackerLinks.Proofs.Settings.Loading
import TrackerLinks.Proofs.Text.Pieces
import TrackerLinks.Proofs.Text.Quoting

namespace TrackerLinks

namespace Comment

variable {span : Span} {position : Position}

/-- What a line of the listing tells of a comment. Lines and columns count from one. -/
structure Listed where
  line : Nat
  column : Nat
  start : Nat
  stop : Nat
  text : Text
  deriving DecidableEq

/-- A decimal number that a text starts with, and what follows it. -/
def number? (text : Text) : Option (Nat × Text) :=
  let digits := text.takeWhile (Text.isDigitOf 10)
  if digits.isEmpty then none
  else some (Text.ofDigits 10 digits, text.dropWhile (Text.isDigitOf 10))

/-- What a line of the listing tells, read from left to right. -/
def Listed.ofLine? (line : Text) : Option Listed := do
  let some (line, ':' :: rest) := number? line | none
  let some (column, ' ' :: ' ' :: rest) := number? rest | none
  let some (start, '.' :: '.' :: rest) := number? rest | none
  let some (stop, ' ' :: ' ' :: rest) := number? rest | none
  return { line, column, start, stop, text := ← Text.unquote? rest }

/-- A line of the listing without its line feed. -/
def Span.row (span : Span) (position : Position) : Text :=
  position.shown ++ "  ".toList ++ Text.decimal span.start ++ "..".toList ++
    Text.decimal span.stop ++ "  ".toList ++ Text.quote span.text

theorem Span.line_eq (span : Span) (position : Position) :
    span.line position = span.row position ++ ['\n'] := rfl

theorem number?_decimal_append (n : Nat) {c : Char} (stop : Text.isDigitOf 10 c = false)
    (rest : Text) : number? (Text.decimal n ++ c :: rest) = some (n, c :: rest) := by
  have stops : ∀ d ∈ (c :: rest).head?, Text.isDigitOf 10 d = false := Text.stop_of_head stop
  obtain ⟨digits, left⟩ := Text.cut_of_stop (Text.forall_mem_decimal n) stops
  rw [number?, digits, left, List.isEmpty_eq_false_iff.mpr (Text.decimal_ne_nil n),
    Text.ofDigits_decimal]
  rfl

theorem ofLine?_row (span : Span) (position : Position) :
    Listed.ofLine? (span.row position) = some
      { line := position.line + 1
        column := position.character + 1
        start := span.start
        stop := span.stop
        text := span.text } := by
  have row : span.row position = Text.decimal (position.line + 1) ++ ':' ::
      (Text.decimal (position.character + 1) ++ ' ' :: ' ' ::
        (Text.decimal span.start ++ '.' :: '.' ::
          (Text.decimal span.stop ++ ' ' :: ' ' :: Text.quote span.text))) := by
    simp [Span.row, Position.shown]
  have colon : Text.isDigitOf 10 ':' = false := by decide
  have space : Text.isDigitOf 10 ' ' = false := by decide
  have dot : Text.isDigitOf 10 '.' = false := by decide
  rw [row, Listed.ofLine?, number?_decimal_append _ colon]
  simp only [number?_decimal_append _ space, number?_decimal_append _ dot, Text.unquote?_quote]
  rfl

theorem isShown_row (span : Span) (position : Position) : Text.IsShown (span.row position) := by
  simp only [Span.row, Position.shown, Text.isShown_append, Text.isShown_decimal,
    Text.isShown_quote, and_true, true_and]
  decide

/-- The lines for the comments of a text, without their line feeds. -/
def rows (language text : Text) : List Text :=
  (spansIn language text).map fun span => span.row (Text.positionAt text span.start)

theorem flatten_spanLines (language text : Text) :
    (spanLines language text).flatten = (rows language text).flatMap (· ++ ['\n']) := by
  rw [rows, List.flatMap_map, List.flatMap_def]
  simp only [spanLines, LineIndex.positionAt_ofText, Span.line_eq]

theorem isShown_of_mem_rows {language text row : Text} (member : row ∈ rows language text) :
    Text.IsShown row := by
  obtain ⟨span, _, rfl⟩ := List.mem_map.mp member
  exact isShown_row span _

theorem map_ofLine?_rows (language text : Text) :
    (rows language text).map Listed.ofLine? = (spansIn language text).map fun span => some
      { line := (Text.positionAt text span.start).line + 1
        column := (Text.positionAt text span.start).character + 1
        start := span.start
        stop := span.stop
        text := span.text } := by
  rw [rows, List.map_map]
  exact List.map_congr_left fun span _ => ofLine?_row span _

end Comment

/-- The language of a document and then its comments. -/
def Document.commentListing (document : Document) : Text :=
  "language: ".toList ++ document.language ++ "\n".toList ++
    (Comment.spanLines document.language document.text).flatten

theorem Document.split_commentListing {document : Document} (oneLine : '\n' ∉ document.language) :
    Text.split '\n' document.commentListing = ("language: ".toList ++ document.language) ::
      (Comment.rows document.language document.text ++ [[]]) := by
  have listing : document.commentListing = ("language: ".toList ++ document.language) ++
      '\n' :: (Comment.rows document.language document.text).flatMap (· ++ ['\n']) := by
    rw [← Comment.flatten_spanLines]
    unfold commentListing
    simp
  have titled : '\n' ∉ "language: ".toList ++ document.language := by
    simpa using oneLine
  rw [listing, Text.split_append_cons titled, Text.split_flatMap_append]
  intro row member
  exact (Comment.isShown_of_mem_rows member).feed_not_mem

namespace Command

variable {host : Host Id} {file : Path} {language? : Option Text} {document : Document}

/-- The language of a document takes the first line of its listing, and after it each comment takes
one, in order. All characters of these lines show, and they tell where each comment stands, by its
position and by its bytes, and what it says. -/
theorem run_comments_readable (loaded : loadHere host file language? = .ok document)
    (oneLine : '\n' ∉ document.language) :
    ∃ output rows, run host (.comments file language?) = .success output ∧
      Text.split '\n' output = ("language: ".toList ++ document.language) :: (rows ++ [[]]) ∧
      (∀ row ∈ rows, Text.IsShown row) ∧
      (rows.map Comment.Listed.ofLine? =
        (Comment.spansIn document.language document.text).map fun span => some
          { line := (Text.positionAt document.text span.start).line + 1
            column := (Text.positionAt document.text span.start).character + 1
            start := span.start
            stop := span.stop
            text := span.text }) ∧
      ∀ span ∈ Comment.spansIn document.language document.text,
        span.start < span.stop ∧ span.stop ≤ Text.size document.text ∧
          document.text.utf8Encode.extract span.start span.stop = span.text.utf8Encode := by
  refine ⟨document.commentListing, Comment.rows document.language document.text, ?_,
    Document.split_commentListing oneLine, fun row => Comment.isShown_of_mem_rows,
    Comment.map_ofLine?_rows document.language document.text, ?_⟩
  · rw [run_comments_eq, loaded]
    rfl
  · intro span member
    have occurs := Comment.occursAt_of_mem_spans member
    exact ⟨Comment.start_lt_stop_of_mem_spans member, occurs.stop_le, occurs.extract_utf8Encode⟩

/-- A file without settings beside it, whose comment takes two lines and does not all show. -/
def scribbled : Machine where
  tree := .directory [("a.c".toList, .leaf (.file "x /* \"é\"\n\t\\\x00 */\n".toUTF8))]
  workingDirectory := []
  origin _ := .exited 1

theorem loadHere_scribbled :
    loadHere scribbled.host "a.c".toList none =
      .ok ⟨"c".toList, "a.c".toList, "x /* \"é\"\n\t\\\x00 */\n".toList⟩ := by
  have spelled : Path.join here Settings.fileName = "./.issuelink.toml".toList := by decide
  have aside : scribbled.Goes "./.issuelink.toml".toList 0 [] [Settings.fileName] :=
    .enter (by decide) (by decide) rfl nofun .stay
  have refuses : scribbled.Refuses "./.issuelink.toml".toList .notFound :=
    Machine.refuses_notFound_iff.mpr (.inr ⟨⟨by decide, by decide, by decide⟩, 0, by decide,
      _, _, _, aside, by decide, by decide, rfl⟩)
  have missing : scribbled.host.read (Path.join here Settings.fileName) = .error .notFound := by
    rw [spelled]
    exact refuses.read_eq
  have goes : scribbled.Goes "a.c".toList 0 ["a.c".toList] [] :=
    .enter (by decide) (by decide) rfl nofun .stay
  have isFile : scribbled.HasFile "a.c".toList
      "x /* \"é\"\n\t\\\x00 */\n".toList.utf8Encode := by
    rw [String.utf8Encode_toList]
    exact ⟨_, ⟨⟨by decide, by decide, by decide⟩, 0, by decide, goes⟩, rfl⟩
  rw [loadHere_of_settings (Settings.load_of_hold (.standard missing))]
  exact Document.load_of_hasFile isFile (by decide)

theorem run_comments_readable_scribbled :
    loadHere scribbled.host "a.c".toList none =
        .ok ⟨"c".toList, "a.c".toList, "x /* \"é\"\n\t\\\x00 */\n".toList⟩ ∧
      '\n' ∉ "c".toList ∧
      ∃ output row, run scribbled.host (.comments "a.c".toList none) = .success output ∧
        Text.split '\n' output = ["language: c".toList, row, []] ∧ Text.IsShown row ∧
        Comment.Listed.ofLine? row = some
          { line := 1
            column := 3
            start := 2
            stop := 16
            text := "/* \"é\"\n\t\\\x00 */".toList } := by
  have found : Comment.spansIn "c".toList "x /* \"é\"\n\t\\\x00 */\n".toList =
      [⟨2, "/* \"é\"\n\t\\\x00 */".toList⟩] := by
    decide +kernel
  obtain ⟨output, rows, printed, lines, shown, read, _⟩ :=
    run_comments_readable loadHere_scribbled (by decide)
  dsimp only at lines read
  rw [found, List.map_singleton] at read
  obtain ⟨row, rfl, told⟩ := List.map_eq_singleton_iff.mp read
  exact ⟨loadHere_scribbled, by decide, output, row, printed, lines,
    shown row (List.mem_singleton_self row), told⟩

end Command

end TrackerLinks
