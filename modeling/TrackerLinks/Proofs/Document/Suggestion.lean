import Mathlib.Algebra.Group.Nat.Defs
import TrackerLinks.Proofs.Document.Loading
import TrackerLinks.Proofs.Error.Printed
import TrackerLinks.Proofs.Toml.Number

/-! The way out that the diagnostic of a file that is too large gives: the limit that it names is one
that the settings can have, and the file passes under it. -/

namespace TrackerLinks

variable {path file : Path} {limit size : Nat}

namespace Error

/-- What the diagnostic of a file that is too large says of it. -/
def complaint (path : Path) (limit size : Nat) : Text :=
  "`".toList ++ path ++ "` is ".toList ++ Text.decimal size ++ " bytes (max ".toList ++
    Text.decimal limit ++ ").".toList

theorem not_mem_limitLine {c : Char} (absent : c ∉ "    max_file_bytes = ".toList)
    (other : Text.isDigitOf 10 c = false) (n : Nat) : c ∉ Settings.limitLine n := by
  intro member
  have member := List.mem_append.mp member
  rcases member with named | digit
  · exact absent named
  · exact absurd digit (Text.not_mem_decimal other n)

theorem dropReturn_limitLine (n : Nat) :
    Text.dropReturn (Settings.limitLine n) = Settings.limitLine n :=
  Text.dropReturn_of_not_suffix fun ends =>
    not_mem_limitLine (by decide) (by decide) n (ends.subset List.mem_cons_self)

theorem advice_eq :
    ").\n\n## Fix\n\nRaise the limit in `".toList ++ Settings.fileName ++
        "`:\n\n    max_file_bytes = ".toList =
      ").".toList ++ '\n' :: '\n' :: ("## Fix".toList ++ '\n' :: '\n' ::
        ("Raise the limit in `.issuelink.toml`:".toList ++ '\n' :: '\n' ::
          "    max_file_bytes = ".toList)) := by
  decide +kernel

theorem body_fileTooLarge (path : Path) (limit size : Nat) :
    body (.fileTooLarge path limit size) =
      complaint path limit size ++ '\n' :: '\n' :: ("## Fix".toList ++ '\n' :: '\n' ::
        ("Raise the limit in `.issuelink.toml`:".toList ++ '\n' :: '\n' ::
          Settings.limitLine (suggestedLimit size))) := by
  have advice := congrArg (· ++ Text.decimal (suggestedLimit size)) advice_eq
  simp only [List.append_assoc, List.cons_append] at advice
  unfold body complaint Settings.limitLine
  dsimp only
  simp only [List.append_assoc]
  rw [advice]

theorem endedLines_cons_feed (rest : Text) :
    Text.endedLines ('\n' :: rest) = [] :: Text.endedLines rest :=
  Text.endedLines_append_cons List.not_mem_nil rest

theorem endedLines_fileTooLarge (path : Path) (limit size : Nat) :
    Text.endedLines (markdown (.fileTooLarge path limit size)) =
      "# Error: File Too Large".toList :: [] ::
        ((Text.split '\n' (complaint path limit size)).map Text.dropReturn ++
          [[], "## Fix".toList, [], "Raise the limit in `.issuelink.toml`:".toList, [],
            Settings.limitLine (suggestedLimit size)]) := by
  have heading : '\n' ∉ "## Fix".toList := by decide
  have advice : '\n' ∉ "Raise the limit in `.issuelink.toml`:".toList := by decide
  have line : '\n' ∉ Settings.limitLine (suggestedLimit size) :=
    not_mem_limitLine (by decide) (by decide) _
  rw [endedLines_markdown, body_fileTooLarge]
  simp only [List.append_assoc, List.cons_append]
  rw [Text.endedLines_append, endedLines_cons_feed, Text.endedLines_append_cons heading,
    endedLines_cons_feed, Text.endedLines_append_cons advice, endedLines_cons_feed,
    Text.endedLines_append_cons line, dropReturn_limitLine]
  rfl

theorem getLast?_endedLines_fileTooLarge (path : Path) (limit size : Nat) :
    (Text.endedLines (markdown (.fileTooLarge path limit size))).getLast? =
      some (Settings.limitLine (suggestedLimit size)) := by
  rw [endedLines_fileTooLarge, List.getLast?_cons_cons, List.getLast?_cons]
  simp

theorem feed_not_mem_complaint (absent : '\n' ∉ path) (limit size : Nat) :
    '\n' ∉ complaint path limit size := by
  have number (n : Nat) : '\n' ∉ Text.decimal n := Text.not_mem_decimal (by decide) n
  simp [complaint, absent, number]

/-- In the diagnostic of a file whose path takes one line, no line but the last gives a limit. -/
theorem eq_limitLine_of_mem_endedLines {line : Text} (absent : '\n' ∉ path)
    (member : line ∈ Text.endedLines (markdown (.fileTooLarge path limit size)))
    (names : "    max_file_bytes = ".toList <+: line) :
    line = Settings.limitLine (suggestedLimit size) := by
  rw [endedLines_fileTooLarge, Text.split_of_not_mem (feed_not_mem_complaint absent limit size)]
    at member
  have first {text : Text} (among : "    max_file_bytes = ".toList <+: text) :
      text.head? = some ' ' := by
    obtain ⟨rest, rfl⟩ := among
    rfl
  simp only [List.map_cons, List.map_nil, List.cons_append, List.nil_append, List.mem_cons,
    List.not_mem_nil, or_false] at member
  rcases member with rfl | rfl | rfl | rfl | rfl | rfl | rfl | rfl | rfl
  case inr.inr.inl =>
    have quoted : (complaint path limit size).head? = some '\x60' := rfl
    have blank := first (names.trans (Text.dropReturn_isPrefix _))
    exact absurd (quoted.symm.trans blank) (by decide)
  case inr.inr.inr.inr.inr.inr.inr.inr => rfl
  all_goals exact absurd (first names) (by decide)

theorem size_le_suggestedLimit (bounded : size ≤ largestSize) : size ≤ suggestedLimit size :=
  Nat.le_min.mpr ⟨Nat.le_succ size, bounded⟩

theorem suggestedLimit_le (bounded : size < Toml.largestNumber) :
    suggestedLimit size ≤ Toml.largestNumber :=
  Nat.le_trans (Nat.min_le_left _ _) bounded

end Error

namespace Document

variable {host : Host Id} {settings : Settings} {language? : Option Text}

/-- A file that is too large for the settings is not too large for them with the limit that the last
line of the diagnostic gives, and the settings file may hold that line. The file then loads if it can
be read and is a text. Only a path of more than one line can bring a line like it into the diagnostic.
Up to the largest size that there is, the limit is no smaller than the file. -/
theorem load_under_suggestion
    (failed : load host settings path language? = .error (.fileTooLarge file limit size))
    (bounded : size < 2 ^ 63 - 1) :
    (∃ suggested line,
      (Text.endedLines (Error.markdown (.fileTooLarge file limit size))).getLast? = some line ∧
      line = "    max_file_bytes = ".toList ++ Text.decimal suggested ∧
      ('\n' ∉ path →
        ∀ other ∈ Text.endedLines (Error.markdown (.fileTooLarge file limit size)),
          "    max_file_bytes = ".toList <+: other → other = line) ∧
      suggested ≤ 2 ^ 63 - 1 ∧
      Settings.ofText? line = some { Settings.standard with maxFileBytes := suggested } ∧
      (∀ file limit size,
        load host { settings with maxFileBytes := suggested } path language? ≠
          .error (.fileTooLarge file limit size)) ∧
      (∀ text, host.read path = .ok (List.utf8Encode text) →
        load host { settings with maxFileBytes := suggested } path language? =
          .ok ⟨language?.getD (Language.ofPath settings.languages path), path, text⟩) ∧
      ∀ machine refusal, host = Machine.guardedHost machine refusal → ∀ place text,
        machine.Leads path place →
        machine.tree.get? place = some (.leaf (.file (List.utf8Encode text))) →
        refusal place = none →
        load host { settings with maxFileBytes := suggested } path language? =
          .ok ⟨language?.getD (Language.ofPath settings.languages path), path, text⟩) ∧
    ∀ file limit size, size ≤ 2 ^ 64 - 1 → ∃ suggested,
      (Text.endedLines (Error.markdown (.fileTooLarge file limit size))).getLast? =
        some ("    max_file_bytes = ".toList ++ Text.decimal suggested) ∧
      size ≤ suggested ∧ suggested ≤ 2 ^ 64 - 1 := by
  have fits : size ≤ Error.suggestedLimit size := Error.size_le_suggestedLimit (by
    rw [Error.largestSize]
    omega)
  have accepted : Error.suggestedLimit size ≤ Toml.largestNumber :=
    Error.suggestedLimit_le (Nat.lt_of_lt_of_eq bounded rfl)
  obtain ⟨rfl, rfl, status, found, rfl, _⟩ :=
    loading_fileTooLarge_iff.mp (load_eq_iff_loading.mp failed)
  have loads (text : Text) (held : host.read file = .ok text.utf8Encode) :
      load host { settings with maxFileBytes := Error.suggestedLimit status.size } file language? =
        .ok ⟨language?.getD (Language.ofPath settings.languages file), file, text⟩ :=
    Loading.load_eq (.loaded found fits held)
  refine ⟨⟨Error.suggestedLimit status.size, _, Error.getLast?_endedLines_fileTooLarge _ _ _, rfl,
    fun absent _ => Error.eq_limitLine_of_mem_endedLines absent, accepted,
    Settings.ofText?_limitLine accepted, ?passes, loads, ?guarded⟩, ?bounds⟩
  case passes =>
    intro file' limit size failed'
    obtain ⟨_, rfl, status', found', rfl, exceeds⟩ :=
      loading_fileTooLarge_iff.mp (load_eq_iff_loading.mp failed')
    cases found.symm.trans found'
    exact absurd fits (Nat.not_le.mpr exceeds)
  case guarded =>
    rintro machine refusal rfl place text leads stands free
    exact loads text ((read_guardedHost_eq_ok_iff leads stands).mpr ⟨free, rfl⟩)
  case bounds =>
    intro file limit size bounded
    exact ⟨Error.suggestedLimit size, Error.getLast?_endedLines_fileTooLarge file limit size,
      Error.size_le_suggestedLimit bounded, Nat.min_le_right _ _⟩

theorem load_under_suggestion_linked :
    load linkedHost { Settings.standard with maxFileBytes := 3 } "to".toList none =
        .error (.fileTooLarge "to".toList 3 4) ∧
      4 < 2 ^ 63 - 1 ∧
      (Text.endedLines (Error.markdown (.fileTooLarge "to".toList 3 4))).getLast? =
        some ("    max_file_bytes = ".toList ++ Text.decimal 5) ∧
      load linkedHost { Settings.standard with maxFileBytes := 5 } "to".toList none =
        .ok ⟨"plaintext".toList, "to".toList, "# é".toList⟩ := by
  have failed : load linkedHost { Settings.standard with maxFileBytes := 3 } "to".toList none =
      .error (.fileTooLarge "to".toList 3 4) := by
    have found : linkedHost.status "to".toList = .ok ⟨false, "# é".toList.utf8Encode.size⟩ :=
      status_guardedHost_of_leads leads_linked stands_linked
    rw [size_linked] at found
    exact Loading.load_eq (.large found (by decide))
  obtain ⟨⟨suggested, line, printed, rfl, _, _, _, _, _, loads⟩, _⟩ :=
    load_under_suggestion failed (by decide)
  have same : Text.decimal suggested = Text.decimal 5 := List.append_cancel_left
    (Option.some.inj (printed.symm.trans (Error.getLast?_endedLines_fileTooLarge _ _ _)))
  obtain rfl : suggested = 5 := by
    rw [← Text.ofDigits_decimal suggested, same, Text.ofDigits_decimal]
  exact ⟨failed, by decide, printed, loads linked _ rfl _ _ leads_linked stands_linked rfl⟩

/-- A file whose path takes three lines, the second of which gives a limit. -/
def misnamed : Machine where
  tree := .directory [("a\n    max_file_bytes = 1\nb".toList, .leaf (.file "# é".toUTF8))]
  workingDirectory := []
  origin _ := .exited 1

theorem hasFile_misnamed :
    misnamed.HasFile "a\n    max_file_bytes = 1\nb".toList "# é".toList.utf8Encode := by
  have goes : misnamed.Goes "a\n    max_file_bytes = 1\nb".toList 0
      ["a\n    max_file_bytes = 1\nb".toList] [] :=
    .enter (by decide) (by decide) rfl nofun .stay
  rw [String.utf8Encode_toList]
  exact ⟨_, ⟨⟨by decide, by decide, by decide⟩, 0, by decide, goes⟩, rfl⟩

/-- The suggested limit does not make a file load that nobody may read, and of two lines that give a
limit the first, which stands in the path, does not let the file pass. -/
theorem suggestion_fails :
    linked.HasFile "shut".toList "# é".toList.utf8Encode ∧
      load linkedHost { Settings.standard with maxFileBytes := 3 } "shut".toList none =
        .error (.fileTooLarge "shut".toList 3 4) ∧
      (Text.endedLines (Error.markdown (.fileTooLarge "shut".toList 3 4))).getLast? =
        some "    max_file_bytes = 5".toList ∧
      load linkedHost { Settings.standard with maxFileBytes := 5 } "shut".toList none =
        .error (.io (.other "Permission denied (os error 13)".toList)) ∧
      load misnamed.host { Settings.standard with maxFileBytes := 2 }
          "a\n    max_file_bytes = 1\nb".toList none =
        .error (.fileTooLarge "a\n    max_file_bytes = 1\nb".toList 2 4) ∧
      "    max_file_bytes = 1".toList ∈ Text.endedLines
        (Error.markdown (.fileTooLarge "a\n    max_file_bytes = 1\nb".toList 2 4)) ∧
      load misnamed.host { Settings.standard with maxFileBytes := 1 }
          "a\n    max_file_bytes = 1\nb".toList none =
        .error (.fileTooLarge "a\n    max_file_bytes = 1\nb".toList 1 4) := by
  have shut : linkedHost.status "shut".toList = .ok ⟨false, "# é".toList.utf8Encode.size⟩ :=
    status_guardedHost_of_leads leads_linked_shut stands_linked_shut
  have sealed : linkedHost.read "shut".toList =
      .error (.other "Permission denied (os error 13)".toList) :=
    read_guardedHost_of_leads leads_linked_shut stands_linked_shut
  have found : misnamed.host.status "a\n    max_file_bytes = 1\nb".toList =
      .ok ⟨false, "# é".toList.utf8Encode.size⟩ := hasFile_misnamed.status_eq
  rw [size_linked] at shut found
  refine ⟨⟨_, leads_linked_shut, stands_linked_shut⟩, Loading.load_eq (.large shut (by decide)),
    ?last, Loading.load_eq (.unreadable shut (by decide) sealed),
    Loading.load_eq (.large found (by decide)), ?among, Loading.load_eq (.large found (by decide))⟩
  case last =>
    have suggested :
        Settings.limitLine (Error.suggestedLimit 4) = "    max_file_bytes = 5".toList := by
      decide +kernel
    rw [Error.getLast?_endedLines_fileTooLarge, suggested]
  case among =>
    decide +kernel

end Document

end TrackerLinks
