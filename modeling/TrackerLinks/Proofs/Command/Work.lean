import TrackerLinks.Command.Basic

namespace TrackerLinks

namespace Work

variable {action : Id (Except Error α)} {value : α} {error : Error} {exitCode : Nat}

theorem orExit_bind_of_ok (h : action = .ok value) (next : α → Work Id β) :
    (orExit exitCode action >>= next) = next value := by
  rw [h]
  rfl

theorem orExit_bind_of_error (h : action = .error error) (next : α → Work Id β) :
    (orExit exitCode action >>= next) = throw (exitCode, error) := by
  rw [h]
  rfl

theorem ask_bind (action : Id α) (next : α → Work Id β) :
    (ask action >>= next) = next action := rfl

theorem outcome_throw (exitCode : Nat) (error : Error) :
    (throw (exitCode, error) : Work Id Unit).outcome = .failure exitCode error := rfl

theorem run_forM_print (shown : α → Text) (items : List α) (output : Text) :
    (items.forM fun item => print (m := Id) (shown item)).run.run output =
      (.ok (), output ++ items.flatMap shown) := by
  induction items generalizing output with
  | nil =>
      rw [List.flatMap_nil, List.append_nil]
      rfl
  | cons item items ih =>
      rw [List.flatMap_cons, ← List.append_assoc, ← ih]
      rfl

theorem outcome_forM_print (shown : α → Text) (items : List α) :
    (items.forM fun item => print (m := Id) (shown item)).outcome =
      .success (items.flatMap shown) := by
  rw [outcome, run_forM_print]
  rfl

theorem outcome_print_forM_print (title : Text) (lines : List Text) :
    (print (m := Id) title >>= fun _ => lines.forM print).outcome =
      .success (title ++ lines.flatten) := by
  have ran : (print (m := Id) title >>= fun _ => lines.forM print).run.run [] =
      (.ok (), title ++ lines.flatMap id) := run_forM_print id lines title
  rw [outcome, ran, List.flatMap_id]
  rfl

end Work

namespace Command

variable {host : Host Id} {path : Path} {reports : List (Path × DocumentLinks)}

theorem report_eq_pure (isUnicode : host.isUnicode path = true) (found : DocumentLinks) :
    report host path found = pure (found.json path) := by
  rw [report, isUnicode]
  rfl

theorem report_eq_throw (isUnicode : host.isUnicode path = false) (found : DocumentLinks) :
    report host path found = throw (2, .json pathFault) := by
  rw [report, isUnicode]
  rfl

theorem mapM_report_eq_pure (unicode : ∀ file ∈ reports, host.isUnicode file.1 = true) :
    (reports.mapM fun file => report host file.1 file.2) =
      pure (reports.map fun file => file.2.json file.1) := by
  induction reports with
  | nil => rfl
  | cons file reports ih =>
      obtain ⟨first, later⟩ := List.forall_mem_cons.mp unicode
      rw [List.mapM_cons, report_eq_pure first, ih later]
      rfl

theorem mapM_report_eq_throw (garbled : ∃ file ∈ reports, host.isUnicode file.1 = false) :
    (reports.mapM fun file => report host file.1 file.2) = throw (2, .json pathFault) := by
  induction reports with
  | nil => simp at garbled
  | cons file reports ih =>
      rw [List.mapM_cons]
      cases first : host.isUnicode file.1 with
      | false =>
          rw [report_eq_throw first]
          rfl
      | true =>
          have later : ∃ file ∈ reports, host.isUnicode file.1 = false := by
            obtain ⟨other, member, notText⟩ := garbled
            rcases List.mem_cons.mp member with rfl | among
            · cases first.symm.trans notText
            · exact ⟨other, among, notText⟩
          rw [report_eq_pure first, ih later]
          rfl

theorem outcome_printReports (host : Host Id) (json : Bool) (files : List (Path × DocumentLinks)) :
    (printReports host json files).outcome =
      if json then
        if files.all fun file => Id.run (host.isUnicode file.1) then
          .success (printed (.list (files.map fun file => file.2.json file.1)))
        else .failure 2 (.json pathFault)
      else .success (files.flatMap fun file => file.2.lines file.1) := by
  cases json with
  | false => exact Work.outcome_forM_print _ files
  | true =>
      rw [printReports, if_pos rfl, if_pos rfl]
      cases unicode : files.all fun file => Id.run (host.isUnicode file.1) with
      | true =>
          rw [mapM_report_eq_pure (List.all_eq_true.mp unicode)]
          rfl
      | false =>
          have garbled : ∃ file ∈ files, Id.run (host.isUnicode file.1) = false := by
            simpa using unicode
          rw [mapM_report_eq_throw garbled]
          rfl

theorem scanFiles_eq (settings : Settings) (files : List (List Name)) :
    Id.run (scanFiles host settings files) =
      files.filterMap fun names => Id.run (scanFile? host settings names) := by
  induction files with
  | nil => rfl
  | cons names more ih =>
      rw [List.filterMap_cons, ← ih]
      change (Id.run (scanFile? host settings names)).toList ++ _ = _
      cases Id.run (scanFile? host settings names) <;> rfl

theorem loadHere_of_settings {file : Path} {language? : Option Text} {settings : Settings}
    (loaded : Settings.load host here = .ok settings) :
    loadHere host file language? = Document.load host settings file language? := by
  simp only [loadHere, loaded, bind]

section Runs

variable (host : Host Id) (file : Path) (language? : Option Text) (json : Bool)

theorem run_comments_eq :
    run host (.comments file language?) =
      match loadHere host file language? with
      | .error error => .failure 2 error
      | .ok document => .success ("language: ".toList ++ document.language ++ "\n".toList ++
          (Comment.spanLines document.language document.text).flatten) := by
  cases loaded : loadHere host file language? with
  | error error => rw [run, work, runComments, Work.orExit_bind_of_error loaded, Work.outcome_throw]
  | ok document =>
      rw [run, work, runComments, Work.orExit_bind_of_ok loaded]
      exact Work.outcome_print_forM_print _ _

theorem run_links_eq :
    run host (.links file language? json) =
      match loadHere host file language? with
      | .error error => .failure 2 error
      | .ok document =>
          if json then
            if Id.run (host.isUnicode file) then .success (printed ((document.links host).json file))
            else .failure 2 (.json pathFault)
          else .success ((document.links host).lines file) := by
  cases loaded : loadHere host file language? with
  | error error => rw [run, work, runLinks, Work.orExit_bind_of_error loaded, Work.outcome_throw]
  | ok document =>
      rw [run, work, runLinks, Work.orExit_bind_of_ok loaded, Work.ask_bind]
      cases json with
      | false => rfl
      | true =>
          cases isUnicode : host.isUnicode file with
          | false =>
              rw [if_pos rfl, report_eq_throw isUnicode]
              rfl
          | true =>
              rw [if_pos rfl, report_eq_pure isUnicode]
              rfl

/-- What a scan reports. -/
def scanned (host : Host Id) (settings : Settings) : List (Path × DocumentLinks) :=
  Id.run (scanFiles host settings (Id.run (walkNames host settings here)))

theorem run_scan_eq :
    run host (.scan json) =
      match Settings.load host here with
      | .error error => .failure 2 error
      | .ok settings =>
          if json then
            if (scanned host settings).all fun file => Id.run (host.isUnicode file.1) then
              .success (printed (.list ((scanned host settings).map fun file =>
                file.2.json file.1)))
            else .failure 2 (.json pathFault)
          else .success ((scanned host settings).flatMap fun file => file.2.lines file.1) := by
  cases loaded : Settings.load host here with
  | error error => rw [run, work, runScan, Work.orExit_bind_of_error loaded, Work.outcome_throw]
  | ok settings =>
      rw [run, work, runScan, Work.orExit_bind_of_ok loaded, Work.ask_bind, Work.ask_bind]
      exact outcome_printReports host json (scanned host settings)

end Runs

end Command

end TrackerLinks
