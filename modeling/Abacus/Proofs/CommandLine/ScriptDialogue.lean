import Abacus.Proofs.CommandLine.Script
import Abacus.Proofs.Dialogue.Replies

/-!
# A file as a dialogue

The lines of a file that are evaluated could as well be typed one after another, unless one of them
means a command there.  What is written on the standard output up to the first line that fails is
the same, and so is what is said about that line, but for the tag in front of it and for its number
in the file, which stands behind.  The lines behind it are not evaluated.

## Main results

* `CommandLine.evaluateScript_accepted`: numbered lines that a dialogue accepts
* `CommandLine.evaluateScript_stops`: numbered lines of which one fails
* `CommandLine.begin_file_as_dialogue`: a start with a file
-/

namespace Abacus

namespace CommandLine

open Dialogue (IsForSession)

variable {s : Session} {d : Dialogue} {number : Nat} {line : String}

/-! ### What is evaluated, and what is replied -/

/-- A line that a dialogue accepts is evaluated to its reply. -/
theorem evaluateLine_of_accepted (h : s.Alike d.session) (hline : IsForSession line)
    (haccepts : (d.handle line).1.output.err = "") :
    ∃ events, ∃ t : Session, evaluateLine d.listings d.colours line s =
        (.ofEvents d.colours events ++ .ofOut (d.handle line).1.output.out, false, t) ∧
      t.Alike (d.handle line).2.session := by
  obtain ⟨outcome, hresult⟩ := Dialogue.exists_outcome_of_accepted h.atRest' hline haccepts
  obtain ⟨events, t, heval, hleft⟩ := evaluateLine_eq h d.listings d.colours line
  obtain ⟨hreply, hafter⟩ := Dialogue.handle_calculate h.atRest' hline
  refine ⟨events, t, ?_, hleft.trans hafter.symm⟩
  rw [heval, hreply, hresult]
  rfl

/-- A line that fails is evaluated to the reply, but for the tag. -/
theorem evaluateLine_of_error (h : s.Alike d.session) (hline : IsForSession line) {e : Failure}
    (hresult : (d.session.execute line).1 = .error e) :
    ∃ events, ∃ t : Session, evaluateLine d.listings d.colours line s =
      (.ofEvents d.colours events ++
        ⟨(d.handle line).1.output.out, Answer.failureText d.colours failureTag e⟩, true, t) := by
  obtain ⟨events, t, heval, -⟩ := evaluateLine_eq h d.listings d.colours line
  obtain ⟨hreply, -⟩ := Dialogue.handle_calculate h.atRest' hline
  refine ⟨events, t, ?_⟩
  rw [heval, hreply, hresult]
  rfl

variable {entries before : List (Nat × String)}

/-- Lines that a dialogue accepts, one after another, and any lines behind them. -/
theorem evaluateScript_of_accepts (path : String) (h : s.Alike d.session)
    (hbefore : ∀ entry ∈ before, IsForSession entry.2) (haccepts : d.Accepts (before.map (·.2))) :
    ∃ events, ∃ t : Session, t.Alike (d.after (before.map (·.2))).session ∧ ∀ rest,
      evaluateScript d.listings d.colours path (before ++ rest) s =
        (.ofEvents d.colours events ++ .ofOut (d.written (before.map (·.2))) ++
            (evaluateScript d.listings d.colours path rest t).1,
          (evaluateScript d.listings d.colours path rest t).2) := by
  induction before generalizing s d with
  | nil =>
    refine ⟨[], s, h, fun rest => Prod.ext (Output.ext ?_ ?_) rfl⟩
    · simp [Output.ofEvents, Output.ofOut, Output.ofErr, Dialogue.written, Dialogue.replies]
    · simp [Output.ofEvents, Output.ofOut, Output.ofErr]
  | cons entry before ih =>
    obtain ⟨number, line⟩ := entry
    obtain ⟨hline, hbefore⟩ := List.forall_mem_cons.mp hbefore
    obtain ⟨haccepted, haccepts⟩ := Dialogue.accepts_cons.mp haccepts
    obtain ⟨events, t, heval, hleft⟩ := evaluateLine_of_accepted h hline haccepted
    obtain ⟨more, t', hleft', hmore⟩ := ih hleft hbefore haccepts
    rw [Dialogue.listings_handle, Dialogue.colours_handle] at hmore
    refine ⟨events ++ more, t', hleft', fun rest => ?_⟩
    rw [List.cons_append, evaluateScript_of_evaluated heval, hmore]
    refine Prod.ext (Output.ext ?_ ?_) rfl
    · simp [Output.ofEvents, Output.ofOut, Output.ofErr, Dialogue.written_cons,
        String.append_assoc]
    · simp [Output.ofEvents_append, Output.ofOut, String.append_assoc]

/-- **All lines are accepted.** -/
theorem evaluateScript_accepted (path : String) (h : s.Alike d.session)
    (hentries : ∀ entry ∈ entries, IsForSession entry.2)
    (haccepts : d.Accepts (entries.map (·.2))) :
    ∃ events, evaluateScript d.listings d.colours path entries s =
      (.ofEvents d.colours events ++ .ofOut (d.written (entries.map (·.2))), exitOk) := by
  obtain ⟨events, t, -, hscript⟩ := evaluateScript_of_accepts path h hentries haccepts
  refine ⟨events, ?_⟩
  rw [← List.append_nil entries, hscript, List.append_nil]
  refine Prod.ext (Output.ext ?_ ?_) rfl
  · simp [evaluateScript, Output.nothing]
  · simp [evaluateScript, Output.nothing]

/-- **The evaluation stops at the first line that fails**, whatever stands behind it. -/
theorem evaluateScript_stops (path : String) (number : Nat) (h : s.Alike d.session)
    (hbefore : ∀ entry ∈ before, IsForSession entry.2) (hline : IsForSession line) {e : Failure}
    (hstops : d.StopsAt (before.map (·.2)) line e) :
    ∃ events, ∀ rest,
      evaluateScript d.listings d.colours path (before ++ (number, line) :: rest) s =
        (.ofEvents d.colours events ++
          ⟨d.written (before.map (·.2) ++ [line]),
            Answer.failureText d.colours failureTag e ++
              ("  at " ++ path ++ ":" ++ toString number ++ "\n")⟩, exitFailure) := by
  obtain ⟨events, t, hleft, hscript⟩ := evaluateScript_of_accepts path h hbefore hstops.accepts
  obtain ⟨more, t', heval⟩ := evaluateLine_of_error hleft hline hstops.fails
  rw [Dialogue.listings_after, Dialogue.colours_after] at heval
  refine ⟨events ++ more, fun rest => ?_⟩
  rw [hscript, evaluateScript_of_failed heval]
  refine Prod.ext (Output.ext ?_ ?_) rfl
  · simp [Output.ofEvents, Output.ofOut, Output.ofErr, Dialogue.written_snoc]
  · simp [Output.ofEvents_append, Output.ofOut, Output.ofErr, String.append_assoc]

/-! ### A file -/

/-- An entry of a script is a line of the file, and no line that is skipped. -/
theorem exists_of_mem_script {content : String} {entry : Nat × String}
    (h : entry ∈ script content) :
    ∃ k raw, entry.1 = k + 1 ∧ (Text.lines content)[k]? = some raw ∧ entry.2 = Text.trim raw ∧
      isSkipped entry.2 = false := by
  obtain ⟨hmem, hskipped⟩ := List.mem_filter.mp h
  obtain ⟨⟨raw, n⟩, hraw, rfl⟩ := List.mem_map.mp hmem
  obtain ⟨hle, hget⟩ := List.mem_zipIdx_iff_le_and_getElem?_sub.mp hraw
  exact ⟨n - 1, raw, (Nat.sub_add_cancel hle).symm, hget, rfl, by simpa using hskipped⟩

theorem isForSession_of_mem_script {content : String} {entry : Nat × String}
    (h : entry ∈ script content)
    (hline : entry.2.toList.head? ≠ some ':' ∧ entry.2 ≠ "exit") : IsForSession entry.2 := by
  obtain ⟨k, raw, -, -, -, hskipped⟩ := exists_of_mem_script h
  refine Dialogue.isForSession_of_ne ?_ hline.1 hline.2
  intro hempty
  simp [isSkipped, hempty] at hskipped

/-- **A file as a dialogue.**  If none of its lines is a command, a file makes the program write on
the standard output what a new dialogue writes for them.  Either all lines go well, or there is a
first one that fails: the file is evaluated up to it, and what is said about it is the same but
for the tag and for its number, with blank lines and comments counted.  What stands behind it does
not matter. -/
theorem begin_file_as_dialogue (i : Invocation) (vars : EnvFile.Variables) (strategy : Strategy)
    (listings : Bool) {path content : String} (hread : i.folder.readText path = .ok content)
    (hlines : ∀ entry ∈ script content,
      entry.2.toList.head? ≠ some ':' ∧ entry.2 ≠ "exit") :
    ∃ greeting d report events,
      begin i vars ⟨.dialogue, strategy, listings⟩ = .dialogue greeting d ∧
      begin i vars ⟨.file path, strategy, listings⟩ = .done report ∧
      ((d.Accepts ((script content).map (·.2)) ∧
          report.output =
            .ofEvents d.colours events ++ .ofOut (d.written ((script content).map (·.2))) ∧
          report.exitCode = 0) ∨
        ∃ before number line after message k raw,
          script content = before ++ (number, line) :: after ∧
          number = k + 1 ∧ (Text.lines content)[k]? = some raw ∧ line = Text.trim raw ∧
          d.Accepts (before.map (·.2)) ∧
          ((d.after (before.map (·.2))).handle line).1.output.err =
            Text.Style.redBold.paint d.colours "error:" ++ " " ++ message ++ "\n" ∧
          report.output = .ofEvents d.colours events ++
            ⟨d.written (before.map (·.2) ++ [line]),
              Text.Style.redBold.paint d.colours "Error:" ++ " " ++ message ++ "\n" ++
                ("  at " ++ path ++ ":" ++ toString number ++ "\n")⟩ ∧
          report.exitCode = 70 ∧
          ∀ folder content', Folder.readText folder path = .ok content' →
            before ++ [(number, line)] <+: script content' →
              begin { i with folder } vars ⟨.file path, strategy, listings⟩ = .done report) := by
  have hentries : ∀ entry ∈ script content, IsForSession entry.2 := fun entry hentry =>
    isForSession_of_mem_script hentry (hlines entry hentry)
  have halike := (atRest_freshSession vars strategy).alike
  let d : Dialogue :=
    ⟨freshSession vars strategy, History.ofFile i.history, listings, coloursOf i vars⟩
  have hlines : ∀ line ∈ (script content).map (·.2), IsForSession line :=
    List.forall_mem_map.mpr hentries
  have hbegin := begin_dialogue i vars strategy listings
  rcases d.accepts_or_stopsAt halike.atRest hlines with
    haccepts | ⟨lines, line, later, e, hsplit, hstops⟩
  · obtain ⟨events, hscript⟩ := evaluateScript_accepted path halike hentries haccepts
    exact ⟨_, d, _, reported vars ++ events, hbegin,
      begin_file_of_script i vars strategy listings hread hscript, .inl ⟨haccepts, rfl, rfl⟩⟩
  · obtain ⟨before, rest, hscript, rfl, hrest⟩ := List.map_eq_append_iff.mp hsplit
    obtain ⟨⟨number, line⟩, after, rfl, rfl, rfl⟩ := List.map_eq_cons_iff.mp hrest
    have hmem : (number, line) ∈ script content := by simp [hscript]
    have hbefore : ∀ entry ∈ before, IsForSession entry.2 := fun entry hentry =>
      hentries entry (by simp [hscript, hentry])
    obtain ⟨k, raw, hnumber, hraw, htrim, -⟩ := exists_of_mem_script hmem
    obtain ⟨events, hstopped⟩ :=
      evaluateScript_stops path number halike hbefore (hentries _ hmem) hstops
    have hreply : ((d.after (before.map (·.2))).handle line).1.output.err =
        Answer.failureText d.colours Dialogue.failureTag e := by
      have hafter : (d.after (before.map (·.2))).session.AtRest :=
        (Dialogue.Alike.after ⟨halike, rfl, rfl⟩ (before.map (·.2))).session.atRest
      obtain ⟨hhandle, -⟩ := Dialogue.handle_calculate hafter (hentries _ hmem)
      rw [hhandle, hstops.fails, Dialogue.colours_after]
      rfl
    refine ⟨_, d, _, reported vars ++ events, hbegin,
      begin_file_of_script i vars strategy listings hread ?_,
      .inr ⟨before, number, line, after, e.message, k, raw, hscript, hnumber, hraw, htrim,
        hstops.accepts, hreply, rfl, rfl, ?_⟩⟩
    · rw [hscript]
      exact hstopped after
    · rintro folder content' hread' ⟨more, hmore⟩
      refine begin_file_of_script { i with folder } vars strategy listings hread' ?_
      rw [← hmore, List.append_assoc]
      exact hstopped more

/-- Comments, blank lines and definitions, a value, and then a line that fails. -/
theorem begin_file_as_dialogue_fault :
    let content := "# squares\n\n x = 3 \r\ny = x * x\ny\ny / 0\nx\n"
    let i : Invocation := ⟨[], .empty, fun _ => .ok content.toUTF8, none, false⟩
    i.folder.readText "squares" = .ok content ∧
      (∀ entry ∈ script content, entry.2.toList.head? ≠ some ':' ∧ entry.2 ≠ "exit") ∧
      ∃ greeting d report before number line after message,
        begin i .empty ⟨.dialogue, .stackMachine, false⟩ = .dialogue greeting d ∧
        begin i .empty ⟨.file "squares", .stackMachine, false⟩ = .done report ∧
        script content = before ++ (number, line) :: after ∧
        d.Accepts (before.map (·.2)) ∧
        ((d.after (before.map (·.2))).handle line).1.output.err =
          Text.Style.redBold.paint d.colours "error:" ++ " " ++ message ++ "\n" ∧
        report.exitCode = 70 := by
  intro content i
  have hread : i.folder.readText "squares" = .ok content := by
    subst i content
    decide +kernel
  have hlines : ∀ entry ∈ script content, entry.2.toList.head? ≠ some ':' ∧ entry.2 ≠ "exit" := by
    subst i content
    decide +kernel
  have hfails : (evaluateScript false (coloursOf i .empty) "squares" (script content)
      (freshSession .empty .stackMachine)).2 = 70 := by
    subst i content
    decide +kernel
  obtain ⟨greeting, d, report, events, hdialogue, hfile, haccepted | hstopped⟩ :=
    begin_file_as_dialogue i .empty .stackMachine false hread hlines
  · obtain ⟨-, -, hcode⟩ := haccepted
    rw [begin_file_eq i .empty .stackMachine false hread] at hfile
    injection hfile with hreport
    rw [← hreport] at hcode
    exact absurd (hcode.symm.trans hfails) (by decide)
  · obtain ⟨before, number, line, after, message, -, -, hscript, -, -, -, haccepts, herr, -, hcode,
      -⟩ := hstopped
    exact ⟨hread, hlines, greeting, d, report, before, number, line, after, message, hdialogue,
      hfile, hscript, haccepts, herr, hcode⟩

end CommandLine

end Abacus
