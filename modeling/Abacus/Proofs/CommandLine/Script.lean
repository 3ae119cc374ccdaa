import Abacus.CommandLine
import Abacus.Proofs.Session.Listings

/-!
# Lines that the program evaluates

The lines of a file, without blank ones and comments, are evaluated one after another up to the
first that fails.  What is written for each of them, and whether it fails, is what executing it in a
session of its own makes of it: neither its listing nor the log that is emptied behind it leaves a
trace.  The records of the log come first on the error output, as only the last line may fail.

## Main definitions

* `CommandLine.script`: the lines of a file that are evaluated, with their numbers
* `CommandLine.evaluateScript`: such lines, up to the first that fails
* `Evaluated`, `Session.outcomes`: what executing them comes to
* `CommandLine.outText`, `CommandLine.errText`, `CommandLine.exitCode`: what is written for them
* `CommandLine.freshSession`: the session in which a start evaluates

## Main results

* `CommandLine.evaluateLines_eq`: lines that are skipped only count
* `CommandLine.evaluateScript_eq`: what is written, with listings and without
* `CommandLine.begin_line`, `CommandLine.begin_file`: what a start leaves that begins no dialogue
-/

namespace Abacus

/-- A line that was executed, by its number, and what came of it. -/
structure Evaluated where
  number : Nat
  line : String
  result : Except Failure Outcome

/-- **What executing numbered lines comes to**, up to the first that fails. -/
def Session.outcomes : List (Nat × String) → Session → List Evaluated
  | [], _ => []
  | (number, line) :: rest, s =>
    ⟨number, line, (s.execute line).1⟩ ::
      if (s.execute line).1.isOk then outcomes rest (s.execute line).2 else []

section

variable {number : Nat} {line : String} {rest : List (Nat × String)} {s : Session}

theorem Session.outcomes_of_ok {outcome : Outcome} (h : (s.execute line).1 = .ok outcome) :
    s.outcomes ((number, line) :: rest) =
      ⟨number, line, .ok outcome⟩ :: (s.execute line).2.outcomes rest := by
  rw [outcomes, h]
  rfl

theorem Session.outcomes_of_error {e : Failure} (h : (s.execute line).1 = .error e) :
    s.outcomes ((number, line) :: rest) = [⟨number, line, .error e⟩] := by
  rw [outcomes, h]
  rfl

end

namespace Output

theorem append_assoc (a b c : Output) : a ++ b ++ c = a ++ (b ++ c) :=
  Output.ext (String.append_assoc ..) (String.append_assoc ..)

theorem ofEvents_append (colours : Bool) (events more : List Event) :
    ofEvents colours (events ++ more) = ofEvents colours events ++ ofEvents colours more := by
  apply Output.ext
  · rfl
  · simp [ofEvents, ofErr]

end Output

namespace CommandLine

/-! ### The lines of a file -/

/-- The lines that are evaluated among some lines, without their outer blanks, each with its number;
the first has the given one. -/
def scriptFrom (number : Nat) (lines : List String) : List (Nat × String) :=
  ((lines.zipIdx number).map fun entry => (entry.2, Text.trim entry.1)).filter fun entry =>
    !isSkipped entry.2

/-- **The lines of a file that are evaluated**, numbered from one on with all others counted. -/
def script (content : String) : List (Nat × String) := scriptFrom 1 (Text.lines content)

theorem scriptFrom_cons (number : Nat) (line : String) (rest : List String) :
    scriptFrom number (line :: rest) =
      if isSkipped (Text.trim line) then scriptFrom (number + 1) rest
      else (number, Text.trim line) :: scriptFrom (number + 1) rest := by
  unfold scriptFrom
  rw [List.zipIdx_cons, List.map_cons, List.filter_cons]
  cases isSkipped (Text.trim line) <;> simp

/-- **Numbered lines, up to the first that fails**, and the exit code. -/
def evaluateScript (listings colours : Bool) (path : String) :
    List (Nat × String) → Session → Output × Nat
  | [], _ => (.nothing, exitOk)
  | (number, line) :: rest, s =>
    match evaluateLine listings colours line s with
    | (output, true, _) =>
      (output ++ .ofErr ("  at " ++ path ++ ":" ++ toString number ++ "\n"), exitFailure)
    | (output, false, s) =>
      let (more, exitCode) := evaluateScript listings colours path rest s
      (output ++ more, exitCode)

variable {listings colours : Bool} {path : String} {s s' : Session}

section

variable {number : Nat} {line : String} {rest : List (Nat × String)} {output : Output}

theorem evaluateScript_of_failed (h : evaluateLine listings colours line s = (output, true, s')) :
    evaluateScript listings colours path ((number, line) :: rest) s =
      (output ++ .ofErr ("  at " ++ path ++ ":" ++ toString number ++ "\n"), exitFailure) := by
  rw [evaluateScript, h]

theorem evaluateScript_of_evaluated
    (h : evaluateLine listings colours line s = (output, false, s')) :
    evaluateScript listings colours path ((number, line) :: rest) s =
      (output ++ (evaluateScript listings colours path rest s').1,
        (evaluateScript listings colours path rest s').2) := by
  rw [evaluateScript, h]

end

/-- **Lines that are skipped only count.** -/
theorem evaluateLines_eq (number : Nat) (lines : List String) (s : Session) :
    evaluateLines listings colours path number lines s =
      evaluateScript listings colours path (scriptFrom number lines) s := by
  induction lines generalizing number s with
  | nil => rfl
  | cons line rest ih =>
    rw [evaluateLines, scriptFrom_cons]
    dsimp only
    split
    · exact ih (number + 1) s
    · rw [evaluateScript]
      rcases evaluateLine listings colours (Text.trim line) s with ⟨output, _ | _, t⟩
      · simp only [ih]
      · rfl

/-! ### What is written -/

/-- The standard output: each result, after its listing if listings are wanted. -/
def outText (listings : Bool) (steps : List Evaluated) : String :=
  String.join (steps.map fun step => listingOf listings step.line ++ resultText step.result)

/-- Where a line failed, if it did. -/
def placeText (path : String) (step : Evaluated) : String :=
  match step.result with
  | .ok _ => ""
  | .error _ => "  at " ++ path ++ ":" ++ toString step.number ++ "\n"

/-- The error output, but for the log: what went wrong, and where. -/
def errText (colours : Bool) (path : String) (steps : List Evaluated) : String :=
  String.join (steps.map fun step =>
    faultText colours failureTag step.result ++ placeText path step)

/-- The exit code: all lines went well, or one failed. -/
def exitCode (steps : List Evaluated) : Nat :=
  if steps.all (·.result.isOk) then exitOk else exitFailure

theorem outText_cons (listings : Bool) (step : Evaluated) (steps : List Evaluated) :
    outText listings (step :: steps) =
      listingOf listings step.line ++ resultText step.result ++ outText listings steps := by
  rw [outText, List.map_cons, String.join_cons, outText]

theorem errText_cons (colours : Bool) (path : String) (step : Evaluated)
    (steps : List Evaluated) :
    errText colours path (step :: steps) =
      faultText colours failureTag step.result ++ placeText path step ++
        errText colours path steps := by
  rw [errText, List.map_cons, String.join_cons, errText]

theorem exitCode_cons_of_ok {number : Nat} {line : String} {outcome : Outcome}
    (steps : List Evaluated) :
    exitCode (⟨number, line, .ok outcome⟩ :: steps) = exitCode steps := rfl

theorem exitCode_singleton_of_error {number : Nat} {line : String} {e : Failure} :
    exitCode [⟨number, line, .error e⟩] = exitFailure := rfl

/-- **A line is evaluated** to what executing it comes to, records of the log aside. -/
theorem evaluateLine_eq (h : s.Alike s') (listings colours : Bool) (line : String) :
    ∃ events, ∃ t : Session, evaluateLine listings colours line s =
        (.ofEvents colours events ++ ⟨listingOf listings line ++ resultText (s'.execute line).1,
            faultText colours failureTag (s'.execute line).1⟩,
          !(s'.execute line).1.isOk, t) ∧
      t.Alike (s'.execute line).2 := by
  obtain ⟨hanswer, hleft⟩ := h.atRest.executeListed listings line
  obtain ⟨hresult, hafter⟩ := h.execute line
  refine ⟨(s.executeListed listings line).2.takeEvents.1,
    (s.executeListed listings line).2.takeEvents.2, ?_, (hleft.trans hafter).takeEvents⟩
  rw [evaluateLine]
  dsimp only
  rw [hanswer, Answer.output_eq, hresult]
  cases (s'.execute line).1 <;> rfl

/-- **What is written for the lines of a script**, and the exit code: the same with listings and
without, but for the listings themselves and the records of the log. -/
theorem evaluateScript_eq (h : s.Alike s') (listings colours : Bool) (path : String)
    (entries : List (Nat × String)) :
    ∃ events, evaluateScript listings colours path entries s =
      (.ofEvents colours events ++ ⟨outText listings (s'.outcomes entries),
          errText colours path (s'.outcomes entries)⟩,
        exitCode (s'.outcomes entries)) := by
  induction entries generalizing s s' with
  | nil => exact ⟨[], rfl⟩
  | cons entry rest ih =>
    obtain ⟨number, line⟩ := entry
    obtain ⟨events, t, hline, hleft⟩ := evaluateLine_eq h listings colours line
    cases hresult : (s'.execute line).1 with
    | error e =>
      rw [hresult] at hline
      refine ⟨events, ?_⟩
      rw [evaluateScript_of_failed hline, Session.outcomes_of_error hresult,
        exitCode_singleton_of_error]
      refine Prod.ext (Output.ext ?_ ?_) rfl
      · simp [outText, Output.ofErr]
      · simp [errText, placeText, Output.ofErr, String.append_assoc]
    | ok outcome =>
      rw [hresult] at hline
      obtain ⟨more, hmore⟩ := ih hleft
      refine ⟨events ++ more, ?_⟩
      rw [evaluateScript_of_evaluated hline, hmore, Session.outcomes_of_ok hresult,
        exitCode_cons_of_ok]
      refine Prod.ext (Output.ext ?_ ?_) rfl
      · simp [outText_cons, Output.ofEvents, Output.ofErr]
      · simp [errText_cons, faultText, placeText, Output.ofEvents_append, String.append_assoc]

/-! ### What a start leaves -/

/-- The session in which a start evaluates, as variables make it. -/
def freshSession (vars : EnvFile.Variables) (strategy : Strategy) : Session :=
  .new strategy (Settings.ofVariables vars.find?).1 (thresholdOfVariables vars.find?)

/-- Styles are on where a start writes. -/
def coloursOf (i : Invocation) (vars : EnvFile.Variables) : Bool :=
  Text.Style.enabled vars.find? i.terminal

theorem atRest_freshSession (vars : EnvFile.Variables) (strategy : Strategy) :
    (freshSession vars strategy).AtRest :=
  Session.atRest_new strategy _ _

/-- What is reported about the variables. -/
def reported (vars : EnvFile.Variables) : List Event :=
  (Settings.ofVariables vars.find?).2.filter fun e =>
    (thresholdOfVariables vars.find?).admits e.level

section

variable (i : Invocation) (vars : EnvFile.Variables) (strategy : Strategy) (listings : Bool)

theorem begin_line_eq (text : String) :
    begin i vars ⟨.line text, strategy, listings⟩ =
      .done ⟨.ofEvents (coloursOf i vars) (reported vars) ++
          (evaluateLine listings (coloursOf i vars) (Text.trim text)
            (freshSession vars strategy)).1,
        if (evaluateLine listings (coloursOf i vars) (Text.trim text)
          (freshSession vars strategy)).2.1 then exitFailure else exitOk, none⟩ := by
  rw [begin, freshSession, coloursOf, reported]

theorem begin_file_eq {path content : String} (h : i.folder.readText path = .ok content) :
    begin i vars ⟨.file path, strategy, listings⟩ =
      .done ⟨.ofEvents (coloursOf i vars) (reported vars) ++
          (evaluateScript listings (coloursOf i vars) path (script content)
            (freshSession vars strategy)).1,
        (evaluateScript listings (coloursOf i vars) path (script content)
          (freshSession vars strategy)).2, none⟩ := by
  rw [begin, script, ← evaluateLines_eq]
  dsimp only
  rw [evaluateFile, h]
  rfl

theorem begin_file_of_script {path content : String} {events : List Event} {output : Output}
    {code : Nat} (h : i.folder.readText path = .ok content)
    (hscript : evaluateScript listings (coloursOf i vars) path (script content)
      (freshSession vars strategy) = (.ofEvents (coloursOf i vars) events ++ output, code)) :
    begin i vars ⟨.file path, strategy, listings⟩ =
      .done ⟨.ofEvents (coloursOf i vars) (reported vars ++ events) ++ output, code, none⟩ := by
  rw [begin_file_eq i vars strategy listings h, hscript, Output.ofEvents_append,
    Output.append_assoc]

/-- A file that can not be read is never evaluated. -/
theorem begin_unreadable {path : String} {fault : ReadFault}
    (h : i.folder.readText path = .error fault) :
    begin i vars ⟨.file path, strategy, listings⟩ =
      .done ⟨.ofEvents (coloursOf i vars) (reported vars) ++
          .ofErr (Text.Style.redBold.paint (coloursOf i vars) failureTag ++ " cannot read '" ++
            path ++ "': " ++ fault.message ++ "\n"),
        exitNoInput, none⟩ := by
  rw [begin]
  dsimp only
  rw [evaluateFile, h]
  rfl

theorem begin_dialogue :
    begin i vars ⟨.dialogue, strategy, listings⟩ =
      .dialogue (.ofEvents (coloursOf i vars) (reported vars) ++ .ofOut Dialogue.greeting)
        ⟨freshSession vars strategy, History.ofFile i.history, listings, coloursOf i vars⟩ := by
  rw [begin]
  rfl

/-- **A line that is given as an argument.** -/
theorem begin_line (text : String) :
    ∃ events, begin i vars ⟨.line text, strategy, listings⟩ =
      .done ⟨.ofEvents (coloursOf i vars) events ++
          ⟨listingOf listings (Text.trim text) ++
              resultText ((freshSession vars strategy).execute (Text.trim text)).1,
            faultText (coloursOf i vars) failureTag
              ((freshSession vars strategy).execute (Text.trim text)).1⟩,
        if ((freshSession vars strategy).execute (Text.trim text)).1.isOk then exitOk
          else exitFailure, none⟩ := by
  obtain ⟨events, t, hline, -⟩ := evaluateLine_eq (atRest_freshSession vars strategy).alike
    listings (coloursOf i vars) (Text.trim text)
  refine ⟨reported vars ++ events, ?_⟩
  rw [begin_line_eq, hline, Output.ofEvents_append, Output.append_assoc]
  cases ((freshSession vars strategy).execute (Text.trim text)).1 <;> rfl

/-- **The lines of a file.** -/
theorem begin_file {path content : String} (h : i.folder.readText path = .ok content) :
    ∃ events, begin i vars ⟨.file path, strategy, listings⟩ =
      .done ⟨.ofEvents (coloursOf i vars) events ++
          ⟨outText listings ((freshSession vars strategy).outcomes (script content)),
            errText (coloursOf i vars) path
              ((freshSession vars strategy).outcomes (script content))⟩,
        exitCode ((freshSession vars strategy).outcomes (script content)), none⟩ := by
  obtain ⟨events, hscript⟩ := evaluateScript_eq (atRest_freshSession vars strategy).alike
    listings (coloursOf i vars) path (script content)
  exact ⟨reported vars ++ events, begin_file_of_script i vars strategy listings h hscript⟩

end

end CommandLine

end Abacus
