import Abacus.Proofs.CommandLine.Script
import Abacus.Proofs.Dialogue.Replies

/-!
# Listings change nothing else

Whether listings are wanted is asked wherever a line is evaluated: in a dialogue, in a file, and for
a line that is given as an argument.  Each of them compiles the line once more then, and writes
what went wrong if that fails.  All the same the listings are everything that is written more, and
each stands before the result of its line.

## Main results

* `listings_add_nothing_else`: dialogues, files and lines, with listings and without
-/

namespace Abacus

/-- **Listings change nothing else.**

* In a dialogue that has handled any lines, the history, the definitions, the error output and
  whether the dialogue is over are the same with listings and without.  The standard output is
  the same but for the listing before the result, and a line that fails is reported once.
* A line that defines nothing and can be read has the listing of its program.
* A line that is given as an argument, and the lines of a file, are evaluated to what executing
  them in a new session comes to.  The exit code and the error output, but for the log, do not
  depend on listings, and the standard output has one before each result. -/
theorem listings_add_nothing_else :
    (∀ (strategy : Strategy) (settings : Settings) (threshold : Threshold)
        (history : List String) (colours : Bool) (before : List String) (line : String),
      let d (listings : Bool) : Dialogue :=
        (Dialogue.mk (.new strategy settings threshold) history listings colours).after before
      let reply (listings : Bool) : Reply := ((d listings).handle line).1
      (d true).history = (d false).history ∧
      (d true).session.globals = (d false).session.globals ∧
      (reply true).quits = (reply false).quits ∧
      (reply true).output.err = (reply false).output.err ∧
      (reply true).output.out = announced true line ++ (reply false).output.out ∧
      (Dialogue.IsForSession line →
        (reply false).output =
          ⟨resultText ((d false).session.execute line).1,
            faultText colours Dialogue.failureTag ((d false).session.execute line).1⟩)) ∧
    (∀ line e, isDefinition line = false → parse line = .ok e →
      ∃ p, Program.ofExpr e = .ok p ∧ listingOf true line = p.listing) ∧
    ∀ (i : Invocation) (vars : EnvFile.Variables) (strategy : Strategy) (listings : Bool),
      let colours := CommandLine.coloursOf i vars
      let s := CommandLine.freshSession vars strategy
      (∀ text,
        let line := Text.trim text
        let result := (s.execute line).1
        ∃ events, CommandLine.begin i vars ⟨.line text, strategy, listings⟩ =
          .done ⟨.ofEvents colours events ++
              ⟨listingOf listings line ++ resultText result,
                faultText colours CommandLine.failureTag result⟩,
            if result.isOk then CommandLine.exitOk else CommandLine.exitFailure, none⟩) ∧
      ∀ path,
        match i.folder.readText path with
        | .ok content =>
          let steps := s.outcomes (CommandLine.script content)
          ∃ events, CommandLine.begin i vars ⟨.file path, strategy, listings⟩ =
            .done ⟨.ofEvents colours events ++
                ⟨CommandLine.outText listings steps, CommandLine.errText colours path steps⟩,
              CommandLine.exitCode steps, none⟩
        | .error _ =>
          CommandLine.begin i vars ⟨.file path, strategy, listings⟩ =
            CommandLine.begin i vars ⟨.file path, strategy, false⟩ := by
  refine ⟨?_, ?_, ?_⟩
  · intro strategy settings threshold history colours before line d reply
    have hstart : (Dialogue.mk (.new strategy settings threshold) history true colours).Alike
        ⟨.new strategy settings threshold, history, false, colours⟩ :=
      ⟨(Session.atRest_new strategy settings threshold).alike, rfl, rfl⟩
    have halike : (d true).Alike (d false) := hstart.after before
    have hlistings (listings : Bool) : (d listings).listings = listings :=
      Dialogue.listings_after before _
    have hlisted : reply true = (reply false).listed true line :=
      halike.handle_listed (hlistings true) (hlistings false) line
    refine ⟨halike.history, halike.session.globals, ?_, ?_, ?_, fun hline => ?_⟩
    · rw [hlisted, Reply.listed]
    · rw [hlisted, Reply.listed]
    · rw [hlisted, Reply.listed]
    · obtain ⟨hreply, -⟩ := Dialogue.handle_calculate halike.session.atRest' hline
      have hcolours : (d false).colours = colours := Dialogue.colours_after before _
      rw [hlistings, hcolours, listingOf_false, String.empty_append] at hreply
      exact congrArg Reply.output hreply
  · intro line e hline hparse
    obtain ⟨p, hp, hsome⟩ := exists_programOf?_of_parse hline hparse
    refine ⟨p, hp, ?_⟩
    rw [listingOf, if_pos rfl, hsome]
    rfl
  · intro i vars strategy listings colours s
    refine ⟨CommandLine.begin_line i vars strategy listings, fun path => ?_⟩
    cases hread : i.folder.readText path with
    | ok content => exact CommandLine.begin_file i vars strategy listings hread
    | error fault =>
      dsimp only
      rw [CommandLine.begin_unreadable i vars strategy listings hread,
        CommandLine.begin_unreadable i vars strategy false hread]

/-- A program that is listed and then fails, after a definition. -/
theorem listings_add_nothing_else_fault :
    let d (listings : Bool) : Dialogue :=
      (Dialogue.mk (.new .stackMachine ⟨1, 0⟩ .standard) [] listings false).after ["x = 0"]
    ((d true).handle "1 / x").1.output =
        ⟨"0000 NUM   1            depth 1\n0001 VAR   x            depth 2\n" ++
          "0002 DIV                depth 1\n", "error: Runtime error: Division by zero\n"⟩ ∧
      ((d false).handle "1 / x").1.output = ⟨"", "error: Runtime error: Division by zero\n"⟩ := by
  intro d
  obtain ⟨hdialogue, -⟩ := listings_add_nothing_else
  obtain ⟨-, -, -, herr, hout, -⟩ :=
    hdialogue .stackMachine ⟨1, 0⟩ .standard [] false ["x = 0"] "1 / x"
  have hbare : ((d false).handle "1 / x").1.output =
      ⟨"", "error: Runtime error: Division by zero\n"⟩ := by
    subst d
    decide +kernel
  have houtBare : ((d false).handle "1 / x").1.output.out = "" := by rw [hbare]
  have herrBare : ((d false).handle "1 / x").1.output.err =
      "error: Runtime error: Division by zero\n" := by rw [hbare]
  refine ⟨Output.ext (hout.trans ((congrArg _ houtBare).trans ?_)) (herr.trans herrBare), hbare⟩
  decide +kernel

end Abacus
