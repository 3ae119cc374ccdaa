import Abacus.Dialogue
import Abacus.Proofs.Session.Listings

/-!
# Replies of a dialogue

Lines are handled one after another, and each has its reply.  Two dialogues whose sessions can not
be told apart reply alike and remain so, whether they write listings or not; a listing comes before
everything else that a line makes the dialogue write.  If all lines are for the session, then
nothing is written on the error output before the first that fails.

## Main definitions

* `Dialogue.after`, `Dialogue.replies`: a dialogue that handles lines one after another
* `Dialogue.IsForSession`: a line that is no command
* `Dialogue.Alike`: the same history and colours, and sessions that can not be told apart
* `Reply.listed`: a reply with the listing of its line
* `Dialogue.Accepts`, `Dialogue.StopsAt`: no line fails, or there is a first one that does

## Main results

* `Dialogue.handle_calculate`: a line for the session
* `Dialogue.Alike.handle`: one line, with its listing and without
* `Dialogue.Alike.after`: any lines
* `Dialogue.accepts_or_stopsAt`: any lines for the session
-/

namespace Abacus

/-- What is written before everything else if listings are wanted: only a line for the session has
a listing. -/
def announced (listings : Bool) (line : String) : String :=
  if Command.ofLine line = .calculate then listingOf listings line else ""

@[simp] theorem announced_false (line : String) : announced false line = "" := by
  rw [announced, listingOf_false, ite_self]

/-- **A reply with the listing of its line** in front of it, if listings are wanted. -/
def Reply.listed (listings : Bool) (line : String) (r : Reply) : Reply :=
  ⟨⟨announced listings line ++ r.output.out, r.output.err⟩, r.quits⟩

@[simp] theorem Reply.listed_false (line : String) (r : Reply) : r.listed false line = r := by
  rw [listed, announced_false, String.empty_append]

theorem Reply.listed_empty (listings : Bool) (r : Reply) : r.listed listings "" = r := by
  have hnone : announced listings "" = "" := by
    cases listings <;> decide +kernel
  rw [listed, hnone, String.empty_append]

theorem Reply.listed_of_ne {line : String} (h : Command.ofLine line ≠ .calculate)
    (listings : Bool) (r : Reply) : r.listed listings line = r := by
  rw [listed, announced, if_neg h, String.empty_append]

namespace Dialogue

/-- The dialogue after lines, one after another. -/
def after (d : Dialogue) (lines : List String) : Dialogue :=
  lines.foldl (fun d line => (d.handle line).2) d

/-- The replies to lines, one after another. -/
def replies (d : Dialogue) : List String → List Reply
  | [] => []
  | line :: later => (d.handle line).1 :: (d.handle line).2.replies later

/-- The line is for the session. -/
def IsForSession (line : String) : Prop := line ≠ "" ∧ Command.ofLine line = .calculate

theorem isForSession_of_ne {line : String} (hne : line ≠ "")
    (hcolon : line.toList.head? ≠ some ':') (hexit : line ≠ "exit") : IsForSession line := by
  have hcommand (command : String) (h : command.toList.head? = some ':') : line ≠ command := by
    rintro rfl
    exact hcolon h
  have hquit : ¬(line = ":q" ∨ line = ":quit" ∨ line = "exit") :=
    not_or.mpr ⟨hcommand ":q" rfl, not_or.mpr ⟨hcommand ":quit" rfl, hexit⟩⟩
  refine ⟨hne, ?_⟩
  rw [Command.ofLine, if_neg hquit, if_neg (hcommand ":clear" rfl), if_neg (hcommand ":help" rfl),
    if_neg (hcommand ":vars" rfl), if_neg (hcommand ":history" rfl), if_neg hcolon]

/-- **The same history and colours**, and sessions that can not be told apart. -/
structure Alike (d d' : Dialogue) : Prop where
  session : d.session.Alike d'.session
  history : d.history = d'.history
  colours : d.colours = d'.colours

variable {d d' : Dialogue}

/-! ### One line -/

theorem handle_empty (d : Dialogue) : d.handle "" = (⟨.nothing, false⟩, d) := rfl

/-- Every line that is not empty enters the history, whatever becomes of it. -/
theorem history_handle {line : String} (hne : line ≠ "") (d : Dialogue) :
    (d.handle line).2.history = d.history ++ [line] := by
  rw [handle, if_neg hne]
  dsimp only
  split <;> rfl

theorem quits_handle {line : String} (hne : line ≠ "") (d : Dialogue) :
    (d.handle line).1.quits = decide (Command.ofLine line = .quit) := by
  rw [handle, if_neg hne]
  dsimp only
  split <;> simp_all

@[simp] theorem listings_handle (line : String) (d : Dialogue) :
    (d.handle line).2.listings = d.listings := by
  unfold handle
  dsimp only
  split
  · rfl
  · split <;> rfl

@[simp] theorem colours_handle (line : String) (d : Dialogue) :
    (d.handle line).2.colours = d.colours := by
  unfold handle
  dsimp only
  split
  · rfl
  · split <;> rfl

/-- **A line for the session** is replied with what comes of it. -/
theorem handle_calculate (h : d.session.AtRest) {line : String} (hline : IsForSession line) :
    (d.handle line).1 =
        ⟨⟨listingOf d.listings line ++ resultText (d.session.execute line).1,
          faultText d.colours failureTag (d.session.execute line).1⟩, false⟩ ∧
      (d.handle line).2.session.Alike (d.session.execute line).2 := by
  obtain ⟨hanswer, hleft⟩ := h.executeListed d.listings line
  rw [handle, if_neg hline.1]
  simp only [hline.2]
  rw [hanswer, Answer.output_eq]
  exact ⟨rfl, hleft⟩

/-! ### Dialogues that can not be told apart -/

namespace Alike

/-- A line that is not for the session leaves it alone, and listings play no part in the reply. -/
theorem handle_command (h : d.Alike d') {line : String}
    (hline : Command.ofLine line ≠ .calculate) :
    (d.handle line).1 = (d'.handle line).1 ∧
      (d.handle line).2.session.Alike (d'.handle line).2.session := by
  have hne : line ≠ "" := by
    rintro rfl
    exact hline rfl
  rw [handle, handle, if_neg hne, if_neg hne, h.history]
  dsimp only
  rw [h.session.globals]
  cases hcommand : Command.ofLine line with
  | calculate => exact absurd hcommand hline
  | quit | clearScreen | help | definitions | history | unknown => exact ⟨rfl, h.session⟩

theorem ofHandle (h : d.Alike d') {line : String}
    (hsession : (d.handle line).2.session.Alike (d'.handle line).2.session) :
    (d.handle line).2.Alike (d'.handle line).2 := by
  refine ⟨hsession, ?_, ?_⟩
  · by_cases hne : line = ""
    · rw [hne, handle_empty, handle_empty, h.history]
    · rw [history_handle hne, history_handle hne, h.history]
  · rw [colours_handle, colours_handle, h.colours]

/-- **One line**: but for the listing the replies are the same. -/
theorem handle (h : d.Alike d') (line : String) :
    ∃ r : Reply, (d.handle line).1 = r.listed d.listings line ∧
      (d'.handle line).1 = r.listed d'.listings line ∧
      (d.handle line).2.Alike (d'.handle line).2 := by
  by_cases hline : Command.ofLine line = .calculate
  · by_cases hne : line = ""
    · subst hne
      refine ⟨⟨.nothing, false⟩, ?_, ?_, h⟩
      · rw [handle_empty, Reply.listed_empty]
      · rw [handle_empty, Reply.listed_empty]
    · obtain ⟨hreply, hleft⟩ := handle_calculate h.session.atRest ⟨hne, hline⟩
      obtain ⟨hreply', hleft'⟩ := handle_calculate h.session.atRest' ⟨hne, hline⟩
      obtain ⟨hresult, hafter⟩ := h.session.execute line
      refine ⟨⟨⟨resultText (d'.session.execute line).1,
        faultText d'.colours failureTag (d'.session.execute line).1⟩, false⟩, ?_, ?_, ?_⟩
      · rw [hreply, Reply.listed, announced, if_pos hline, hresult, h.colours]
      · rw [hreply', Reply.listed, announced, if_pos hline]
      · exact h.ofHandle ((hleft.trans hafter).trans hleft'.symm)
  · obtain ⟨hreply, hsession⟩ := h.handle_command hline
    refine ⟨(d'.handle line).1, ?_, ?_, h.ofHandle hsession⟩
    · rw [hreply, Reply.listed_of_ne hline]
    · rw [Reply.listed_of_ne hline]

/-- One dialogue writes listings, and the other one does not. -/
theorem handle_listed (h : d.Alike d') (hon : d.listings = true) (hoff : d'.listings = false)
    (line : String) : (d.handle line).1 = (d'.handle line).1.listed true line := by
  obtain ⟨r, hr, hr', -⟩ := h.handle line
  rw [hr, hr', hon, hoff, Reply.listed_false]

/-- Any lines. -/
theorem after (h : d.Alike d') (lines : List String) : (d.after lines).Alike (d'.after lines) := by
  induction lines generalizing d d' with
  | nil => exact h
  | cons line lines ih =>
    obtain ⟨-, -, -, hleft⟩ := h.handle line
    exact ih hleft

end Alike

theorem listings_after (lines : List String) (d : Dialogue) :
    (d.after lines).listings = d.listings := by
  induction lines generalizing d with
  | nil => rfl
  | cons line lines ih => exact (ih _).trans (listings_handle line d)

theorem colours_after (lines : List String) (d : Dialogue) :
    (d.after lines).colours = d.colours := by
  induction lines generalizing d with
  | nil => rfl
  | cons line lines ih => exact (ih _).trans (colours_handle line d)

/-! ### The first line that fails -/

/-- What lines make the dialogue write on the standard output. -/
def written (d : Dialogue) (lines : List String) : String :=
  String.join ((d.replies lines).map (·.output.out))

/-- **No line makes the dialogue write on the error output.** -/
def Accepts (d : Dialogue) (lines : List String) : Prop := ∀ r ∈ d.replies lines, r.output.err = ""

/-- **The first line that fails**, behind others that the dialogue accepts, and why it does. -/
structure StopsAt (d : Dialogue) (before : List String) (line : String) (e : Failure) : Prop where
  accepts : d.Accepts before
  fails : ((d.after before).session.execute line).1 = .error e

variable {line : String} {lines : List String}

theorem written_cons (d : Dialogue) (line : String) (lines : List String) :
    d.written (line :: lines) =
      (d.handle line).1.output.out ++ (d.handle line).2.written lines := by
  rw [written, replies, List.map_cons, String.join_cons, written]

theorem written_snoc (d : Dialogue) (lines : List String) (line : String) :
    d.written (lines ++ [line]) =
      d.written lines ++ ((d.after lines).handle line).1.output.out := by
  induction lines generalizing d with
  | nil => simp [written, replies, after]
  | cons next lines ih =>
    rw [List.cons_append, written_cons, written_cons, ih, String.append_assoc]
    rfl

theorem accepts_nil (d : Dialogue) : d.Accepts [] := List.forall_mem_nil _

theorem accepts_cons :
    d.Accepts (line :: lines) ↔
      (d.handle line).1.output.err = "" ∧ (d.handle line).2.Accepts lines :=
  List.forall_mem_cons

theorem exists_outcome_of_accepted (h : d.session.AtRest) (hline : IsForSession line)
    (haccepted : (d.handle line).1.output.err = "") :
    ∃ outcome, (d.session.execute line).1 = .ok outcome := by
  obtain ⟨hreply, -⟩ := handle_calculate h hline
  rw [hreply] at haccepted
  cases hresult : (d.session.execute line).1 with
  | ok outcome => exact ⟨outcome, rfl⟩
  | error e =>
    rw [hresult] at haccepted
    exact absurd haccepted (failureText_ne_empty _ _ e)

/-- **Lines for the session** are accepted, or there is a first one that fails. -/
theorem accepts_or_stopsAt (h : d.session.AtRest) (hlines : ∀ line ∈ lines, IsForSession line) :
    d.Accepts lines ∨
      ∃ before line after e, lines = before ++ line :: after ∧ d.StopsAt before line e := by
  induction lines generalizing d with
  | nil => exact .inl d.accepts_nil
  | cons line rest ih =>
    obtain ⟨hline, hrest⟩ := List.forall_mem_cons.mp hlines
    obtain ⟨hreply, hleft⟩ := handle_calculate h hline
    cases hresult : (d.session.execute line).1 with
    | error e => exact .inr ⟨[], line, rest, e, rfl, d.accepts_nil, hresult⟩
    | ok outcome =>
      have haccepted : (d.handle line).1.output.err = "" := by
        rw [hreply, hresult]
        rfl
      rcases ih hleft.atRest hrest with haccepts | ⟨before, line', after, e, rfl, hstops⟩
      · exact .inl (accepts_cons.mpr ⟨haccepted, haccepts⟩)
      · exact .inr ⟨line :: before, line', after, e, rfl,
          accepts_cons.mpr ⟨haccepted, hstops.accepts⟩, hstops.fails⟩

end Dialogue

end Abacus
