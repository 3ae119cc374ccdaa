import Abacus.CommandLine
import Abacus.Proofs.Dialogue.Replies
import Abacus.Proofs.Text.Lines

/-!
# The history from one dialogue to the next

A dialogue ends by leaving its history to be kept, and the next one starts with what it finds.  In
between the entries are a text, one a line, so each of them has to be one line of that text again:
it must not be blank, hold a line feed or end in a carriage return.  What is left of a line when
its outer blanks are cut off is such an entry, whatever stands in the middle of it.

Starts of the program follow one another, each with the file that the one before it has left.  A
start that begins no dialogue leaves the file as it was.

## Main definitions

* `History.IsEntry`: a text that is the same after the file;
* `Dialogue.handled`: the entries that a conversation adds to the history;
* `Sitting`: a start of the program with what it is fed;
* `Sitting.keep`: the file that is there afterwards.

## Main results

* `History.ofFile_toText`: entries are what the file for them holds;
* `History.isEntry_trim`: lines without their outer blanks are entries;
* `Dialogue.history_converse`: what a conversation leaves to be kept;
* `Sitting.ofFile_keep`: one sitting;
* `Sitting.history_after`: the history with which a dialogue begins, after any number of sittings.
-/

namespace Abacus

namespace History

/-! ### Entries in the file -/

/-- **A text that is the same after the file**: one line of it, which is not blank. -/
structure IsEntry (s : String) : Prop where
  noLineFeed : '\n' ∉ s.toList
  endsVisibly : ∃ c, s.toList.getLast? = some c ∧ Text.isBlank c = false

namespace IsEntry

variable {s : String}

theorem ne_empty (h : IsEntry s) : s ≠ "" := by
  rintro rfl
  obtain ⟨c, hc, -⟩ := h.endsVisibly
  simp at hc

theorem getLast?_ne_return (h : IsEntry s) : s.toList.getLast? ≠ some '\r' := by
  obtain ⟨c, hc, hvisible⟩ := h.endsVisibly
  rw [hc]
  rintro ⟨⟩
  exact absurd hvisible (by decide)

theorem isAllBlank (h : IsEntry s) : Text.isAllBlank s = false := by
  obtain ⟨c, hc, hvisible⟩ := h.endsVisibly
  exact List.all_eq_false.mpr ⟨c, List.mem_of_getLast? hc, by simp [hvisible]⟩

end IsEntry

variable {entries : List String}

theorem ofText_toText (h : ∀ entry ∈ entries, IsEntry entry) :
    ofText (toText entries) = entries := by
  have hlines : Text.lines (toText entries) = entries :=
    Text.lines_intercalate fun entry hentry =>
      ⟨(h entry hentry).ne_empty, (h entry hentry).noLineFeed, (h entry hentry).getLast?_ne_return⟩
  rw [ofText, hlines, List.filter_eq_self]
  intro entry hentry
  rw [(h entry hentry).isAllBlank, Bool.not_false]

/-- **Entries are what the file for them holds.** -/
theorem ofFile_toText (h : ∀ entry ∈ entries, IsEntry entry) :
    ofFile (some (toText entries).toUTF8) = entries := by
  simp only [ofFile, Option.bind_some, Text.fromUTF8?_toUTF8]
  exact ofText_toText h

/-! ### Lines as they are typed -/

/-- A text with no line feed before its end. -/
def IsLine (s : String) : Prop := '\n' ∉ s.toList.dropLast

/-- **A line without its outer blanks** is an entry, unless nothing is left of it. -/
theorem isEntry_trim {line : String} (hline : IsLine line) (hne : Text.trim line ≠ "") :
    IsEntry (Text.trim line) := by
  have htrim : (Text.trim line).toList = Text.strip Text.isBlank line.toList := String.toList_ofList
  have hchars : (Text.trim line).toList ≠ [] := mt String.toList_eq_nil_iff.mp hne
  obtain ⟨inner, last, hinner⟩ := (List.eq_nil_or_concat' _).resolve_left hchars
  have hgetLast : (Text.trim line).toList.getLast? = some last := by
    rw [hinner, List.getLast?_concat]
  have hlast : Text.isBlank last = false := Text.not_of_mem_getLast?_strip (htrim ▸ hgetLast)
  refine ⟨fun hmem => ?_, last, hgetLast, hlast⟩
  -- a line feed is blank, so it is not the last character that is left, and the line goes on
  rw [hinner, List.mem_append, List.mem_singleton] at hmem
  rcases hmem with hmem | rfl
  · obtain ⟨before, after, hinfix⟩ : Text.strip Text.isBlank line.toList <:+: line.toList :=
      Text.strip_infix
    rw [← htrim, hinner] at hinfix
    apply hline
    rw [← hinfix, List.append_assoc, List.append_assoc, List.dropLast_append_of_ne_nil (by simp),
      List.dropLast_append_of_ne_nil (by simp)]
    exact List.mem_append_right _ (List.mem_append_left _ hmem)
  · exact absurd hlast (by decide)

end History

/-! ### Lines of an input -/

theorem lineFeed_not_mem_dropLast {bytes : List UInt8} :
    ∀ piece ∈ breakInput bytes, (10 : UInt8) ∉ piece.dropLast := by
  induction bytes with
  | nil => simp [breakInput]
  | cons b bytes ih =>
    intro piece hpiece
    rw [breakInput] at hpiece
    split at hpiece
    · rcases List.mem_cons.mp hpiece with rfl | hpiece
      · simp
      · exact ih piece hpiece
    · next hb =>
      split at hpiece
      · obtain rfl := List.mem_singleton.mp hpiece
        simp
      · next line rest hbreak =>
        rcases List.mem_cons.mp hpiece with rfl | hpiece
        · cases line with
          | nil => simp
          | cons c line =>
            have hfirst := ih (c :: line) (hbreak ▸ List.mem_cons_self)
            rw [List.dropLast_cons_cons]
            simpa [Ne.symm hb] using hfirst
        · exact ih piece (hbreak ▸ List.mem_cons_of_mem _ hpiece)

theorem lineFeed_mem_utf8Encode {cs : List Char} (h : '\n' ∈ cs) :
    (10 : UInt8) ∈ cs.utf8Encode.data.toList := by
  induction cs with
  | nil => exact absurd h List.not_mem_nil
  | cons c cs ih =>
    rw [List.utf8Encode_cons, ByteArray.data_append, Array.toList_append, List.mem_append]
    rcases List.mem_cons.mp h with rfl | h
    · exact .inl (by simp [List.utf8Encode_singleton, String.utf8EncodeChar])
    · exact .inr (ih h)

/-- What is read from a line of bytes is a line. -/
theorem isLine_of_fromUTF8? {piece : List UInt8} {line : String}
    (hpiece : (10 : UInt8) ∉ piece.dropLast)
    (hread : String.fromUTF8? ⟨piece.toArray⟩ = some line) : History.IsLine line := by
  intro hmem
  have hbytes : line.toByteArray = ⟨piece.toArray⟩ := by
    simp only [String.fromUTF8?, Option.dite_none_right_eq_some, Option.some.injEq] at hread
    obtain ⟨_, rfl⟩ := hread
    rfl
  obtain ⟨front, last, hchars⟩ :=
    (List.eq_nil_or_concat' line.toList).resolve_left fun hnil => by simp [hnil] at hmem
  rw [hchars, List.dropLast_concat] at hmem
  -- what the last character is written with holds the last byte
  have hlast : [last].utf8Encode.data.toList ≠ [] := by simp [List.utf8Encode_singleton]
  have hsplit : piece = front.utf8Encode.data.toList ++ [last].utf8Encode.data.toList := by
    have hpieceEq : piece = line.toByteArray.data.toList := by rw [hbytes]
    rw [hpieceEq, ← String.utf8Encode_toList, hchars, List.utf8Encode_append,
      ByteArray.data_append, Array.toList_append]
  rw [hsplit, List.dropLast_append_of_ne_nil hlast] at hpiece
  exact hpiece (List.mem_append_left _ (lineFeed_mem_utf8Encode hmem))

theorem isLine_of_mem_inputLines {input : ByteArray} {line : String}
    (h : some line ∈ inputLines input) : History.IsLine line := by
  obtain ⟨piece, hpiece, hread⟩ := List.mem_map.mp h
  exact isLine_of_fromUTF8? (lineFeed_not_mem_dropLast piece hpiece) hread

/-! ### What a conversation adds -/

namespace Dialogue

/-- **The entries that a conversation adds**: what is left of the lines when their outer blanks are
cut off and those that were all blank are left out, up to the first that ends the dialogue, or to
the first that is no text. -/
def handled : List (Option String) → List String
  | some line :: rest =>
    let line := Text.trim line
    if line = "" then handled rest
    else if Command.ofLine line = .quit then [line] else line :: handled rest
  | _ => []

theorem isEntry_of_mem_handled {reads : List (Option String)}
    (hreads : ∀ line, some line ∈ reads → History.IsLine line) :
    ∀ entry ∈ handled reads, History.IsEntry entry := by
  induction reads with
  | nil => simp [handled]
  | cons read reads ih =>
    have ih := ih fun line hline => hreads line (List.mem_cons_of_mem _ hline)
    cases read with
    | none => simp [handled]
    | some line =>
      intro entry hentry
      rw [handled] at hentry
      split at hentry
      · exact ih entry hentry
      · next hne =>
        have hfirst := History.isEntry_trim (hreads line List.mem_cons_self) hne
        split at hentry
        · exact List.mem_singleton.mp hentry ▸ hfirst
        · rcases List.mem_cons.mp hentry with rfl | hentry
          · exact hfirst
          · exact ih entry hentry

theorem history_exchange (line : String) (d : Dialogue) :
    (d.exchange line).2.history = (d.handle (Text.trim line)).2.history := by
  rw [exchange]

theorem quits_exchange (line : String) (d : Dialogue) :
    (d.exchange line).1.quits = (d.handle (Text.trim line)).1.quits := by
  rw [exchange]

theorem history_converse_cons (line : String) (rest : List (Option String)) (d : Dialogue) :
    (d.converse (some line :: rest)).history =
      if (d.exchange line).1.quits then some (History.toText (d.exchange line).2.history)
      else ((d.exchange line).2.converse rest).history := by
  rw [converse, turn]
  cases hquits : (d.exchange line).1.quits with
  | true => simp [hquits, report]
  | false => simp [hquits]

/-- **What a conversation leaves to be kept**: the history it began with and the lines it has
handled. -/
theorem history_converse (reads : List (Option String)) (d : Dialogue) :
    (d.converse reads).history = some (History.toText (d.history ++ handled reads)) := by
  induction reads generalizing d with
  | nil => simp [converse, closed, report, handled]
  | cons read reads ih =>
    cases read with
    | none => simp [converse, turn, report, handled]
    | some line =>
      rw [history_converse_cons, handled]
      by_cases hblank : Text.trim line = ""
      · -- nothing is left of the line, which leaves no trace
        have hexchange : (d.exchange line).1.quits = false ∧
            (d.exchange line).2.history = d.history := by
          simp [exchange, handle, hblank]
        rw [if_pos hblank, hexchange.1, if_neg Bool.false_ne_true, ih, hexchange.2]
      · have hhistory : (d.exchange line).2.history = d.history ++ [Text.trim line] :=
          (history_exchange line d).trans (history_handle hblank d)
        rw [if_neg hblank, quits_exchange, quits_handle hblank, hhistory]
        by_cases hquit : Command.ofLine (Text.trim line) = .quit
        · simp [hquit]
        · simp [hquit, ih, hhistory, List.append_assoc]

end Dialogue

/-! ### One start of the program after another -/

theorem CommandLine.start_with_history (i : Invocation) (file : Option ByteArray) :
    start { i with history := file } =
      match start i with
      | .done report => .done report
      | .dialogue output d => .dialogue output { d with history := History.ofFile file } := by
  unfold start
  dsimp only
  split
  · rfl
  · split
    · rfl
    · rfl
    · rfl
    · next options hrequest =>
      obtain ⟨task, strategy, listings⟩ := options
      cases task <;> rfl

theorem CommandLine.history_of_start_done {i : Invocation} {report : Report}
    (h : start i = .done report) : report.history = none := by
  unfold start at h
  dsimp only at h
  split at h
  · exact Start.done.inj h ▸ rfl
  · split at h
    · exact Start.done.inj h ▸ rfl
    · exact Start.done.inj h ▸ rfl
    · exact Start.done.inj h ▸ rfl
    · next options hrequest =>
      obtain ⟨task, strategy, listings⟩ := options
      cases task with
      | dialogue => exact nomatch h
      | file path => exact Start.done.inj h ▸ rfl
      | line text => exact Start.done.inj h ▸ rfl

/-- **A start of the program**, with what it is fed if it begins a dialogue.  The history that it
finds is the one that earlier starts have left. -/
structure Sitting where
  invocation : Invocation
  input : ByteArray
  /-- Reading fails behind the input; a line that has no end yet is lost with it. -/
  breaksOff : Bool

namespace Sitting

/-- What is read, line by line. -/
def reads (s : Sitting) : List (Option String) :=
  if s.breaksOff then
    ((breakInput s.input.toList).filter (·.contains 10)).map
      (fun line => String.fromUTF8? ⟨line.toArray⟩) ++ [none]
  else inputLines s.input

/-- How the program starts when it finds the file. -/
def start (file : Option ByteArray) (s : Sitting) : Start :=
  CommandLine.start { s.invocation with history := file }

/-- What the program leaves when it has found the file. -/
def report (file : Option ByteArray) (s : Sitting) : Report :=
  match s.start file with
  | .done report => report
  | .dialogue output d =>
    let report := d.converse s.reads
    { report with output := output ++ report.output }

/-- The file that is there afterwards. -/
def keep (file : Option ByteArray) (s : Sitting) : Option ByteArray :=
  match (s.report file).history with
  | some text => some text.toUTF8
  | none => file

/-- The entries that a sitting adds to the history. -/
def entries (s : Sitting) : List String :=
  match CommandLine.start s.invocation with
  | .done _ => []
  | .dialogue _ _ => Dialogue.handled s.reads

theorem report_eq_run (file : Option ByteArray) {s : Sitting} (h : s.breaksOff = false) :
    s.report file = CommandLine.run { s.invocation with history := file } s.input := by
  unfold report reads CommandLine.run start
  rw [h]
  rfl

theorem isLine_of_mem_reads {s : Sitting} {line : String} (h : some line ∈ s.reads) :
    History.IsLine line := by
  have hinput : some line ∈ inputLines s.input := by
    unfold reads at h
    split at h
    · rw [List.mem_append, List.mem_singleton] at h
      obtain ⟨piece, hpiece, hread⟩ := List.mem_map.mp (h.resolve_right (by simp))
      exact List.mem_map.mpr ⟨piece, List.mem_of_mem_filter hpiece, hread⟩
    · exact h
  exact isLine_of_mem_inputLines hinput

theorem isEntry_of_mem_entries {s : Sitting} : ∀ entry ∈ s.entries, History.IsEntry entry := by
  unfold entries
  split
  · simp
  · exact Dialogue.isEntry_of_mem_handled fun line hline => isLine_of_mem_reads hline

/-- **One sitting**: what the file holds afterwards is what it held and what was entered. -/
theorem ofFile_keep {file : Option ByteArray}
    (hfile : ∀ entry ∈ History.ofFile file, History.IsEntry entry) (s : Sitting) :
    History.ofFile (s.keep file) = History.ofFile file ++ s.entries := by
  cases hstart : CommandLine.start s.invocation with
  | done report =>
    have hnone := CommandLine.history_of_start_done hstart
    simp [keep, Sitting.report, start, entries, CommandLine.start_with_history, hstart, hnone]
  | dialogue output d =>
    have hkeep : s.keep file =
        some (History.toText (History.ofFile file ++ Dialogue.handled s.reads)).toUTF8 := by
      simp [keep, Sitting.report, start, CommandLine.start_with_history, hstart,
        Dialogue.history_converse]
    have hentries : s.entries = Dialogue.handled s.reads := by simp [entries, hstart]
    rw [hkeep, ← hentries, History.ofFile_toText]
    intro entry hentry
    rcases List.mem_append.mp hentry with hentry | hentry
    · exact hfile entry hentry
    · exact isEntry_of_mem_entries entry hentry

/-- Sittings one after another, the first without a file. -/
theorem ofFile_foldl_keep (sittings : List Sitting) :
    History.ofFile (sittings.foldl keep none) = sittings.flatMap entries := by
  induction sittings using List.reverseRecOn with
  | nil => rfl
  | append_singleton sittings s ih =>
    have hfile : ∀ entry ∈ History.ofFile (sittings.foldl keep none), History.IsEntry entry := by
      intro entry hentry
      rw [ih] at hentry
      obtain ⟨t, _, hentry⟩ := List.mem_flatMap.mp hentry
      exact isEntry_of_mem_entries entry hentry
    rw [List.foldl_append, List.foldl_cons, List.foldl_nil, ofFile_keep hfile, ih,
      List.flatMap_append, List.flatMap_singleton]

/-- **The history with which a dialogue begins** is what has been entered in all sittings before
it, in that order. -/
theorem history_after (earlier : List Sitting) (s : Sitting) {output : Output} {d : Dialogue}
    (h : s.start (earlier.foldl keep none) = .dialogue output d) :
    d.history = earlier.flatMap entries := by
  rw [start, CommandLine.start_with_history] at h
  split at h
  · exact nomatch h
  · injection h with _ hd
    rw [← hd, ← ofFile_foldl_keep]

/-- A sitting without arguments where there are no files. -/
def plain (input : String) (breaksOff : Bool) : Sitting :=
  ⟨⟨[], .empty, fun _ => .error .missing, none, false⟩, input.toUTF8, breaksOff⟩

theorem history_after_two_sittings : ∃ output d,
    (plain "" false).start
        ([plain "1/0\n \n x = 2 \r\n:q\nx\n" false, plain "a\rb\n:bogus\nx" true].foldl keep none) =
      .dialogue output d ∧
    d.history = ["1/0", "x = 2", ":q", "a\rb", ":bogus"] := by
  obtain ⟨output, d, hstart⟩ : ∃ output d,
      CommandLine.start (plain "" false).invocation = .dialogue output d := ⟨_, _, rfl⟩
  have hbegins (file : Option ByteArray) : (plain "" false).start file =
      .dialogue output { d with history := History.ofFile file } := by
    rw [start, CommandLine.start_with_history, hstart]
  refine ⟨_, _, hbegins _, (history_after _ _ (hbegins _)).trans ?_⟩
  decide +kernel

end Sitting

end Abacus
