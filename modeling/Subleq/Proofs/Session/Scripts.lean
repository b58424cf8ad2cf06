import Subleq.Proofs.Limits
import Subleq.Proofs.Session.Screen
import Subleq.Proofs.Text.Blank
import Subleq.Proofs.Text.Utf8

/-!
# Scripts do what typing does

Lines can be typed one after the other, run as a script, or be read from a file. The loop at the
prompt and the scripts skip lines and end each in its own way, and what is typed is nested one less
deep than the same script. On lines that each way reads as they stand (`IsPlain`) the three agree:
in all that the session holds, in what is shown, and in the line at which they stop.
-/

namespace Subleq.Session

/-- A line without a line end in it that is not a comment of a script. -/
def IsPlain (line : String) : Prop :=
  '\n' ∉ line.toList ∧ '\r' ∉ line.toList ∧ (Text.trimLeft line.toList).head? ≠ some '#'

instance (line : String) : Decidable (IsPlain line) := inferInstanceAs (Decidable (_ ∧ _ ∧ _))

/-! ## Plain lines -/

theorem dropWhile_lineFeed {text : List Char} (whole : '\n' ∉ text) :
    text.dropWhile (· == '\n') = text := by
  cases text with
  | nil => rfl
  | cons c rest =>
      have other : (c == '\n') = false :=
        beq_eq_false_iff_ne.mpr fun same => whole (same ▸ List.mem_cons_self)
      rw [List.dropWhile_cons, other]
      rfl

theorem scriptLine_of_whole {line : String} (whole : '\n' ∉ line.toList) :
    scriptLine line = line := by
  rw [scriptLine, dropWhile_lineFeed (mt List.mem_reverse.mp whole), List.reverse_reverse,
    String.ofList_toList]

theorem scriptLine_append_lineFeed {line : String} (whole : '\n' ∉ line.toList) :
    scriptLine (String.ofList (line.toList ++ ['\n'])) = line := by
  rw [scriptLine, String.toList_ofList, List.reverse_append, List.reverse_singleton,
    List.singleton_append, List.dropWhile_cons_of_pos (by rfl),
    dropWhile_lineFeed (mt List.mem_reverse.mp whole), List.reverse_reverse, String.ofList_toList]

/-- A script skips the plain lines that the loop at the prompt skips: those that are blank. -/
theorem isSkipped_of_plain {line : String} (plain : IsPlain line) :
    isSkipped line = (Text.trim line.toList).isEmpty := by
  have first := plain.2.2
  rw [Text.isEmpty_trim]
  unfold isSkipped
  cases rest : Text.trimLeft line.toList with
  | nil => rfl
  | cons c others =>
      rw [rest] at first
      exact beq_eq_false_iff_ne.mpr fun comment => first (congrArg some comment)

/-- A plain line that is typed is taken like a line of a script that is nested one less deep. -/
theorem enter_of_plain (limits : Limits) (disk : LiveDisk) {line : String} (plain : IsPlain line)
    (session : Session) :
    session.enter limits disk line =
      takeScriptLine limits disk (runScript limits disk limits.nesting) line session := by
  unfold enter takeScriptLine
  simp only [scriptLine_of_whole plain.1, isSkipped_of_plain plain]

theorem agrees_typed {limits : Limits} (disk : LiveDisk) {depth : Nat}
    (nested : limits.nesting = depth + 1) {line : String} (plain : IsPlain line) :
    Agrees (· = .nesting) (takeScriptLine limits disk (runScript limits disk depth) line)
      (fun session => session.enter limits disk line) := by
  have alike : WorksAlike (· = .nesting) limits limits := .refl limits
  intro session ends
  dsimp only
  rw [enter_of_plain limits disk plain, nested]
  exact agrees_takeScriptLine alike (agrees_runScript alike rfl depth.le_succ) line session ends

/-! ## Lines of a file -/

/-- The line ends of a file text. -/
def lineEnds : List (List Char) := [['\n'], ['\r', '\n'], ['\r']]

/-- A file text that holds lines, one per line. A line end may be missing after the last line, and
a carriage return alone ends a line only if no line feed follows. -/
inductive Holds : List Char → List String → Prop where
  | nothing : Holds [] []
  | last (line : String) : Holds line.toList [line]
  | line (line : String) {lineEnd rest : List Char} {lines : List String}
      (ends : lineEnd ∈ lineEnds) (alone : lineEnd = ['\r'] → rest.head? ≠ some '\n')
      (others : Holds rest lines) : Holds (line.toList ++ (lineEnd ++ rest)) (line :: lines)

/-- The text with a line feed after every line holds the lines. -/
theorem holds_lineFeeds (lines : List String) :
    Holds (lines.flatMap fun line => line.toList ++ ['\n']) lines := by
  induction lines with
  | nil => exact .nothing
  | cons line lines ih =>
      rw [List.flatMap_cons, List.append_assoc]
      exact .line line List.mem_cons_self (by rintro ⟨⟩) ih

theorem unifyLineEnds_append {text : List Char} (whole : '\r' ∉ text) (rest : List Char) :
    Text.Utf8.unifyLineEnds (text ++ rest) = text ++ Text.Utf8.unifyLineEnds rest := by
  induction text with
  | nil => rfl
  | cons c text ih =>
      have other : c ≠ '\r' := fun same => whole (same ▸ List.mem_cons_self)
      rw [List.cons_append, Text.Utf8.unifyLineEnds, ih (mt (List.mem_cons_of_mem c) whole),
        List.cons_append]
      · exact fun _ pair _ => other pair
      · exact other

theorem unifyLineEnds_lineEnd {lineEnd rest : List Char} (ends : lineEnd ∈ lineEnds)
    (alone : lineEnd = ['\r'] → rest.head? ≠ some '\n') :
    Text.Utf8.unifyLineEnds (lineEnd ++ rest) = '\n' :: Text.Utf8.unifyLineEnds rest := by
  simp only [lineEnds, List.mem_cons, List.not_mem_nil, or_false] at ends
  rcases ends with rfl | rfl | rfl
  · rfl
  · rfl
  · cases rest with
    | nil => rfl
    | cons c rest =>
        have other : c ≠ '\n' := fun same => alone rfl (congrArg some same)
        rw [List.singleton_append, Text.Utf8.unifyLineEnds]
        exact fun _ pair => other (List.cons.inj pair).1

theorem linesFrom_append {text : List Char} (whole : '\n' ∉ text) (carry rest : List Char) :
    Disk.linesFrom carry (text ++ rest) = Disk.linesFrom (text.reverse ++ carry) rest := by
  induction text generalizing carry with
  | nil => rfl
  | cons c text ih =>
      have other : c ≠ '\n' := fun same => whole (same ▸ List.mem_cons_self)
      rw [List.cons_append, Disk.linesFrom, ih (mt (List.mem_cons_of_mem c) whole),
        List.reverse_cons, List.append_assoc, List.singleton_append]
      exact other

section

variable {limits : Limits} {disk : LiveDisk} {runner : ScriptRunner}

theorem takeScriptLine_lineFeed {line : String} (whole : '\n' ∉ line.toList) :
    takeScriptLine limits disk runner (String.ofList (line.toList ++ ['\n'])) =
      takeScriptLine limits disk runner line := by
  unfold takeScriptLine
  rw [scriptLine_append_lineFeed whole, scriptLine_of_whole whole]

/-- A script of the lines of a file does what a script of the lines that the file holds does. -/
theorem takeLines_of_holds {text : List Char} {lines : List String} (holds : Holds text lines)
    (plain : ∀ line ∈ lines, IsPlain line) (session : Session) :
    takeLines (takeScriptLine limits disk runner)
        (Disk.linesFrom [] (Text.Utf8.unifyLineEnds text)) session =
      takeLines (takeScriptLine limits disk runner) lines session := by
  induction holds generalizing session with
  | nothing => rfl
  | last line =>
      obtain ⟨whole, single, -⟩ := plain line List.mem_cons_self
      have unified := unifyLineEnds_append single []
      have cut := linesFrom_append whole [] []
      simp only [List.append_nil, Text.Utf8.unifyLineEnds] at unified cut
      rw [unified, cut, Disk.linesFrom, List.reverse_reverse, String.ofList_toList]
      by_cases empty : line.toList.reverse.isEmpty = true
      · -- no line of the file stands for an empty last line, which a script skips
        rw [if_pos empty]
        rw [List.isEmpty_iff, List.reverse_eq_nil_iff, String.toList_eq_nil_iff] at empty
        rw [empty]
        rfl
      · rw [if_neg empty]
  | line line ends alone others ih =>
      obtain ⟨whole, single, -⟩ := plain line List.mem_cons_self
      have rest := fun member inside => plain member (List.mem_cons_of_mem line inside)
      rw [unifyLineEnds_append single, unifyLineEnds_lineEnd ends alone, linesFrom_append whole,
        Disk.linesFrom, List.reverse_cons, List.append_nil, List.reverse_reverse, takeLines,
        takeLines, takeScriptLine_lineFeed whole]
      rcases takeScriptLine limits disk runner line session with ⟨middle, outcome⟩
      cases outcome with
      | done => exact ih rest middle
      | quit => rfl
      | escaped fault => rfl

end

/-- A file that is read does what a script of its lines does. -/
theorem command_of_holds {limits : Limits} {disk : LiveDisk} {session : Session}
    {line path text : String} {lines : List String} (asks : Command.ofLine line = .script path)
    (found : (disk session.host.journal).bytes path = .ok (Text.Utf8.encode text))
    (holds : Holds text.toList lines) (plain : ∀ line ∈ lines, IsPlain line) :
    session.command limits disk line = runScript limits disk limits.nesting lines session := by
  have read : (disk session.host.journal).readLines path =
      .ok (Disk.linesFrom [] (Text.Utf8.unifyLineEnds text.toList)) := by
    rw [Disk.readLines, found]
    dsimp only
    rw [Text.Utf8.decodeBlocks_encode (by decide)]
  rw [command, asks, execute, script, read]
  cases limits.nesting with
  | zero => rfl
  | succ depth => exact takeLines_of_holds holds plain session

/-! ## Where a script stops -/

/-- The lines that a script leaves when it is run: none when it ends normally, else those behind the
line that ended it. That line is the first that did not end normally. -/
def Leaves (runner : ScriptRunner) (session : Session) (lines left : List String) : Prop :=
  ((runner lines session).2 = .done ∧ left = []) ∨
    ((runner lines session).2 ≠ .done ∧ ∃ before line middle, lines = before ++ line :: left ∧
      runner before session = (middle, .done) ∧ runner [line] middle = runner lines session)

theorem Leaves.under {runner : ScriptRunner} (unseeing : ∀ lines, Unseeing (runner lines))
    {session : Session} {lines left : List String} (leaves : Leaves runner session lines left)
    (above : String) : Leaves runner (under above session) lines left := by
  unfold Leaves at leaves ⊢
  rw [unseeing lines above session]
  rcases leaves with none | ⟨stopped, before, line, middle, cut, run, same⟩
  · exact .inl none
  · refine .inr ⟨stopped, before, line, Session.under above middle, cut, ?_, ?_⟩
    · rw [unseeing before above session, run]
    · rw [unseeing [line] above middle, same]

section

variable {line : String → Session → Session × Outcome} {text : String} {session : Session}

theorem takeLines_of_done {middle : Session} (first : line text session = (middle, .done))
    (texts : List String) :
    takeLines line (text :: texts) session = takeLines line texts middle := by
  rw [takeLines, first]

theorem takeLines_of_stopped {ended : Session × Outcome} (first : line text session = ended)
    (stopped : ended.2 ≠ .done) (texts : List String) :
    takeLines line (text :: texts) session = ended := by
  rw [takeLines, first]
  rcases ended with ⟨next, outcome⟩
  cases outcome with
  | done => exact absurd rfl stopped
  | quit => rfl
  | escaped fault => rfl

theorem leaves_of_done {texts left : List String} {middle : Session}
    (first : line text session = (middle, .done))
    (leaves : Leaves (takeLines line) middle texts left) :
    Leaves (takeLines line) session (text :: texts) left := by
  unfold Leaves
  rw [takeLines_of_done first]
  rcases leaves with done | ⟨stopped, before, last, found, cut, run, same⟩
  · exact .inl done
  · refine .inr ⟨stopped, text :: before, last, found, ?_, ?_, same⟩
    · rw [cut, List.cons_append]
    · rw [takeLines_of_done first, run]

theorem leaves_of_stopped {texts : List String} {ended : Session × Outcome}
    (first : line text session = ended) (stopped : ended.2 ≠ .done) :
    Leaves (takeLines line) session (text :: texts) texts := by
  unfold Leaves
  rw [takeLines_of_stopped first stopped]
  exact .inr ⟨stopped, [], text, session, rfl, rfl, takeLines_of_stopped first stopped []⟩

end

/-! ## The loop at the prompt -/

def fault? : Outcome → Option Fault
  | .escaped fault => some fault
  | _ => none

/-- A session after its lines: where all of them ended normally, the input ends then. -/
def closed : Session × Outcome → Session
  | (session, .done) => session.print Shell.endMessage
  | (session, _) => session

/-- Typed lines do what a script does whose lines each do the same as when they are typed. What is
on the screen before stays above. -/
theorem converse_lines {limits : Limits} {disk : LiveDisk}
    {line : String → Session → Session × Outcome} {lines : List String}
    (each : ∀ text ∈ lines, Agrees (· = .nesting) (line text)
      fun session => session.enter limits disk text)
    (unseeing : ∀ text, Unseeing (line text)) (above : String) (session : Session)
    (prompts : List String) (ends : (takeLines line lines session).2 ≠ .escaped .nesting) :
    ∃ left shown, Leaves (takeLines line) session lines left ∧
      Shell.converse limits disk (under above session) prompts (lines.map .line) =
        (closed (under above (takeLines line lines session).1, (takeLines line lines session).2),
          shown, left.map .line, fault? (takeLines line lines session).2) := by
  induction lines generalizing session prompts with
  | nil => exact ⟨[], _, .inl ⟨rfl, rfl⟩, rfl⟩
  | cons text texts ih =>
      have typed := each text List.mem_cons_self (under above session)
      dsimp only at typed
      rw [unseeing text above session] at typed
      cases first : line text session with
      | mk middle outcome =>
          rw [first] at typed
          rw [takeLines, first] at ends ⊢
          rw [List.map_cons, Shell.converse]
          cases outcome with
          | done =>
              dsimp only at typed ⊢
              rw [typed (by rintro _ _ ⟨⟩)]
              obtain ⟨left, shown, leaves, same⟩ :=
                ih (fun other inside => each other (List.mem_cons_of_mem text inside)) middle
                  (Shell.prompt (under above session) :: prompts) ends
              exact ⟨left, shown, leaves_of_done first leaves, same⟩
          | quit =>
              dsimp only at typed ⊢
              rw [typed (by rintro _ _ ⟨⟩)]
              exact ⟨texts, _, leaves_of_stopped first (by rintro ⟨⟩), rfl⟩
          | escaped fault =>
              dsimp only at typed ⊢
              rw [typed (by rintro _ rfl; exact ends)]
              exact ⟨texts, _, leaves_of_stopped first (by rintro ⟨⟩), rfl⟩

theorem converse_script {limits : Limits} {disk : LiveDisk} {lines : List String}
    (plain : ∀ line ∈ lines, IsPlain line) (above : String) (session : Session)
    (prompts : List String)
    (ends : (runScript limits disk limits.nesting lines session).2 ≠ .escaped .nesting) :
    ∃ left shown, Leaves (runScript limits disk limits.nesting) session lines left ∧
      Shell.converse limits disk (under above session) prompts (lines.map .line) =
        (closed (under above (runScript limits disk limits.nesting lines session).1,
            (runScript limits disk limits.nesting lines session).2),
          shown, left.map .line,
          fault? (runScript limits disk limits.nesting lines session).2) := by
  cases nested : limits.nesting with
  | zero =>
      rw [nested] at ends
      exact absurd rfl ends
  | succ depth =>
      rw [nested] at ends
      exact converse_lines (fun line inside => agrees_typed disk nested (plain line inside))
        (unseeing_takeScriptLine (unseeing_runScript limits disk depth)) above session prompts ends

/-- A session that only shows more than another is under its screen. -/
theorem eq_under {session next : Session} (shown : next = { session with screen := next.screen }) :
    next = under next.screen { session with screen := "" } := by
  rw [under, String.append_empty]
  exact shown

/-- Lines that hold no line end and are no comments are run as a script without using up the
nesting of scripts. Then a file that holds them is read with the same result. When they are typed
one by one, the session is the same at the end but for its screen, which shows the same after what
it showed before and the banner, and before the message at the end of the input if the lines do not
end before it. The lines that are not taken are the same, and so is the fault that escapes, if
any. -/
theorem typed_lines_follow_script (limits : Limits) (disk : LiveDisk) (session : Session)
    {lines : List String} (plain : ∀ line ∈ lines, IsPlain line)
    (ends : (runScript limits disk limits.nesting lines session).2 ≠ .escaped .nesting) :
    let ended := runScript limits disk limits.nesting lines session
    (∀ line path text, Command.ofLine line = .script path → Holds text.toList lines →
      (disk session.host.journal).bytes path = .ok (Text.Utf8.encode text) →
      session.command limits disk line = ended) ∧
    ∃ shown left prompts, ended.1.screen = session.screen ++ shown ∧
      Leaves (runScript limits disk limits.nesting) session lines left ∧
      let greeted := session.printAll Shell.banner
      Shell.converse limits disk greeted [] (lines.map .line) =
        (closed ({ ended.1 with screen := greeted.screen ++ shown }, ended.2), prompts,
          left.map .line, fault? ended.2) := by
  intro ended
  refine ⟨fun line path text asks holds found => command_of_holds asks found holds plain, ?_⟩
  have unseeing := unseeing_runScript limits disk limits.nesting
  -- both ways are compared with the script on a session that shows nothing yet
  have original : session = under session.screen { session with screen := "" } := eq_under rfl
  have greeted : session.printAll Shell.banner =
      under (session.printAll Shell.banner).screen { session with screen := "" } := eq_under rfl
  generalize ({ session with screen := "" } : Session) = bare at original greeted
  have result : ended = (under session.screen (runScript limits disk limits.nesting lines bare).1,
      (runScript limits disk limits.nesting lines bare).2) := by
    rw [← unseeing lines session.screen bare, ← original]
  obtain ⟨left, prompts, leaves, typed⟩ :=
    converse_script plain (session.printAll Shell.banner).screen bare [] (by
      have stops : ended.2 ≠ .escaped .nesting := ends
      rwa [result] at stops)
  refine ⟨(runScript limits disk limits.nesting lines bare).1.screen, left, prompts, ?_, ?_, ?_⟩
  · rw [result]
    rfl
  · rw [original]
    exact leaves.under unseeing session.screen
  · dsimp only
    rw [result]
    conv_lhs => rw [greeted]
    exact typed

/-- A second machine is made, a comment and a line of another file lead back to the first, which
runs, and a line quits before the last. -/
theorem typed_lines_follow_script_quit :
    let file (text : String) := some (.ok (Text.Utf8.encode text))
    let lines :=
      [":host new", " ", ":host read-from inner", ":host run", ":host quit", ":host ps"]
    let text := String.ofList (lines.flatMap fun line => line.toList ++ ['\n'])
    let disk : LiveDisk := fun _ path =>
      if path = "image" then file "6 -1 3 7 7 -1 65 0"
      else if path = "inner" then file "# back\n:host vm 1" else file text
    let limits : Limits := { fuel := 20, nesting := 2 }
    ∃ session, start .unlimited disk (some "image") 16 = .ok session ∧
      let ended := runScript limits disk limits.nesting lines session
      ended.2 = .quit ∧ (ended.1.current = 1 ∧ ended.1.host.table.map (·.pid) = [1, 2]) ∧
      session.command limits disk ":host read-from script" = ended ∧
      ∃ shown left prompts, ended.1.screen = session.screen ++ shown ∧
        Leaves (runScript limits disk limits.nesting) session lines left ∧
        let greeted := session.printAll Shell.banner
        Shell.converse limits disk greeted [] (lines.map .line) =
          (closed ({ ended.1 with screen := greeted.screen ++ shown }, ended.2), prompts,
            left.map .line, fault? ended.2) := by
  intro file lines text disk limits
  have checked : (match start .unlimited disk (some "image") 16 with
      | .error _ => false
      | .ok session =>
          let ended := runScript limits disk limits.nesting lines session
          decide (ended.1.current = 1 ∧ ended.1.host.table.map (·.pid) = [1, 2]) &&
            (match ended.2 with
            | .quit => true
            | _ => false)) = true := by
    decide +kernel
  cases started : start .unlimited disk (some "image") 16 with
  | error fault =>
      rw [started] at checked
      cases checked
  | ok session =>
      rw [started] at checked
      obtain ⟨last, quits⟩ := Bool.and_eq_true_iff.mp checked
      have stops : (runScript limits disk limits.nesting lines session).2 = .quit := by
        split at quits
        next stops => exact stops
        next => cases quits
      have follows := @typed_lines_follow_script limits disk session lines (by decide +kernel) (by
        rw [stops]
        rintro ⟨⟩)
      refine ⟨session, rfl, stops, of_decide_eq_true last, ?_, follows.2⟩
      refine follows.1 ":host read-from script" "script" text ?_ ?_ rfl
      · rfl
      · rw [String.toList_ofList]
        exact holds_lineFeeds lines

end Subleq.Session
