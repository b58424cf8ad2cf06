import Subleq.Session.Basic

/-!
# The screen is only written

No command reads the screen. `under` puts a text above all that is on the screen of a session, and
whatever a session does, it does the same under that text: the text stays above, and nothing else is
different. So what is shown does not depend on what was shown before.
-/

namespace Subleq.Session

/-- The session with a text above everything on its screen. -/
def under (text : String) (session : Session) : Session :=
  { session with screen := text ++ session.screen }

/-- What is done with a session is done as well under any text on the screen. -/
def Unseeing (act : Session → Session × Outcome) : Prop :=
  ∀ text session, act (under text session) = (under text (act session).1, (act session).2)

variable (text : String) (session : Session)

@[simp] theorem host_under : (under text session).host = session.host := rfl

@[simp] theorem imagePath_under : (under text session).imagePath = session.imagePath := rfl

@[simp] theorem current_under : (under text session).current = session.current := rfl

@[simp] theorem logs_under : (under text session).logs = session.logs := rfl

@[simp] theorem log_under (pid : Int) : (under text session).log pid = session.log pid := rfl

@[simp] theorem machine?_under : (under text session).machine? = session.machine? := rfl

@[simp] theorem currentText_under : (under text session).currentText = session.currentText := rfl

/-- A session that differs from one under a text in all but the screen is under that text too. -/
@[simp] theorem mk_under (host : Host) (imagePath : Option String) (current : Int)
    (logs : List (Int × Array String)) :
    (⟨host, imagePath, current, logs, (under text session).screen⟩ : Session) =
      under text ⟨host, imagePath, current, logs, session.screen⟩ := rfl

/-! ## Showing -/

@[simp] theorem write_under (line : String) :
    (under text session).write line = under text (session.write line) := by
  simp only [under, write, String.append_assoc]

@[simp] theorem print_under (line : String) :
    (under text session).print line = under text (session.print line) := by
  simp only [print, write_under]

theorem foldl_under {α : Type} {step : Session → α → Session}
    (each : ∀ session item, step (under text session) item = under text (step session item))
    (items : List α) :
    items.foldl step (under text session) = under text (items.foldl step session) := by
  induction items generalizing session with
  | nil => rfl
  | cons item items ih => rw [List.foldl_cons, List.foldl_cons, each, ih]

@[simp] theorem printAll_under (lines : List String) :
    (under text session).printAll lines = under text (session.printAll lines) :=
  foldl_under text session (print_under text) lines

@[simp] theorem take_under (item : Int × String) :
    (under text session).take item = under text (session.take item) := by
  simp only [take, logs_under, host_under, imagePath_under, current_under, mk_under, write_under]
  split <;> rfl

@[simp] theorem drain_under : (under text session).drain = under text session.drain :=
  foldl_under text { session with host := session.host.drain.2 } (take_under text) _

@[simp] theorem warn_under : (under text session).warn = under text session.warn :=
  print_under text session _

@[simp] theorem help_under : (under text session).help = under text session.help :=
  printAll_under text session _

@[simp] theorem switch_under (pid : Int) :
    (under text session).switch pid = under text (session.switch pid) := by
  simp only [switch, host_under, imagePath_under, logs_under, mk_under, print_under]
  split <;> rfl

@[simp] theorem kill_under (pid : Int) :
    (under text session).kill pid = under text (session.kill pid) := by
  simp only [kill, host_under, imagePath_under, current_under, logs_under, mk_under, print_under]
  split
  · split <;> rfl
  · rfl

@[simp] theorem showLog_under (pid : Int) :
    (under text session).showLog pid = under text (session.showLog pid) := by
  simp only [showLog, log_under, print_under, ← Array.foldl_toList]
  split
  · rfl
  · simp only [foldl_under text _ (write_under text), write_under]
    split <;> rw [print_under]

theorem unseeing_printEach (lines : List (Option String)) :
    Unseeing fun session => session.printEach lines := by
  intro text session
  induction lines generalizing session with
  | nil => rfl
  | cons line lines ih =>
      cases line with
      | none => rfl
      | some line =>
          dsimp only [printEach] at ih ⊢
          rw [print_under, ih]

theorem unseeing_settle (fault : Fault) : Unseeing fun session => session.settle fault := by
  intro text session
  simp only [settle, print_under, drain_under]
  split <;> rfl

theorem unseeing_loaded (word path : String) (result : Except Fault Nat) :
    Unseeing fun session => session.loaded word path result := by
  intro text session
  cases result with
  | ok count => simp only [loaded, currentText_under, print_under]
  | error fault =>
      simp only [loaded, print_under]
      split <;> rfl

/-! ## Commands -/

theorem unseeing_send (limits : Limits) (line : String) :
    Unseeing fun session => send limits session line := by
  intro text session
  simp only [send, machine?_under, currentText_under, host_under, imagePath_under, current_under,
    logs_under, mk_under, warn_under, print_under, drain_under, unseeing_settle _ text]
  split
  · rfl
  · split
    · rfl
    · split <;> rfl

theorem unseeing_create (disk : LiveDisk) (name : String) :
    Unseeing fun session => create disk session name := by
  intro text session
  simp only [create, host_under, imagePath_under, current_under, logs_under, mk_under,
    print_under]
  split
  · split <;> rfl
  · split
    · split <;> rfl
    · rfl

theorem unseeing_list : Unseeing list := by
  intro text session
  simp only [list, host_under, current_under, print_under, printAll_under,
    unseeing_printEach _ text]
  split <;> rfl

theorem unseeing_load (disk : LiveDisk) (path : String) :
    Unseeing fun session => load disk session path := by
  intro text session
  simp only [load, machine?_under, host_under, imagePath_under, current_under, logs_under,
    mk_under, warn_under, unseeing_loaded _ _ _ text]
  split
  · rfl
  · split <;> rfl

theorem unseeing_image (disk : LiveDisk) (path : String) :
    Unseeing fun session => image disk session path := by
  intro text session
  simp only [image, machine?_under, host_under, imagePath_under, current_under, logs_under,
    mk_under, warn_under, unseeing_loaded _ _ _ text]
  split
  · rfl
  · split <;> rfl

theorem unseeing_run (limits : Limits) : Unseeing (run limits) := by
  intro text session
  simp only [run, machine?_under, host_under, imagePath_under, current_under, logs_under,
    mk_under, warn_under, print_under, drain_under, unseeing_settle _ text]
  split
  · rfl
  · split <;> rfl

theorem unseeing_counter : Unseeing counter := by
  intro text session
  simp only [counter, machine?_under, warn_under, unseeing_printEach _ text]
  split <;> rfl

theorem unseeing_dump (range : Except String (Int × Int)) :
    Unseeing fun session => dump session range := by
  intro text session
  simp only [dump, machine?_under, warn_under, print_under, unseeing_printEach _ text]
  split
  · rfl
  · split
    · rfl
    · split <;> rfl

/-! ## Lines and scripts -/

section

variable {limits : Limits} {disk : LiveDisk} {runner : ScriptRunner}

theorem unseeing_script (running : ∀ lines, Unseeing (runner lines)) (path : String) :
    Unseeing fun session => script disk runner session path := by
  intro text session
  simp only [script, host_under, print_under, running _ text]
  split <;> rfl

theorem unseeing_execute (running : ∀ lines, Unseeing (runner lines)) (command : Command) :
    Unseeing fun session => execute limits disk runner session command := by
  intro text session
  cases command with
  | help => simp only [execute, help_under]
  | unknown word => simp only [execute, print_under, help_under]
  | badLine fault => simp only [execute, print_under]
  | usage line => simp only [execute, print_under]
  | create name => exact unseeing_create disk name text session
  | current => simp only [execute, currentText_under, print_under]
  | switch pid => simp only [execute, switch_under]
  | list => exact unseeing_list text session
  | kill pid => simp only [execute, kill_under]
  | logs pid => simp only [execute, current_under, showLog_under]
  | load path => exact unseeing_load disk path text session
  | image path => exact unseeing_image disk path text session
  | run => exact unseeing_run limits text session
  | counter => exact unseeing_counter text session
  | dump range => exact unseeing_dump range text session
  | script path => exact unseeing_script running path text session
  | quit => simp only [execute, print_under]

theorem unseeing_takeLine (running : ∀ lines, Unseeing (runner lines)) (line : String) :
    Unseeing (takeLine limits disk runner line) := by
  intro text session
  unfold takeLine
  split
  · exact unseeing_execute running _ text session
  · exact unseeing_send limits line text session

theorem unseeing_takeScriptLine (running : ∀ lines, Unseeing (runner lines)) (raw : String) :
    Unseeing (takeScriptLine limits disk runner raw) := by
  intro text session
  unfold takeScriptLine
  dsimp only
  split
  · rfl
  · exact unseeing_takeLine running _ text session

theorem unseeing_takeLines {line : String → Session → Session × Outcome}
    (each : ∀ text, Unseeing (line text)) (lines : List String) :
    Unseeing (takeLines line lines) := by
  intro text session
  induction lines generalizing session with
  | nil => rfl
  | cons first lines ih =>
      simp only [takeLines, each first text session]
      rcases line first session with ⟨middle, outcome⟩
      cases outcome with
      | done => exact ih middle
      | quit => rfl
      | escaped fault => rfl

theorem unseeing_runScript (limits : Limits) (disk : LiveDisk) (depth : Nat)
    (lines : List String) : Unseeing (runScript limits disk depth lines) := by
  induction depth generalizing lines with
  | zero => exact fun text session => rfl
  | succ depth ih => exact unseeing_takeLines (unseeing_takeScriptLine ih) lines

end

end Subleq.Session
