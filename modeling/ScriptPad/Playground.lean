import ScriptPad.Document.Input
import ScriptPad.Document.Live
import ScriptPad.Run.Workshop
import ScriptPad.Settings

/-!
The state of the program between two terminal events: the document in its pane, the runs, the theme
and the message in the status line. A key event clears the message before anything else happens, a
change of the text is analyzed at once, and a run always takes the text as it is when asked for.

What may ask the analyzer is written for any way of asking, as in `Analysis`.
-/

namespace ScriptPad

structure Playground where
  editor : LiveDocument Pane
  workshop : Workshop
  theme : Theme
  settings : Settings
  message : Option Text := none
  /-- Whether the program goes on. -/
  running : Bool := true

namespace Playground

variable {m : Type → Type} [Monad m]

/-- The text of a playground that is opened without a file. -/
def sampleSource : Text :=
  ("// Ctrl-R runs the script, Ctrl-Q quits\nlet a = 1;\nlet b = 2;\np(\"Hello, World!\");\n" ++
    "p(\"a + b = \" + (a + b));\n").toList

/-- Opens a playground on a source; the document is analyzed at once. -/
def ofSourceM (ask : Asking m) (source : Text) (settings : Settings) (analyzer : Analyzer)
    (executor : Executor) : m Playground := do
  let editor ←
    (LiveDocument.ofSurface (Pane.ofText source settings.tabWidth) analyzer .rhai).mountM ask
  pure {
    editor := editor
    workshop := { executor := executor }
    theme := Theme.named settings.theme
    settings := settings }

def ofSource (source : Text) (settings : Settings) (analyzer : Analyzer) (executor : Executor) :
    Playground :=
  (ofSourceM .plain source settings analyzer executor).run

def pane (p : Playground) : Pane := p.editor.surface

def withPane (p : Playground) (pane : Pane) : Playground :=
  { p with editor := { p.editor with surface := pane } }

def output (p : Playground) : Output := p.workshop.console.output

def runState (p : Playground) : RunState := p.workshop.console.state

def withMessage (p : Playground) (m : Text) : Playground := { p with message := some m }

/-- The message for a run that was refused. -/
def refusal : StartError → Text
  | .alreadyRunning => "A run is already in progress".toList
  | .noRuntime => "Cannot run: ".toList ++ StartError.noRuntime.message

/-- Starts a run of the document, unless that is refused; `hosted` says whether runs can be hosted. -/
def startRun (p : Playground) (hosted : Bool) : Playground :=
  match p.workshop.start hosted p.editor.document with
  | .ok (_, workshop) => { p with workshop := workshop }
  | .error e => p.withMessage (refusal e)

/-- What an action asks for once the pane has taken the event. -/
def actM (p : Playground) (ask : Asking m) (hosted : Bool) : Action → m Playground
  | .edited => do
    let editor ← p.editor.changeM ask p.pane.text
    pure { p with editor := editor }
  | .run => pure (p.startRun hosted)
  | .quit => pure { p with running := false }
  | .redraw | .none => pure p

def act (p : Playground) (hosted : Bool) (a : Action) : Playground := (p.actM .plain hosted a).run

/-- A key event clears the message. -/
def clearMessage (p : Playground) : Event → Playground
  | .key _ => { p with message := none }
  | _ => p

def reactM (p : Playground) (ask : Asking m) (hosted : Bool) (e : Event) :
    ExceptT OutOfRange m Playground := do
  let (action, pane) ← p.pane.react e
  ExceptT.lift (((p.clearMessage e).withPane pane).actM ask hosted action)

def react (p : Playground) (hosted : Bool) (e : Event) : Except OutOfRange Playground :=
  (p.reactM .plain hosted e).run.run

/-- Lets the console take an event of a run. -/
def takeRunEvent (p : Playground) (e : RunEvent) : Playground :=
  { p with workshop := (p.workshop.apply e).2 }

def scrollToCursor (p : Playground) (height : Nat) : Playground :=
  p.withPane (p.pane.scrollToCursor height)

theorem react_eq (p : Playground) (hosted : Bool) (e : Event) :
    p.react hosted e =
      (fun r => ((p.clearMessage e).withPane r.2).act hosted r.1) <$> p.pane.react e := by
  unfold react reactM
  cases p.pane.react e <;> rfl

@[simp] theorem pane_withPane (p : Playground) (q : Pane) : (p.withPane q).pane = q := rfl

@[simp] theorem document_withPane (p : Playground) (q : Pane) :
    (p.withPane q).editor.document = p.editor.document := rfl

@[simp] theorem pane_takeRunEvent (p : Playground) (e : RunEvent) :
    (p.takeRunEvent e).pane = p.pane := rfl

end Playground

end ScriptPad
