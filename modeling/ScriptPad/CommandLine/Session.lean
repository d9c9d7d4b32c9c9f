import ScriptPad.Screen.Frame

/-!
The interactive program: a playground on a screen. It takes one input at a time, from the terminal
or from a run, and after each it moves the view to the cursor and draws a frame.
-/

namespace ScriptPad

structure Session where
  playground : Playground
  screen : Screen

/-- What the interactive program waits for. -/
inductive Session.Input
  | terminal (e : Event)
  | run (e : RunEvent)
  deriving DecidableEq, Repr

namespace Session

/-- Moves the view so that the cursor is on the screen. -/
def follow (s : Session) : Session :=
  { s with playground := s.playground.scrollToCursor (s.screen.editorRows s.playground) }

def ofPlayground (p : Playground) (screen : Screen) : Session := follow ⟨p, screen⟩

def frame (s : Session) : List Draw := s.screen.frame s.playground

/-- The screen after a terminal event. -/
def resized (screen : Screen) : Event → Screen
  | .resize width height => ⟨width, height⟩
  | _ => screen

/-- Takes an input, with the view not yet moved. Runs are always hosted here. -/
def receive (s : Session) : Input → Except OutOfRange Session
  | .terminal e => do
    let p ← s.playground.react true e
    pure ⟨p, resized s.screen e⟩
  | .run e => pure { s with playground := s.playground.takeRunEvent e }

/-- One turn of the program. -/
def turn (s : Session) (i : Input) : Except OutOfRange Session := follow <$> s.receive i

/-- A turn for the next event of a run, if one has been sent. -/
def turnOfRun (s : Session) : Option (Except OutOfRange Session) :=
  s.playground.workshop.receive?.map fun (e, w) =>
    turn { s with playground := { s.playground with workshop := w } } (.run e)

/-- Lets the workers send what they have. -/
def settle (s : Session) : Session :=
  { s with playground := { s.playground with workshop := s.playground.workshop.settle } }

end Session

end ScriptPad
