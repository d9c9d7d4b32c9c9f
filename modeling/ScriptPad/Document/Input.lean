import ScriptPad.Document.Pane

/-!
Terminal events and what they do to a pane. Key releases, focus changes, mouse events and pastes
are ignored. With the control key held a key is a command or nothing; otherwise it moves, edits or
asks for a run.
-/

namespace ScriptPad

/-- The keys that events name; `other` stands for those that have no meaning here. -/
inductive Key
  | char (c : Char)
  | function (n : Nat)
  | left
  | right
  | up
  | down
  | home
  | endKey
  | tab
  | enter
  | backspace
  | delete
  | other
  deriving DecidableEq, Repr

inductive KeyPhase
  | press
  | repeated
  | release
  deriving DecidableEq, Repr

/-- One key event; of the modifiers only the control key matters. -/
structure KeyEvent where
  key : Key
  control : Bool := false
  phase : KeyPhase := .press
  deriving DecidableEq, Repr

inductive Event
  | key (k : KeyEvent)
  | resize (width height : UInt16)
  /-- Focus changes, mouse events and pastes. -/
  | ignored
  deriving DecidableEq, Repr

/-- What is left to do after an event has reached the pane. -/
inductive Action
  | none
  /-- The text changed. -/
  | edited
  | run
  | quit
  | redraw
  deriving DecidableEq, Repr

namespace Pane

/-- The action after an edit that may have changed the text. -/
def editAction (r : Bool × Pane) : Action × Pane := (if r.1 then .edited else .redraw, r.2)

/-- A key pressed without the control key. -/
def press (p : Pane) : Key → Except OutOfRange (Action × Pane)
  | .function n => pure (if n = 5 then .run else .none, p)
  | .left => pure (.redraw, p.goLeft)
  | .right => (.redraw, ·) <$> p.goRight
  | .up => (.redraw, ·) <$> p.goUp
  | .down => (.redraw, ·) <$> p.goDown
  | .home => pure (.redraw, p.goToLineStart)
  | .endKey => (.redraw, ·) <$> p.goToLineEnd
  | .char c => editAction <$> p.typeChar c
  | .tab => editAction <$> p.indent
  | .enter => editAction <$> p.breakLine
  | .backspace => editAction <$> p.deleteBackward
  | .delete => editAction <$> p.deleteForward
  | .other => pure (.none, p)

/-- A key pressed with the control key. -/
def controlAction : Key → Action
  | .char c => if c = 'r' then .run else if c = 'q' ∨ c = 'c' then .quit else .none
  | _ => .none

def react (p : Pane) : Event → Except OutOfRange (Action × Pane)
  | .key k =>
    if k.phase = .release then pure (.none, p)
    else if k.control then pure (controlAction k.key, p)
    else p.press k.key
  | .resize _ _ => pure (.redraw, p)
  | .ignored => pure (.none, p)

end Pane

end ScriptPad
