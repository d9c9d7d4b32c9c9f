import ScriptPad.Main
import ScriptPad.Proofs.CommandLine.Check
import ScriptPad.Proofs.Diagnostic.Gutter
import ScriptPad.Proofs.Diagnostic.Newest
import ScriptPad.Proofs.Diagnostic.SignedRow
import ScriptPad.Proofs.Document.Inverse
import ScriptPad.Proofs.Document.Safety
import ScriptPad.Proofs.Document.Shown
import ScriptPad.Proofs.Highlight.Numbers
import ScriptPad.Proofs.Highlight.Quotes
import ScriptPad.Proofs.Highlight.Words
import ScriptPad.Proofs.IgnoredEvents
import ScriptPad.Proofs.InitScript
import ScriptPad.Proofs.Origin
import ScriptPad.Proofs.Playground
import ScriptPad.Proofs.Run.Waiting
import ScriptPad.Proofs.Screen.Control
import ScriptPad.Proofs.Screen.Cursor
import ScriptPad.Proofs.Screen.OutputPane
import ScriptPad.Proofs.Script.Verdict
import ScriptPad.Proofs.Session
