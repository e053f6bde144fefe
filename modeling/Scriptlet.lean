import Scriptlet.Dump
import Scriptlet.Main
import Scriptlet.Tree.Equality
import Scriptlet.Value.Outline
import Scriptlet.Proofs.Parser.Chain
import Scriptlet.Proofs.Parser.Complete
import Scriptlet.Proofs.Parser.Sound
import Scriptlet.Proofs.Token.Lexed
import Scriptlet.Proofs.Tree.Shape
import Scriptlet.Proofs.Canonical
import Scriptlet.Proofs.Parser.Trees
import Scriptlet.Proofs.RoundTrip
import Scriptlet.Proofs.Height
import Scriptlet.Proofs.InRange
import Scriptlet.Proofs.Eval.Invariant
import Scriptlet.Proofs.Eval.Clean
import Scriptlet.Proofs.Eval.Reference
import Scriptlet.Proofs.Eval.Counter
import Scriptlet.Proofs.Eval.Frame
import Scriptlet.Proofs.Eval.Signals
import Scriptlet.Proofs.Eval.Ceiling
import Scriptlet.Proofs.Reread
import Scriptlet.Proofs.Token.Lexemes
import Scriptlet.Proofs.Value.Alike
import Scriptlet.Proofs.Value.KeyOrder
import Scriptlet.Proofs.Value.Equality
import Scriptlet.Proofs.Value.Hash
import Scriptlet.Proofs.Eval.Correspondence
import Scriptlet.Proofs.Eval.Scopes
import Scriptlet.Proofs.Machine
import Scriptlet.Proofs.Eval.Machine
import Scriptlet.Proofs.Parser.Machine
import Scriptlet.Proofs.Eval.Reuse
import Scriptlet.Proofs.Trace
import Scriptlet.Proofs.Parser.Dropped
import Scriptlet.Proofs.Eval.Repeat
import Scriptlet.Proofs.Eval.Ledger
import Scriptlet.Proofs.Token.Joined
import Scriptlet.Proofs.Token.Slices
import Scriptlet.Proofs.Token.Written
import Scriptlet.Proofs.Parser.Edges
import Scriptlet.Proofs.Parser.Parallel
import Scriptlet.Proofs.Parser.SourceOrder
import Scriptlet.Proofs.LineByLine
import Scriptlet.Proofs.Layout
import Scriptlet.Proofs.Arithmetic
import Scriptlet.Proofs.Eval.Arrays
import Scriptlet.Proofs.Shown
import Scriptlet.Proofs.Numeral
