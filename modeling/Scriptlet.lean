import Scriptlet.Main
import Scriptlet.Proofs.Command.Interactive
import Scriptlet.Proofs.Grammar.Blame
import Scriptlet.Proofs.Grammar.Bounds
import Scriptlet.Proofs.Grammar.Braces
import Scriptlet.Proofs.Grammar.Orphan
import Scriptlet.Proofs.Run.Attributed
import Scriptlet.Proofs.Run.Frame
import Scriptlet.Proofs.Run.Grouped
import Scriptlet.Proofs.Run.Operators
import Scriptlet.Proofs.Run.Output
import Scriptlet.Proofs.Run.Owner
import Scriptlet.Proofs.Run.Renamed
import Scriptlet.Proofs.Run.Reread
import Scriptlet.Proofs.Syntax.Faithful
import Scriptlet.Proofs.Token.Blank
import Scriptlet.Proofs.Token.Commented
import Scriptlet.Proofs.Token.Counted
