import Scriptlet.Grammar.Statement
import Scriptlet.Token.Scan

namespace Scriptlet

structure Program where
  statements : List Stmt
  diagnostics : List Diagnostic

namespace Program

/-- The tokens that count: those before the first end mark. -/
def body (tokens : List Token) : List Token := tokens.takeWhile (·.kind ≠ .endMark)

/-- The first end mark; a list without one ends on the line of its last token. -/
def closing (tokens : List Token) : Token :=
  (tokens.find? (·.kind = .endMark)).getD (.endAt ((tokens.getLast?.map Token.line).getD 1))

def ofTokens (tokens : List Token) : Program :=
  let found := Grammar.statements false (body tokens)
  ⟨found.value.getD [], found.reports.map (Report.diagnostic (closing tokens))⟩

/-- Faults of the scan come before those of the grammar. -/
def ofSource (source : String) : Program :=
  let scanned := scan source
  let parsed := ofTokens scanned.tokens
  { parsed with diagnostics := scanned.diagnostics ++ parsed.diagnostics }

end Program

end Scriptlet
