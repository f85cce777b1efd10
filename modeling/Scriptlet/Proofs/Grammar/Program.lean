import Scriptlet.Program
import Scriptlet.Proofs.Grammar.Reading
import Mathlib.Data.List.TakeWhile

namespace Scriptlet.Program

open Grammar

theorem statements_ofTokens (tokens : List Token) :
    (ofTokens tokens).statements = (readStmts false (body tokens)).value.getD [] := rfl

theorem diagnostics_ofTokens (tokens : List Token) :
    (ofTokens tokens).diagnostics =
      (readStmts false (body tokens)).reports.map (Report.diagnostic (closing tokens)) := rfl

theorem ofTokens_of_read {tokens front : List Token} (cut : body tokens = front)
    {statements : List Stmt} {diagnostics : List Diagnostic}
    (values : (readStmts false front).value = some statements)
    (reports : (readStmts false front).reports.map (Report.diagnostic (closing tokens)) =
      diagnostics) : ofTokens tokens = ⟨statements, diagnostics⟩ := by
  subst cut
  have parsed := statements_ofTokens tokens
  rw [values] at parsed
  rw [← diagnostics_ofTokens] at reports
  rw [← reports]
  exact congrArg (Program.mk · (ofTokens tokens).diagnostics) parsed

theorem ofTokens_of_done {tokens : List Token} {statements : List Stmt}
    (read : readStmts false (body tokens) = .done statements []) :
    ofTokens tokens = ⟨statements, []⟩ :=
  ofTokens_of_read rfl (by rw [read]; rfl) (by rw [read]; rfl)

theorem ofSource_of_scan {source : String} {tokens : List Token}
    (scanned : scan source = ⟨tokens, []⟩) : ofSource source = ofTokens tokens := by
  rw [ofSource, scanned]
  rfl

theorem ofSource_empty : ofSource "" = ⟨[], []⟩ := by
  have scanned : scan "" = ⟨[.endAt 1], []⟩ := by
    rw [scan, String.toList_empty, Piece.split_nil]
    rfl
  rw [ofSource_of_scan scanned]
  cbv

theorem body_of_unended {tokens : List Token} (unended : ∀ t ∈ tokens, t.kind ≠ .endMark) :
    body tokens = tokens :=
  List.takeWhile_eq_self_iff.mpr fun t member => by simpa using unended t member

theorem body_inner (tokens : List Token) : ∀ t ∈ body tokens, t.kind ≠ .endMark :=
  fun t member => by simpa using List.mem_takeWhile_imp member

theorem body_append {tokens : List Token} (unended : ∀ t ∈ tokens, t.kind ≠ .endMark)
    (more : List Token) : body (tokens ++ more) = tokens ++ body more := by
  rw [body, List.takeWhile_append_of_pos (by simpa using unended), body]

theorem body_append_mark {tokens : List Token} (unended : ∀ t ∈ tokens, t.kind ≠ .endMark)
    {mark : Token} (ends : mark.kind = .endMark) (more : List Token) :
    body (tokens ++ mark :: more) = tokens := by
  rw [body_append unended, body, List.takeWhile_cons_of_neg (by simpa using ends),
    List.append_nil]

end Scriptlet.Program
