import Scriptlet.Proofs.Grammar.Complete
import Scriptlet.Proofs.Grammar.Sound

namespace Scriptlet

open Terminal Outcome

namespace Grammar

theorem readStmts_eq_done_iff {tokens : List Token} {statements : List Stmt} :
    readStmts false tokens = .done statements [] ↔
      (∀ s ∈ statements, s.Canonical) ∧ Spell (Stmt.yieldAll statements) tokens := by
  constructor
  · intro read
    have accounts := accounts_stmts false tokens
    rw [read] at accounts
    obtain ⟨items, front, cut, _, clean, canonical, rfl, _⟩ := accounts.found statements rfl
    have cut : tokens = front ++ [] := cut
    rw [cut, List.append_nil]
    exact ⟨canonical, clean rfl⟩
  · rintro ⟨canonical, spelled⟩
    exact Program.readStmts_of_canonical canonical spelled

end Grammar

namespace Program

open Grammar

theorem accounts_body (tokens : List Token) :
    let o := readStmts false (body tokens)
    ∃ items read, body tokens = read ++ o.rest ∧ Within items read ∧
      Stmt.ReadsAll false (ofTokens tokens).statements items o.rest := by
  intro o
  obtain ⟨parsed, found⟩ := readStmts_found false (body tokens)
  obtain ⟨items, read, cut, within, _, reads⟩ :=
    (accounts_stmts false (body tokens)).found parsed found
  rw [statements_ofTokens, found]
  exact ⟨items, read, cut, within, reads⟩

theorem canonical_of_mem {tokens : List Token} {s : Stmt}
    (member : s ∈ (ofTokens tokens).statements) : s.Canonical := by
  obtain ⟨_, _, _, _, reads⟩ := accounts_body tokens
  exact reads.canonical s member

theorem canonical_ofSource (source : String) : ∀ s ∈ (ofSource source).statements, s.Canonical :=
  fun _ => canonical_of_mem

/-- Without a diagnostic all tokens before the end mark have been read. -/
theorem read_of_clean {tokens : List Token} (clean : (ofTokens tokens).diagnostics = []) :
    readStmts false (body tokens) = .done (ofTokens tokens).statements [] := by
  obtain ⟨parsed, found⟩ := readStmts_found false (body tokens)
  obtain ⟨_, _, _, _, reads⟩ := accounts_body tokens
  rw [diagnostics_ofTokens, List.map_eq_nil_iff] at clean
  rw [statements_ofTokens, found]
  have left := reads.ended rfl
  generalize readStmts false (body tokens) = o at found clean left
  obtain ⟨value, reports, rest⟩ := o
  subst found clean left
  rfl

theorem within_body (tokens : List Token) :
    Within (Stmt.yieldAll (ofTokens tokens).statements) (body tokens) := by
  obtain ⟨items, read, cut, ⟨chosen, inside, spelled⟩, reads⟩ := accounts_body tokens
  refine ⟨chosen, ?_, reads.spells ▸ spelled⟩
  rw [cut]
  exact inside.trans (List.sublist_append_left _ _)

theorem yieldAll_length_le (tokens : List Token) :
    (Stmt.yieldAll (ofTokens tokens).statements).length ≤ (body tokens).length := by
  obtain ⟨chosen, inside, spelled⟩ := within_body tokens
  exact spelled.length_eq.trans_le inside.length_le

end Program

end Scriptlet
