import Scriptlet.Proofs.Grammar.Locality
import Scriptlet.Proofs.Grammar.Sound

/-!
Errors stay in their statement. A segment holds one simple statement, well formed or not, up to
its semicolon; a program of segments is read as if each of them stood alone.
-/

namespace Scriptlet

open Outcome

/-- Tokens that can only start a statement at their first place, ended by a semicolon. -/
structure Segment where
  inner : List Token
  semicolon : Token
  ends : semicolon.kind = .semicolon
  plain : ∀ t ∈ inner, t.kind ≠ .semicolon ∧ t.kind ≠ .endMark
  simple : ∀ t ∈ inner.head?, t.kind ≠ .leftBrace ∧ t.kind ≠ .kwIf ∧ t.kind ≠ .kwWhile
  single : ∀ t ∈ inner.tail, t.kind.startsStatement = false

namespace Segment

def tokens (s : Segment) : List Token := s.inner ++ [s.semicolon]

/-- What is read of a segment by itself. -/
def alone (mark : Token) (s : Segment) : Program := Program.ofTokens (s.tokens ++ [mark])

end Segment

namespace Segment

variable (s : Segment)

theorem guarded : Guarded s.tokens := ⟨s.inner, s.semicolon, rfl, by rw [s.ends]; rfl⟩

theorem simple_head {t : Token} {rest : List Token} (cut : s.tokens = t :: rest) :
    t.kind ≠ .leftBrace ∧ t.kind ≠ .kwIf ∧ t.kind ≠ .kwWhile := by
  unfold tokens at cut
  cases inner : s.inner with
  | nil =>
    rw [inner] at cut
    obtain ⟨rfl, _⟩ := List.cons.inj cut
    simp [s.ends]
  | cons u front =>
    rw [inner] at cut
    obtain ⟨rfl, _⟩ := List.cons.inj cut
    exact s.simple u (by simp [inner])

theorem nil_of_semicolon {t : Token} {left : List Token} (cut : t :: left <:+ s.tokens)
    (ends : t.kind = .semicolon) : left = [] := by
  obtain ⟨read, whole⟩ := cut
  obtain rfl | ⟨front, last, rfl⟩ := List.eq_nil_or_concat left
  · rfl
  · have split : (read ++ t :: front) ++ [last] = s.tokens := by simpa using whole
    obtain ⟨inner, _⟩ := List.append_inj' split rfl
    exact absurd ends (s.plain t (by simp [← inner])).1

end Segment

/-- A success has read up to the end, and a failure has not. -/
def Settled {α : Type} : Option α → List Token → Prop
  | some _, left => left = []
  | none, left => Guarded left

namespace Grammar

theorem stable_segment (s : Segment) :
    Stable (fun more => readStmt (s.tokens ++ more)) Settled := by
  have guarded := s.guarded
  obtain ⟨t, rest, cut⟩ := List.exists_cons_of_ne_nil guarded.ne_nil
  have simple := s.simple_head cut
  have word : t.kind = .kwVar ∨ t.kind = .kwPrint → rest ≠ [] := by
    rintro word rfl
    have last : t = s.semicolon := by simpa [Segment.tokens] using congrArg List.getLast? cut.symm
    simp [last, s.ends] at word
  rw [cut] at guarded ⊢
  apply (stable_simple simple word guarded).mono
  rintro (_ | stmt) left _ _ halted
  · exact halted
  · obtain ⟨u, ends, inside⟩ := halted
    exact s.nil_of_semicolon (cut ▸ inside) ends

theorem resume_of_segment (s : Segment) {left : List Token} (cut : left <:+ s.tokens)
    (guarded : Guarded left) (more : List Token) : resume (left ++ more) = more := by
  obtain rfl | ⟨front, rfl, inside⟩ := List.suffix_concat_iff.mp cut
  · exact absurd rfl guarded.ne_nil
  have other : s.semicolon.kind.startsStatement = false := by rw [s.ends]; rfl
  rw [List.append_assoc, List.singleton_append, resume_append]
  · simp [resume, s.ends]
  · exact fun t member => (s.plain t (inside.mem member)).1
  · exact fun t member => s.single t (mem_tail_of_suffix inside member)
  · exact fun _ => by simpa using other

theorem recover_segment (s : Segment) (more : List Token) :
    (readStmt (s.tokens ++ more)).recover =
      ⟨some (readStmt s.tokens).value, ((readStmt s.tokens).extend more).reports, more⟩ := by
  have stable := stable_segment s
  have ends := stable.ends
  rw [stable.extend_eq more]
  simp only [List.append_nil] at ends ⊢
  cases value : (readStmt s.tokens).value with
  | none =>
    rw [value] at ends
    have resumed := resume_of_segment s (readStmt_suffix s.tokens) ends more
    simp [recover, extend, value, resumed]
  | some stmt =>
    rw [value] at ends
    have left : (readStmt s.tokens).rest = [] := ends
    simp [recover, extend, value, left]

theorem readStmts_segment {inBlock : Bool} (s : Segment)
    (braceless : inBlock → ∀ t ∈ s.inner, t.kind ≠ .rightBrace) (more : List Token) :
    readStmts inBlock (s.tokens ++ more) =
      ⟨(readStmts inBlock more).value.map ((readStmt s.tokens).value.toList ++ ·),
        ((readStmt s.tokens).extend more).reports ++ (readStmts inBlock more).reports,
        (readStmts inBlock more).rest⟩ := by
  have recovered := recover_segment s more
  obtain ⟨t, rest, cut⟩ := List.exists_cons_of_ne_nil s.guarded.ne_nil
  have inside : (inBlock && decide (t.kind = .rightBrace)) = false := by
    cases inBlock with
    | false => rfl
    | true =>
      have member : t ∈ s.inner ++ [s.semicolon] := by
        have all : s.inner ++ [s.semicolon] = t :: rest := cut
        simp [all]
      rcases List.mem_append.mp member with member | member
      · simpa using braceless rfl t member
      · obtain rfl := List.mem_singleton.mp member
        simp [s.ends]
  rw [cut] at recovered ⊢
  rw [List.cons_append, readStmts_cons, if_neg (by simp [inside]), ← List.cons_append, recovered]
  rfl

end Grammar

theorem Report.diagnostic_append {r : Report} (left : r.ahead ≠ []) (closing other : Token)
    (more : List Token) :
    Report.diagnostic closing ⟨r.fault, r.ahead ++ more⟩ = r.diagnostic other := by
  obtain ⟨t, rest, cut⟩ := List.exists_cons_of_ne_nil left
  simp [diagnostic, cut]

namespace Segment

open Grammar Program

theorem unended (s : Segment) : ∀ t ∈ s.tokens, t.kind ≠ .endMark := by
  intro t member
  rcases List.mem_append.mp member with member | member
  · exact (s.plain t member).2
  · obtain rfl := List.mem_singleton.mp member
    simp [s.ends]

theorem readStmts_alone (s : Segment) {mark : Token} (ends : mark.kind = .endMark) :
    readStmts false (body (s.tokens ++ [mark])) =
      ⟨some (readStmt s.tokens).value.toList, ((readStmt s.tokens).extend []).reports, []⟩ := by
  have outside : false = true → ∀ t ∈ s.inner, t.kind ≠ .rightBrace := nofun
  have read := readStmts_segment s outside []
  rw [List.append_nil, readStmts_nil] at read
  rw [body_append_mark s.unended ends [], read]
  simp [done]

theorem statements_alone (s : Segment) {mark : Token} (ends : mark.kind = .endMark) :
    (s.alone mark).statements = (readStmt s.tokens).value.toList := by
  rw [alone, statements_ofTokens, s.readStmts_alone ends]
  rfl

theorem diagnostics_alone (s : Segment) {mark : Token} (ends : mark.kind = .endMark)
    (closing : Token) (more : List Token) :
    (s.alone mark).diagnostics =
      ((readStmt s.tokens).extend more).reports.map (Report.diagnostic closing) := by
  have blamed := (stable_segment s).blamed
  rw [List.append_nil] at blamed
  rw [alone, diagnostics_ofTokens, s.readStmts_alone ends]
  simp only [extend, List.map_map]
  apply List.map_congr_left
  intro r member
  have left := blamed r member
  have own := Report.diagnostic_append left (Program.closing (s.tokens ++ [mark])) closing []
  exact own.trans (Report.diagnostic_append left closing closing more).symm

theorem statement_or_diagnostic (s : Segment) {mark : Token} (ends : mark.kind = .endMark) :
    (∃ stmt, (s.alone mark).statements = [stmt]) ∨
      (s.alone mark).statements = [] ∧ (s.alone mark).diagnostics ≠ [] := by
  have accounts := accounts_stmt s.tokens
  rw [s.statements_alone ends, s.diagnostics_alone ends mark []]
  cases value : (readStmt s.tokens).value with
  | some stmt => exact .inl ⟨stmt, rfl⟩
  | none =>
    have failed := accounts.failed value
    exact .inr ⟨rfl, by simpa [extend] using failed⟩

end Segment

namespace Grammar

theorem readStmts_segments {inBlock : Bool} {own : Token} (closes : own.kind = .endMark)
    (closing : Token) {segments : List Segment}
    (braceless : inBlock → ∀ s ∈ segments, ∀ t ∈ s.inner, t.kind ≠ .rightBrace)
    (rest : List Token) :
    (readStmts inBlock (segments.flatMap Segment.tokens ++ rest)).value =
        (readStmts inBlock rest).value.map
          (segments.flatMap (fun s => (s.alone own).statements) ++ ·) ∧
      (readStmts inBlock (segments.flatMap Segment.tokens ++ rest)).reports.map
          (Report.diagnostic closing) =
        segments.flatMap (fun s => (s.alone own).diagnostics) ++
          (readStmts inBlock rest).reports.map (Report.diagnostic closing) ∧
      (readStmts inBlock (segments.flatMap Segment.tokens ++ rest)).rest =
        (readStmts inBlock rest).rest := by
  induction segments with
  | nil => simp
  | cons s segments ih =>
    obtain ⟨values, reports, left⟩ := ih fun inside s member =>
      braceless inside s (List.mem_cons_of_mem _ member)
    have first := readStmts_segment s (fun inside => braceless inside s List.mem_cons_self)
      (segments.flatMap Segment.tokens ++ rest)
    rw [List.flatMap_cons, List.append_assoc, first]
    simp only [List.flatMap_cons, values, left, List.map_append, reports, and_true]
    constructor
    · simp [s.statements_alone closes, Function.comp_def]
    · rw [← s.diagnostics_alone closes closing, List.append_assoc]

theorem readStmt_around {opening closing : Token} (opens : opening.kind = .leftBrace)
    (shuts : closing.kind = .rightBrace) {tokens : List Token} {body : List Stmt}
    (found : (readStmts true tokens).value = some body)
    (left : (readStmts true tokens).rest = [closing]) :
    readStmt (opening :: tokens) = ⟨some (.block body), (readStmts true tokens).reports, []⟩ := by
  rw [readStmt_block opens, bind_of_found found, left]
  simp [done, expect_cons shuts, map]

theorem readStmts_whole {t : Token} {more : List Token} {s : Stmt} {reports : List Report}
    (read : readStmt (t :: more) = ⟨some s, reports, []⟩) :
    readStmts false (t :: more) = ⟨some [s], reports, []⟩ := by
  have found : (⟨some s, reports, []⟩ : Outcome Stmt).recover.value = some (some s) := rfl
  rw [readStmts_cons, if_neg (by simp), read, bind_of_found found]
  simp [recover, readStmts_nil, done, map]

end Grammar

namespace Program

open Grammar

theorem ofTokens_block {opening closing mark : Token} (opens : opening.kind = .leftBrace)
    (shuts : closing.kind = .rightBrace) (ends : mark.kind = .endMark) {tokens : List Token}
    (unended : ∀ t ∈ tokens, t.kind ≠ .endMark) {body : List Stmt}
    (found : (readStmts true (tokens ++ [closing])).value = some body)
    (left : (readStmts true (tokens ++ [closing])).rest = [closing]) {diagnostics : List Diagnostic}
    (reports : (readStmts true (tokens ++ [closing])).reports.map (Report.diagnostic
      (Program.closing (opening :: (tokens ++ [closing, mark])))) = diagnostics) :
    ofTokens (opening :: (tokens ++ [closing, mark])) = ⟨[.block body], diagnostics⟩ := by
  have inside : ∀ t ∈ opening :: (tokens ++ [closing]), t.kind ≠ .endMark := by
    intro t member
    simp only [List.mem_cons, List.mem_append, List.not_mem_nil, or_false] at member
    rcases member with rfl | member | rfl
    · simp [opens]
    · exact unended t member
    · simp [shuts]
  have front : Program.body (opening :: (tokens ++ [closing, mark])) =
      opening :: (tokens ++ [closing]) := by
    simpa using body_append_mark inside ends []
  have whole := readStmts_whole (readStmt_around opens shuts found left)
  apply ofTokens_of_read front
  · rw [whole]
  · rw [whole]
    exact reports

/-- A list of segments is read as each of them by itself, at the top level and in a block, so a
malformed segment costs no other one, and each has its statement or a diagnostic. -/
theorem ofTokens_segments (segments : List Segment) (mark own : Token)
    (ends : mark.kind = .endMark) (closes : own.kind = .endMark) :
    ofTokens (segments.flatMap Segment.tokens ++ [mark]) =
        ⟨segments.flatMap fun s => (s.alone own).statements,
          segments.flatMap fun s => (s.alone own).diagnostics⟩ ∧
      (∀ opening closing, opening.kind = .leftBrace → closing.kind = .rightBrace →
        (∀ s ∈ segments, ∀ t ∈ s.inner, t.kind ≠ .rightBrace) →
        ofTokens (opening :: (segments.flatMap Segment.tokens ++ [closing, mark])) =
          ⟨[.block (segments.flatMap fun s => (s.alone own).statements)],
            segments.flatMap fun s => (s.alone own).diagnostics⟩) ∧
      ∀ s : Segment, (∃ stmt, (s.alone own).statements = [stmt]) ∨
        (s.alone own).statements = [] ∧ (s.alone own).diagnostics ≠ [] := by
  have unended : ∀ t ∈ segments.flatMap Segment.tokens, t.kind ≠ .endMark := by
    intro t member
    obtain ⟨s, _, inside⟩ := List.mem_flatMap.mp member
    exact s.unended t inside
  refine ⟨?_, ?_, fun s => s.statement_or_diagnostic closes⟩
  · have outside : false = true → ∀ s ∈ segments, ∀ t ∈ s.inner, t.kind ≠ .rightBrace := nofun
    obtain ⟨values, reports, _⟩ := readStmts_segments closes
      (closing (segments.flatMap Segment.tokens ++ [mark])) outside []
    rw [List.append_nil, readStmts_nil] at values reports
    apply ofTokens_of_read (body_append_mark unended ends [])
    · simpa [done] using values
    · simpa [done] using reports
  · intro opening closing opens shuts braceless
    obtain ⟨values, reports, left⟩ := readStmts_segments closes
      (Program.closing (opening :: (segments.flatMap Segment.tokens ++ [closing, mark])))
      (fun _ => braceless) [closing]
    have shut : readStmts true [closing] = .done [] [closing] := by
      rw [readStmts_cons, if_pos (by simp [shuts])]
    rw [shut] at values reports left
    apply ofTokens_block opens shuts ends unended
    · simpa [done] using values
    · exact left
    · simpa [done] using reports

def broken : Segment where
  inner := [⟨.name, "x", none, 1⟩, ⟨.equal, "=", none, 1⟩]
  semicolon := ⟨.semicolon, ";", none, 1⟩
  ends := rfl
  plain := by decide
  simple := by decide
  single := by decide

def printing : Segment where
  inner := [⟨.kwPrint, "print", none, 1⟩, ⟨.name, "y", none, 1⟩]
  semicolon := ⟨.semicolon, ";", none, 1⟩
  ends := rfl
  plain := by decide
  simple := by decide
  single := by decide

theorem ofTokens_broken_printing :
    (Token.endAt 1).kind = .endMark ∧
      ofTokens ([broken, printing].flatMap Segment.tokens ++ [Token.endAt 1]) =
        ⟨[.print (.var ⟨.name, "y", none, 1⟩)], [⟨1, .atLexeme ";", .expectedExpression⟩]⟩ ∧
      (∀ s ∈ [broken, printing], ∀ t ∈ s.inner, t.kind ≠ .rightBrace) ∧
      ofTokens (⟨.leftBrace, "\x7b", none, 1⟩ ::
          ([broken, printing].flatMap Segment.tokens ++
            [⟨.rightBrace, "\x7d", none, 1⟩, Token.endAt 1])) =
        ⟨[.block [.print (.var ⟨.name, "y", none, 1⟩)]],
          [⟨1, .atLexeme ";", .expectedExpression⟩]⟩ := by
  have statements : [broken, printing].flatMap (fun s => (s.alone (.endAt 1)).statements) =
      [.print (.var ⟨.name, "y", none, 1⟩)] := by cbv
  have diagnostics : [broken, printing].flatMap (fun s => (s.alone (.endAt 1)).diagnostics) =
      [⟨1, .atLexeme ";", .expectedExpression⟩] := by cbv
  have braceless : ∀ s ∈ [broken, printing], ∀ t ∈ s.inner, t.kind ≠ .rightBrace := by
    simp [broken, printing]
  obtain ⟨top, inside, _⟩ :=
    ofTokens_segments [broken, printing] (.endAt 1) (.endAt 1) rfl rfl
  rw [statements, diagnostics] at top
  rw [statements, diagnostics] at inside
  exact ⟨rfl, top, braceless, inside _ _ rfl rfl braceless⟩

end Program

end Scriptlet
