import Scriptlet.Proofs.Grammar.Accepted
import Scriptlet.Proofs.Number.Written
import Scriptlet.Proofs.Syntax.Form
import Scriptlet.Proofs.Token.Joined

namespace Scriptlet

open Terminal Piece

theorem Lexeme.alone {kind : Kind} {literal : Option Literal} {text rest : List Char}
    (lexeme : Lexeme kind literal text rest) : Lexeme kind literal text [] := by
  cases lexeme with
  | name letter parts unknown => exact .name letter parts unknown (stops_nil _)
  | keyword known => exact .keyword known (stops_nil _)
  | whole some all => exact .whole some all (stops_nil _) (by simp)
  | fraction some all more each => exact .fraction some all more each (stops_nil _)
  | string inside => exact .string inside
  | operator known => exact .operator known ⟨by simp, by simp⟩

theorem isInner_of {p : Char → Bool} {c : Char} (holds : p c)
    (never : [' ', '(', ')', '"'].any p = false) : isInner c :=
  decide_eq_true (not_mem_of_any holds never)

theorem isInner_of_isDigit {c : Char} (digit : c.isDigit) : isInner c :=
  isInner_of digit (by decide)

theorem all_inner_of_name {c : Char} {cs : List Char} (letter : isNameStart c)
    (parts : ∀ d ∈ cs, isNamePart d) : ∀ d ∈ c :: cs, isInner d :=
  List.forall_mem_cons.mpr ⟨isInner_of letter (by decide),
    fun d member => isInner_of (parts d member) (by decide)⟩

theorem Lexeme.plain {kind : Kind} {literal : Option Literal} {word : String} {rest : List Char}
    (lexeme : Lexeme kind literal word.toList rest)
    (other : kind ≠ .string ∧ kind ≠ .leftParen ∧ kind ≠ .rightParen) : Plain word := by
  generalize chars : word.toList = text at lexeme
  suffices plain : text ≠ [] ∧ ∀ c ∈ text, isInner c from ⟨chars ▸ plain.1, chars ▸ plain.2⟩
  cases lexeme with
  | name letter parts => exact ⟨List.cons_ne_nil _ _, all_inner_of_name letter parts⟩
  | keyword known =>
    obtain ⟨-, c, cs, chars, letter, parts⟩ := Kind.keyword_spelled known
    rw [chars]
    exact ⟨List.cons_ne_nil _ _, all_inner_of_name letter parts⟩
  | whole some all => exact ⟨some, fun c member => isInner_of_isDigit (all c member)⟩
  | fraction some all more each =>
    refine ⟨by simp, List.forall_mem_append.mpr ⟨?_, List.forall_mem_cons.mpr ⟨rfl, ?_⟩⟩⟩
    · exact fun c member => isInner_of_isDigit (all c member)
    · exact fun c member => isInner_of_isDigit (each c member)
  | string => exact absurd rfl other.1
  | operator known =>
    have all : ∀ entry ∈ Kind.operators, entry.2 ≠ .leftParen ∧ entry.2 ≠ .rightParen →
        entry.1 ≠ [] ∧ entry.1.all isInner := by
      decide
    simpa using all _ known other.2

/-- A token that can be read again by itself. -/
def Token.Legible (t : Token) : Prop := Lexeme t.kind t.literal t.lexeme.toList []

namespace Terminal

def Legible : Terminal → Prop
  | kept t => t.Legible
  | number x => x.toBits.toNat < Binary64.infinity
  | _ => True

theorem Fits.legible {item : Terminal} {t : Token} (fits : item.Fits t) (legible : t.Legible)
    (finite : ∀ x, t.literal = some (.number x) → x.isFinite) : item.Legible := by
  cases item with
  | word | string => trivial
  | number x =>
    obtain ⟨kind, literal⟩ := fits
    have lexeme : Lexeme t.kind t.literal t.lexeme.toList [] := legible
    have finite := finite x literal
    rw [kind, literal] at lexeme
    generalize t.lexeme.toList = text at lexeme
    cases lexeme with
    | whole => exact Decimal.toBits_lt finite
    | fraction => exact Decimal.toBits_lt finite
  | kept known => exact fits ▸ legible

end Terminal

/-- A source text whose numbers are all finite. -/
def FiniteNumbers (source : String) : Prop :=
  ∀ t ∈ (scan source).tokens, ∀ x, t.literal = some (.number x) → x.isFinite

theorem Program.legible_ofSource {source : String} (finite : FiniteNumbers source) :
    ∀ item ∈ Stmt.yieldAll (ofSource source).statements, item.Legible := by
  obtain ⟨chosen, inside, spelled⟩ := within_body (scan source).tokens
  have each : ∀ t ∈ chosen, t.Legible ∧ ∀ x, t.literal = some (.number x) → x.isFinite := by
    intro t member
    have among := inside.subset member
    refine ⟨?_, finite t (List.takeWhile_subset _ among)⟩
    rw [body_scan] at among
    obtain ⟨rest, lexeme⟩ := exists_lexeme among
    exact lexeme.alone
  clear inside
  simp only [ofSource]
  generalize Stmt.yieldAll (ofTokens (scan source).tokens).statements = items at spelled ⊢
  induction spelled with
  | nil => simp
  | cons fits _ ih =>
    obtain ⟨⟨legible, finite⟩, each⟩ := List.forall_mem_cons.mp each
    exact List.forall_mem_cons.mpr ⟨fits.legible legible finite, ih each⟩

end Scriptlet
