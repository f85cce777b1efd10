import Scriptlet.Grammar.Level
import Mathlib.Data.List.Forall2

namespace Scriptlet

/-- What a tree knows of one of its tokens. -/
inductive Terminal where
  | word (kind : Kind)
  | number (x : Float)
  | string (s : String)
  | kept (t : Token)
deriving DecidableEq, Repr

namespace Terminal

def Fits : Terminal → Token → Prop
  | word kind, t => t.kind = kind
  | number x, t => t.kind = .number ∧ t.literal = some (.number x)
  | string s, t => t.kind = .string ∧ t.literal = some (.string s)
  | kept known, t => t = known

instance : DecidableRel Fits
  | word kind, t => inferInstanceAs (Decidable (t.kind = kind))
  | number _, _ | string _, _ => inferInstanceAs (Decidable (_ ∧ _))
  | kept known, t => inferInstanceAs (Decidable (t = known))

@[simp] theorem fits_word {kind : Kind} {t : Token} : (word kind).Fits t ↔ t.kind = kind := Iff.rfl

def kind : Terminal → Kind
  | word kind => kind
  | number _ => .number
  | string _ => .string
  | kept t => t.kind

theorem Fits.kind_eq {item : Terminal} {t : Token} (fits : item.Fits t) : t.kind = item.kind := by
  cases item with
  | word kind => exact fits
  | number x => exact fits.1
  | string s => exact fits.1
  | kept known => exact congrArg Token.kind fits

/-- Tokens that are these terminals one by one. -/
def Spell (items : List Terminal) (tokens : List Token) : Prop := List.Forall₂ Fits items tokens

/-- The terminals are found among the tokens in this order. -/
def Within (items : List Terminal) (tokens : List Token) : Prop :=
  ∃ found, found.Sublist tokens ∧ Spell items found

theorem Spell.append {first second : List Terminal} {front back : List Token}
    (h : Spell first front) (k : Spell second back) : Spell (first ++ second) (front ++ back) :=
  List.rel_append h k

theorem spell_append_iff {first second : List Terminal} {tokens : List Token} :
    Spell (first ++ second) tokens ↔
      ∃ front back, tokens = front ++ back ∧ Spell first front ∧ Spell second back := by
  constructor
  · intro h
    refine ⟨_, _, (List.take_append_drop first.length tokens).symm, ?_, ?_⟩
    · exact List.forall₂_take_append tokens first second (List.Forall₂.flip h) |>.flip
    · exact List.forall₂_drop_append tokens first second (List.Forall₂.flip h) |>.flip
  · rintro ⟨front, back, rfl, h, k⟩
    exact h.append k

theorem spell_cons_iff {item : Terminal} {items : List Terminal} {tokens : List Token} :
    Spell (item :: items) tokens ↔
      ∃ t more, tokens = t :: more ∧ item.Fits t ∧ Spell items more := by
  constructor
  · intro h
    cases h with
    | cons fits more => exact ⟨_, _, rfl, fits, more⟩
  · rintro ⟨t, more, rfl, fits, h⟩
    exact .cons fits h

@[simp] theorem spell_nil_iff {tokens : List Token} : Spell [] tokens ↔ tokens = [] := by
  simp [Spell]

theorem spell_singleton_iff {item : Terminal} {tokens : List Token} :
    Spell [item] tokens ↔ ∃ t, tokens = [t] ∧ item.Fits t := by
  simp [spell_cons_iff]

theorem Spell.kind_mem {items : List Terminal} {tokens : List Token} (h : Spell items tokens) :
    ∀ t ∈ tokens, ∃ item ∈ items, t.kind = item.kind := by
  induction h with
  | nil => exact nofun
  | cons fits _ ih =>
    intro t member
    rcases List.mem_cons.mp member with rfl | member
    · exact ⟨_, List.mem_cons_self, fits.kind_eq⟩
    · obtain ⟨item, inside, same⟩ := ih t member
      exact ⟨item, List.mem_cons_of_mem _ inside, same⟩

theorem Spell.within {items : List Terminal} {tokens : List Token} (h : Spell items tokens) :
    Within items tokens := ⟨tokens, List.Sublist.refl _, h⟩

theorem within_nil (tokens : List Token) : Within [] tokens :=
  ⟨[], List.nil_sublist _, List.Forall₂.nil⟩

theorem Within.append {first second : List Terminal} {front back : List Token}
    (h : Within first front) (k : Within second back) :
    Within (first ++ second) (front ++ back) := by
  obtain ⟨some, one, h⟩ := h
  obtain ⟨others, two, k⟩ := k
  exact ⟨some ++ others, one.append two, h.append k⟩

end Terminal

open Terminal

def Expr.yield : Expr → List Terminal
  | string s => [.string s]
  | number x => [.number x]
  | bool b => [.word (if b then .kwTrue else .kwFalse)]
  | nil => [.word .kwNil]
  | unary op operand => .kept op :: operand.yield
  | binary op left right | logical op left right => left.yield ++ .kept op :: right.yield
  | conditional condition yes no =>
    condition.yield ++ .word .question :: (yes.yield ++ .word .colon :: no.yield)
  | group inner => .word .leftParen :: (inner.yield ++ [.word .rightParen])
  | var name => [.kept name]
  | assign name value => .kept name :: .word .equal :: value.yield

mutual

def Stmt.yield : Stmt → List Terminal
  | .expression e => e.yield ++ [.word .semicolon]
  | .print e => .word .kwPrint :: (e.yield ++ [.word .semicolon])
  | .declare name none => [.word .kwVar, .kept name, .word .semicolon]
  | .declare name (some e) =>
    .word .kwVar :: .kept name :: .word .equal :: (e.yield ++ [.word .semicolon])
  | .block body => .word .leftBrace :: (Stmt.yieldAll body ++ [.word .rightBrace])
  | .branch condition yes none =>
    .word .kwIf :: .word .leftParen :: (condition.yield ++ .word .rightParen :: yes.yield)
  | .branch condition yes (some no) =>
    .word .kwIf :: .word .leftParen ::
      (condition.yield ++ .word .rightParen :: (yes.yield ++ .word .kwElse :: no.yield))
  | .loop condition body =>
    .word .kwWhile :: .word .leftParen :: (condition.yield ++ .word .rightParen :: body.yield)

def Stmt.yieldAll : List Stmt → List Terminal
  | [] => []
  | s :: rest => s.yield ++ Stmt.yieldAll rest

end

theorem Stmt.mem_yieldAll {item : Terminal} {body : List Stmt} :
    item ∈ Stmt.yieldAll body ↔ ∃ s ∈ body, item ∈ s.yield := by
  induction body with
  | nil => simp [Stmt.yieldAll]
  | cons s rest ih => simp [Stmt.yieldAll, ih]

theorem Stmt.yieldAll_append (first second : List Stmt) :
    yieldAll (first ++ second) = yieldAll first ++ yieldAll second := by
  induction first with
  | nil => rfl
  | cons s rest ih => simp only [List.cons_append, yieldAll, ih, List.append_assoc]

theorem Expr.yield_ne_nil (e : Expr) : e.yield ≠ [] := by cases e <;> simp [yield]

theorem Level.yield_join (level : Level) (op : Token) (left right : Expr) :
    (level.join op left right).yield = left.yield ++ .kept op :: right.yield := by
  cases level <;> rfl

end Scriptlet
