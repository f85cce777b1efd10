import Scriptlet.Proofs.Syntax.Names
import Scriptlet.Proofs.Text.Unquoted
import Scriptlet.Proofs.Token.Lexeme
import Scriptlet.Syntax.Text

/-!
The forms that trees are printed in: words, quoted texts, and nodes in parentheses. Where a form
ends can be seen from the form, so a text is that of one form at most.
-/

namespace Scriptlet

open Text

/-- The text of a tree, before it is written down. -/
inductive Form where
  | word (text : String)
  | quoted (text : String)
  | node (head : String) (parts : List Form)

def isInner (c : Char) : Bool := c ∉ [' ', '(', ')', '"']

/-- A word that neither starts like another form nor goes on in what follows it. -/
structure Plain (word : String) : Prop where
  ne_nil : word.toList ≠ []
  inner : ∀ c ∈ word.toList, isInner c

theorem plain_iff {word : String} :
    Plain word ↔ word.toList ≠ [] ∧ word.toList.all isInner := by
  rw [List.all_eq_true]
  exact ⟨fun plain => ⟨plain.ne_nil, plain.inner⟩, fun all => ⟨all.1, all.2⟩⟩

instance : DecidablePred Plain := fun _ => decidable_of_iff _ plain_iff.symm

namespace Form

mutual

def chars : Form → List Char
  | .word text => text.toList
  | .quoted text => Quoted.encode text.toList
  | .node head parts => '(' :: (head.toList ++ (spaced parts ++ [')']))

def spaced : List Form → List Char
  | [] => []
  | f :: parts => ' ' :: (f.chars ++ spaced parts)

end

inductive WellFormed : Form → Prop where
  | word {text : String} (plain : Plain text) : WellFormed (.word text)
  | quoted (text : String) : WellFormed (.quoted text)
  | node {head : String} {parts : List Form} (plain : Plain head)
    (each : ∀ f ∈ parts, WellFormed f) : WellFormed (.node head parts)

/-- Where the form ends in a text, and which it is, can be seen from the text. -/
def Delimited (f : Form) : Prop := ∀ ⦃g : Form⦄ ⦃rest more : List Char⦄, g.WellFormed →
  Stops isInner rest → Stops isInner more → f.chars ++ rest = g.chars ++ more → f = g ∧ rest = more

variable {rest more : List Char}

theorem plain_append_inj {v w : String} (first : Plain v) (second : Plain w)
    (stops : Stops isInner rest) (stops' : Stops isInner more)
    (same : v.toList ++ rest = w.toList ++ more) : v = w ∧ rest = more := by
  have words := congrArg (List.takeWhile isInner) same
  have behind := congrArg (List.dropWhile isInner) same
  rw [takeWhile_of_stops first.inner stops, takeWhile_of_stops second.inner stops'] at words
  rw [dropWhile_of_stops first.inner stops, dropWhile_of_stops second.inner stops'] at behind
  exact ⟨String.toList_inj.mp words, behind⟩

theorem plain_append_ne {w : String} (plain : Plain w) {c : Char} (outer : isInner c = false) :
    w.toList ++ rest ≠ c :: more := by
  obtain ⟨d, cs, chars⟩ := List.exists_cons_of_ne_nil plain.ne_nil
  have inner := plain.inner d (by simp [chars])
  rw [chars]
  rintro ⟨⟩
  rw [outer] at inner
  cases inner

theorem stops_spaced (parts : List Form) : Stops isInner (spaced parts ++ ')' :: rest) := by
  cases parts <;> rintro c ⟨⟩ <;> decide

theorem spaced_append_inj {parts others : List Form} (well : ∀ g ∈ others, g.WellFormed)
    (each : ∀ f ∈ parts, f.Delimited)
    (same : spaced parts ++ ')' :: rest = spaced others ++ ')' :: more) :
    parts = others ∧ rest = more := by
  induction parts generalizing others with
  | nil =>
    cases others with
    | nil => exact ⟨rfl, (List.cons.inj same).2⟩
    | cons g others => cases same
  | cons f parts ih =>
    cases others with
    | nil => cases same
    | cons g others =>
      obtain ⟨here, later⟩ := List.forall_mem_cons.mp each
      obtain ⟨first, second⟩ := List.forall_mem_cons.mp well
      simp only [spaced, List.cons_append, List.append_assoc, List.cons.injEq, true_and] at same
      obtain ⟨rfl, behind⟩ := here first (stops_spaced parts) (stops_spaced others) same
      obtain ⟨rfl, rfl⟩ := ih second later behind
      exact ⟨rfl, rfl⟩

theorem WellFormed.delimited {f : Form} (well : f.WellFormed) : f.Delimited := by
  intro g rest more well' stops stops' same
  induction well generalizing g rest more with
  | word plain =>
    cases well' with
    | word plain' =>
      obtain ⟨rfl, rfl⟩ := plain_append_inj plain plain' stops stops' same
      exact ⟨rfl, rfl⟩
    | quoted | node => exact absurd same (plain_append_ne plain rfl)
  | quoted =>
    cases well' with
    | word plain' => exact absurd same.symm (plain_append_ne plain' rfl)
    | quoted =>
      obtain ⟨texts, rfl⟩ := Quoted.encode_append_inj same
      rw [String.toList_inj.mp texts]
      exact ⟨rfl, rfl⟩
    | node => cases same
  | @node head parts plain _ ih =>
    cases well' with
    | word plain' => exact absurd same.symm (plain_append_ne plain' rfl)
    | quoted => cases same
    | @node head' parts' plain' each' =>
      simp only [chars, List.cons_append, List.append_assoc, List.cons.injEq, true_and,
        List.nil_append] at same
      obtain ⟨rfl, behind⟩ :=
        plain_append_inj plain plain' (stops_spaced parts) (stops_spaced parts') same
      obtain ⟨rfl, rfl⟩ := spaced_append_inj each' ih behind
      exact ⟨rfl, rfl⟩

/-- A text is that of one form at most. -/
theorem WellFormed.eq_of_chars {f g : Form} (well : f.WellFormed) (well' : g.WellFormed)
    (same : f.chars = g.chars) : f = g :=
  (well.delimited well' (stops_nil _) (stops_nil _) (congrArg (· ++ []) same)).1

end Form

def Expr.form : Expr → Form
  | string s => .quoted s
  | number x => .word (numberText x)
  | bool b => .word (if b then "true" else "false")
  | nil => .word "nil"
  | unary op operand => .node op.lexeme [operand.form]
  | binary op left right | logical op left right => .node op.lexeme [left.form, right.form]
  | conditional condition yes no => .node "?:" [condition.form, yes.form, no.form]
  | group inner => .node "group" [inner.form]
  | var name => .word name.lexeme
  | assign name value => .node "=" [.word name.lexeme, value.form]

mutual

def Stmt.form : Stmt → Form
  | .expression e => .node ";" [e.form]
  | .print e => .node "print" [e.form]
  | .declare name (some e) => .node "var" [.word name.lexeme, e.form]
  | .declare name none => .node "var" [.word name.lexeme]
  | .block body => .node "block" (Stmt.forms body)
  | .branch condition yes (some no) => .node "if" [condition.form, yes.form, no.form]
  | .branch condition yes none => .node "if" [condition.form, yes.form]
  | .loop condition body => .node "while" [condition.form, body.form]

def Stmt.forms : List Stmt → List Form
  | [] => []
  | s :: body => s.form :: Stmt.forms body

end

theorem Expr.toList_text (e : Expr) : e.text.toList = e.form.chars := by
  induction e with
  | string s => simp [text, form, Form.chars, quoted]
  | _ => simp_all [text, form, Form.chars, Form.spaced]

theorem Stmt.toList_spaced {body : List Stmt}
    (each : ∀ s ∈ body, s.text.toList = s.form.chars) :
    (Stmt.spaced body).toList = Form.spaced (Stmt.forms body) := by
  induction body with
  | nil => rfl
  | cons s body ih =>
    obtain ⟨here, each⟩ := List.forall_mem_cons.mp each
    simp [spaced, forms, Form.spaced, here, ih each]

theorem Stmt.toList_text (s : Stmt) : s.text.toList = s.form.chars := by
  induction s with
  | expression e | print e => simp [text, form, Form.chars, Form.spaced, e.toList_text]
  | declare name initializer =>
    cases initializer <;> simp [text, form, Form.chars, Form.spaced, Expr.toList_text]
  | block body ih => simp [text, form, Form.chars, toList_spaced ih]
  | branch condition yes no yesIH noIH =>
    cases no with
    | none => simp [text, form, Form.chars, Form.spaced, condition.toList_text, yesIH]
    | some no => simp [text, form, Form.chars, Form.spaced, condition.toList_text, yesIH, noIH]
  | loop condition body ih =>
    simp [text, form, Form.chars, Form.spaced, condition.toList_text, ih]

end Scriptlet
