import Scriptlet.Proofs.Syntax.Legible
import Scriptlet.Proofs.Syntax.Respelling

namespace Scriptlet

def Token.ofWord? (word : String) : Option Token :=
  match Piece.split word.toList with
  | [⟨.token kind literal, _⟩] => some ⟨kind, word, literal, 0⟩
  | _ => none

namespace Form

def token? : Form → Option Token
  | word text => Token.ofWord? text
  | _ => none

def expr? : Form → Option Expr
  | word text => (Token.ofWord? text).bind Expr.ofToken?
  | quoted text => some (.string text)
  | node head [inner] => do
    let op ← Token.ofWord? head
    let e ← inner.expr?
    return if op.kind.isUnary then .unary op e else .group e
  | node head [first, second] => do
    let op ← Token.ofWord? head
    let right ← second.expr?
    match op.kind.level? with
    | some level => return level.join op (← first.expr?) right
    | none => return .assign (← first.token?) right
  | node _ [condition, yes, no] => do
    return .conditional (← condition.expr?) (← yes.expr?) (← no.expr?)
  | _ => none

mutual

def stmt? : Form → Option Stmt
  | node ";" [e] => do return .expression (← e.expr?)
  | node "print" [e] => do return .print (← e.expr?)
  | node "var" [name] => do return .declare (← name.token?) none
  | node "var" [name, e] => do return .declare (← name.token?) (some (← e.expr?))
  | node "block" body => do return .block (← stmts? body)
  | node "if" [condition, yes] => do return .branch (← condition.expr?) (← yes.stmt?) none
  | node "if" [condition, yes, no] => do
    return .branch (← condition.expr?) (← yes.stmt?) (some (← no.stmt?))
  | node "while" [condition, body] => do return .loop (← condition.expr?) (← body.stmt?)
  | _ => none

def stmts? : List Form → Option (List Stmt)
  | [] => some []
  | f :: body => do return (← f.stmt?) :: (← stmts? body)

end

end Form

def Respelling.lineless : Respelling := .lines fun _ => 0

namespace Token

theorem ofWord?_of_lexeme {kind : Kind} {literal : Option Literal} {word : String}
    (lexeme : Lexeme kind literal word.toList []) :
    ofWord? word = some ⟨kind, word, literal, 0⟩ := by
  have alone := Piece.split_lexeme lexeme
  rw [List.append_nil, Piece.split_nil] at alone
  rw [ofWord?, alone]

theorem Legible.ofWord? {t : Token} (legible : t.Legible) :
    Token.ofWord? t.lexeme = some (Respelling.lineless.apply t) := ofWord?_of_lexeme legible

theorem Legible.plain {t : Token} (legible : t.Legible)
    (other : t.kind ≠ .string ∧ t.kind ≠ .leftParen ∧ t.kind ≠ .rightParen) : Plain t.lexeme :=
  Lexeme.plain legible other

end Token

theorem lexeme_numberText {x : Float} (unsigned : x.toBits.toNat < Binary64.infinity) :
    Lexeme .number (some (.number x)) (numberText x).toList [] := by
  obtain ⟨d, text, rfl⟩ := numberText_of_unsigned unsigned
  rw [text, String.toList_ofList]
  exact d.lexeme_digits (stops_nil _) (by simp)

theorem Kind.plain_of_level? {kind : Kind} {level : Level} (found : kind.level? = some level) :
    kind ≠ .string ∧ kind ≠ .leftParen ∧ kind ≠ .rightParen := by
  refine ⟨?_, ?_, ?_⟩ <;> rintro rfl <;> cases found

theorem Kind.plain_of_isUnary {kind : Kind} (unary : kind.isUnary) :
    kind ≠ .string ∧ kind ≠ .leftParen ∧ kind ≠ .rightParen := by
  refine ⟨?_, ?_, ?_⟩ <;> rintro rfl <;> cases unary

namespace Expr

/-- The text of the tree can be read, and what is read is the tree. -/
structure Faithful (e : Expr) : Prop where
  wellFormed : e.form.WellFormed
  read : e.form.expr? = some (e.respelled .lineless)

theorem Faithful.binary {op : Token} {level : Level} {left right : Expr}
    (operator : op.kind.level? = some level) (legible : op.Legible) (first : left.Faithful)
    (second : right.Faithful) : (level.join op left right).Faithful := by
  have form : (level.join op left right).form = .node op.lexeme [left.form, right.form] := by
    cases level <;> rfl
  constructor
  · rw [form]
    refine .node (legible.plain (Kind.plain_of_level? operator)) ?_
    simp [first.wellFormed, second.wellFormed]
  · rw [form, join_respelled, Form.expr?, legible.ofWord?, first.read, second.read]
    simp [operator]

theorem faithful {e : Expr} (canonical : e.Canonical)
    (legible : ∀ item ∈ e.yield, item.Legible) : e.Faithful := by
  induction canonical with
  | string s => exact ⟨.quoted s, rfl⟩
  | number x =>
    have unsigned : x.toBits.toNat < Binary64.infinity := legible (.number x) (by simp [yield])
    have lexeme := lexeme_numberText unsigned
    refine ⟨.word (lexeme.plain (by decide)), ?_⟩
    rw [form, Form.expr?, Token.ofWord?_of_lexeme lexeme]
    rfl
  | bool b =>
    have known : Token.ofWord? "true" = some ⟨.kwTrue, "true", none, 0⟩ ∧
        Token.ofWord? "false" = some ⟨.kwFalse, "false", none, 0⟩ := by decide +kernel
    cases b
    · exact ⟨.word (by decide), congrArg (·.bind ofToken?) known.2⟩
    · exact ⟨.word (by decide), congrArg (·.bind ofToken?) known.1⟩
  | nil =>
    have known : Token.ofWord? "nil" = some ⟨.kwNil, "nil", none, 0⟩ := by decide +kernel
    exact ⟨.word (by decide), congrArg (·.bind ofToken?) known⟩
  | @unary op operand operator _ _ ih =>
    obtain ⟨sign, inner⟩ := List.forall_mem_cons.mp legible
    have inner := ih inner
    constructor
    · refine .node (Token.Legible.plain sign (Kind.plain_of_isUnary operator)) ?_
      simp [inner.wellFormed]
    · rw [form, Form.expr?, Token.Legible.ofWord? sign, inner.read]
      simp [operator, mapTokens]
  | binary operator plain _ _ _ first second =>
    obtain ⟨left, right⟩ := List.forall_mem_append.mp legible
    obtain ⟨sign, right⟩ := List.forall_mem_cons.mp right
    rw [← Level.join_of_plain plain]
    exact .binary operator sign (first left) (second right)
  | logical operator decides _ _ _ first second =>
    obtain ⟨left, right⟩ := List.forall_mem_append.mp legible
    obtain ⟨sign, right⟩ := List.forall_mem_cons.mp right
    rw [← Level.join_of_logical decides]
    exact .binary operator sign (first left) (second right)
  | conditional _ _ _ _ test first second =>
    simp only [yield, List.forall_mem_append, List.forall_mem_cons] at legible
    have test := test legible.1
    have first := first legible.2.2.1
    have second := second legible.2.2.2.2
    constructor
    · refine .node (by decide) ?_
      simp [test.wellFormed, first.wellFormed, second.wellFormed]
    · simp [form, Form.expr?, test.read, first.read, second.read, mapTokens]
  | group _ ih =>
    simp only [yield, List.forall_mem_append, List.forall_mem_cons] at legible
    have inner := ih legible.2.1
    have head : Token.ofWord? "group" = some ⟨.name, "group", none, 0⟩ := by
      decide +kernel
    constructor
    · refine .node (by decide) ?_
      simp [inner.wellFormed]
    · simp [form, Form.expr?, head, inner.read, mapTokens, Kind.isUnary]
  | @var name named =>
    have nameLegible : name.Legible := legible (.kept name) (by simp [yield])
    constructor
    · exact .word (nameLegible.plain (by simp [named]))
    · rw [form, Form.expr?, nameLegible.ofWord?]
      simp [Expr.ofToken?, named, mapTokens]
  | @assign name value named _ _ ih =>
    simp only [yield, List.forall_mem_cons] at legible
    have nameLegible : name.Legible := legible.1
    have given := ih legible.2.2
    have head : Token.ofWord? "=" = some ⟨.equal, "=", none, 0⟩ := by decide +kernel
    constructor
    · refine .node (by decide) ?_
      simp [given.wellFormed, Form.WellFormed.word (nameLegible.plain (by simp [named]))]
    · simp [form, Form.expr?, Form.token?, head, nameLegible.ofWord?, given.read, mapTokens,
        Kind.level?]

end Expr

namespace Stmt

structure Faithful (s : Stmt) : Prop where
  wellFormed : s.form.WellFormed
  read : s.form.stmt? = some (s.respelled .lineless)

theorem faithful_forms {body : List Stmt} (each : ∀ s ∈ body, s.Faithful) :
    (∀ f ∈ forms body, f.WellFormed) ∧
      Form.stmts? (forms body) = some (body.map (respelled .lineless)) := by
  induction body with
  | nil => exact ⟨nofun, rfl⟩
  | cons s body ih =>
    obtain ⟨here, each⟩ := List.forall_mem_cons.mp each
    obtain ⟨wellFormed, read⟩ := ih each
    refine ⟨List.forall_mem_cons.mpr ⟨here.wellFormed, wellFormed⟩, ?_⟩
    simp [forms, Form.stmts?, here.read, read]

theorem faithful {s : Stmt} (canonical : s.Canonical)
    (legible : ∀ item ∈ s.yield, item.Legible) : s.Faithful := by
  induction canonical with
  | expression canonical =>
    have inner := Expr.faithful canonical (List.forall_mem_append.mp legible).1
    constructor
    · exact .node (by decide) (by simp [inner.wellFormed])
    · simp [form, Form.stmt?, inner.read, mapTokens]
  | print canonical =>
    simp only [yield, List.forall_mem_append, List.forall_mem_cons] at legible
    have inner := Expr.faithful canonical legible.2.1
    constructor
    · exact .node (by decide) (by simp [inner.wellFormed])
    · simp [form, Form.stmt?, inner.read, mapTokens]
  | @bare name named =>
    simp only [yield, List.forall_mem_cons] at legible
    have nameLegible : name.Legible := legible.2.1
    have word := Form.WellFormed.word (nameLegible.plain (by simp [named]))
    constructor
    · exact .node (by decide) (by simp [word])
    · simp [form, Form.stmt?, Form.token?, nameLegible.ofWord?, mapTokens]
  | @declare name e named canonical =>
    simp only [yield, List.forall_mem_append, List.forall_mem_cons] at legible
    have nameLegible : name.Legible := legible.2.1
    have word := Form.WellFormed.word (nameLegible.plain (by simp [named]))
    have inner := Expr.faithful canonical legible.2.2.2.1
    constructor
    · exact .node (by decide) (by simp [word, inner.wellFormed])
    · simp [form, Form.stmt?, Form.token?, nameLegible.ofWord?, inner.read, mapTokens]
  | @block body _ ih =>
    simp only [yield, List.forall_mem_append, List.forall_mem_cons] at legible
    have each : ∀ s ∈ body, s.Faithful := fun s member =>
      ih s member fun item inside => legible.2.1 item (mem_yieldAll.mpr ⟨s, member, inside⟩)
    obtain ⟨wellFormed, read⟩ := faithful_forms each
    constructor
    · exact .node (by decide) wellFormed
    · simp [form, Form.stmt?, read, mapTokens, mapTokensAll_eq_map]
  | branch canonical _ first =>
    simp only [yield, List.forall_mem_append, List.forall_mem_cons] at legible
    have test := Expr.faithful canonical legible.2.2.1
    have yes := first legible.2.2.2.2
    constructor
    · exact .node (by decide) (by simp [test.wellFormed, yes.wellFormed])
    · simp [form, Form.stmt?, test.read, yes.read, mapTokens]
  | branches canonical _ _ _ first second =>
    simp only [yield, List.forall_mem_append, List.forall_mem_cons] at legible
    have test := Expr.faithful canonical legible.2.2.1
    have yes := first legible.2.2.2.2.1
    have no := second legible.2.2.2.2.2.2
    constructor
    · exact .node (by decide) (by simp [test.wellFormed, yes.wellFormed, no.wellFormed])
    · simp [form, Form.stmt?, test.read, yes.read, no.read, mapTokens]
  | loop canonical _ inside =>
    simp only [yield, List.forall_mem_append, List.forall_mem_cons] at legible
    have test := Expr.faithful canonical legible.2.2.1
    have body := inside legible.2.2.2.2
    constructor
    · exact .node (by decide) (by simp [test.wellFormed, body.wellFormed])
    · simp [form, Form.stmt?, test.read, body.read, mapTokens]

theorem Faithful.respelled_eq {s t : Stmt} (faithful : s.Faithful) (other : t.Faithful)
    (same : s.text = t.text) : s.respelled .lineless = t.respelled .lineless := by
  have chars := congrArg String.toList same
  rw [toList_text, toList_text] at chars
  have form := faithful.wellFormed.eq_of_chars other.wellFormed chars
  exact Option.some.inj (faithful.read.symm.trans ((congrArg Form.stmt? form).trans other.read))

theorem map_respelled_eq {first second : List Stmt} (faithful : ∀ s ∈ first, s.Faithful)
    (other : ∀ s ∈ second, s.Faithful) (same : first.map text = second.map text) :
    first.map (respelled .lineless) = second.map (respelled .lineless) := by
  induction first generalizing second with
  | nil => cases second with
    | nil => rfl
    | cons => cases same
  | cons s first ih => cases second with
    | nil => cases same
    | cons t second =>
      obtain ⟨here, later⟩ := List.cons.inj same
      obtain ⟨left, lefts⟩ := List.forall_mem_cons.mp faithful
      obtain ⟨right, rights⟩ := List.forall_mem_cons.mp other
      rw [List.map_cons, List.map_cons, left.respelled_eq right here, ih lefts rights later]

end Stmt

namespace Program

theorem faithful_ofSource {source : String} (finite : FiniteNumbers source) :
    ∀ s ∈ (ofSource source).statements, s.Faithful := fun s member =>
  Stmt.faithful (canonical_ofSource source s member) fun item inside =>
    legible_ofSource finite item (Stmt.mem_yieldAll.mpr ⟨s, member, inside⟩)

/-- Two source texts whose statements have the same texts have the same statements, but for the
lines of their tokens. Whether a text has faults does not matter; that its numbers are finite does,
as infinity has the text of a name. -/
theorem statements_of_texts {a b : String} (finite : FiniteNumbers a) (finite' : FiniteNumbers b)
    (same : (ofSource a).statements.map Stmt.text = (ofSource b).statements.map Stmt.text) :
    (ofSource a).statements.map (Stmt.respelled .lineless) =
      (ofSource b).statements.map (Stmt.respelled .lineless) :=
  Stmt.map_respelled_eq (faithful_ofSource finite) (faithful_ofSource finite') same

theorem statements_of_texts_zeros :
    FiniteNumbers "-1.0;" ∧ FiniteNumbers "\n-1;)" ∧
      (ofSource "-1.0;").statements.map Stmt.text = (ofSource "\n-1;)").statements.map Stmt.text ∧
      (ofSource "-1.0;").statements ≠ (ofSource "\n-1;)").statements ∧
      (ofSource "-1.0;").statements.map (Stmt.respelled .lineless) =
        (ofSource "\n-1;)").statements.map (Stmt.respelled .lineless) := by
  have pieces : Piece.split "-1.0;".toList = [⟨.token .minus none, ['-']⟩,
      ⟨.token .number (some (.number (Decimal.ofDigits ['1'] ['0']).toFloat)), ['1', '.', '0']⟩,
      ⟨.token .semicolon none, [';']⟩] := by
    repeat refine (Piece.split_of_first rfl).trans (congrArg _ ?_)
    exact Piece.split_nil
  have pieces' : Piece.split "\n-1;)".toList = [⟨.newline, ['\n']⟩, ⟨.token .minus none, ['-']⟩,
      ⟨.token .number (some (.number (Decimal.ofDigits ['1'] []).toFloat)), ['1']⟩,
      ⟨.token .semicolon none, [';']⟩, ⟨.token .rightParen none, [')']⟩] := by
    repeat refine (Piece.split_of_first rfl).trans (congrArg _ ?_)
    exact Piece.split_nil
  have value : (Decimal.ofDigits ['1'] ['0']).toFloat = 1 ∧
      (Decimal.ofDigits ['1'] []).toFloat = 1 ∧ (1 : Float).isFinite := by decide +kernel
  have first : scan "-1.0;" = ⟨[⟨.minus, "-", none, 1⟩, ⟨.number, "1.0", some (.number 1), 1⟩,
      ⟨.semicolon, ";", none, 1⟩, .endAt 1], []⟩ := by rw [scan, pieces, value.1]; rfl
  have second : scan "\n-1;)" = ⟨[⟨.minus, "-", none, 2⟩, ⟨.number, "1", some (.number 1), 2⟩,
      ⟨.semicolon, ";", none, 2⟩, ⟨.rightParen, ")", none, 2⟩, .endAt 2], []⟩ := by
    rw [scan, pieces', value.2.1]; rfl
  have tree : (ofSource "-1.0;").statements =
      [.expression (.unary ⟨.minus, "-", none, 1⟩ (.number 1))] := by rw [ofSource, first]; cbv
  have tree' : (ofSource "\n-1;)").statements =
      [.expression (.unary ⟨.minus, "-", none, 2⟩ (.number 1))] := by rw [ofSource, second]; cbv
  have numbers : FiniteNumbers "-1.0;" := by
    simpa [FiniteNumbers, first, Token.endAt] using value.2.2
  have numbers' : FiniteNumbers "\n-1;)" := by
    simpa [FiniteNumbers, second, Token.endAt] using value.2.2
  have texts : (ofSource "-1.0;").statements.map Stmt.text =
      (ofSource "\n-1;)").statements.map Stmt.text := by rw [tree, tree']; rfl
  refine ⟨numbers, numbers', texts, ?_, statements_of_texts numbers numbers' texts⟩
  rw [tree, tree']
  simp

end Program

end Scriptlet
