import Scriptlet.Proofs.Grammar.Program

/-!
Reading at a cursor: tokens are looked at by their place in the whole list, whose end is known by
an end mark only. That a place lies within the list, that reading ends and that it gets no further
than the end mark is not built in.
-/

namespace Scriptlet

/-- A place in a list of tokens, with what was reported on the way there. -/
structure Cursor where
  current : Nat
  reported : List Diagnostic

namespace Cursor

/-- The tokens with an end mark behind them, unless the last of them is one. -/
def closed (tokens : List Token) : List Token :=
  if tokens.getLast?.any (·.kind = .endMark) then tokens
  else tokens ++ [.endAt ((tokens.getLast?.map Token.line).getD 1)]

/-- There is no answer if reading looks behind the last token or goes deeper than its fuel allows.
Otherwise a cursor is left, with a value unless what was read has to be given up. -/
abbrev Read (α : Type) : Type := OptionT (StateT Cursor Option) α

/-- What reads on without an end, as the fuel shows. -/
def exhausted {α : Type} : Read α := fun _ => none

variable (tokens : List Token)

def peek : Read Token := fun c => tokens[c.current]?.map fun t => (some t, c)

/-- Moves on, but not over an end mark. -/
def advance : Read Token := do
  let t ← peek tokens
  if t.kind = .endMark then return t
  modify fun c => { c with current := c.current + 1 }
  return t

def report (t : Token) (fault : Fault) : Read Unit :=
  modify fun c => { c with reported := c.reported ++ [.atToken t fault] }

def refuse {α : Type} (t : Token) (fault : Fault) : Read α := do
  report t fault
  failure

def expect (kind : Kind) (fault : Fault) : Read Token := do
  let t ← peek tokens
  if t.kind = kind then advance tokens else refuse t fault

def accept (wanted : Kind → Bool) : Read (Option Token) := do
  let t ← peek tokens
  if wanted t.kind then return some (← advance tokens)
  return none

mutual

def expression (fuel : Nat) (level : Level) : Read Expr :=
  match fuel with
  | 0 => exhausted
  | fuel + 1 =>
    match level with
    | .comma | .or | .and | .equality | .comparison | .term | .factor => do
      let left ← expression fuel level.next
      operations fuel level left
    | .assignment => do
      let target ← expression fuel .conditional
      match ← accept tokens (· = .equal) with
      | none => return target
      | some equal =>
        let value ← expression fuel .assignment
        match target with
        | .var name => return .assign name value
        | _ =>
          report equal .invalidTarget
          return target
    | .conditional => do
      let condition ← expression fuel .or
      match ← accept tokens (· = .question) with
      | none => return condition
      | some _ =>
        let yes ← expression fuel .comma
        let _ ← expect tokens .colon .missingColon
        let no ← expression fuel .comma
        return .conditional condition yes no
    | .unary => do
      match ← accept tokens Kind.isUnary with
      | none => expression fuel .primary
      | some op =>
        let operand ← expression fuel .primary
        return .unary op operand
    | .primary => do
      let t ← peek tokens
      match Expr.ofToken? t, t.kind.orphanLevel? with
      | some e, _ =>
        let _ ← advance tokens
        return e
      | none, some level =>
        let op ← advance tokens
        report op .missingLeftOperand
        let _ ← expression fuel level
        failure
      | none, none =>
        if t.kind = .leftParen then
          let _ ← advance tokens
          let inner ← expression fuel .comma
          let _ ← expect tokens .rightParen .unclosedGroup
          return .group inner
        else refuse t .expectedExpression

def operations (fuel : Nat) (level : Level) (left : Expr) : Read Expr :=
  match fuel with
  | 0 => exhausted
  | fuel + 1 => do
    match ← accept tokens (·.level? = some level) with
    | none => return left
    | some op =>
      let right ← expression fuel level.next
      operations fuel level (level.join op left right)

end

def ended (fuel : Nat) (fault : Fault) (node : Expr → Stmt) : Read Stmt := do
  let e ← expression tokens fuel .comma
  let _ ← expect tokens .semicolon fault
  return node e

def initializer (fuel : Nat) : Read (Option Expr) := do
  match ← accept tokens (· = .equal) with
  | none => return none
  | some _ =>
    let value ← expression tokens fuel .comma
    return some value

def declaration (fuel : Nat) : Read Stmt := do
  let name ← expect tokens .name .missingName
  let value ← initializer tokens fuel
  let _ ← expect tokens .semicolon .unendedDeclaration
  return .declare name value

def condition (fuel : Nat) (unopened unclosed : Fault) : Read Expr := do
  let _ ← expect tokens .leftParen unopened
  let e ← expression tokens fuel .comma
  let _ ← expect tokens .rightParen unclosed
  return e

def skip (fuel : Nat) (passed : Token) : Read Unit :=
  match fuel with
  | 0 => exhausted
  | fuel + 1 => do
    let t ← peek tokens
    if t.kind = .endMark || passed.kind = .semicolon || t.kind.startsStatement then return ()
    skip fuel (← advance tokens)

def resume (fuel : Nat) : Read Unit := do
  skip tokens fuel (← advance tokens)

def recover (fuel : Nat) (walk : Read Stmt) : Read (Option Stmt) := fun c =>
  (walk c).bind fun (found, d) =>
    match found with
    | some s => some (some (some s), d)
    | none => (resume tokens fuel d).map fun (_, behind) => (some none, behind)

mutual

def statement (fuel : Nat) : Read Stmt :=
  match fuel with
  | 0 => exhausted
  | fuel + 1 => do
    let t ← peek tokens
    match t.kind with
    | .kwVar =>
      let _ ← advance tokens
      declaration tokens fuel
    | .kwPrint =>
      let _ ← advance tokens
      ended tokens fuel .unendedPrint .print
    | .leftBrace =>
      let _ ← advance tokens
      let body ← statements fuel true
      let _ ← expect tokens .rightBrace .unclosedBlock
      return .block body
    | .kwIf =>
      let _ ← advance tokens
      let e ← condition tokens fuel .ifWithoutParen .unclosedIfCondition
      let yes ← statement fuel
      match ← accept tokens (· = .kwElse) with
      | none => return .branch e yes none
      | some _ =>
        let no ← statement fuel
        return .branch e yes (some no)
    | .kwWhile =>
      let _ ← advance tokens
      let e ← condition tokens fuel .whileWithoutParen .unclosedWhileCondition
      let body ← statement fuel
      return .loop e body
    | _ => ended tokens fuel .unendedExpression .expression

def statements (fuel : Nat) (inBlock : Bool) : Read (List Stmt) :=
  match fuel with
  | 0 => exhausted
  | fuel + 1 => do
    let t ← peek tokens
    if t.kind = .endMark || (inBlock && t.kind = .rightBrace) then return []
    let found ← recover tokens fuel (statement fuel)
    let others ← statements fuel inBlock
    return found.toList ++ others

end

end Cursor

end Scriptlet
