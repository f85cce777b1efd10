import Scriptlet.Value

namespace Scriptlet

/-- The bindings of one scope, in the order in which the names first got a value. -/
abbrev Scope := List (String × Value)

namespace Scope

def get? (x : String) : Scope → Option Value
  | [] => none
  | (y, v) :: rest => if x = y then some v else get? x rest

def set (x : String) (v : Value) : Scope → Scope
  | [] => [(x, v)]
  | (y, w) :: rest => if x = y then (y, v) :: rest else (y, w) :: set x v rest

theorem get?_set_self (scope : Scope) (x : String) (v : Value) :
    (scope.set x v).get? x = some v := by
  fun_induction set x v scope <;> simp_all [get?]

theorem get?_set_of_ne (scope : Scope) {x y : String} (v : Value) (other : y ≠ x) :
    (scope.set x v).get? y = scope.get? y := by
  fun_induction set x v scope <;> simp_all [get?]

end Scope

structure Env where
  innermost : Scope
  enclosing : List Scope
deriving DecidableEq, Repr

namespace Env

def empty : Env := ⟨[], []⟩

def scopes (env : Env) : List Scope := env.innermost :: env.enclosing

def depth (env : Env) : Nat := env.scopes.length

def define (env : Env) (x : String) (v : Value) : Env :=
  { env with innermost := env.innermost.set x v }

def get? (env : Env) (x : String) : Option Value := env.scopes.findSome? (·.get? x)

/-- The scopes with the nearest binding of `x` changed; `none` if there is none. -/
def update? (x : String) (v : Value) : List Scope → Option (List Scope)
  | [] => none
  | scope :: rest =>
    if (scope.get? x).isSome then some (scope.set x v :: rest)
    else (update? x v rest).map (scope :: ·)

/-- Changes the nearest binding and never makes one. -/
def assign? (env : Env) (x : String) (v : Value) : Option Env :=
  if (env.innermost.get? x).isSome then some (env.define x v)
  else (update? x v env.enclosing).map fun scopes => { env with enclosing := scopes }

def enter (env : Env) : Env := ⟨[], env.scopes⟩

/-- Drops the innermost scope unless it is the only one. -/
def exit (env : Env) : Env :=
  match env.enclosing with
  | [] => env
  | scope :: rest => ⟨scope, rest⟩

end Env

end Scriptlet
