import Scriptlet.Diagnostic

/-!
Steps of parsing. A step reads some tokens off the front of a list; it may fail, may report
faults either way, and says what it left. What is left is an end of the list, and a `strict`
step that succeeds has read at least one token.
-/

namespace Scriptlet

/-- A fault and the tokens that were ahead when it was found, the first of them to blame; if
there are none, the end is. -/
structure Report where
  fault : Fault
  ahead : List Token
deriving DecidableEq, Repr

def Report.diagnostic (closing : Token) (r : Report) : Diagnostic :=
  .atToken (r.ahead.headD closing) r.fault

structure Outcome (α : Type) where
  value : Option α
  reports : List Report
  rest : List Token

namespace Outcome

def bind (o : Outcome α) (f : α → List Token → Outcome β) : Outcome β :=
  match o.value with
  | none => ⟨none, o.reports, o.rest⟩
  | some a => { f a o.rest with reports := o.reports ++ (f a o.rest).reports }

def map (f : α → β) (o : Outcome α) : Outcome β := ⟨o.value.map f, o.reports, o.rest⟩

end Outcome

structure Step (strict : Bool) (tokens : List Token) (α : Type) extends Outcome α where
  suffix : rest <:+ tokens
  progress : value.isSome → rest.length + strict.toNat ≤ tokens.length

namespace Step

variable {strict : Bool} {tokens : List Token} {α β : Type}

def done (a : α) (tokens : List Token) : Step false tokens α :=
  ⟨⟨some a, [], tokens⟩, List.suffix_rfl, fun _ => Nat.le_refl _⟩

/-- Fails and blames the next token. -/
def fail (fault : Fault) (tokens : List Token) : Step strict tokens α :=
  ⟨⟨none, [⟨fault, tokens⟩], tokens⟩, List.suffix_rfl, nofun⟩

def map (f : α → β) (s : Step strict tokens α) : Step strict tokens β :=
  ⟨s.toOutcome.map f, s.suffix, fun some => s.progress (by simpa [Outcome.map] using some)⟩

def after (t : Token) (s : Step strict tokens α) : Step true (t :: tokens) α :=
  ⟨s.toOutcome, s.suffix.trans (List.suffix_cons t tokens),
    fun _ => Nat.succ_le_succ s.suffix.length_le⟩

def weaken (s : Step strict tokens α) : Step false tokens α :=
  ⟨s.toOutcome, s.suffix, fun _ => s.suffix.length_le⟩

theorem either_shortens {first second : Bool} {before between left : Nat}
    (one : between + first.toNat ≤ before) (kept : left ≤ between)
    (other : left + second.toNat ≤ between) : left + (first || second).toNat ≤ before := by
  cases first
  · exact Nat.le_trans other one
  · exact Nat.le_trans (Nat.succ_le_succ kept) one

/-- Goes on from a success where it left off; a failure stays one. -/
def andThen {next : Bool} (s : Step strict tokens α)
    (f : α → (rest : List Token) → rest.length + strict.toNat ≤ tokens.length →
      Step next rest β) : Step (strict || next) tokens β :=
  match h : s.value with
  | none => ⟨⟨none, s.reports, s.rest⟩, s.suffix, nofun⟩
  | some a =>
    let shorter := s.progress (by simp [h])
    let t := f a s.rest shorter
    ⟨{ t with reports := s.reports ++ t.reports }, t.suffix.trans s.suffix, fun some =>
      either_shortens shorter t.suffix.length_le (t.progress some)⟩

/-- Reports a fault, and keeps nothing of what the step read but its own reports. -/
def discard (report : Report) (s : Step strict tokens α) : Step false tokens β :=
  ⟨⟨none, report :: s.reports, s.rest⟩, s.suffix, nofun⟩

/-- Reads a token of the kind, or fails. -/
def expect (kind : Kind) (fault : Fault) : (tokens : List Token) → Step true tokens Token
  | [] => fail fault []
  | t :: rest => if t.kind = kind then (done t rest).after t else fail fault (t :: rest)

/-- Goes on with `f` after a token of a kind that `wanted` accepts, and otherwise is done. -/
def continueIf (wanted : Kind → Bool) (a : α) (tokens : List Token)
    (f : (t : Token) → (more : List Token) → more.length < tokens.length → Step strict more α) :
    Step false tokens α :=
  match tokens with
  | [] => done a []
  | t :: more =>
    if wanted t.kind then ((f t more (Nat.lt_succ_self _)).after t).weaken
    else done a (t :: more)

theorem toOutcome_andThen {next : Bool} (s : Step strict tokens α)
    (f : α → (rest : List Token) → rest.length + strict.toNat ≤ tokens.length →
      Step next rest β)
    (g : α → List Token → Outcome β)
    (same : ∀ a rest short, (f a rest short).toOutcome = g a rest) :
    (s.andThen f).toOutcome = s.toOutcome.bind g := by
  unfold andThen Outcome.bind
  split
  · rename_i failed
    simp [failed]
  · rename_i a found
    have agree := same a s.rest (s.progress (by simp [found]))
    simp only [found, ← agree]

@[simp] theorem toOutcome_map (f : α → β) (s : Step strict tokens α) :
    (s.map f).toOutcome = s.toOutcome.map f := rfl

@[simp] theorem toOutcome_after (t : Token) (s : Step strict tokens α) :
    (s.after t).toOutcome = s.toOutcome := rfl

@[simp] theorem toOutcome_weaken (s : Step strict tokens α) :
    s.weaken.toOutcome = s.toOutcome := rfl

end Step

end Scriptlet
