import Scriptlet.Proofs.Grammar.Lookahead

/-!
Invariants of reading. What holds of the tokens before a step, and survives each token that the
step may read, holds of the tokens at every fault and of those that are left.
-/

namespace Scriptlet

variable {α β : Type}

namespace Outcome

structure Ensures (o : Outcome α) (reported : Report → Prop) (failed : List Token → Prop)
    (found : α → List Token → Prop) : Prop where
  reports : ∀ r ∈ o.reports, reported r
  failed : o.value = none → failed o.rest
  found : ∀ a, o.value = some a → found a o.rest

namespace Ensures

variable {o : Outcome α} {reported : Report → Prop} {failed : List Token → Prop}
  {found : α → List Token → Prop} {tokens : List Token}

theorem done {a : α} (holds : found a tokens) :
    (Outcome.done a tokens).Ensures reported failed found := by
  constructor
  · exact nofun
  · exact nofun
  · rintro _ ⟨⟩; exact holds

theorem fail {fault : Fault} (blamed : reported ⟨fault, tokens⟩) (holds : failed tokens) :
    (Outcome.fail fault tokens).Ensures reported failed found := by
  constructor
  · intro r member
    obtain rfl := List.mem_singleton.mp member
    exact blamed
  · exact fun _ => holds
  · exact nofun

theorem mono {looser : Report → Prop} {weaker : List Token → Prop}
    {after : α → List Token → Prop} (h : o.Ensures reported failed found)
    (report : ∀ r, reported r → looser r) (fails : ∀ rest, failed rest → weaker rest)
    (finds : ∀ a rest, found a rest → after a rest) : o.Ensures looser weaker after :=
  ⟨fun r member => report r (h.reports r member), fun none => fails _ (h.failed none),
    fun a some => finds a _ (h.found a some)⟩

theorem bind {f : α → List Token → Outcome β} {after : β → List Token → Prop}
    (h : o.Ensures reported failed found)
    (next : ∀ a, o.value = some a → found a o.rest →
      (f a o.rest).Ensures reported failed after) : (o.bind f).Ensures reported failed after := by
  cases value : o.value with
  | none =>
    rw [bind_of_failed value]
    exact ⟨h.reports, fun _ => h.failed value, nofun⟩
  | some a =>
    have k := next a value (h.found a value)
    rw [bind_of_found value]
    refine ⟨fun r member => ?_, k.failed, k.found⟩
    obtain member | member := List.mem_append.mp member
    · exact h.reports r member
    · exact k.reports r member

theorem map {f : α → β} {after : β → List Token → Prop}
    (h : o.Ensures reported failed fun a rest => after (f a) rest) :
    (o.map f).Ensures reported failed after := by
  rw [map_eq_bind]
  exact h.bind fun a _ holds => done holds

theorem expect {kind : Kind} {fault : Fault} {found : Token → List Token → Prop}
    (blamed : reported ⟨fault, tokens⟩) (holds : failed tokens)
    (finds : ∀ t more, tokens = t :: more → t.kind = kind → found t more) :
    (Outcome.expect kind fault tokens).Ensures reported failed found := by
  cases tokens with
  | nil => exact fail blamed holds
  | cons t more =>
    by_cases same : t.kind = kind
    · rw [expect_cons same]
      exact done (finds t more rfl same)
    · simp only [Outcome.expect, if_neg same]
      exact fail blamed holds

theorem continueIf {wanted : Kind → Bool} {a : α} {f : Token → List Token → Outcome α}
    (stop : found a tokens)
    (goes : ∀ t more, tokens = t :: more → wanted t.kind →
      (f t more).Ensures reported failed found) :
    (Outcome.continueIf wanted a f tokens).Ensures reported failed found := by
  cases tokens with
  | nil => exact done stop
  | cons t more =>
    cases asked : wanted t.kind with
    | true =>
      rw [continueIf_cons asked]
      exact goes t more rfl asked
    | false => simpa [Outcome.continueIf, asked] using done stop

theorem discard {report : Report} {after : β → List Token → Prop}
    (h : o.Ensures reported failed fun _ => failed) (blamed : reported report) :
    (o.discard report : Outcome β).Ensures reported failed after := by
  constructor
  · intro r member
    obtain rfl | member := List.mem_cons.mp member
    · exact blamed
    · exact h.reports r member
  · intro _
    cases value : o.value with
    | none => exact h.failed value
    | some a => exact h.found a value
  · exact nofun

theorem recover {kept never : List Token → Prop}
    (h : o.Ensures reported (fun rest => kept (Grammar.resume rest)) fun _ => kept) :
    o.recover.Ensures reported never fun _ => kept := by
  refine ⟨h.reports, nofun, fun _ _ => ?_⟩
  cases value : o.value with
  | none => simpa [Outcome.recover, value] using h.failed value
  | some a => simpa [Outcome.recover, value] using h.found a value

end Ensures

end Outcome

namespace Fault

def ofExpr : List Fault :=
  [expectedExpression, missingLeftOperand, invalidTarget, unclosedGroup, missingColon]

def ofSimple : List Fault :=
  [missingName, unendedDeclaration, unendedPrint, unendedExpression] ++ ofExpr

end Fault

/-- The fault is one of those, and the invariant holds where it was found. -/
def Report.Among (faults : List Fault) (I : List Token → Prop) (r : Report) : Prop :=
  r.fault ∈ faults ∧ I r.ahead

namespace Report.Among

variable {faults more : List Fault} {I : List Token → Prop}

theorem blame {fault : Fault} {ahead : List Token} (known : fault ∈ faults) (holds : I ahead) :
    Among faults I ⟨fault, ahead⟩ := ⟨known, holds⟩

theorem widen (subset : faults ⊆ more) (r : Report) (h : r.Among faults I) : r.Among more I :=
  ⟨subset h.1, h.2⟩

end Report.Among

namespace Grammar

open Outcome

section

variable {I : List Token → Prop}

def KeepsExpr (I : List Token → Prop) (level : Level) (tokens : List Token) : Prop :=
  I tokens → (readExpr level tokens).Ensures (Report.Among Fault.ofExpr I) I fun _ => I

def KeepsChain (I : List Token → Prop) (level : Level) (left : Expr) (tokens : List Token) :
    Prop :=
  I tokens → (readOperations level left tokens).Ensures (Report.Among Fault.ofExpr I) I fun _ => I

theorem expect_length (kind : Kind) (fault : Fault) (tokens : List Token) :
    (Outcome.expect kind fault tokens).rest.length ≤ tokens.length := by
  rw [← Step.toOutcome_expect]
  exact (Step.expect kind fault tokens).suffix.length_le

/-- What is left behind a semicolon before which the invariant still held. -/
def Behind (I : List Token → Prop) (rest : List Token) : Prop :=
  ∃ t, t.kind = .semicolon ∧ I (t :: rest)

theorem expect_semicolon {fault : Fault} {faults : List Fault} (known : fault ∈ faults)
    {tokens : List Token} (holds : I tokens) :
    (Outcome.expect .semicolon fault tokens).Ensures (Report.Among faults I) I
      fun _ => Behind I := by
  apply Ensures.expect (.blame known holds) holds
  rintro t more rfl ends
  exact ⟨t, ends, holds⟩

theorem keeps_joins (level : Level) (tokens : List Token) (joins : level.joins)
    (operand : KeepsExpr I level.next tokens)
    (chain : ∀ left rest, rest.length < tokens.length → KeepsChain I level left rest) :
    KeepsExpr I level tokens := by
  intro holds
  rw [readExpr_joins joins]
  apply (operand holds).bind
  intro left found holds
  exact chain left _ (readExpr_shortens (Option.isSome_of_eq_some found)) holds

variable (native : ∀ t more, t.kind.foreign = false → I (t :: more) → I more)

include native

theorem expect_keeps {kind : Kind} (inside : kind.foreign = false) {fault : Fault}
    {faults : List Fault} (member : fault ∈ faults) {tokens : List Token} (holds : I tokens) :
    (Outcome.expect kind fault tokens).Ensures (Report.Among faults I) I fun _ => I := by
  apply Ensures.expect (.blame member holds) holds
  rintro t more rfl same
  exact native t more (by rwa [same]) holds

theorem keeps_operations (level : Level) (left : Expr) (tokens : List Token)
    (operand : ∀ more, more.length < tokens.length → KeepsExpr I level.next more)
    (chain : ∀ left rest, rest.length < tokens.length → KeepsChain I level left rest) :
    KeepsChain I level left tokens := by
  intro holds
  rw [readOperations_eq]
  apply Ensures.continueIf holds
  rintro t rest rfl asked
  have operator : t.kind.level? = some level := by simpa using asked
  have inside := native t rest (Kind.native_of_level? operator) holds
  apply (operand rest (Nat.lt_succ_self _) inside).bind
  intro right _ holds
  have shorter := (readExpr_suffix level.next rest).length_le
  exact chain _ _ (Nat.lt_succ_of_le shorter) holds

theorem keeps_assignment (tokens : List Token) (target : KeepsExpr I .conditional tokens)
    (value : ∀ more, more.length < tokens.length → KeepsExpr I .assignment more) :
    KeepsExpr I .assignment tokens := by
  intro holds
  rw [readExpr_assignment]
  apply (target holds).bind
  intro target found holds
  have shorter := readExpr_shortens (Option.isSome_of_eq_some found)
  apply Ensures.continueIf holds
  intro t rest cut asked
  have equal : t.kind = .equal := by simpa using asked
  rw [cut] at shorter holds
  have inside := native t rest (by rw [equal]; rfl) holds
  apply (value rest (Nat.lt_of_succ_lt shorter) inside).bind
  intro value _ left
  by_cases isVar : ∃ name, target = .var name
  · obtain ⟨name, rfl⟩ := isVar
    exact Ensures.done left
  · have other : ∀ name, target ≠ .var name := fun name same => isVar ⟨name, same⟩
    rw [toOutcome_assign_other other]
    refine ⟨fun r member => ?_, nofun, fun _ _ => left⟩
    obtain rfl := List.mem_singleton.mp member
    exact .blame (by decide) holds

theorem keeps_conditional (tokens : List Token) (condition : KeepsExpr I .or tokens)
    (branch : ∀ more, more.length < tokens.length → KeepsExpr I .comma more) :
    KeepsExpr I .conditional tokens := by
  intro holds
  rw [readExpr_conditional]
  apply (condition holds).bind
  intro condition found holds
  have shorter := readExpr_shortens (Option.isSome_of_eq_some found)
  apply Ensures.continueIf holds
  intro t rest cut asked
  have question : t.kind = .question := by simpa using asked
  rw [cut] at shorter holds
  have inside := native t rest (by rw [question]; rfl) holds
  apply (branch rest (Nat.lt_of_succ_lt shorter) inside).bind
  intro yes _ holds
  have yesShorter := (readExpr_suffix .comma rest).length_le
  apply (expect_keeps native rfl (by decide) holds).bind
  intro colon _ holds
  have restShorter := expect_length .colon .missingColon (readExpr .comma rest).rest
  have least := Nat.lt_of_succ_lt shorter
  exact (branch _ (by omega) holds).map

theorem keeps_unary (tokens : List Token) (same : KeepsExpr I .primary tokens)
    (operand : ∀ more, more.length < tokens.length → KeepsExpr I .primary more) :
    KeepsExpr I .unary tokens := by
  intro holds
  cases tokens with
  | nil =>
    rw [readExpr_unary_nil]
    exact Ensures.fail (.blame (by decide) holds) holds
  | cons t rest =>
    rw [readExpr_unary_cons]
    split
    case isTrue sign =>
      have inside := native t rest (Kind.native_of_isUnary sign) holds
      exact (operand rest (Nat.lt_succ_self _) inside).map
    case isFalse => exact same holds

theorem keeps_primary (tokens : List Token)
    (inner : ∀ level more, more.length < tokens.length → KeepsExpr I level more) :
    KeepsExpr I .primary tokens := by
  intro holds
  cases tokens with
  | nil =>
    rw [readExpr_primary_nil]
    exact Ensures.fail (.blame (by decide) holds) holds
  | cons t rest =>
  have stuck : (Outcome.fail .expectedExpression (t :: rest)).Ensures
      (Report.Among Fault.ofExpr I) I fun (_ : Expr) => I :=
    Ensures.fail (.blame (by decide) holds) holds
  cases bars : t.kind.foreign with
  | true => rwa [readExpr_primary_of_bar (.inl bars)]
  | false =>
    have inside := native t rest bars holds
    cases known : Expr.ofToken? t with
    | some e =>
      rw [readExpr_primary_atom known]
      exact Ensures.done inside
    | none =>
      cases orphan : t.kind.orphanLevel? with
      | some level =>
        rw [readExpr_primary_orphan known orphan]
        exact (inner level rest (Nat.lt_succ_self _) inside).discard (.blame (by decide) holds)
      | none =>
        by_cases opens : t.kind = .leftParen
        · rw [readExpr_primary_group opens]
          apply (inner .comma rest (Nat.lt_succ_self _) inside).bind
          intro e _ holds
          exact (expect_keeps native rfl (by decide) holds).map
        · rwa [readExpr_primary_stray known orphan opens]

/-- Reading an expression keeps what its tokens keep. -/
theorem readExpr_keeps (level : Level) (tokens : List Token) : KeepsExpr I level tokens :=
  (expr_induction keeps_joins (keeps_assignment native) (keeps_conditional native)
    (keeps_unary native) (keeps_primary native)
    fun level left tokens _ operand chain => keeps_operations native level left tokens operand
      chain).1 level tokens

theorem readCondition_keeps (unopened unclosed : Fault) {tokens : List Token} (holds : I tokens) :
    (readCondition unopened unclosed tokens).Ensures
      (Report.Among (unopened :: unclosed :: Fault.ofExpr) I) I fun _ => I := by
  apply (expect_keeps native rfl (by simp) holds).bind
  intro _ _ holds
  apply ((readExpr_keeps native .comma _ holds).mono
    (Report.Among.widen fun _ => by simp +contextual) (fun _ => id) fun _ _ => id).bind
  intro e _ holds
  exact (expect_keeps native rfl (by simp) holds).map

theorem readEnded_keeps {fault : Fault} (known : fault ∈ Fault.ofSimple) (node : Expr → Stmt)
    {tokens : List Token} (holds : I tokens) :
    (readEnded fault node tokens).Ensures (Report.Among Fault.ofSimple I) I
      fun _ => Behind I := by
  apply ((readExpr_keeps native .comma tokens holds).mono
    (Report.Among.widen (by decide)) (fun _ => id) fun _ _ => id).bind
  intro e _ holds
  apply Ensures.map
  exact expect_semicolon known holds

theorem readDeclaration_keeps {tokens : List Token} (holds : I tokens) :
    (readDeclaration tokens).Ensures (Report.Among Fault.ofSimple I) I fun _ => Behind I := by
  apply (expect_keeps native rfl (by decide) holds).bind
  intro name _ holds
  have initialized : (Outcome.continueIf (· = .equal) none
      (fun _ more => (readExpr .comma more).map some)
      (Outcome.expect .name .missingName tokens).rest).Ensures (Report.Among Fault.ofSimple I) I
        fun _ => I := by
    apply Ensures.continueIf holds
    intro t more cut asked
    have equal : t.kind = .equal := of_decide_eq_true asked
    rw [cut] at holds
    have inside := native t more (by rw [equal]; rfl) holds
    exact ((readExpr_keeps native .comma more inside).mono
      (Report.Among.widen (by decide)) (fun _ => id) fun _ _ => id).map
  apply initialized.bind
  intro initializer _ holds
  apply Ensures.map
  exact expect_semicolon (by decide) holds

theorem readStmt_simple_keeps {t : Token}
    (simple : t.kind ≠ .leftBrace ∧ t.kind ≠ .kwIf ∧ t.kind ≠ .kwWhile) {more : List Token}
    (word : t.kind = .kwVar ∨ t.kind = .kwPrint → I (t :: more) → I more)
    (holds : I (t :: more)) :
    (readStmt (t :: more)).Ensures (Report.Among Fault.ofSimple I) I fun _ => Behind I := by
  by_cases isVar : t.kind = .kwVar
  · rw [readStmt_var isVar]
    exact readDeclaration_keeps native (word (.inl isVar) holds)
  by_cases isPrint : t.kind = .kwPrint
  · rw [readStmt_print isPrint]
    exact readEnded_keeps native (by decide) _ (word (.inr isPrint) holds)
  · rw [readStmt_lone simple ⟨isVar, isPrint⟩]
    exact readEnded_keeps native (by decide) _ holds

end

end Grammar

end Scriptlet
