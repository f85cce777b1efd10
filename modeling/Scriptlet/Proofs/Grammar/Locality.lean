import Scriptlet.Proofs.Grammar.Lookahead

/-!
Locality of reading. An expression never reads past a token that is foreign to it, and a
statement that holds no other never past its semicolon. So what is read of tokens with such a
token at their end does not depend on what comes behind them.
-/

namespace Scriptlet

variable {α β : Type}

/-- The last token is one that no expression reads. -/
def Guarded (tokens : List Token) : Prop :=
  ∃ front last, tokens = front ++ [last] ∧ last.kind.foreign

namespace Guarded

theorem ne_nil {tokens : List Token} (h : Guarded tokens) : tokens ≠ [] := by
  obtain ⟨front, last, rfl, _⟩ := h
  simp

theorem suffix {tokens rest : List Token} (h : Guarded tokens) (ends : rest <:+ tokens)
    (left : rest ≠ []) : Guarded rest := by
  obtain ⟨front, last, rfl, foreign⟩ := h
  obtain ⟨read, cut⟩ := ends
  obtain ⟨init, final, rfl⟩ := List.eq_nil_or_concat rest |>.resolve_left left
  have same : final = last := by simpa using congrArg List.getLast? cut
  exact ⟨init, final, by simp, same ▸ foreign⟩

theorem tail {t : Token} {more : List Token} (h : Guarded (t :: more))
    (native : t.kind.foreign = false) : Guarded more := by
  apply h.suffix (List.suffix_cons t more)
  rintro rfl
  obtain ⟨front, last, cut, foreign⟩ := h
  have same : t = last := by simpa using congrArg List.getLast? cut
  rw [← same, native] at foreign
  cases foreign

end Guarded

namespace Outcome

def extend (more : List Token) (o : Outcome α) : Outcome α :=
  ⟨o.value, o.reports.map fun r => ⟨r.fault, r.ahead ++ more⟩, o.rest ++ more⟩

/-- An outcome as a function of the tokens behind those in question: they are only carried
along, and none of them is blamed. -/
structure Stable (o : List Token → Outcome α) (after : Option α → List Token → Prop) : Prop where
  extend_eq : ∀ more, o more = (o []).extend more
  blamed : ∀ r ∈ (o []).reports, r.ahead ≠ []
  ends : after (o []).value (o []).rest

namespace Stable

variable {o : List Token → Outcome α} {after : Option α → List Token → Prop}

theorem congr {o' : List Token → Outcome α} (same : ∀ more, o more = o' more)
    (h : Stable o' after) : Stable o after := by
  rwa [funext same]

theorem mono {weaker : Option α → List Token → Prop} (h : Stable o after)
    (weaken : ∀ value rest, value = (o []).value → rest = (o []).rest → after value rest →
      weaker value rest) : Stable o weaker :=
  ⟨h.extend_eq, h.blamed, weaken _ _ rfl rfl h.ends⟩

theorem done {a : α} {tokens : List Token} (holds : after (some a) tokens) :
    Stable (fun more => .done a (tokens ++ more)) after := by
  constructor
  · intro more; simp [Outcome.done, extend]
  · intro r member; cases member
  · simpa [Outcome.done] using holds

theorem fail {fault : Fault} {tokens : List Token} (left : tokens ≠ [])
    (holds : after none tokens) :
    Stable (fun more => (.fail fault (tokens ++ more) : Outcome α)) after := by
  constructor
  · intro more; simp [Outcome.fail, extend]
  · intro r member
    obtain rfl := List.mem_singleton.mp member
    simpa using left
  · simpa [Outcome.fail] using holds

theorem reported {a : α} (fault : Fault) {ahead tokens : List Token} (left : ahead ≠ [])
    (holds : after (some a) tokens) :
    Stable (fun more => ⟨some a, [⟨fault, ahead ++ more⟩], tokens ++ more⟩) after := by
  constructor
  · intro more; simp [extend]
  · intro r member
    obtain rfl := List.mem_singleton.mp member
    simpa using left
  · simpa using holds

theorem bind {f : List Token → α → List Token → Outcome β}
    {next : Option β → List Token → Prop} (h : Stable o after)
    (failed : ∀ rest, after none rest → next none rest)
    (found : ∀ a, (o []).value = some a → after (some a) (o []).rest →
      Stable (fun more => f more a ((o []).rest ++ more)) next) :
    Stable (fun more => (o more).bind (f more)) next := by
  have ends := h.ends
  cases value : (o []).value with
  | none =>
    rw [value] at ends
    have same : ∀ more, (o more).bind (f more) = ⟨none, (o more).reports, (o more).rest⟩ :=
      fun more => bind_of_failed (by rw [h.extend_eq more]; exact value) _
    constructor
    · intro more
      rw [same, same, h.extend_eq more]
      rfl
    · simpa [same] using h.blamed
    · simpa [same] using failed _ ends
  | some a =>
    rw [value] at ends
    have k := found a value ends
    have same : ∀ more, (o more).bind (f more) = ⟨(f more a (o more).rest).value,
        (o more).reports ++ (f more a (o more).rest).reports, (f more a (o more).rest).rest⟩ :=
      fun more => bind_of_found (by rw [h.extend_eq more]; exact value) _
    have restEq : ∀ more, (o more).rest = (o []).rest ++ more := fun more => by
      rw [h.extend_eq more]
      rfl
    have blamed := k.blamed
    have left := k.ends
    constructor
    · intro more
      rw [same, same, restEq more, k.extend_eq more, h.extend_eq more]
      simp [extend]
    · rw [same]
      intro r member
      rcases List.mem_append.mp member with member | member
      · exact h.blamed r member
      · rw [List.append_nil] at blamed
        exact blamed r member
    · rw [same]
      rwa [List.append_nil] at left

theorem map {f : α → β} {next : Option β → List Token → Prop} (h : Stable o after)
    (failed : ∀ rest, after none rest → next none rest)
    (found : ∀ a rest, after (some a) rest → next (some (f a)) rest) :
    Stable (fun more => (o more).map f) next := by
  apply congr fun more => map_eq_bind f _
  apply h.bind failed
  intro a _ ends
  exact done (found a _ ends)

theorem expect {kind : Kind} {fault : Fault} {tokens : List Token}
    {after : Option Token → List Token → Prop} (left : tokens ≠ [])
    (failed : after none tokens)
    (found : ∀ t more, tokens = t :: more → t.kind = kind → after (some t) more) :
    Stable (fun more => .expect kind fault (tokens ++ more)) after := by
  cases tokens with
  | nil => exact absurd rfl left
  | cons t rest =>
    by_cases same : t.kind = kind
    · exact congr (fun more => expect_cons same fault _) (done (found t rest rfl same))
    · have refused : ∀ more, Outcome.expect kind fault (t :: rest ++ more) =
          .fail fault (t :: rest ++ more) := by simp [Outcome.expect, same]
      exact congr refused (fail left failed)

theorem continueIf {wanted : Kind → Bool} {a : α} {tokens : List Token}
    {f : List Token → Token → List Token → Outcome α} (left : tokens ≠ [])
    (stop : after (some a) tokens)
    (goes : ∀ t rest, tokens = t :: rest → wanted t.kind →
      Stable (fun more => f more t (rest ++ more)) after) :
    Stable (fun more => .continueIf wanted a (f more) (tokens ++ more)) after := by
  cases tokens with
  | nil => exact absurd rfl left
  | cons t rest =>
    cases asked : wanted t.kind with
    | true => exact congr (fun more => continueIf_cons asked a _ _) (goes t rest rfl asked)
    | false =>
      have other : ∀ more, ∀ u ∈ (t :: rest ++ more).head?, wanted u.kind = false := by
        simpa using asked
      exact congr (fun more => continueIf_of_other (other more) a _) (done stop)

theorem discard {next : Option β → List Token → Prop} (h : Stable o after) (fault : Fault)
    {ahead : List Token} (left : ahead ≠ [])
    (failed : ∀ value rest, after value rest → next none rest) :
    Stable (fun more => ((o more).discard ⟨fault, ahead ++ more⟩ : Outcome β)) next := by
  constructor
  · intro more
    simp only [Outcome.discard]
    rw [h.extend_eq more]
    simp [extend]
  · intro r member
    rcases List.mem_cons.mp member with rfl | member
    · simpa using left
    · exact h.blamed r member
  · exact failed _ _ h.ends

theorem expect_native {kind : Kind} {fault : Fault} {tokens : List Token}
    (native : kind.foreign = false) (guarded : Guarded tokens) :
    Stable (fun more => .expect kind fault (tokens ++ more)) fun _ left =>
      Guarded left ∧ left.length ≤ tokens.length := by
  apply expect guarded.ne_nil ⟨guarded, Nat.le_refl _⟩
  rintro t more rfl same
  exact ⟨guarded.tail (by rwa [same]), Nat.le_succ _⟩

end Stable

end Outcome

namespace Grammar

open Outcome

def StableExpr (level : Level) (tokens : List Token) : Prop :=
  Guarded tokens → Stable (fun more => readExpr level (tokens ++ more)) fun _ => Guarded

def StableChain (level : Level) (left : Expr) (tokens : List Token) : Prop :=
  Guarded tokens → Stable (fun more => readOperations level left (tokens ++ more)) fun _ => Guarded

theorem native_of_joint {kind : Kind} {level : Level} (h : kind.joint? = some level) :
    kind.foreign = false := by
  cases kind <;> first | rfl | cases h

theorem stable_operations (level : Level) (left : Expr) (tokens : List Token)
    (operand : ∀ more, more.length < tokens.length → StableExpr level.next more)
    (chain : ∀ left rest, rest.length < tokens.length → StableChain level left rest) :
    StableChain level left tokens := by
  intro guarded
  apply Stable.congr fun more => readOperations_eq level left (tokens ++ more)
  apply Stable.continueIf guarded.ne_nil guarded
  rintro t rest rfl asked
  have operator : t.kind.level? = some level := by simpa using asked
  have inside := guarded.tail (native_of_joint (Kind.joint?_of_level? operator))
  apply (operand rest (by simp) inside).bind fun _ h => h
  intro right found guarded
  have shorter := (readExpr_suffix level.next (rest ++ [])).length_le
  rw [List.append_nil] at shorter guarded ⊢
  exact chain _ _ (Nat.lt_succ_of_le shorter) guarded

theorem stable_joins (level : Level) (tokens : List Token) (joins : level.joins)
    (operand : StableExpr level.next tokens)
    (chain : ∀ left rest, rest.length < tokens.length → StableChain level left rest) :
    StableExpr level tokens := by
  intro guarded
  apply Stable.congr fun more => readExpr_joins joins (tokens ++ more)
  apply (operand guarded).bind fun _ h => h
  intro left found guarded
  rw [List.append_nil] at found guarded ⊢
  exact chain left _ (readExpr_shortens (Option.isSome_of_eq_some found)) guarded

theorem stable_assignment (tokens : List Token) (target : StableExpr .conditional tokens)
    (value : ∀ more, more.length < tokens.length → StableExpr .assignment more) :
    StableExpr .assignment tokens := by
  intro guarded
  apply Stable.congr fun more => readExpr_assignment (tokens ++ more)
  apply (target guarded).bind fun _ h => h
  intro target found guarded
  have shorter := readExpr_shortens (Option.isSome_of_eq_some found)
  rw [List.append_nil] at shorter guarded ⊢
  apply Stable.continueIf guarded.ne_nil guarded
  intro t rest cut asked
  have equal : t.kind = .equal := by simpa using asked
  rw [cut] at shorter guarded
  have inside := guarded.tail (by rw [equal]; rfl)
  apply (value rest (Nat.lt_of_succ_lt shorter) inside).bind fun _ h => h
  intro value _ left
  by_cases isVar : ∃ name, target = .var name
  · obtain ⟨name, rfl⟩ := isVar
    exact Stable.done left
  · have other : ∀ name, target ≠ .var name := fun name same => isVar ⟨name, same⟩
    apply Stable.congr fun more => toOutcome_assign_other other value _ _
    exact Stable.reported .invalidTarget (List.cons_ne_nil t rest) left

theorem stable_conditional (tokens : List Token) (condition : StableExpr .or tokens)
    (branch : ∀ more, more.length < tokens.length → StableExpr .comma more) :
    StableExpr .conditional tokens := by
  intro guarded
  apply Stable.congr fun more => readExpr_conditional (tokens ++ more)
  apply (condition guarded).bind fun _ h => h
  intro condition found guarded
  have shorter := readExpr_shortens (Option.isSome_of_eq_some found)
  rw [List.append_nil] at shorter guarded ⊢
  apply Stable.continueIf guarded.ne_nil guarded
  intro t rest cut asked
  have question : t.kind = .question := by simpa using asked
  rw [cut] at shorter guarded
  have inside := guarded.tail (by rw [question]; rfl)
  apply (branch rest (Nat.lt_of_succ_lt shorter) inside).bind fun _ h => h
  intro yes _ guarded
  have yesShorter := (readExpr_suffix .comma (rest ++ [])).length_le
  rw [List.append_nil] at yesShorter guarded ⊢
  apply (Stable.expect_native rfl guarded).bind fun _ h => h.1
  intro colon _ left
  have leftShorter := Nat.le_trans left.2 yesShorter
  apply (branch _ (Nat.lt_of_le_of_lt leftShorter (Nat.lt_of_succ_lt shorter)) left.1).map
  · exact fun _ h => h
  · exact fun _ _ h => h

theorem stable_unary (tokens : List Token) (same : StableExpr .primary tokens)
    (operand : ∀ more, more.length < tokens.length → StableExpr .primary more) :
    StableExpr .unary tokens := by
  intro guarded
  obtain ⟨t, rest, rfl⟩ := List.exists_cons_of_ne_nil guarded.ne_nil
  cases sign : t.kind.isUnary with
  | true =>
    have inside := guarded.tail (Kind.native_of_isUnary sign)
    apply Stable.congr fun more => (readExpr_unary_cons t (rest ++ more)).trans (if_pos sign)
    exact (operand rest (by simp) inside).map (fun _ h => h) fun _ _ h => h
  | false =>
    have plain : ∀ more, readExpr .unary (t :: rest ++ more) =
        readExpr .primary (t :: rest ++ more) := fun more => by simp [readExpr_unary_cons, sign]
    exact (same guarded).congr plain

theorem stable_primary (tokens : List Token)
    (inner : ∀ level more, more.length < tokens.length → StableExpr level more) :
    StableExpr .primary tokens := by
  intro guarded
  obtain ⟨t, rest, rfl⟩ := List.exists_cons_of_ne_nil guarded.ne_nil
  cases bars : t.kind.foreign with
  | true =>
    apply Stable.congr fun more => readExpr_primary_of_bar (.inl bars) (rest ++ more)
    exact Stable.fail guarded.ne_nil guarded
  | false =>
    have inside := guarded.tail bars
    cases known : Expr.ofToken? t with
    | some e =>
      apply Stable.congr fun more => readExpr_primary_atom known (rest ++ more)
      exact Stable.done inside
    | none =>
      cases orphan : t.kind.orphanLevel? with
      | some level =>
        apply Stable.congr fun more => readExpr_primary_orphan known orphan (rest ++ more)
        exact (inner level rest (by simp) inside).discard .missingLeftOperand
          (List.cons_ne_nil t rest) fun _ _ h => h
      | none =>
        by_cases opens : t.kind = .leftParen
        · apply Stable.congr fun more => readExpr_primary_group opens (rest ++ more)
          apply (inner .comma rest (by simp) inside).bind fun _ h => h
          intro e _ guarded
          exact (Stable.expect_native rfl guarded).map (fun _ h => h.1) fun _ _ h => h.1
        · apply Stable.congr fun more => readExpr_primary_stray known orphan opens (rest ++ more)
          exact Stable.fail guarded.ne_nil guarded

theorem stable_expr (level : Level) (tokens : List Token) : StableExpr level tokens :=
  (expr_induction stable_joins stable_assignment stable_conditional stable_unary stable_primary
    fun level left tokens _ operand chain => stable_operations level left tokens operand chain).1
    level tokens

/-- A success has read a semicolon last, and a failure has left the guard. -/
def Halted {α : Type} (tokens : List Token) : Option α → List Token → Prop
  | some _, left => ∃ t, t.kind = .semicolon ∧ t :: left <:+ tokens
  | none, left => Guarded left

theorem stable_within {all tokens : List Token} (guarded : Guarded tokens)
    (cut : tokens <:+ all) (level : Level) :
    Stable (fun more => readExpr level (tokens ++ more)) fun _ left =>
      Guarded left ∧ left <:+ all := by
  apply (stable_expr level tokens guarded).mono
  rintro _ left _ rfl guarded
  rw [List.append_nil] at guarded ⊢
  exact ⟨guarded, (readExpr_suffix level tokens).trans cut⟩

theorem stable_semicolon {all tokens : List Token} (guarded : Guarded tokens)
    (cut : tokens <:+ all) (fault : Fault) :
    Stable (fun more => .expect .semicolon fault (tokens ++ more)) (Halted all) := by
  apply Stable.expect guarded.ne_nil guarded
  rintro t more rfl ends
  exact ⟨t, ends, cut⟩

theorem stable_ended {all tokens : List Token} (guarded : Guarded tokens) (cut : tokens <:+ all)
    (fault : Fault) (node : Expr → Stmt) :
    Stable (fun more => readEnded fault node (tokens ++ more)) (Halted all) := by
  apply (stable_within guarded cut .comma).bind fun _ left => left.1
  rintro e _ ⟨guarded, cut⟩
  exact (stable_semicolon guarded cut fault).map (fun _ h => h) fun _ _ h => h

theorem stable_declaration {all tokens : List Token} (guarded : Guarded tokens)
    (cut : tokens <:+ all) :
    Stable (fun more => readDeclaration (tokens ++ more)) (Halted all) := by
  have named : Stable (fun more => .expect .name .missingName (tokens ++ more))
      fun _ left => Guarded left ∧ left <:+ all := by
    apply Stable.expect guarded.ne_nil ⟨guarded, cut⟩
    rintro t more rfl kind
    exact ⟨guarded.tail (by rw [kind]; rfl), (List.suffix_cons t more).trans cut⟩
  apply named.bind fun _ left => left.1
  rintro name _ ⟨guarded, cut⟩
  generalize (Outcome.expect .name .missingName (tokens ++ [])).rest = behind at guarded cut
  have initialized : Stable (fun more => .continueIf (· = .equal) none
      (fun _ more => (readExpr .comma more).map some) (behind ++ more))
      fun (_ : Option (Option Expr)) left => Guarded left ∧ left <:+ all := by
    apply Stable.continueIf guarded.ne_nil ⟨guarded, cut⟩
    rintro t rest rfl asked
    have equal : t.kind = .equal := of_decide_eq_true asked
    have inside := guarded.tail (by rw [equal]; rfl)
    exact (stable_within inside ((List.suffix_cons t rest).trans cut) .comma).map
      (fun _ h => h) fun _ _ h => h
  apply initialized.bind fun _ left => left.1
  rintro initializer _ ⟨guarded, cut⟩
  exact (stable_semicolon guarded cut _).map (fun _ h => h) fun _ _ h => h

theorem stable_simple {t : Token}
    (simple : t.kind ≠ .leftBrace ∧ t.kind ≠ .kwIf ∧ t.kind ≠ .kwWhile) {rest : List Token}
    (word : t.kind = .kwVar ∨ t.kind = .kwPrint → rest ≠ []) (guarded : Guarded (t :: rest)) :
    Stable (fun more => readStmt (t :: rest ++ more)) (Halted (t :: rest)) := by
  have cut := List.suffix_cons t rest
  by_cases isVar : t.kind = .kwVar
  · apply Stable.congr fun more => readStmt_var isVar (rest ++ more)
    exact stable_declaration (guarded.suffix cut (word (.inl isVar))) cut
  by_cases isPrint : t.kind = .kwPrint
  · apply Stable.congr fun more => readStmt_print isPrint (rest ++ more)
    exact stable_ended (guarded.suffix cut (word (.inr isPrint))) cut _ _
  · apply Stable.congr fun more => readStmt_lone simple ⟨isVar, isPrint⟩ (rest ++ more)
    exact stable_ended guarded List.suffix_rfl _ _

theorem mem_tail_of_suffix {front tokens : List Token} (cut : front <:+ tokens) {t : Token}
    (member : t ∈ front.tail) : t ∈ tokens.tail := by
  obtain ⟨read, rfl⟩ := cut
  cases read with
  | nil => exact member
  | cons u read => exact List.mem_append_right read (List.mem_of_mem_tail member)

/-- Only the first token may be a word that starts a statement: it is skipped in any case. -/
theorem resume_append {front rest : List Token} (plain : ∀ t ∈ front, t.kind ≠ .semicolon)
    (single : ∀ t ∈ front.tail, t.kind.startsStatement = false)
    (next : front ≠ [] → ∀ t ∈ rest.head?, t.kind.startsStatement = false) :
    resume (front ++ rest) = resume rest := by
  induction front with
  | nil => rfl
  | cons t front ih =>
    have inside : ∀ t ∈ front, t.kind.startsStatement = false := single
    have behind := next (List.cons_ne_nil t front)
    have goes : (front ++ rest).head?.any (·.kind.startsStatement) = false := by
      cases front <;> cases rest <;> simp_all
    rw [List.cons_append, resume, goes]
    simp only [plain t List.mem_cons_self, decide_false, Bool.or_false, Bool.false_eq_true,
      if_false]
    exact ih (fun t member => plain t (List.mem_cons_of_mem _ member))
      (fun t member => inside t (List.mem_of_mem_tail member)) fun _ => behind

end Grammar

end Scriptlet
