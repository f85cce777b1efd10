import Scriptlet.Proofs.Grammar.Reading
import Scriptlet.Proofs.Syntax.Yield

/-!
Outcomes that account for the tokens they read. `Outcome.Accounts` is the invariant of sound
reading, with one rule for each way to go on after a step.
-/

namespace Scriptlet

open Terminal

variable {α β : Type}

namespace Outcome

/-- A failure has been reported; a success has read a front of the tokens, has its terminals
there in order, and has nothing else there unless it reported a fault. -/
structure Accounts (o : Outcome α) (tokens : List Token)
    (post : α → List Terminal → List Token → Prop) : Prop where
  failed : o.value = none → o.reports ≠ []
  found : ∀ a, o.value = some a → ∃ items read, tokens = read ++ o.rest ∧ Within items read ∧
    (o.reports = [] → Spell items read) ∧ post a items o.rest

namespace Accounts

variable {o : Outcome α} {tokens : List Token} {post : α → List Terminal → List Token → Prop}

theorem done {a : α} (holds : post a [] tokens) : (Outcome.done a tokens).Accounts tokens post := by
  constructor
  · intro failed; cases failed
  · intro b found
    cases found
    exact ⟨[], [], rfl, within_nil [], fun _ => List.Forall₂.nil, holds⟩

theorem fail (fault : Fault) : (Outcome.fail fault tokens).Accounts tokens post := by
  constructor
  · intro _ none; cases none
  · intro a found; cases found

theorem discard {β : Type} (report : Report) (o : Outcome β) :
    (o.discard report).Accounts tokens post := by
  constructor
  · intro _ none; cases none
  · intro a found; cases found

theorem mono {weaker : α → List Terminal → List Token → Prop} (h : o.Accounts tokens post)
    (weaken : ∀ a items, post a items o.rest → weaker a items o.rest) :
    o.Accounts tokens weaker := by
  constructor
  · exact h.failed
  · intro a found
    obtain ⟨items, read, cut, within, clean, holds⟩ := h.found a found
    exact ⟨items, read, cut, within, clean, weaken a items holds⟩

theorem cons {t : Token} (item : Terminal) (fits : item.Fits t)
    (h : o.Accounts tokens fun a items rest => post a (item :: items) rest) :
    o.Accounts (t :: tokens) post := by
  have one : Spell [item] [t] := .cons fits .nil
  constructor
  · exact h.failed
  · intro a found
    obtain ⟨items, read, rfl, within, clean, holds⟩ := h.found a found
    exact ⟨item :: items, t :: read, rfl, one.within.append within,
      fun none => one.append (clean none), holds⟩

theorem bind {f : α → List Token → Outcome β} {after : β → List Terminal → List Token → Prop}
    (h : o.Accounts tokens post)
    (next : ∀ a items, o.value = some a → o.rest.length ≤ tokens.length → post a items o.rest →
      (f a o.rest).Accounts o.rest fun b more rest => after b (items ++ more) rest) :
    (o.bind f).Accounts tokens after := by
  cases value : o.value with
  | none =>
    rw [bind_of_failed value]
    exact ⟨fun _ => h.failed value, nofun⟩
  | some a =>
    obtain ⟨items, read, cut, within, clean, holds⟩ := h.found a value
    have shorter : o.rest.length ≤ tokens.length := by simp [cut]
    have k := next a items value shorter holds
    rw [bind_of_found value]
    constructor
    · intro failed none
      exact k.failed failed (List.append_eq_nil_iff.mp none).2
    · intro b found
      obtain ⟨more, also, cut', within', clean', holds'⟩ := k.found b found
      refine ⟨items ++ more, read ++ also, ?_, within.append within', ?_, holds'⟩
      · rw [List.append_assoc, ← cut', cut]
      · intro none
        obtain ⟨first, second⟩ := List.append_eq_nil_iff.mp none
        exact (clean first).append (clean' second)

theorem map {f : α → β} {after : β → List Terminal → List Token → Prop}
    (h : o.Accounts tokens fun a items rest => after (f a) items rest) :
    (o.map f).Accounts tokens after := by
  rw [map_eq_bind]
  apply h.bind
  intro a items _ _ holds
  exact done (by simpa using holds)

/-- `item` says what the tree keeps of the token. -/
theorem expect {kind : Kind} {fault : Fault} (item : Token → Terminal)
    (fits : ∀ t, t.kind = kind → (item t).Fits t) (tokens : List Token) :
    (Outcome.expect kind fault tokens).Accounts tokens
      fun t items _ => t.kind = kind ∧ items = [item t] := by
  cases tokens with
  | nil => exact fail fault
  | cons t rest =>
    by_cases same : t.kind = kind
    · simp only [Outcome.expect, if_pos same]
      exact cons (item t) (fits t same) (done ⟨same, rfl⟩)
    · simp only [Outcome.expect, if_neg same]
      exact fail fault

theorem expect_word {kind : Kind} {fault : Fault} (tokens : List Token) :
    (Outcome.expect kind fault tokens).Accounts tokens fun _ items _ => items = [.word kind] :=
  (expect (fun _ => .word kind) (fun _ same => same) tokens).mono fun _ _ holds => holds.2

theorem continueIf {wanted : Kind → Bool} {a : α} {f : Token → List Token → Outcome α}
    (stop : (∀ t ∈ tokens.head?, wanted t.kind = false) → post a [] tokens)
    (goes : ∀ t more, tokens = t :: more → wanted t.kind → (f t more).Accounts (t :: more) post) :
    (Outcome.continueIf wanted a f tokens).Accounts tokens post := by
  cases tokens with
  | nil => exact done (stop (by simp))
  | cons t more =>
    cases asked : wanted t.kind with
    | true => simpa [Outcome.continueIf, asked] using goes t more rfl asked
    | false => simpa [Outcome.continueIf, asked] using done (stop (by simp [asked]))

theorem forget (h : o.Accounts tokens post)
    (reported : ∀ a, o.value = some a → o.reports ≠ [])
    {fewer : α → List Terminal → List Token → Prop}
    (kept : ∀ a items, post a items o.rest → fewer a [] o.rest) : o.Accounts tokens fewer := by
  constructor
  · exact h.failed
  · intro a found
    obtain ⟨items, read, cut, _, _, holds⟩ := h.found a found
    have blamed := reported a found
    exact ⟨[], read, cut, within_nil read, fun none => absurd none blamed, kept a items holds⟩

theorem recover (suffix : o.rest <:+ tokens) (h : o.Accounts tokens post) :
    o.recover.Accounts tokens fun found items rest =>
      match found with
      | some a => post a items rest
      | none => items = [] := by
  cases value : o.value with
  | none =>
    constructor
    · exact nofun
    · rintro a ⟨⟩
      simp only [Outcome.recover, value]
      obtain ⟨read, cut⟩ := (Grammar.resume_suffix o.rest).trans suffix
      exact ⟨[], read, cut.symm, within_nil read, fun none => absurd none (h.failed value), rfl⟩
  | some a =>
    constructor
    · exact nofun
    · rintro b ⟨⟩
      simpa [Outcome.recover, value] using h.found a value

end Accounts

end Outcome

end Scriptlet
