import Scriptlet.Proofs.Run.Scope
import Scriptlet.Proofs.Run.Fuel

/-!
Runs with a sink that fills up. Under a limit a run is what it is without one, up to the print
that would pass the limit; there it stops, with what fits of that line, and every block is left.
-/

namespace Scriptlet

open Run Machine

/-- The sink has got some more bytes, or none. -/
structure Sink.Grows (before after : Sink) : Prop where
  limit : after.limit = before.limit
  written : ∃ more, after.written = before.written ++ more

namespace Sink.Grows

instance : IsPreorder Sink Grows where
  refl sink := ⟨rfl, .empty, by simp⟩
  trans first second third one other := by
    obtain ⟨more, grown⟩ := one.written
    obtain ⟨rest, further⟩ := other.written
    exact ⟨other.limit.trans one.limit, more ++ rest, by
      rw [further, grown, ByteArray.append_assoc]⟩

variable {before after : Sink}

theorem size_le (h : before.Grows after) : before.written.size ≤ after.written.size := by
  obtain ⟨more, grown⟩ := h.written
  rw [grown, ByteArray.size_append]
  omega

theorem extract_eq (h : before.Grows after) {n : Nat} (within : n ≤ before.written.size) :
    after.written.extract 0 n = before.written.extract 0 n := by
  obtain ⟨more, grown⟩ := h.written
  rw [grown, ByteArray.extract_append]
  have beyond : n - before.written.size = 0 := by omega
  simp [beyond]

theorem write (sink : Sink) (text : String) : sink.Grows (sink.write text) := ⟨rfl, _, rfl⟩

end Sink.Grows

namespace Sink

theorem written_write_unlimited {sink : Sink} (unlimited : sink.limit = none) (text : String) :
    (sink.write text).written = sink.written ++ text.toUTF8 := by
  simp [write, unlimited]

theorem size_write_unlimited {sink : Sink} (unlimited : sink.limit = none) (text : String) :
    (sink.write text).written.size = sink.written.size + text.utf8ByteSize := by
  rw [written_write_unlimited unlimited, ByteArray.size_append]
  rfl

def capped (limit : Nat) (sink : Sink) : Sink := { sink with limit := some limit }

theorem extract_of_le {sink : Sink} {limit : Nat} (within : sink.written.size ≤ limit) :
    sink.written.extract 0 limit = sink.written := by
  rw [← Nat.max_eq_left within, ByteArray.extract_zero_max_size]

theorem fits_unlimited {sink : Sink} (unlimited : sink.limit = none) (n : Nat) :
    sink.fits n := by simp [fits, unlimited]

theorem write_capped {sink : Sink} (unlimited : sink.limit = none) {limit : Nat}
    (within : sink.written.size ≤ limit) (text : String) :
    (sink.capped limit).write text =
      ⟨(sink.write text).written.extract 0 limit, some limit⟩ := by
  rw [written_write_unlimited unlimited, ByteArray.extract_append, extract_of_le within]
  simp [write, capped]

end Sink

namespace Env

theorem scopes_exit {env : Env} (inner : env.enclosing ≠ []) : env.exit.scopes = env.enclosing := by
  obtain ⟨innermost, enclosing⟩ := env
  cases enclosing with
  | nil => exact absurd rfl inner
  | cons scope rest => rfl

theorem enclosing_ne_nil {before after : Env} (level : after.depth = before.enter.depth) :
    after.enclosing ≠ [] := by
  rintro none
  simp [depth, scopes, enter, none] at level

theorem depth_exit {before after : Env} (level : after.depth = before.enter.depth) :
    after.exit.depth = before.depth := by
  have left := congrArg List.length (scopes_exit (enclosing_ne_nil level))
  simp only [depth, scopes, enter, List.length_cons] at left level ⊢
  omega

end Env

namespace Machine

def capped (limit : Nat) (m : Machine) : Machine := { m with sink := m.sink.capped limit }

def Grows (before after : Machine) : Prop := before.sink.Grows after.sink

instance : IsPreorder Machine Grows where
  refl m := refl_of Sink.Grows m.sink
  trans _ _ _ := trans_of Sink.Grows

/-- The line passes the limit on this machine, and what came before it does not. -/
structure Crosses (limit : Nat) (m : Machine) (line : String) : Prop where
  before : m.sink.written.size ≤ limit
  passed : limit < m.sink.written.size + line.utf8ByteSize

variable {α β : Type} {limit : Nat}

theorem printLine_of_fits (text : String) {m : Machine}
    (fits : m.sink.fits (text ++ "\n").utf8ByteSize) :
    printLine text m = (.ok (), { m with sink := m.sink.write (text ++ "\n") }) := by
  simp only [printLine, fits, if_true]

theorem printLine_of_full (text : String) {m : Machine}
    (full : m.sink.fits (text ++ "\n").utf8ByteSize = false) :
    printLine text m =
      (.error (.error .sinkFull), { m with sink := m.sink.write (text ++ "\n") }) := by
  simp only [printLine, full, Bool.false_eq_true, if_false]

/-- From this machine the run is the same under the limit. -/
structure Fits (limit : Nat) (run : Run Machine α) (m : Machine) : Prop where
  within : (run m).2.sink.written.size ≤ limit
  same : run (m.capped limit) = ((run m).1, (run m).2.capped limit)

/-- From this machine the run passes the limit. Under it, the run stops at one of the prints, and of
the scopes there it leaves as many as there were at the start. -/
structure Breaks (limit : Nat) (prints : Machine → String → Prop) (run : Run Machine α)
    (m : Machine) : Prop where
  passed : limit < (run m).2.sink.written.size
  stopped : ∃ site line env, prints site line ∧ Crosses limit site line ∧
    env.scopes <:+ site.env.scopes ∧ env.depth = m.env.depth ∧
    run (m.capped limit) = (.error (.error .sinkFull),
      ⟨env, ⟨(run m).2.sink.written.extract 0 limit, some limit⟩⟩)

/-- A run that comes to these prints is cut at the one that passes the limit. -/
structure Truncates (limit : Nat) (prints : Machine → Machine → String → Prop)
    (run : Run Machine α) : Prop where
  grows : Moves Grows run
  level : ∀ m, (run m).2.env.depth = m.env.depth
  cut : ∀ m, m.sink.limit = none → m.sink.written.size ≤ limit →
    Fits limit run m ∨ Breaks limit (prints m) run m

namespace Truncates

variable {prints own : Machine → Machine → String → Prop}

theorem mono {run : Run Machine α} (h : Truncates limit own run)
    (weaken : ∀ m site line, own m site line → prints m site line) :
    Truncates limit prints run := by
  refine ⟨h.grows, h.level, fun m unlimited within => ?_⟩
  rcases h.cut m unlimited within with fits | ⟨passed, site, line, env, printed, stopped⟩
  · exact .inl fits
  · exact .inr ⟨passed, site, line, env, weaken m site line printed, stopped⟩

theorem pure (a : α) : Truncates limit prints (pure a : Run Machine α) :=
  ⟨Moves.pure a, fun _ => rfl, fun _ _ within => .inl ⟨within, rfl⟩⟩

theorem onEnv {run : Run Env α} (level : ∀ env, (run env).2.depth = env.depth) :
    Truncates limit prints (onEnv run) :=
  ⟨fun m => refl_of Sink.Grows m.sink, fun m => level m.env, fun _ _ within => .inl ⟨within, rfl⟩⟩

theorem define (x : String) (v : Value) : Truncates limit prints (define x v) :=
  ⟨fun m => refl_of Sink.Grows m.sink, fun _ => rfl, fun _ _ within => .inl ⟨within, rfl⟩⟩

theorem unfinished :
    Truncates limit prints (fun m => (.error .unfinished, m) : Run Machine α) :=
  ⟨Moves.result fun _ => .error .unfinished, fun _ => rfl, fun _ _ within => .inl ⟨within, rfl⟩⟩

theorem printLine (text : String) :
    Truncates limit (fun m site line => site = m ∧ line = text ++ "\n") (printLine text) := by
  refine ⟨fun m => Sink.Grows.write m.sink _, fun _ => rfl, fun m unlimited within => ?_⟩
  have printed := printLine_of_fits text (Sink.fits_unlimited unlimited _)
  have size := Sink.size_write_unlimited unlimited (text ++ "\n")
  have cut := Sink.write_capped unlimited within (text ++ "\n")
  by_cases room : m.sink.written.size + (text ++ "\n").utf8ByteSize ≤ limit
  · left
    have short : (m.sink.write (text ++ "\n")).written.size ≤ limit := by omega
    have same : Machine.printLine text (m.capped limit) =
        (.ok (), { m.capped limit with sink := (m.sink.capped limit).write (text ++ "\n") }) :=
      printLine_of_fits text (decide_eq_true room)
    rw [cut, Sink.extract_of_le short] at same
    exact ⟨by rwa [printed], by rw [printed, same]; rfl⟩
  · right
    have passed : limit < (m.sink.write (text ++ "\n")).written.size := by omega
    have full : Machine.printLine text (m.capped limit) = (.error (.error .sinkFull),
        { m.capped limit with sink := (m.sink.capped limit).write (text ++ "\n") }) :=
      printLine_of_full text (decide_eq_false room)
    rw [cut] at full
    refine ⟨by rwa [printed], m, text ++ "\n", m.env, ⟨rfl, rfl⟩, ⟨within, by omega⟩,
      List.suffix_rfl, rfl, ?_⟩
    rw [full, printed]
    rfl

theorem bind {run : Run Machine α} {next : α → Run Machine β}
    {after : α → Machine → Machine → String → Prop} (first : Truncates limit own run)
    (second : ∀ a, Truncates limit (after a) (next a))
    (here : ∀ m site line, own m site line → prints m site line)
    (later : ∀ m a t site line, run m = (.ok a, t) → after a t site line → prints m site line) :
    Truncates limit prints (run >>= next) := by
  have grows := first.grows.bind fun a => (second a).grows
  refine ⟨grows, fun m => ?_, fun m unlimited within => ?_⟩
  · have level := first.level m
    rw [bind_apply]
    rcases ran : run m with ⟨stop | a, t⟩
    · rwa [ran] at level
    · rw [ran] at level
      exact ((second a).level t).trans level
  rcases first.cut m unlimited within with ⟨short, same⟩ | ⟨passed, site, line, env, printed,
    crosses, outer, depth, stopped⟩
  · have free := (first.grows m).limit.trans unlimited
    have level := first.level m
    rcases ran : run m with ⟨stop | a, t⟩
    · rw [ran] at short same
      left
      constructor
      · rwa [bind_apply, ran]
      · rw [bind_apply, bind_apply, same, ran]
    · rw [ran] at short same free level
      have goes : (run >>= next) m = next a t := by rw [bind_apply, ran]
      have under : (run >>= next) (m.capped limit) = next a (t.capped limit) := by
        rw [bind_apply, same]
      rcases (second a).cut t free short with ⟨short, same⟩ | ⟨passed, site, line, env, printed,
        crosses, outer, depth, stopped⟩
      · left
        exact ⟨by rwa [goes], by rw [goes, under, same]⟩
      · right
        exact ⟨by rwa [goes], site, line, env, later m a t site line ran printed, crosses, outer,
          depth.trans level, by rw [goes, under, stopped]⟩
  · right
    have extended : Grows (run m).2 ((run >>= next) m).2 := by
      rw [bind_apply]
      rcases run m with ⟨stop | a, t⟩
      · exact refl_of Grows t
      · exact (second a).grows t
    refine ⟨Nat.lt_of_lt_of_le passed extended.size_le, site, line, env, here m site line printed,
      crosses, outer, depth, ?_⟩
    rw [bind_apply, stopped, extended.extract_eq (Nat.le_of_lt passed)]

theorem inScope {body : Run Machine Unit} (inside : Truncates limit own body)
    (entered : ∀ m site line, own { m with env := m.env.enter } site line → prints m site line) :
    Truncates limit prints (inScope body) := by
  refine ⟨fun m => inside.grows { m with env := m.env.enter }, fun m => ?_, fun m unlimited
    within => ?_⟩
  · exact Env.depth_exit (inside.level { m with env := m.env.enter })
  have under : Machine.inScope body (m.capped limit) =
      ((body (capped limit { m with env := m.env.enter })).1,
        { (body (capped limit { m with env := m.env.enter })).2 with
          env := (body (capped limit { m with env := m.env.enter })).2.env.exit }) := rfl
  rcases inside.cut { m with env := m.env.enter } unlimited within with ⟨short, same⟩ | ⟨passed,
    site, line, env, printed, crosses, outer, depth, stopped⟩
  · left
    refine ⟨short, ?_⟩
    rw [under, same]
    rfl
  · right
    refine ⟨passed, site, line, env.exit, entered m site line printed, crosses, ?_,
      Env.depth_exit depth, ?_⟩
    · rw [Env.scopes_exit (Env.enclosing_ne_nil depth)]
      exact (List.suffix_cons _ _).trans outer
    · rw [under, stopped]
      rfl

theorem turn {test : Run Machine Value} {body : Run Machine Unit}
    (tested : Truncates limit (fun _ _ _ => False) test) (turned : Truncates limit own body)
    (inside : ∀ m v t site line, test m = (.ok v, t) → v.truthy → own t site line →
      prints m site line)
    (again : ∀ m v t u site line, test m = (.ok v, t) → v.truthy → body t = (.ok (), u) →
      prints u site line → prints m site line) (fuel : Nat) :
    Truncates limit prints (turn test body fuel) := by
  induction fuel with
  | zero => exact unfinished
  | succ fuel ih =>
    rw [turn_succ]
    have goes (v : Value) : Truncates limit (fun t site line => v.truthy ∧ (own t site line ∨
        ∃ u, body t = (.ok (), u) ∧ prints u site line))
        (if v.truthy then body >>= fun _ => Machine.turn test body fuel else Pure.pure ()) := by
      split
      case isTrue holds =>
        apply turned.bind (fun _ => ih)
        · exact fun _ _ _ printed => ⟨holds, .inl printed⟩
        · exact fun _ _ u _ _ ran printed => ⟨holds, .inr ⟨u, ran, printed⟩⟩
      case isFalse => exact pure ()
    apply tested.bind goes
    · exact fun _ _ _ => False.elim
    · rintro m v t site line ran ⟨holds, printed | ⟨u, turned, printed⟩⟩
      · exact inside m v t site line ran holds printed
      · exact again m v t u site line ran holds turned printed

end Truncates

end Machine

namespace Stmt

/-- A run of the statements comes to print a text, on the second of the two machines. -/
inductive Prints : List Stmt → Machine → Machine → String → Prop where
  | print {e : Expr} {rest : List Stmt} {m site : Machine} {v : Value}
    (value : onEnv e.eval m = (.ok v, site)) : Prints (.print e :: rest) m site (v.text ++ "\n")
  | block {body rest : List Stmt} {m site : Machine} {line : String}
    (inside : Prints body { m with env := m.env.enter } site line) :
    Prints (.block body :: rest) m site line
  | yes {condition : Expr} {yes : Stmt} {no : Option Stmt} {rest : List Stmt}
    {m between site : Machine} {v : Value} {line : String}
    (test : onEnv condition.eval m = (.ok v, between)) (holds : v.truthy)
    (inside : Prints [yes] between site line) :
    Prints (.branch condition yes no :: rest) m site line
  | no {condition : Expr} {yes no : Stmt} {rest : List Stmt} {m between site : Machine} {v : Value}
    {line : String} (test : onEnv condition.eval m = (.ok v, between)) (fails : ¬ v.truthy)
    (inside : Prints [no] between site line) :
    Prints (.branch condition yes (some no) :: rest) m site line
  | turn {condition : Expr} {body : Stmt} {rest : List Stmt} {m between site : Machine} {v : Value}
    {line : String} (test : onEnv condition.eval m = (.ok v, between)) (holds : v.truthy)
    (inside : Prints [body, .loop condition body] between site line) :
    Prints (.loop condition body :: rest) m site line
  | later {s : Stmt} {rest : List Stmt} {fuel : Nat} {m after site : Machine} {line : String}
    (first : s.exec fuel m = (.ok (), after)) (behind : Prints rest after site line) :
    Prints (s :: rest) m site line

namespace Prints

theorem append {first : List Stmt} {m site : Machine} {line : String}
    (h : Prints first m site line) (rest : List Stmt) : Prints (first ++ rest) m site line := by
  induction h with
  | print value => exact .print value
  | block inside _ => exact .block inside
  | yes test holds inside _ => exact .yes test holds inside
  | no test fails inside _ => exact .no test fails inside
  | turn test holds inside _ => exact .turn test holds inside
  | later first _ ih => exact .later first ih

end Prints

variable {limit : Nat}

theorem truncates_evaluation {prints : Machine → Machine → String → Prop} (e : Expr) :
    Truncates limit prints (onEnv e.eval) :=
  .onEnv fun env => (e.moves_eval Env.moves_write env).depth_eq

theorem truncates_execAll {fuel : Nat} {body : List Stmt}
    (each : ∀ s ∈ body, Truncates limit (Prints [s]) (s.exec fuel)) :
    Truncates limit (Prints body) (execAll fuel body) := by
  induction body with
  | nil => exact .pure ()
  | cons s rest ih =>
    have others := ih fun t member => each t (List.mem_cons_of_mem s member)
    apply (each s List.mem_cons_self).bind fun _ => others
    · exact fun _ _ _ printed => printed.append rest
    · exact fun _ _ _ _ _ ran printed => .later ran printed

theorem truncates_exec (fuel : Nat) (s : Stmt) : Truncates limit (Prints [s]) (s.exec fuel) := by
  induction s with
  | expression e =>
    apply (truncates_evaluation e).bind fun _ => .pure ()
    · exact fun _ _ _ => False.elim
    · exact fun _ _ _ _ _ _ => False.elim
  | print e =>
    apply (truncates_evaluation e).bind (fun v => .printLine v.text)
    · exact fun _ _ _ => False.elim
    · rintro m v t site line ran ⟨rfl, rfl⟩
      exact .print ran
  | declare name initializer =>
    cases initializer with
    | none => exact .define name.lexeme .nil
    | some e =>
      apply (truncates_evaluation e).bind fun v => .define name.lexeme v
      · exact fun _ _ _ => False.elim
      · exact fun _ _ _ _ _ _ => False.elim
  | block body ih =>
    exact Truncates.inScope (truncates_execAll ih) fun _ _ _ => .block
  | branch condition yes no yesIH noIH =>
    unfold exec
    cases no with
    | none =>
      have goes (v : Value) : Truncates limit
          (fun t site line => v.truthy ∧ Prints [yes] t site line)
          (if v.truthy then yes.exec fuel else Pure.pure ()) := by
        split
        case isTrue holds => exact yesIH.mono fun _ _ _ printed => ⟨holds, printed⟩
        case isFalse => exact .pure ()
      apply (truncates_evaluation condition).bind goes
      · exact fun _ _ _ => False.elim
      · exact fun m v t site line ran printed => .yes ran printed.1 printed.2
    | some no =>
      have goes (v : Value) : Truncates limit
          (fun t site line =>
            if v.truthy then Prints [yes] t site line else Prints [no] t site line)
          (if v.truthy then yes.exec fuel else no.exec fuel) := by
        split
        case isTrue => exact yesIH
        case isFalse => exact noIH no rfl
      apply (truncates_evaluation condition).bind goes
      · exact fun _ _ _ => False.elim
      · intro m v t site line ran printed
        split at printed
        case isTrue holds => exact .yes ran holds printed
        case isFalse fails => exact .no ran fails printed
  | loop condition body ih =>
    apply Truncates.turn (truncates_evaluation condition) ih
    · intro m v t site line ran holds printed
      exact .turn ran holds (printed.append _)
    · intro m v t u site line ran holds turned printed
      exact .turn ran holds (.later turned printed)

end Stmt

end Scriptlet
