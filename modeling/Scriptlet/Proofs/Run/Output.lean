import Scriptlet.Proofs.Run.Limit

namespace Scriptlet

open Run Machine

theorem Run.bind_eq_ok {σ α β : Type} {run : Run σ α} {next : α → Run σ β} {s t : σ} {b : β}
    (h : (run >>= next) s = (.ok b, t)) :
    ∃ a u, run s = (.ok a, u) ∧ next a u = (.ok b, t) := by
  rw [bind_apply] at h
  rcases ran : run s with ⟨stop | a, u⟩
  · rw [ran] at h
    cases h
  · rw [ran] at h
    exact ⟨a, u, rfl, h⟩

namespace Stmt

variable {statements : List Stmt} {m t site : Machine} {line : String}

theorem execAll_singleton {fuel : Nat} {s : Stmt} (h : s.exec fuel m = (.ok (), t)) :
    execAll fuel [s] m = (.ok (), t) := by
  rw [execAll, bind_apply, h]
  rfl

theorem exec_unique {fuel other : Nat} {s : Stmt} {u : Machine}
    (one : s.exec fuel m = (.ok (), t)) (two : s.exec other m = (.ok (), u)) : t = u := by
  have first := exec_of_le (Nat.le_max_left fuel other) s m (by rw [one]; simp)
  have second := exec_of_le (Nat.le_max_right fuel other) s m (by rw [two]; simp)
  rw [one] at first
  rw [first, two] at second
  exact congrArg Prod.snd second

theorem exec_grows (fuel : Nat) (s : Stmt) (m : Machine) : Grows m (s.exec fuel m).2 :=
  (@truncates_exec 0 fuel s).grows m

theorem execAll_grows (fuel : Nat) (statements : List Stmt) (m : Machine) :
    Grows m (execAll fuel statements m).2 :=
  (@truncates_execAll 0 fuel statements fun s _ => truncates_exec fuel s).grows m

theorem execAll_cons_ok {fuel : Nat} {s : Stmt} {rest : List Stmt}
    (ended : execAll fuel (s :: rest) m = (.ok (), t)) :
    ∃ u, s.exec fuel m = (.ok (), u) ∧ execAll fuel rest u = (.ok (), t) ∧ Grows u t := by
  obtain ⟨_, u, ran, others⟩ := bind_eq_ok ended
  have grown := execAll_grows fuel rest u
  rw [others] at grown
  exact ⟨u, ran, others, grown⟩

theorem execAll_of_turn {fuel : Nat} {condition : Expr} {body : Stmt} {v : Value} {u : Machine}
    (test : onEnv condition.eval m = (.ok v, u)) (holds : v.truthy)
    (ended : (loop condition body).exec fuel m = (.ok (), t)) :
    execAll fuel [body, .loop condition body] u = (.ok (), t) := by
  cases fuel with
  | zero => cases ended
  | succ fuel =>
    rw [exec, turn_succ] at ended
    obtain ⟨v, u, again, ended⟩ := bind_eq_ok ended
    cases test.symm.trans again
    rw [if_pos holds] at ended
    obtain ⟨_, w, turned, ended⟩ := bind_eq_ok ended
    have longer := prolongs_turn (Prolongs.refl (body.exec (fuel + 1))) fuel w
      (by rw [ended]; simp)
    have last : (loop condition body).exec (fuel + 1) w = (.ok (), t) := longer.trans ended
    rw [execAll, bind_apply, turned]
    exact execAll_singleton last

theorem inScope_eq_ok {body : Run Machine Unit} (ended : inScope body m = (.ok (), t)) :
    ∃ u, body { m with env := m.env.enter } = (.ok (), u) ∧ t.sink = u.sink := by
  rcases ran : body { m with env := m.env.enter } with ⟨result, u⟩
  rw [inScope, ran] at ended
  cases ended
  exact ⟨u, rfl, rfl⟩

theorem sink_of_onEnv {α : Type} {run : Run Env α} {result : Except Stop α}
    (h : onEnv run m = (result, t)) : t.sink = m.sink := by
  cases h
  rfl

namespace Prints

theorem grows (h : Prints statements m site line) : Grows m site := by
  induction h with
  | print value =>
    rw [Grows, sink_of_onEnv value]
    exact refl_of Sink.Grows _
  | block _ ih => exact ih
  | yes test _ _ ih | no test _ _ ih | turn test _ _ ih => rwa [Grows, ← sink_of_onEnv test]
  | @later s _ fuel m _ _ _ first _ ih =>
    have grown := exec_grows fuel s m
    rw [first] at grown
    exact trans_of Grows grown ih

theorem grows_of_ok (h : Prints statements m site line) {fuel : Nat}
    (ended : execAll fuel statements m = (.ok (), t)) : (site.sink.write line).Grows t.sink := by
  induction h generalizing fuel t with
  | @print _ _ _ site v value =>
    obtain ⟨u, ran, _, grown⟩ := execAll_cons_ok ended
    obtain ⟨_, _, again, printed⟩ := bind_eq_ok ran
    cases value.symm.trans again
    have wrote : u.sink = site.sink.write (v.text ++ "\n") :=
      (congrArg (fun r => r.2.sink) printed).symm
    rwa [← wrote]
  | block _ ih =>
    obtain ⟨u, ran, _, grown⟩ := execAll_cons_ok ended
    obtain ⟨w, inside, sink⟩ := inScope_eq_ok ran
    rw [Grows, sink] at grown
    exact trans_of Sink.Grows (ih inside) grown
  | yes test holds _ ih =>
    obtain ⟨u, ran, _, grown⟩ := execAll_cons_ok ended
    unfold exec at ran
    obtain ⟨_, _, again, inside⟩ := bind_eq_ok ran
    cases test.symm.trans again
    rw [if_pos holds] at inside
    exact trans_of Sink.Grows (ih (execAll_singleton inside)) grown
  | no test fails _ ih =>
    obtain ⟨u, ran, _, grown⟩ := execAll_cons_ok ended
    unfold exec at ran
    obtain ⟨_, _, again, inside⟩ := bind_eq_ok ran
    cases test.symm.trans again
    rw [if_neg fails] at inside
    exact trans_of Sink.Grows (ih (execAll_singleton inside)) grown
  | turn test holds _ ih =>
    obtain ⟨u, ran, _, grown⟩ := execAll_cons_ok ended
    exact trans_of Sink.Grows (ih (execAll_of_turn test holds ran)) grown
  | later first _ ih =>
    obtain ⟨u, ran, rest, _⟩ := execAll_cons_ok ended
    cases exec_unique first ran
    exact ih rest

theorem of_cons {s : Stmt} {rest : List Stmt} (h : Prints (s :: rest) m site line) :
    Prints [s] m site line ∨
      ∃ fuel after, s.exec fuel m = (.ok (), after) ∧ Prints rest after site line := by
  cases h with
  | print value => exact .inl (.print value)
  | block inside => exact .inl (.block inside)
  | yes test holds inside => exact .inl (.yes test holds inside)
  | no test fails inside => exact .inl (.no test fails inside)
  | turn test holds inside => exact .inl (.turn test holds inside)
  | later first behind => exact .inr ⟨_, _, first, behind⟩

variable {other : Machine} {text : String}

theorem before_later {s : Stmt} {rest : List Stmt} {fuel : Nat} (h : Prints [s] m site line)
    (first : s.exec fuel m = (.ok (), t)) (behind : Prints rest t other text) :
    (site.sink.write line).Grows other.sink :=
  trans_of Sink.Grows (h.grows_of_ok (execAll_singleton first)) behind.grows

theorem ordered (one : Prints statements m site line) (two : Prints statements m other text) :
    (site = other ∧ line = text) ∨ (site.sink.write line).Grows other.sink ∨
      (other.sink.write text).Grows site.sink := by
  induction one with
  | print value =>
    rcases two.of_cons with here | ⟨_, _, first, behind⟩
    · cases here with
      | print again =>
        cases value.symm.trans again
        exact .inl ⟨rfl, rfl⟩
      | later _ behind => nomatch behind
    · exact .inr (.inl ((Prints.print value).before_later first behind))
  | block inside ih =>
    rcases two.of_cons with here | ⟨_, _, first, behind⟩
    · cases here with
      | block again => exact ih again
      | later _ behind => nomatch behind
    · exact .inr (.inl ((Prints.block inside).before_later first behind))
  | yes test holds inside ih =>
    rcases two.of_cons with here | ⟨_, _, first, behind⟩
    · cases here with
      | yes retest _ again => cases test.symm.trans retest; exact ih again
      | no retest fails _ => cases test.symm.trans retest; exact absurd holds fails
      | later _ behind => nomatch behind
    · exact .inr (.inl ((Prints.yes test holds inside).before_later first behind))
  | no test fails inside ih =>
    rcases two.of_cons with here | ⟨_, _, first, behind⟩
    · cases here with
      | yes retest holds _ => cases test.symm.trans retest; exact absurd holds fails
      | no retest _ again => cases test.symm.trans retest; exact ih again
      | later _ behind => nomatch behind
    · exact .inr (.inl ((Prints.no test fails inside).before_later first behind))
  | turn test holds inside ih =>
    rcases two.of_cons with here | ⟨_, _, first, behind⟩
    · cases here with
      | turn retest _ again => cases test.symm.trans retest; exact ih again
      | later _ behind => nomatch behind
    · exact .inr (.inl ((Prints.turn test holds inside).before_later first behind))
  | later first behind ih =>
    rcases two.of_cons with here | ⟨_, _, again, after⟩
    · exact .inr (.inr (here.before_later first behind))
    · cases exec_unique first again
      exact ih after

theorem crossing_unique {limit : Nat} (unlimited : m.sink.limit = none)
    (one : Prints statements m site line) (two : Prints statements m other text)
    (crosses : Crosses limit site line) (again : Crosses limit other text) :
    other = site ∧ text = line := by
  have size := Sink.size_write_unlimited (one.grows.limit.trans unlimited) line
  have size' := Sink.size_write_unlimited (two.grows.limit.trans unlimited) text
  have ⟨before, passed⟩ := crosses
  have ⟨before', passed'⟩ := again
  rcases one.ordered two with ⟨rfl, rfl⟩ | grown | grown
  · exact ⟨rfl, rfl⟩
  · have sizes := grown.size_le
    omega
  · have sizes := grown.size_le
    omega

end Prints

/-- A run on a sink with room for some more bytes, compared with the run on one without a limit.
Within the room both are the same. When the room is passed, even by a run that never ends, the run
on the limited sink ends: the error has no line, exactly the bytes that fit are written, every block
is left, and the scopes bind what they did at the one print that passes the limit. -/
theorem execAll_limited (statements : List Stmt) (env : Env) (written : ByteArray)
    (room fuel : Nat) :
    let limit := written.size + room
    let free := execAll fuel statements ⟨env, written, none⟩
    (free.2.sink.written.size ≤ limit →
      execAll fuel statements ⟨env, written, some limit⟩ =
        (free.1, ⟨free.2.env, free.2.sink.written, some limit⟩)) ∧
    (limit < free.2.sink.written.size →
      ∃ site line after, Prints statements ⟨env, written, none⟩ site line ∧
        Crosses limit site line ∧
        (∀ other text, Prints statements ⟨env, written, none⟩ other text →
          Crosses limit other text → other = site ∧ text = line) ∧
        after.scopes <:+ site.env.scopes ∧ after.depth = env.depth ∧
        ∀ more ≥ fuel, execAll more statements ⟨env, written, some limit⟩ =
          (.error (.error .sinkFull),
            ⟨after, free.2.sink.written.extract 0 limit, some limit⟩)) ∧
    RuntimeError.sinkFull.line? = none := by
  intro limit free
  have truncates : Truncates limit (Prints statements) (execAll fuel statements) :=
    truncates_execAll fun s _ => truncates_exec fuel s
  have cut := truncates.cut ⟨env, written, none⟩ rfl (Nat.le_add_right written.size room)
  refine ⟨fun within => ?_, fun passed => ?_, rfl⟩
  · rcases cut with fits | breaks
    · exact fits.same
    · exact absurd within (Nat.not_le_of_lt breaks.passed)
  · rcases cut with fits | ⟨_, site, line, after, printed, crosses, outer, depth, stopped⟩
    · exact absurd fits.within (Nat.not_le_of_lt passed)
    · refine ⟨site, line, after, printed, crosses, ?_, outer, depth, fun more le => ?_⟩
      · exact fun other text again => printed.crossing_unique rfl again crosses
      · have longer := execAll_of_le le statements _ (by rw [stopped]; simp)
        exact longer.trans stopped

/-- The statements `var a; while (true) { print a; a = true; }`. -/
def printing : List Stmt :=
  [.declare ⟨.name, "a", none, 1⟩ none, .loop (.bool true) (.block
    [.print (.var ⟨.name, "a", none, 1⟩),
      .expression (.assign ⟨.name, "a", none, 1⟩ (.bool true))])]

theorem execAll_limited_printing :
    (execAll 1 printing ⟨.empty, .empty, none⟩).2.sink.written.size ≤ 6 ∧
      execAll 1 printing ⟨.empty, .empty, some 6⟩ =
        (.error .unfinished, ⟨⟨[("a", .bool true)], []⟩, "nil\n".toUTF8, some 6⟩) ∧
      6 < (execAll 2 printing ⟨.empty, .empty, none⟩).2.sink.written.size ∧
      ∀ more ≥ 2, execAll more printing ⟨.empty, .empty, some 6⟩ =
        (.error (.error .sinkFull), ⟨⟨[("a", .bool true)], []⟩, "nil\ntr".toUTF8, some 6⟩) := by
  have within : (execAll 1 printing ⟨.empty, .empty, none⟩).2.sink.written.size ≤ 6 := by decide
  have passed : 6 < (execAll 2 printing ⟨.empty, .empty, none⟩).2.sink.written.size := by decide
  obtain ⟨same, _⟩ := execAll_limited printing .empty .empty 6 1
  obtain ⟨_, cut, _⟩ := execAll_limited printing .empty .empty 6 2
  obtain ⟨site, line, after, _, _, _, _, _, stops⟩ := cut passed
  have stopped : execAll 2 printing ⟨.empty, .empty, some 6⟩ =
      (.error (.error .sinkFull), ⟨⟨[("a", .bool true)], []⟩, "nil\ntr".toUTF8, some 6⟩) := rfl
  refine ⟨within, (same within).trans rfl, passed, fun more le => ?_⟩
  exact (stops more le).trans ((stops 2 (Nat.le_refl 2)).symm.trans stopped)

end Stmt

end Scriptlet
