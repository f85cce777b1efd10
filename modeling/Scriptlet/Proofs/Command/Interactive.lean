import Scriptlet.Command.Interactive
import Scriptlet.Proofs.Command.Script
import Scriptlet.Proofs.Run.Scope
import Scriptlet.Proofs.Run.Session

/-!
Sessions. A line with a diagnostic leaves no trace on the machine, an error of the program ends its
line and not the session, and lines that are accepted do what they do in one script.
-/

namespace Scriptlet.Command

open Run Machine

/-- The session of an input with these lines, of each of which the editor makes a text. -/
def session (fuel : Nat) (readline : String → String) (lines : List String) : Run Session Nat :=
  interact fuel ⟨false, false⟩ (lines.map fun line => .line (readline line))

/-- An error of the program ends the work as if it were done. -/
def forgive (work : Run Machine Unit) : Run Machine Unit := fun m =>
  match work m with
  | (.error (.error _), t) => (.ok (), t)
  | ended => ended

/-- What a line does to the machine. -/
def answer (fuel : Nat) (line : String) : Run Machine Unit :=
  if (Program.ofSource line).diagnostics.isEmpty then
    forgive (enter fuel (Program.ofSource line).statements)
  else pure ()

def answers (fuel : Nat) : List String → Run Machine Unit
  | [] => pure ()
  | line :: rest => do
    answer fuel line
    answers fuel rest

section

variable (fuel : Nat)

theorem feed_answer (line : String) (s : Session) :
    ∃ verdict complaints, Session.feed ⟨false, false⟩ (enter fuel) line s =
      ((answer fuel line s.machine).1.map fun _ => verdict,
        ⟨(answer fuel line s.machine).2, complaints⟩) := by
  unfold answer
  simp only [Session.feed]
  split
  case isTrue accepted =>
    show ∃ verdict complaints, Session.attempt _ s = _
    simp only [Session.attempt, forgive]
    rcases enter fuel (Program.ofSource line).statements s.machine with ⟨stop | ⟨⟩, m⟩
    · cases stop with
      | error e =>
        dsimp only
        rw [Session.foldl_complain]
        exact ⟨.failed, _, rfl⟩
      | stuck | unfinished => exact ⟨.failed, _, rfl⟩
    · exact ⟨.fine, _, rfl⟩
  case isFalse rejected =>
    rw [Session.foldl_complain]
    exact ⟨.rejected, _, rfl⟩

theorem interact_answers (lines : List String) (s : Session) :
    ∃ complaints, interact fuel ⟨false, false⟩ (lines.map .line) s =
      ((answers fuel lines s.machine).1.map fun _ => success,
        ⟨(answers fuel lines s.machine).2, complaints⟩) := by
  induction lines generalizing s with
  | nil => exact ⟨s.complaints, rfl⟩
  | cons line rest ih =>
    obtain ⟨verdict, complaints, fed⟩ := feed_answer fuel line s
    simp only [List.map_cons, interact, answers, bind_apply, fed]
    rcases answer fuel line s.machine with ⟨stop | ⟨⟩, m⟩
    · exact ⟨complaints, rfl⟩
    · exact ih ⟨m, complaints⟩

theorem session_initial (readline : String → String) (lines : List String) :
    ∃ complaints, session fuel readline lines .initial =
      ((answers fuel (lines.map readline) .initial).1.map fun _ => success,
        ⟨(answers fuel (lines.map readline) .initial).2, complaints⟩) := by
  have replies : (lines.map fun line => Reply.line (readline line)) =
      (lines.map readline).map .line := by rw [List.map_map]; rfl
  rw [session, replies]
  exact interact_answers fuel _ .initial

theorem answers_filter (lines : List String) :
    answers fuel (lines.filter fun line => (Program.ofSource line).diagnostics.isEmpty) =
      answers fuel lines := by
  induction lines with
  | nil => rfl
  | cons line rest ih =>
    rw [List.filter_cons]
    split
    case isTrue accepted => rw [answers, answers, ih]
    case isFalse rejected =>
      rw [ih, answers, answer, if_neg rejected]
      rfl

def shown : List Stmt → List Stmt
  | [.expression e] => [.print e]
  | statements => statements

theorem shown_of_ne {statements : List Stmt} (other : ∀ e, statements ≠ [.expression e]) :
    shown statements = statements := by
  unfold shown
  split
  · exact absurd rfl (other _)
  · rfl

theorem enter_eq (statements : List Stmt) :
    enter fuel statements = Stmt.execAll fuel (shown statements) := by
  by_cases alone : ∃ e, statements = [.expression e]
  case pos =>
    obtain ⟨e, rfl⟩ := alone
    funext m
    show (Stmt.print e).exec fuel m = (Stmt.exec fuel (.print e) >>= fun _ => pure ()) m
    rw [bind_apply]
    rcases (Stmt.print e).exec fuel m with ⟨_ | ⟨⟩, t⟩ <;> rfl
  case neg =>
    have other : ∀ e, statements ≠ [.expression e] := fun e same => alone ⟨e, same⟩
    rw [shown_of_ne other]
    unfold enter
    split
    · exact absurd rfl (other _)
    · rfl

theorem enter_unstuck {statements : List Stmt} (canonical : ∀ s ∈ statements, s.Canonical)
    (m : Machine) (unknown : Token) : (enter fuel statements m).1 ≠ .error (.stuck unknown) := by
  rw [enter_eq]
  apply Stmt.execAll_unstuck
  unfold shown
  split
  · rw [List.forall_mem_singleton] at canonical ⊢
    cases canonical with
    | expression inner => exact .print inner
  · exact canonical

theorem forgive_snd (work : Run Machine Unit) (m : Machine) : (forgive work m).2 = (work m).2 := by
  unfold forgive
  rcases work m with ⟨stop | ⟨⟩, t⟩
  · cases stop <;> rfl
  · rfl

theorem forgive_of_quiet {work : Run Machine Unit} {m : Machine}
    (quiet : ∀ e, (work m).1 ≠ .error (.error e)) : forgive work m = work m := by
  unfold forgive
  split
  case h_1 e t stopped => exact absurd (by rw [stopped]) (quiet e)
  case h_2 => rfl

theorem stopsFor_answer (line : String) : StopsFor (· = .unfinished) (answer fuel line) := by
  intro m stop stopped
  unfold answer at stopped
  split at stopped
  case isFalse => cases stopped
  case isTrue =>
    have unstuck := enter_unstuck fuel (Program.canonical_ofSource line) m
    unfold forgive at stopped
    rcases ran : enter fuel (Program.ofSource line).statements m with ⟨raised | ⟨⟩, t⟩
    · rw [ran] at stopped
      cases raised with
      | error e => cases stopped
      | stuck op => exact absurd (congrArg Prod.fst ran) (unstuck op)
      | unfinished => exact (Except.error.inj stopped).symm
    · rw [ran] at stopped
      cases stopped

theorem stopsFor_answers (lines : List String) :
    StopsFor (· = .unfinished) (answers fuel lines) := by
  induction lines with
  | nil => exact .pure ()
  | cons line rest ih => exact (stopsFor_answer fuel line).bind fun _ => ih

theorem answers_ended (lines : List String) (m : Machine) :
    (answers fuel lines m).1 = .ok () ∨ (answers fuel lines m).1 = .error .unfinished := by
  rcases ended : (answers fuel lines m).1 with stop | ⟨⟩
  · exact .inr (congrArg Except.error (stopsFor_answers fuel lines m stop ended))
  · exact .inl rfl

theorem depth_answer (line : String) (m : Machine) :
    (answer fuel line m).2.env.depth = m.env.depth := by
  unfold answer
  split
  · rw [forgive_snd, enter_eq]
    exact (Stmt.moves_execAll (fun s _ => s.moves_exec fuel) m).depth_eq
  · rfl

theorem depth_answers (lines : List String) (m : Machine) :
    (answers fuel lines m).2.env.depth = m.env.depth := by
  induction lines generalizing m with
  | nil => rfl
  | cons line rest ih =>
    have here := depth_answer fuel line m
    rw [answers, bind_apply]
    rcases ran : answer fuel line m with ⟨_ | ⟨⟩, t⟩ <;> rw [ran] at here
    · exact here
    · exact (ih t).trans here

theorem answer_of_quiet {line : String} {m : Machine}
    (accepted : (Program.ofSource line).diagnostics = [])
    (other : ∀ e, (Program.ofSource line).statements ≠ [.expression e])
    (quiet : ∀ e, (enter fuel (Program.ofSource line).statements m).1 ≠ .error (.error e)) :
    answer fuel line m = Stmt.execAll fuel (Program.ofSource line).statements m := by
  rw [answer, if_pos (by rw [accepted]; rfl), forgive_of_quiet quiet, enter_eq, shown_of_ne other]

theorem diagnostics_joined {lines : List String}
    (accepted : ∀ line ∈ lines, (Program.ofSource line).diagnostics = []) :
    (Program.ofSource ("\n".intercalate lines)).diagnostics = [] := by
  match lines with
  | [] => rw [String.intercalate_nil, Program.ofSource_empty]
  | [line] => exact accepted line List.mem_cons_self
  | line :: next :: rest =>
    have first := accepted line List.mem_cons_self
    have others := diagnostics_joined fun l member => accepted l (List.mem_cons_of_mem line member)
    rw [String.intercalate_cons_cons, Program.ofSource_newline first others]

theorem execAll_joined {lines : List String} {m : Machine}
    (accepted : ∀ line ∈ lines, (Program.ofSource line).diagnostics = [])
    (other : ∀ line ∈ lines, ∀ e, (Program.ofSource line).statements ≠ [.expression e])
    (quiet : ∀ before line after t, lines = before ++ line :: after →
      answers fuel before m = (.ok (), t) →
      ∀ e, (enter fuel (Program.ofSource line).statements t).1 ≠ .error (.error e)) :
    Stmt.execAll fuel (Program.ofSource ("\n".intercalate lines)).statements m =
      answers fuel lines m := by
  match lines with
  | [] =>
    rw [String.intercalate_nil, Program.ofSource_empty]
    rfl
  | [line] =>
    have here := answer_of_quiet fuel (accepted line List.mem_cons_self)
      (other line List.mem_cons_self) (quiet [] line [] m rfl rfl)
    rw [String.intercalate_singleton, answers, bind_apply, here]
    rcases Stmt.execAll fuel (Program.ofSource line).statements m with ⟨_ | ⟨⟩, t⟩ <;> rfl
  | line :: next :: rest =>
    have first := accepted line List.mem_cons_self
    have later := fun l member => accepted l (List.mem_cons_of_mem line member)
    have here := answer_of_quiet fuel first (other line List.mem_cons_self)
      (quiet [] line (next :: rest) m rfl rfl)
    rw [String.intercalate_cons_cons, Program.ofSource_newline first (diagnostics_joined later),
      Stmt.execAll_append, Stmt.execAll_respelled, bind_apply, answers, bind_apply, here]
    rcases ran : Stmt.execAll fuel (Program.ofSource line).statements m with ⟨_ | ⟨⟩, t⟩
    · rfl
    · have tail := execAll_joined (m := t) later
        (fun l member => other l (List.mem_cons_of_mem line member))
        fun before l after u same reached => quiet (line :: before) l after u (by rw [same]; rfl)
          (by rw [answers, bind_apply, here, ran]; exact reached)
      -- the lines of the script are further down, but only an error could tell
      simp only [Run.moved, tail]
      apply Prod.ext
      · rcases answers_ended fuel (next :: rest) t with ended | ended <;>
          simp only [ended] <;> rfl
      · rfl

end

/-- Lines that the session rejects have no part in it, whatever text the editor makes of a line.
Without them every other line finds the same machine and leaves the same one, at the outermost
scope, and the session succeeds as before. If of the others none is in error or a lone expression,
their texts are a script with the same output. -/
theorem interact_noninterference (fuel : Nat) (path : String) (readline : String → String)
    (lines : List String) :
    let program (line : String) := Program.ofSource (readline line)
    let accepted (line : String) := (program line).diagnostics.isEmpty
    let kept := lines.filter accepted
    (∀ before, before <+: lines →
      let (result, s) := session fuel readline before .initial
      let (result', s') := session fuel readline (before.filter accepted) .initial
      result = result' ∧ s.machine = s'.machine ∧ s.machine.env.depth = 1 ∧
        (result = .ok 0 ∨ result = .error .unfinished)) ∧
    ((∀ line ∈ kept, ∀ e, (program line).statements ≠ [.expression e]) →
      (∀ before line after s, kept = before ++ line :: after →
        session fuel readline before .initial = (.ok 0, s) →
        ∀ e, (enter fuel (program line).statements s.machine).1 ≠ .error (.error e)) →
      Transcript.ofRun (runScript fuel ⟨false, false⟩ path
          (decode ("\n".intercalate (kept.map readline)).toUTF8)) =
        { Transcript.ofRun (session fuel readline lines) with err := "" }) := by
  intro program accepted kept
  have without (lines : List String) :
      answers fuel ((lines.filter accepted).map readline) = answers fuel (lines.map readline) := by
    rw [← answers_filter fuel (lines.map readline), List.filter_map]
    rfl
  constructor
  · intro before _
    obtain ⟨complaints, ran⟩ := session_initial fuel readline before
    obtain ⟨complaints', ran'⟩ := session_initial fuel readline (before.filter accepted)
    have depth := depth_answers fuel (before.map readline) .initial
    rw [without] at ran'
    simp only [ran, ran']
    refine ⟨trivial, trivial, depth, ?_⟩
    rcases answers_ended fuel (before.map readline) .initial with ended | ended
    · exact .inl (by rw [ended]; rfl)
    · exact .inr (by rw [ended]; rfl)
  · intro other quiet
    have clean : ∀ text ∈ kept.map readline, (Program.ofSource text).diagnostics = [] :=
      List.forall_mem_map.mpr fun line member => List.isEmpty_iff.mp (List.mem_filter.mp member).2
    have still : ∀ before text after t, kept.map readline = before ++ text :: after →
        answers fuel before .initial = (.ok (), t) →
        ∀ e, (enter fuel (Program.ofSource text).statements t).1 ≠ .error (.error e) := by
      intro before text after t same reached
      obtain ⟨earlier, later, cut, rfl, behind⟩ := List.map_eq_append_iff.mp same
      obtain ⟨line, rest, rfl, rfl, _⟩ := List.map_eq_cons_iff.mp behind
      obtain ⟨complaints, ran⟩ := session_initial fuel readline earlier
      rw [reached] at ran
      exact quiet earlier line rest ⟨t, complaints⟩ cut ran
    have joined := execAll_joined fuel clean (List.forall_mem_map.mpr other) still
    obtain ⟨complaints, ran⟩ := session_initial fuel readline lines
    rw [without] at joined
    rw [decode_toUTF8, transcript_accepted fuel _ path (diagnostics_joined clean) joined,
      unlines_listing, ByteArray.empty_append]
    simp only [Transcript.ofRun, ran]
    rcases answers_ended fuel (lines.map readline) .initial with ended | ended
    · rw [ended]
      rfl
    · rw [ended]
      rfl

theorem interact_noninterference_open_block :
    let lines := ["var a = true;", "\x7b a = nil;", "print a;"]
    (session 0 id lines .initial).2.machine =
        (session 0 id ["var a = true;", "print a;"] .initial).2.machine ∧
      Transcript.ofRun (runScript 0 ⟨false, false⟩ "a.lox"
          (decode "var a = true;\nprint a;".toUTF8)) =
        { Transcript.ofRun (session 0 id lines) with err := "" } := by
  intro lines
  have scanned : scan "var a = true;" =
      ⟨[⟨.kwVar, "var", none, 1⟩, ⟨.name, "a", none, 1⟩, ⟨.equal, "=", none, 1⟩,
        ⟨.kwTrue, "true", none, 1⟩, ⟨.semicolon, ";", none, 1⟩, .endAt 1], []⟩ := by decide +kernel
  have first : Program.ofSource "var a = true;" =
      ⟨[.declare ⟨.name, "a", none, 1⟩ (some (.bool true))], []⟩ := by
    rw [Program.ofSource_of_scan scanned]
    cbv
  have scanned : scan "\x7b a = nil;" =
      ⟨[⟨.leftBrace, "\x7b", none, 1⟩, ⟨.name, "a", none, 1⟩, ⟨.equal, "=", none, 1⟩,
        ⟨.kwNil, "nil", none, 1⟩, ⟨.semicolon, ";", none, 1⟩, .endAt 1], []⟩ := by decide +kernel
  have second : (Program.ofSource "\x7b a = nil;").diagnostics =
      [⟨1, .atEnd, .unclosedBlock⟩] := by
    rw [Program.ofSource_of_scan scanned]
    cbv
  have scanned : scan "print a;" =
      ⟨[⟨.kwPrint, "print", none, 1⟩, ⟨.name, "a", none, 1⟩, ⟨.semicolon, ";", none, 1⟩,
        .endAt 1], []⟩ := by decide +kernel
  have third : Program.ofSource "print a;" = ⟨[.print (.var ⟨.name, "a", none, 1⟩)], []⟩ := by
    rw [Program.ofSource_of_scan scanned]
    cbv
  have kept : (lines.filter fun line => (Program.ofSource (id line)).diagnostics.isEmpty) =
      ["var a = true;", "print a;"] := by
    simp [lines, first, second, third]
  obtain ⟨same, script⟩ := interact_noninterference 0 "a.lox" id lines
  rw [kept] at script
  refine ⟨?_, script ?_ ?_⟩
  · obtain ⟨_, machines, _⟩ := same lines (List.prefix_refl lines)
    rwa [kept] at machines
  · intro line member e alone
    rcases List.mem_pair.mp member with rfl | rfl
    · cases (congrArg Program.statements first).symm.trans alone
    · cases (congrArg Program.statements third).symm.trans alone
  · intro before line after s split ran e raised
    cases before with
    | nil =>
      obtain ⟨rfl, rfl⟩ := List.cons.inj split
      simp only [id_eq, first] at raised
      cases raised
    | cons line' before =>
      obtain ⟨rfl, split⟩ := List.cons.inj split
      obtain ⟨rfl, rfl, rfl⟩ : before = [] ∧ line = "print a;" ∧ after = [] := by
        simpa [List.cons_eq_append_iff] using split
      have ended : session 0 id ["var a = true;"] .initial =
          (.ok 0, ⟨⟨⟨[("a", .bool true)], []⟩, .unlimited⟩, ""⟩) := by
        simp only [session, List.map_cons, List.map_nil, interact, bind_apply, Session.feed, id,
          first]
        rfl
      cases ended.symm.trans ran
      simp only [id_eq, third] at raised
      cases raised

end Scriptlet.Command
