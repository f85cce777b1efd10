import Scriptlet.Proofs.Grammar.Accepted
import Scriptlet.Proofs.Grammar.Respelled
import Scriptlet.Proofs.Run.Lines
import Scriptlet.Proofs.Token.Joined

namespace Scriptlet.Program

open Grammar Terminal

theorem ofTokens_append {first second : List Token} (r : Respelling)
    (before : (ofTokens first).diagnostics = []) (after : (ofTokens second).diagnostics = []) :
    ofTokens (body first ++ second.map r.apply) =
      ⟨(ofTokens first).statements ++ (ofTokens second).statements.map (Stmt.respelled r), []⟩ := by
  obtain ⟨canonical, spelled⟩ := readStmts_eq_done_iff.mp (read_of_clean before)
  obtain ⟨canonical', spelled'⟩ := readStmts_eq_done_iff.mp (read_of_clean after)
  apply ofTokens_of_done
  rw [body_append (body_inner first), body_respelled, readStmts_eq_done_iff,
    Stmt.yieldAll_append, Stmt.yieldAll_respelled]
  exact ⟨List.forall_mem_append.mpr ⟨canonical, List.forall_mem_map.mpr fun s member =>
    (canonical' s member).respelled⟩, spelled.append spelled'.respelled⟩

theorem ofSource_clean_iff {source : String} : (ofSource source).diagnostics = [] ↔
    (scan source).diagnostics = [] ∧ (ofTokens (scan source).tokens).diagnostics = [] :=
  List.append_eq_nil_iff

theorem ofSource_newline {a b : String} (first : (ofSource a).diagnostics = [])
    (second : (ofSource b).diagnostics = []) :
    ofSource (a ++ "\n" ++ b) =
      ⟨(ofSource a).statements ++ (ofSource b).statements.map
        (Stmt.respelled (.lines (· + (1 + a.toList.count '\n')))), []⟩ := by
  obtain ⟨scanned, parsed⟩ := ofSource_clean_iff.mp first
  obtain ⟨scanned', parsed'⟩ := ofSource_clean_iff.mp second
  have closed := @closed_of_scan a (by simp [scanned])
  simp only [ofSource, scan_joined closed, Scan.followed, Scan.moved,
    ofTokens_append _ parsed parsed', scanned, scanned', List.map_nil, List.append_nil]

/-- Two texts without a diagnostic have none with a newline between them. The whole is the
statements of the first and then those of the second, further down by its lines, and a run of it
is a run of the first and, unless that stops, of the second from where the first ended. -/
theorem ofSource_joined {a b : String} (first : (ofSource a).diagnostics = [])
    (second : (ofSource b).diagnostics = []) :
    let move := (· + (1 + a.toList.count '\n'))
    ofSource (a ++ "\n" ++ b) =
        ⟨(ofSource a).statements ++ (ofSource b).statements.map (Stmt.respelled (.lines move)),
          []⟩ ∧
      ∀ fuel m, Stmt.execAll fuel (ofSource (a ++ "\n" ++ b)).statements m =
        match Stmt.execAll fuel (ofSource a).statements m with
        | (.ok _, t) =>
          let (result, u) := Stmt.execAll fuel (ofSource b).statements t
          (result.mapError (Stop.moved move), u)
        | (.error stop, t) => (.error stop, t) := by
  intro move
  have whole := ofSource_newline first second
  refine ⟨whole, fun fuel m => ?_⟩
  rw [whole, Stmt.execAll_append, Stmt.execAll_respelled, Run.bind_apply]
  rcases Stmt.execAll fuel (ofSource a).statements m with ⟨_ | _, t⟩ <;> rfl

theorem ofSource_joined_branch :
    (ofSource "if (true)\n print nil;").diagnostics = [] ∧
      (ofSource "print -nil;").diagnostics = [] ∧
      ofSource "if (true)\n print nil;\nprint -nil;" =
        ⟨[.branch (.bool true) (.print .nil) none,
          .print (.unary ⟨.minus, "-", none, 3⟩ .nil)], []⟩ ∧
      ∀ fuel, (Stmt.execAll fuel (ofSource "if (true)\n print nil;\nprint -nil;").statements
        .initial).1 = .error (.error (.operandNotNumber 3)) := by
  have front : scan "if (true)\n print nil;" =
      ⟨[⟨.kwIf, "if", none, 1⟩, ⟨.leftParen, "(", none, 1⟩, ⟨.kwTrue, "true", none, 1⟩,
        ⟨.rightParen, ")", none, 1⟩, ⟨.kwPrint, "print", none, 2⟩, ⟨.kwNil, "nil", none, 2⟩,
        ⟨.semicolon, ";", none, 2⟩, .endAt 2], []⟩ := by decide +kernel
  have back : scan "print -nil;" =
      ⟨[⟨.kwPrint, "print", none, 1⟩, ⟨.minus, "-", none, 1⟩, ⟨.kwNil, "nil", none, 1⟩,
        ⟨.semicolon, ";", none, 1⟩, .endAt 1], []⟩ := by decide +kernel
  have first : ofSource "if (true)\n print nil;" =
      ⟨[.branch (.bool true) (.print .nil) none], []⟩ := by rw [ofSource_of_scan front]; cbv
  have second : ofSource "print -nil;" =
      ⟨[.print (.unary ⟨.minus, "-", none, 1⟩ .nil)], []⟩ := by rw [ofSource_of_scan back]; cbv
  have firstClean := congrArg diagnostics first
  have secondClean := congrArg diagnostics second
  obtain ⟨whole, runs⟩ := ofSource_joined firstClean secondClean
  rw [first, second] at whole runs
  exact ⟨firstClean, secondClean, whole, fun fuel => congrArg Prod.fst (runs fuel .initial)⟩

end Scriptlet.Program
