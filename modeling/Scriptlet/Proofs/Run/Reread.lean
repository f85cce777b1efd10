import Scriptlet.Proofs.Grammar.Accepted
import Scriptlet.Proofs.Number.Written
import Scriptlet.Proofs.Token.Joined
import Scriptlet.Run.Expression

namespace Scriptlet

open Piece Terminal

attribute [local instance] Binary64.corePow

theorem Program.ofSource_of_split {source : String} {pieces : List Piece} {statements : List Stmt}
    (cut : split source.toList = pieces)
    (clean : (numbered 1 pieces).filterMap diagnostic? = [])
    (canonical : ∀ s ∈ statements, s.Canonical)
    (spelled : Spell (Stmt.yieldAll statements) ((numbered 1 pieces).filterMap token?)) :
    ofSource source = ⟨statements, []⟩ := by
  have scanned : (scan source).diagnostics = [] := by rwa [scan, cut]
  have parsed : ofTokens (scan source).tokens = ⟨statements, []⟩ := by
    apply ofTokens_of_done
    rw [body_scan, cut, Grammar.readStmts_eq_done_iff]
    exact ⟨canonical, spelled⟩
  simp only [ofSource, parsed, scanned, List.append_nil]

namespace Decimal

variable (d : Decimal)

def pieces : List Piece :=
  [⟨.token .number (some (.number d.toFloat)), d.digits⟩, ⟨.token .semicolon none, [';']⟩]

theorem split_digits : split (d.digits ++ [';']) = d.pieces := by
  have lexeme : Lexeme .number (some (.number d.toFloat)) d.digits [';'] := by
    apply d.lexeme_digits
    · rintro c ⟨⟩
      rfl
    · rintro c ⟨more, same⟩
      cases same
  have semicolon : split [';'] = [⟨.token .semicolon none, [';']⟩] := by
    rw [split_cons]
    exact congrArg (List.cons _) split_nil
  rw [split_lexeme lexeme, semicolon]
  rfl

theorem ofSource_digits :
    Program.ofSource (String.ofList d.digits ++ ";") = ⟨[.expression (.number d.toFloat)], []⟩ := by
  have cut : split (String.ofList d.digits ++ ";").toList = d.pieces := by
    rw [String.toList_append, String.toList_ofList]
    exact d.split_digits
  apply Program.ofSource_of_split cut
  · rfl
  · exact List.forall_mem_singleton.mpr (.expression (.number _))
  · exact .cons ⟨rfl, rfl⟩ (.cons rfl .nil)

theorem ofSource_minus_digits :
    Program.ofSource ("-" ++ String.ofList d.digits ++ ";") =
      ⟨[.expression (.unary ⟨.minus, "-", none, 1⟩ (.number d.toFloat))], []⟩ := by
  have cut : split ("-" ++ String.ofList d.digits ++ ";").toList =
      ⟨.token .minus none, ['-']⟩ :: d.pieces := by
    rw [String.append_assoc, String.toList_append, String.toList_append,
      String.toList_ofList (l := d.digits), ← d.split_digits]
    exact split_of_first rfl
  apply Program.ofSource_of_split cut
  · rfl
  · exact List.forall_mem_singleton.mpr (.expression (.unary rfl rfl (.number _)))
  · exact .cons rfl (.cons ⟨rfl, rfl⟩ (.cons rfl .nil))

end Decimal

theorem numberText_of_not_finite {x : Float} (infinite : ¬ x.isFinite) :
    numberText x = "inf" ∨ numberText x = "-inf" ∨ numberText x = "NaN" := by
  rw [Binary64.isFinite_iff] at infinite
  unfold numberText
  by_cases nan : Binary64.infinity < x.toBits.toNat % 2 ^ (63 : Nat)
  · exact .inr (.inr (if_pos nan))
  have infinity : x.toBits.toNat % 2 ^ (63 : Nat) = Binary64.infinity := by omega
  simp only [if_neg nan, if_pos infinity]
  split
  · exact .inr (.inl rfl)
  · exact .inl rfl

/-- Not an infinity and not NaN. -/
def Value.finite : Value → Bool
  | number x => x.isFinite
  | _ => true

/-- A value that is no string, written out with a semicolon behind it, is one expression. The
expression has this value, down to the sign of a zero; of a number that is not finite the text is
a name, which nothing binds. -/
theorem Value.text_reread (v : Value) (plain : ∀ s, v ≠ .string s) :
    ∃ e, Program.ofSource (v.text ++ ";") = ⟨[.expression e], []⟩ ∧
      (v.finite → ∀ env, e.eval env = (.ok v, env)) ∧
      (¬ v.finite → ∃ name ∈ ["inf", "NaN"],
        e.eval .empty = (.error (.error (.undefinedVariable name 1)), .empty)) := by
  cases v with
  | nil =>
    refine ⟨.nil, ?_, fun _ _ => rfl, fun infinite => absurd rfl infinite⟩
    have scanned : scan (nil.text ++ ";") =
        ⟨[⟨.kwNil, "nil", none, 1⟩, ⟨.semicolon, ";", none, 1⟩, .endAt 1], []⟩ := by
      decide +kernel
    rw [Program.ofSource_of_scan scanned]
    cbv
  | bool b =>
    refine ⟨.bool b, ?_, fun _ _ => rfl, fun infinite => absurd rfl infinite⟩
    have scanned : scan ((bool b).text ++ ";") =
        ⟨[⟨if b then .kwTrue else .kwFalse, (bool b).text, none, 1⟩, ⟨.semicolon, ";", none, 1⟩,
          .endAt 1], []⟩ := by
      cases b <;> decide +kernel
    rw [Program.ofSource_of_scan scanned]
    cases b <;> cbv
  | string s => exact absurd rfl (plain s)
  | number x =>
    by_cases finite : x.isFinite
    case pos =>
      obtain ⟨d, ⟨text, rfl⟩ | ⟨text, rfl⟩⟩ := numberText_of_finite finite
      · refine ⟨.number d.toFloat, ?_, fun _ _ => rfl, fun infinite => absurd finite infinite⟩
        rw [Value.text, text, d.ofSource_digits]
      · refine ⟨.unary ⟨.minus, "-", none, 1⟩ (.number d.toFloat), ?_, fun _ _ => rfl,
          fun infinite => absurd finite infinite⟩
        rw [Value.text, text, d.ofSource_minus_digits]
    case neg =>
      rcases numberText_of_not_finite finite with text | text | text
      · refine ⟨.var ⟨.name, "inf", none, 1⟩, ?_, fun plain => absurd plain finite,
          fun _ => ⟨"inf", by decide, rfl⟩⟩
        have scanned : scan ("inf" ++ ";") =
            ⟨[⟨.name, "inf", none, 1⟩, ⟨.semicolon, ";", none, 1⟩, .endAt 1], []⟩ := by
          decide +kernel
        rw [Value.text, text, Program.ofSource_of_scan scanned]
        cbv
      · refine ⟨.unary ⟨.minus, "-", none, 1⟩ (.var ⟨.name, "inf", none, 1⟩), ?_,
          fun plain => absurd plain finite, fun _ => ⟨"inf", by decide, rfl⟩⟩
        have scanned : scan ("-inf" ++ ";") =
            ⟨[⟨.minus, "-", none, 1⟩, ⟨.name, "inf", none, 1⟩, ⟨.semicolon, ";", none, 1⟩,
              .endAt 1], []⟩ := by
          decide +kernel
        rw [Value.text, text, Program.ofSource_of_scan scanned]
        cbv
      · refine ⟨.var ⟨.name, "NaN", none, 1⟩, ?_, fun plain => absurd plain finite,
          fun _ => ⟨"NaN", by decide, rfl⟩⟩
        have scanned : scan ("NaN" ++ ";") =
            ⟨[⟨.name, "NaN", none, 1⟩, ⟨.semicolon, ";", none, 1⟩, .endAt 1], []⟩ := by
          decide +kernel
        rw [Value.text, text, Program.ofSource_of_scan scanned]
        cbv

theorem Value.text_reread_negative :
    (∃ e, Program.ofSource "-0;" = ⟨[.expression e], []⟩ ∧
      e.eval .empty = (.ok (.number (Float.ofBits 0x8000000000000000)), .empty)) ∧
    ∃ e name, Program.ofSource "-inf;" = ⟨[.expression e], []⟩ ∧
      e.eval .empty = (.error (.error (.undefinedVariable name 1)), .empty) := by
  constructor
  · have text : (Value.number (Float.ofBits 0x8000000000000000)).text = "-0" := by decide +kernel
    obtain ⟨e, parsed, value, _⟩ := text_reread (.number (Float.ofBits 0x8000000000000000)) nofun
    rw [text] at parsed
    exact ⟨e, parsed, value (by decide) .empty⟩
  · have text : (Value.number (Float.ofBits 0xFFF0000000000000)).text = "-inf" := by decide +kernel
    obtain ⟨e, parsed, _, fails⟩ := text_reread (.number (Float.ofBits 0xFFF0000000000000)) nofun
    obtain ⟨name, _, fails⟩ := fails (by decide)
    rw [text] at parsed
    exact ⟨e, name, parsed, fails⟩

end Scriptlet
