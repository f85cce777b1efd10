import Scriptlet.Proofs.Token.Lexeme

/-!
The depth of a comment, as the marks of its text move it and as the scanner counts it. The two
agree as long as fewer than `tooDeep` levels are open.
-/

namespace Scriptlet

/-- The depth behind each step of reading a text from `depth` on. A mark that opens or closes a
comment is one step, and so is any other character. -/
def depths (depth : Int) : List Char → List Int
  | '/' :: '*' :: cs => (depth + 1) :: depths (depth + 1) cs
  | '*' :: '/' :: cs => (depth - 1) :: depths (depth - 1) cs
  | _ :: cs => depth :: depths depth cs
  | [] => []

/-- Nowhere in the text is a comment opened that gets too deep for the scanner to count. -/
def Shallow (text : List Char) : Prop :=
  ∀ body, '/' :: '*' :: body <:+: text → ¬ Reaches [tooDeep] 1 body

theorem Reaches.ne_nil {ends : List Nat} {depth : Nat} {cs : List Char}
    (reaches : Reaches ends depth cs) (before : depth ∉ ends) : cs ≠ [] := by
  cases reaches with
  | done reached => exact absurd reached before
  | _ => simp

section

variable {depth : Nat} {cs body rest : List Char}

theorem closeComment_ended {depth : Int32} (ended : depth ≤ 0) (cs : List Char) :
    closeComment depth cs = some ([], cs) := by rw [closeComment.eq_def, if_pos ended]

theorem closeComment_opening {depth : Int32} (inside : ¬ depth ≤ 0) (cs : List Char) :
    closeComment depth ('/' :: '*' :: cs) =
      (closeComment (depth + 1) cs).map fun (body, rest) => ('/' :: '*' :: body, rest) := by
  rw [closeComment.eq_def, if_neg inside]
  rfl

theorem closeComment_closing {depth : Int32} (inside : ¬ depth ≤ 0) (cs : List Char) :
    closeComment depth ('*' :: '/' :: cs) =
      (closeComment (depth - 1) cs).map fun (body, rest) => ('*' :: '/' :: body, rest) := by
  rw [closeComment.eq_def, if_neg inside]
  rfl

theorem closeComment_other {depth : Int32} (inside : ¬ depth ≤ 0) {c : Char}
    (noOpening : ¬ ['/', '*'] <+: c :: cs) (noClosing : ¬ ['*', '/'] <+: c :: cs) :
    closeComment depth (c :: cs) =
      (closeComment depth cs).map fun (body, rest) => (c :: body, rest) := by
  rw [closeComment.eq_def, if_neg inside]
  split
  · rename_i same; cases same
  · rename_i same; cases same; exact absurd ⟨_, rfl⟩ noOpening
  · rename_i same; cases same; exact absurd ⟨_, rfl⟩ noClosing
  · rename_i same; cases same; rfl

theorem ofNat_nonpos_iff (small : depth ≤ tooDeep) :
    Int32.ofNat depth ≤ 0 ↔ depth ∈ commentEnds := by
  rcases Nat.lt_or_eq_of_le small with less | equal
  · rw [Int32.le_iff_toInt_le, Int32.toInt_ofNat_of_lt less, Int32.toInt_zero]
    simp only [commentEnds, List.mem_cons, List.not_mem_nil, or_false]
    omega
  · have wrapped : Int32.ofNat tooDeep ≤ 0 := by decide
    rw [equal]
    exact iff_of_true wrapped (by simp [commentEnds])

theorem ofNat_opening (depth : Nat) : Int32.ofNat (depth + 1) + 1 = Int32.ofNat (depth + 2) :=
  (Int32.ofNat_add (depth + 1) 1).symm

theorem ofNat_closing (depth : Nat) : Int32.ofNat (depth + 1) - 1 = Int32.ofNat depth := by
  rw [Int32.ofNat_add]
  exact Int32.add_sub_cancel _ _

theorem exists_level (small : depth ≤ tooDeep) (going : ¬ Int32.ofNat depth ≤ 0) :
    depth ∉ commentEnds ∧ ∃ n, depth = n + 1 ∧ n + 2 ≤ tooDeep := by
  have inside : depth ∉ commentEnds := mt (ofNat_nonpos_iff small).mpr going
  refine ⟨inside, depth - 1, ?_⟩
  simp only [commentEnds, List.mem_cons, not_or] at inside
  omega

theorem closeComment_of_reaches (reaches : Reaches commentEnds depth body)
    (small : depth ≤ tooDeep) (rest : List Char) :
    closeComment (.ofNat depth) (body ++ rest) = some (body, rest) := by
  induction reaches with
  | done reached => exact closeComment_ended ((ofNat_nonpos_iff small).mpr reached) rest
  | @opening depth cs inside _ ih =>
    have going : ¬ Int32.ofNat (depth + 1) ≤ 0 := mt (ofNat_nonpos_iff small).mp inside
    obtain ⟨-, _, same, below⟩ := exists_level small going
    cases same
    rw [List.cons_append, List.cons_append, closeComment_opening going, ofNat_opening, ih below]
    rfl
  | @closing depth cs inside _ ih =>
    have going : ¬ Int32.ofNat (depth + 1) ≤ 0 := mt (ofNat_nonpos_iff small).mp inside
    rw [List.cons_append, List.cons_append, closeComment_closing going, ofNat_closing,
      ih (Nat.le_of_succ_le small)]
    rfl
  | @other depth c cs inside noOpening noClosing reaches ih =>
    have going : ¬ Int32.ofNat (depth + 1) ≤ 0 := mt (ofNat_nonpos_iff small).mp inside
    -- The comment is not over behind `c`, so the character after it is part of it as well.
    obtain ⟨d, ds, rfl⟩ := List.exists_cons_of_ne_nil (reaches.ne_nil inside)
    have sameOpening : ¬ ['/', '*'] <+: c :: d :: (ds ++ rest) := by simpa using noOpening
    have sameClosing : ¬ ['*', '/'] <+: c :: d :: (ds ++ rest) := by simpa using noClosing
    rw [List.cons_append, List.cons_append, closeComment_other going sameOpening sameClosing,
      ← List.cons_append, ih small]
    rfl

theorem reaches_of_closeComment (closed : closeComment (.ofNat depth) cs = some (body, rest))
    (small : depth ≤ tooDeep) : Reaches commentEnds depth body := by
  generalize level : Int32.ofNat depth = counted at closed
  fun_induction closeComment counted cs generalizing depth body rest with subst level
  | case1 counted cs ended =>
    cases closed
    exact .done ((ofNat_nonpos_iff small).mp ended)
  | case2 => cases closed
  | case3 counted going cs ih =>
    obtain ⟨inside, depth, rfl, below⟩ := exists_level small going
    obtain ⟨⟨inner, rest⟩, found, eq⟩ := Option.map_eq_some_iff.mp closed
    cases eq
    exact .opening inside (ih below (ofNat_opening depth).symm found)
  | case4 counted going cs ih =>
    obtain ⟨inside, depth, rfl, -⟩ := exists_level small going
    obtain ⟨⟨inner, rest⟩, found, eq⟩ := Option.map_eq_some_iff.mp closed
    cases eq
    exact .closing inside (ih (Nat.le_of_succ_le small) (ofNat_closing depth).symm found)
  | case5 counted going c cs opens closes ih =>
    obtain ⟨inside, depth, rfl, -⟩ := exists_level small going
    obtain ⟨⟨inner, rest⟩, found, eq⟩ := Option.map_eq_some_iff.mp closed
    cases eq
    have whole := closeComment_append found
    refine .other inside ?_ ?_ (ih small rfl found)
    · rintro ⟨more, eq⟩
      obtain ⟨rfl, rfl⟩ := List.cons.inj eq
      exact opens _ rfl whole.symm
    · rintro ⟨more, eq⟩
      obtain ⟨rfl, rfl⟩ := List.cons.inj eq
      exact closes _ rfl whole.symm

end

section

variable {ends others : List Nat} {text rest : List Char}

/-- Two rules for the end of a comment agree on all comments that could start in the text. -/
def Agree (ends others : List Nat) (text : List Char) : Prop :=
  ∀ body, '/' :: '*' :: body <:+: text → (Reaches ends 1 body ↔ Reaches others 1 body)

theorem Agree.symm (agree : Agree ends others text) : Agree others ends text :=
  fun body within => (agree body within).symm

theorem Agree.behind (agree : Agree ends others (text ++ rest)) : Agree ends others rest :=
  fun body within => agree body (within.trans (List.suffix_append text rest).isInfix)

theorem Filler.of_agree (filler : Filler ends text rest)
    (agree : Agree ends others (text ++ rest)) : Filler others text rest := by
  cases filler with
  | blank blank => exact .blank blank
  | newline => exact .newline
  | lineComment inside stops => exact .lineComment inside stops
  | blockComment reaches =>
    exact .blockComment ((agree _ (List.prefix_append _ _).isInfix).mp reaches)
  | unexpected strange => exact .unexpected strange
  | openString inside => exact .openString inside
  | openComment never =>
    refine .openComment ?_
    rintro front ⟨behind, rfl⟩ reaches
    have within : '/' :: '*' :: front <:+: '/' :: '*' :: (front ++ behind) ++ [] :=
      ⟨[], behind, by simp⟩
    exact never front ⟨behind, rfl⟩ ((agree _ within).mpr reaches)

theorem Gap.of_agree (gap : Gap ends text rest) (agree : Agree ends others (text ++ rest)) :
    Gap others text rest := by
  induction gap with
  | nil => exact .nil
  | cons filler _ ih =>
    rw [List.append_assoc] at agree
    exact .cons (filler.of_agree agree) (ih agree.behind)

theorem Reaches.counted {depth : Nat} {body : List Char} (closes : Reaches [0] depth body)
    (shallow : ∀ front, front <+: body → ¬ Reaches [tooDeep] depth front) :
    Reaches commentEnds depth body := by
  have full {depth : Nat} {cs : List Char}
      (shallow : ∀ front, front <+: cs → ¬ Reaches [tooDeep] depth front) : depth ∉ [tooDeep] :=
    fun reached => shallow [] List.nil_prefix (.done reached)
  have going {depth : Nat} (some : depth ∉ [0]) (small : depth ∉ [tooDeep]) :
      depth ∉ commentEnds := by
    simp_all [commentEnds]
  induction closes with
  | done ended => exact .done (by simp_all [commentEnds])
  | opening some _ ih =>
    refine .opening (going some (full shallow)) (ih ?_)
    rintro front ⟨behind, rfl⟩ deep
    exact shallow ('/' :: '*' :: front) ⟨behind, rfl⟩ (.opening (full shallow) deep)
  | closing some _ ih =>
    refine .closing (going some (full shallow)) (ih ?_)
    rintro front ⟨behind, rfl⟩ deep
    exact shallow ('*' :: '/' :: front) ⟨behind, rfl⟩ (.closing (full shallow) deep)
  | @other depth c cs some noOpening noClosing _ ih =>
    refine .other (going some (full shallow)) noOpening noClosing (ih ?_)
    intro front before deep
    have longer : c :: front <+: c :: cs := List.cons_prefix_cons.mpr ⟨rfl, before⟩
    exact shallow (c :: front) longer (.other (full shallow)
      (fun opens => noOpening (opens.trans longer)) (fun closes => noClosing (closes.trans longer))
      deep)

theorem Reaches.closed_or_deep {depth : Nat} {body : List Char}
    (reaches : Reaches commentEnds depth body) :
    Reaches [0] depth body ∨ Reaches [tooDeep] depth body := by
  have going {depth : Nat} (inside : depth ∉ commentEnds) : depth ∉ [0] ∧ depth ∉ [tooDeep] := by
    simp_all [commentEnds]
  induction reaches with
  | done ended =>
    rcases List.mem_cons.mp ended with closed | deep
    · exact .inl (.done (List.mem_singleton.mpr closed))
    · exact .inr (.done deep)
  | opening inside _ ih =>
    exact ih.imp (.opening (going inside).1) (.opening (going inside).2)
  | closing inside _ ih =>
    exact ih.imp (.closing (going inside).1) (.closing (going inside).2)
  | other inside noOpening noClosing _ ih =>
    exact ih.imp (.other (going inside).1 noOpening noClosing)
      (.other (going inside).2 noOpening noClosing)

theorem Reaches.length_ge {goal depth : Nat} {body : List Char}
    (reaches : Reaches [goal] depth body) : 2 * goal ≤ 2 * depth + body.length := by
  induction reaches with
  | done reached => simp [List.mem_singleton.mp reached]
  | _ => simp only [List.length_cons]; omega

/-- A level takes two characters, so a text that is too deep is long. -/
theorem shallow_of_length (short : text.length < 2 * tooDeep) : Shallow text := by
  intro body within deep
  have enough := deep.length_ge
  have length := within.length_le
  simp only [List.length_cons] at length
  omega

theorem Shallow.agree (shallow : Shallow text) : Agree [0] commentEnds text := by
  intro body within
  constructor
  · intro closes
    refine closes.counted ?_
    rintro front ⟨behind, rfl⟩
    have part : '/' :: '*' :: front <+: '/' :: '*' :: (front ++ behind) := ⟨behind, rfl⟩
    exact shallow front (part.isInfix.trans within)
  · intro reaches
    exact reaches.closed_or_deep.resolve_right (shallow body within)

end

theorem depths_eq_nil_iff {depth : Int} {cs : List Char} : depths depth cs = [] ↔ cs = [] := by
  fun_cases depths depth cs <;> simp

theorem mem_depths_of_reaches {ends : List Nat} {depth : Nat} {body : List Char}
    (reaches : Reaches ends depth body) (rest : List Char) :
    ∃ d ∈ ends, (d : Int) ∈ (depth : Int) :: depths depth (body ++ rest) := by
  induction reaches with
  | done reached => exact ⟨_, reached, List.mem_cons_self⟩
  | opening _ _ ih =>
    obtain ⟨d, reached, among⟩ := ih
    rw [List.cons_append, List.cons_append, depths]
    exact ⟨d, reached, List.mem_cons_of_mem _ among⟩
  | closing _ _ ih =>
    obtain ⟨d, reached, among⟩ := ih
    rw [List.cons_append, List.cons_append, depths, Int.natCast_succ, Int.add_sub_cancel]
    exact ⟨d, reached, List.mem_cons_of_mem _ among⟩
  | @other depth c cs inside noOpening noClosing reaches ih =>
    obtain ⟨e, reached, among⟩ := ih
    -- The comment is not over behind `c`, so the mark that `c` could start would be part of it.
    obtain ⟨d, ds, rfl⟩ := List.exists_cons_of_ne_nil (reaches.ne_nil inside)
    rw [List.cons_append, depths]
    · exact ⟨e, reached, List.mem_cons_of_mem _ among⟩
    · rintro more rfl eq; cases eq; exact noOpening ⟨ds, rfl⟩
    · rintro more rfl eq; cases eq; exact noClosing ⟨ds, rfl⟩

def openings (n : Nat) : List Char := (List.replicate n ['/', '*']).flatten

theorem openings_succ (n : Nat) : openings (n + 1) = '/' :: '*' :: openings n := by
  simp [openings, List.replicate_succ]

theorem openings_tooDeep :
    ∃ n, 1 + n = tooDeep ∧ openings tooDeep = '/' :: '*' :: openings n :=
  ⟨tooDeep - 1, by decide, openings_succ _⟩

theorem newline_not_mem_openings (n : Nat) : '\n' ∉ openings n := by simp [openings]

theorem reaches_openings {depth n : Nat} (full : depth + n = tooDeep) (some : 0 < depth) :
    Reaches commentEnds depth (openings n) := by
  induction n generalizing depth with
  | zero => exact .done (by simp [commentEnds, ← full])
  | succ n ih =>
    obtain ⟨depth, rfl⟩ := Nat.exists_eq_add_one.mpr some
    have inside : depth + 1 ∉ commentEnds := by
      simp only [commentEnds, List.mem_cons, List.not_mem_nil, or_false]
      omega
    rw [openings_succ]
    exact .opening inside (ih (by omega) (by omega))

theorem le_of_mem_depths_openings {rest : List Char}
    (flat : ∀ depth, ∀ d ∈ depths depth rest, depth ≤ d) (n : Nat) (depth : Int) :
    ∀ d ∈ depths depth (openings n ++ rest), depth ≤ d := by
  induction n generalizing depth with
  | zero => exact flat depth
  | succ n ih =>
    rw [openings_succ, List.cons_append, List.cons_append, depths]
    refine List.forall_mem_cons.mpr ⟨by omega, fun d member => ?_⟩
    exact Int.le_trans (by omega) (ih (depth + 1) d member)

theorem not_closed_openings {rest : List Char}
    (flat : ∀ depth, ∀ d ∈ depths depth rest, depth ≤ d) (n : Nat) :
    ∀ front, front <+: openings n ++ rest → ¬ Reaches [0] 1 front := by
  rintro front ⟨behind, whole⟩ closes
  obtain ⟨d, zero, among⟩ := mem_depths_of_reaches closes behind
  rw [whole, List.mem_singleton.mp zero] at among
  rcases List.mem_cons.mp among with impossible | among
  · cases impossible
  · exact absurd (le_of_mem_depths_openings flat n 1 0 among) (by decide)

end Scriptlet
