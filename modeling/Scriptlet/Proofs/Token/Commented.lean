import Scriptlet.Proofs.Token.Joined

namespace Scriptlet

open Piece

/-- A text that opens a comment and is back at depth zero at its end and nowhere before. -/
structure IsComment (c : String) : Prop where
  opens : ['/', '*'] <+: c.toList
  returns : ∃ before, depths 0 c.toList = before ++ [0] ∧ 0 ∉ before

/-- A text that opens a comment and is nowhere back at depth zero. -/
structure NeverCloses (u : String) : Prop where
  opens : ['/', '*'] <+: u.toList
  remains : 0 ∉ depths 0 u.toList

/-- A text that a comment can follow: it ends within no string, no comment and no line comment,
and not with a slash. -/
structure Commentable (p : String) : Prop where
  closed : ∀ d ∈ (scan p).diagnostics,
    d.fault ≠ .unterminatedString ∧ d.fault ≠ .unterminatedComment
  line : ∀ last ∈ (split p.toList).getLast?, ¬ last.IsLineComment
  slash : ∀ last ∈ (split p.toList).getLast?, ∀ literal, last.sort ≠ .token .slash literal

theorem returns_cons {d : Int} {ds : List Int}
    (returns : ∃ before, d :: ds = before ++ [0] ∧ 0 ∉ before) :
    (d = 0 ∧ ds = []) ∨ (d ≠ 0 ∧ ∃ before, ds = before ++ [0] ∧ 0 ∉ before) := by
  obtain ⟨_ | ⟨b, before⟩, whole, first⟩ := returns <;> obtain ⟨rfl, rfl⟩ := List.cons.inj whole
  · exact .inl ⟨rfl, rfl⟩
  · obtain ⟨here, later⟩ := List.ne_and_not_mem_of_not_mem_cons first
    exact .inr ⟨here.symm, before, rfl, later⟩

theorem closes_of_depths {depth : Nat} {cs : List Char}
    (returns : ∃ before, depths (depth + 1) cs = before ++ [0] ∧ 0 ∉ before) :
    Reaches [0] (depth + 1) cs := by
  have inside (depth : Nat) : depth + 1 ∉ [0] := by simp
  generalize level : (depth + 1 : Int) = d at returns
  fun_induction depths d cs generalizing depth with
  | case1 d cs ih =>
    obtain ⟨zero, -⟩ | ⟨-, later⟩ := returns_cons returns
    · omega
    · exact .opening (inside _) (@ih (depth + 1) (by omega) later)
  | case2 d cs ih =>
    obtain ⟨zero, last⟩ | ⟨some, later⟩ := returns_cons returns
    · obtain rfl : depth = 0 := by omega
      obtain rfl := depths_eq_nil_iff.mp last
      exact .closing (inside _) (.done List.mem_cons_self)
    · obtain ⟨depth, rfl⟩ : ∃ n, depth = n + 1 := Nat.exists_eq_add_one.mpr (by omega)
      exact .closing (inside _) (ih (by omega) later)
  | case3 d c cs noOpening noClosing ih =>
    obtain ⟨zero, -⟩ | ⟨-, later⟩ := returns_cons returns
    · omega
    · refine .other (inside _) ?_ ?_ (ih level later)
      · rintro ⟨more, eq⟩; cases eq; exact noOpening _ rfl rfl
      · rintro ⟨more, eq⟩; cases eq; exact noClosing _ rfl rfl
  | case4 => simp at returns

theorem not_reaches_of_depths {ends : List Nat} {body : List Char}
    (never : ∀ d ∈ ends, (d : Int) ∉ depths 0 ('/' :: '*' :: body)) :
    ∀ front, front <+: body → ¬ Reaches ends 1 front := by
  rintro front ⟨rest, rfl⟩ reaches
  obtain ⟨d, reached, among⟩ := mem_depths_of_reaches reaches rest
  exact never d reached among

namespace Piece

theorem first_of_isComment {c : String} (comment : IsComment c)
    (below : ∀ d ∈ depths 0 c.toList, d < tooDeep) (rest : List Char) :
    ∃ cs, c.toList = '/' :: cs ∧ first '/' (cs ++ rest) = (⟨.comment, c.toList⟩, rest) := by
  obtain ⟨⟨body, chars⟩, returns⟩ := comment
  rw [← chars] at returns below ⊢
  have shallow : ∀ front, front <+: body → ¬ Reaches [tooDeep] 1 front := by
    apply not_reaches_of_depths
    rw [List.forall_mem_singleton]
    exact fun deep => absurd (below _ deep) (by decide)
  obtain ⟨zero, -⟩ | ⟨-, later⟩ := returns_cons returns
  · cases zero
  · have closes : Reaches [0] 1 body := @closes_of_depths 0 _ later
    exact ⟨'*' :: body, rfl, slash_block (closes.counted shallow) rest⟩

theorem first_of_neverCloses {u : String} (never : NeverCloses u)
    (below : ∀ d ∈ depths 0 u.toList, d < tooDeep) :
    ∃ cs, u.toList = '/' :: cs ∧
      first '/' cs = (⟨.unreadable .unterminatedComment, u.toList⟩, []) := by
  obtain ⟨⟨body, chars⟩, remains⟩ := never
  rw [← chars] at remains below ⊢
  refine ⟨'*' :: body, rfl, slash_open (not_reaches_of_depths fun d reached among => ?_)⟩
  rcases List.mem_pair.mp reached with rfl | rfl
  · exact remains among
  · exact absurd (below _ among) (by decide)

end Piece

theorem boundary_slash : Boundary '/' := ⟨by decide, by decide, by decide, by decide⟩

theorem scan_comment {c : String} (comment : IsComment c)
    (below : ∀ d ∈ depths 0 c.toList, d < tooDeep) (q : String) :
    scan (c ++ q) = (scan q).moved (c.toList.count '\n') := by
  obtain ⟨cs, chars, found⟩ := first_of_isComment comment below q.toList
  apply scan_skipped
  rw [String.toList_append, chars, List.cons_append, solid_of_first 1 found, chars]
  rfl

theorem scan_neverCloses {u : String} (never : NeverCloses u)
    (below : ∀ d ∈ depths 0 u.toList, d < tooDeep) :
    let last := 1 + u.toList.count '\n'
    scan u = ⟨[Token.endAt last], [⟨last, .nowhere, .unterminatedComment⟩]⟩ := by
  intro last
  obtain ⟨cs, chars, found⟩ := first_of_neverCloses never below
  have pieces : split u.toList = [⟨.unreadable .unterminatedComment, u.toList⟩] := by
    rw [chars, split_cons, found, split_nil, chars]
  rw [scan, pieces]
  rfl

theorem Commentable.scan_append {p b : String} (commentable : Commentable p) {d : Char}
    {more : List Char} (starts : b.toList = d :: more) (boundary : Boundary d) :
    scan (p ++ b) = (scan p).followed ((scan b).moved (p.toList.count '\n')) := by
  refine Scriptlet.scan_append starts boundary (closed_of_scan commentable.closed) ?_
  exact fun last found => ⟨fun line => absurd line (commentable.line last found),
    fun slash => absurd slash (commentable.slash last found none)⟩

/-- Until too many levels are open, a comment is as good as a space, but moves what is
behind it by its lines, and a comment that is never closed ends the text with one fault. -/
theorem scan_commented {p : String} (commentable : Commentable p) :
    (∀ c q, IsComment c → (∀ d ∈ depths 0 c.toList, d < tooDeep) →
      let behind := (scan q).moved (p.toList.count '\n')
      scan (p ++ " " ++ q) = (scan p).followed behind ∧
        scan (p ++ c ++ q) = (scan p).followed (behind.moved (c.toList.count '\n'))) ∧
    ∀ u, NeverCloses u → (∀ d ∈ depths 0 u.toList, d < tooDeep) →
      let last := 1 + (p ++ u).toList.count '\n'
      scan (p ++ u) = (scan p).followed
        ⟨[Token.endAt last], [⟨last, .nowhere, .unterminatedComment⟩]⟩ := by
  refine ⟨fun c q comment below => ⟨?space, ?comment⟩, fun u never below => ?never⟩
  case space =>
    have starts : (" " ++ q).toList = ' ' :: q.toList := by simp
    have boundary : Boundary ' ' := ⟨by decide, by decide, by decide, by decide⟩
    have blank : ∀ c ∈ [' '], isBlank c := List.forall_mem_singleton.mpr rfl
    have skipped : scan (" " ++ q) = (scan q).moved 0 :=
      scan_skipped (by rw [starts]; exact solid_blanks blank 1 _)
    rw [String.append_assoc, commentable.scan_append starts boundary, skipped, Scan.moved_moved,
      Nat.zero_add]
  case comment =>
    obtain ⟨more, chars⟩ := comment.opens
    have starts : (c ++ q).toList = '/' :: '*' :: (more ++ q.toList) := by
      rw [String.toList_append, ← chars]; rfl
    rw [String.append_assoc, commentable.scan_append starts boundary_slash,
      scan_comment comment below,
      Scan.moved_moved, Scan.moved_moved, Nat.add_comm]
  case never =>
    obtain ⟨more, chars⟩ := never.opens
    rw [commentable.scan_append chars.symm boundary_slash, scan_neverCloses never below,
      String.toList_append, List.count_append, ← Nat.add_assoc, Nat.add_right_comm]
    rfl

theorem scan_commented_overlapping :
    Commentable "a//b\n" ∧ IsComment "/*/ /**/\n // \" */" ∧ NeverCloses "/*/\n*" ∧
      scan ("a//b\n" ++ "/*/ /**/\n // \" */" ++ "/b") =
        ⟨[⟨.name, "a", none, 1⟩, ⟨.slash, "/", none, 3⟩, ⟨.name, "b", none, 3⟩, .endAt 3], []⟩ ∧
      scan ("a//b\n" ++ "/*/\n*") =
        ⟨[⟨.name, "a", none, 1⟩, .endAt 3], [⟨3, .nowhere, .unterminatedComment⟩]⟩ := by
  have front : scan "a//b\n" = ⟨[⟨.name, "a", none, 1⟩, .endAt 2], []⟩ := by decide +kernel
  have back : scan "/b" = ⟨[⟨.slash, "/", none, 1⟩, ⟨.name, "b", none, 1⟩, .endAt 1], []⟩ := by
    decide +kernel
  have last : (split "a//b\n".toList).getLast? = some ⟨.newline, ['\n']⟩ := by decide +kernel
  have commentable : Commentable "a//b\n" := by
    refine ⟨by simp [front], ?_, ?_⟩ <;> rw [last] <;> rintro _ ⟨⟩ <;> simp [IsLineComment]
  have comment : IsComment "/*/ /**/\n // \" */" :=
    ⟨by decide, [1, 1, 1, 2, 1, 1, 1, 1, 1, 1, 1, 1], by decide, by decide⟩
  have never : NeverCloses "/*/\n*" := ⟨by decide, by decide⟩
  obtain ⟨closed, unclosed⟩ := scan_commented commentable
  have whole := (closed _ "/b" comment (by decide)).2
  have cut := unclosed _ never (by decide)
  rw [front, back] at whole
  rw [front] at cut
  exact ⟨commentable, comment, never, whole, cut⟩

/-- With too many comments opened and none closed the scanner reads on and reports nothing. -/
theorem scan_commented_too_deep :
    let u := String.ofList (openings tooDeep ++ [' ', 'a'])
    let last := 1 + ("" ++ u).toList.count '\n'
    Commentable "" ∧ NeverCloses u ∧
      scan ("" ++ u) = ⟨[⟨.name, "a", none, 1⟩, .endAt 1], []⟩ ∧
      scan ("" ++ u) ≠ (scan "").followed
        ⟨[Token.endAt last], [⟨last, .nowhere, .unterminatedComment⟩]⟩ := by
  intro u last
  have front : scan "" = ⟨[.endAt 1], []⟩ := by decide +kernel
  have commentable : Commentable "" := by
    refine ⟨by simp [front], ?_, ?_⟩ <;> rw [String.toList_empty, split_nil] <;> simp
  obtain ⟨n, _, marks⟩ := openings_tooDeep
  have chars : u.toList = '/' :: '*' :: (openings n ++ [' ', 'a']) := by
    rw [String.toList_ofList, marks]
    rfl
  have flat : ∀ depth, ∀ d ∈ depths depth [' ', 'a'], depth ≤ d := by simp [depths]
  have never : NeverCloses u := by
    refine ⟨chars ▸ ⟨_, rfl⟩, ?_⟩
    rw [chars, depths]
    rintro (_ | ⟨_, among⟩)
    exact absurd (le_of_mem_depths_openings flat n 1 0 among) (by decide)
  have found : scan ("" ++ u) = ⟨[⟨.name, "a", none, 1⟩, .endAt 1], []⟩ := by
    have behind : scan (String.ofList [' ', 'a']) = ⟨[⟨.name, "a", none, 1⟩, .endAt 1], []⟩ := by
      decide +kernel
    rw [String.empty_append, scan_openings, behind]
  refine ⟨commentable, never, found, ?_⟩
  rw [found, front]
  exact fun same => List.cons_ne_nil _ _ (congrArg Scan.diagnostics same).symm

end Scriptlet
