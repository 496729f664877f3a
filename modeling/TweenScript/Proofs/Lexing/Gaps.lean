import Mathlib.Data.List.TakeWhile
import TweenScript.Proofs.Lexing

/-!
# Gaps between lexemes

`trivia` is the length of the longest gap at the front of a text (`Lexical.longestGap_iff`).
-/

namespace TweenScript

namespace Lexical

/-! ## Longest runs -/

section spans

variable {p : Char → Prop} {q : Char → Bool} (hq : ∀ c, q c = true ↔ p c)

include hq

theorem Spans.takeWhile_eq {run rest : List Char} (h : Spans p run rest) :
    (run ++ rest).takeWhile q = run := by
  rw [List.takeWhile_append_of_pos fun c hc => (hq c).mpr (h.inside c hc)]
  cases rest with
  | nil => simp
  | cons c rest =>
    have stops : ¬ q c = true := fun hc => h.ends c rfl ((hq c).mp hc)
    simp [stops]

theorem Spans.dropWhile_eq {run rest : List Char} (h : Spans p run rest) :
    (run ++ rest).dropWhile q = rest := by
  rw [List.dropWhile_append_of_pos fun c hc => (hq c).mpr (h.inside c hc)]
  cases rest with
  | nil => simp
  | cons c rest =>
    have stops : ¬ q c = true := fun hc => h.ends c rfl ((hq c).mp hc)
    simp [stops]

theorem exists_spans (cs : List Char) : ∃ run rest, cs = run ++ rest ∧ Spans p run rest := by
  refine ⟨cs.takeWhile q, cs.dropWhile q, List.takeWhile_append_dropWhile.symm, ?_, fun c hc => ?_⟩
  · exact fun c hc => (hq c).mp (List.mem_takeWhile_imp hc)
  · have stops := List.head?_dropWhile_not q cs
    rw [hc] at stops
    exact fun h => Bool.false_ne_true (stops.symm.trans ((hq c).mpr h))

end spans

/-! ## Comments -/

/-- A comment ends at its first `*/`. -/
theorem commentEnd_append {body : List Char} (h : ¬ ['*', '/'] <:+: body) (tail : List Char) :
    commentEnd (body ++ '*' :: '/' :: tail) = some (body.length + 2) := by
  induction body with
  | nil => rfl
  | cons c body ih =>
    rw [List.infix_cons_iff, not_or] at h
    have noEnd : ∀ tail', c = '*' → body ++ '*' :: '/' :: tail = '/' :: tail' → False := by
      rintro tail' rfl he
      cases body with
      | nil => cases he
      | cons d body =>
        cases he
        exact h.1 ⟨body, rfl⟩
    rw [List.cons_append, commentEnd.eq_3 _ _ noEnd, ih h.2]
    rfl

theorem exists_of_commentEnd {cs : List Char} {n : Nat} (h : commentEnd cs = some n) :
    ∃ body tail, cs = body ++ '*' :: '/' :: tail ∧ n = body.length + 2 ∧
      ¬ ['*', '/'] <:+: body := by
  fun_induction commentEnd cs generalizing n with
  | case1 => cases h
  | case2 tail =>
    cases h
    exact ⟨[], tail, rfl, rfl, by simp⟩
  | case3 c cs noEnd ih =>
    obtain ⟨m, hm, rfl⟩ := Option.map_eq_some_iff.mp h
    obtain ⟨body, tail, rfl, rfl, first⟩ := ih hm
    refine ⟨c :: body, tail, rfl, rfl, ?_⟩
    rw [List.infix_cons_iff, not_or]
    refine ⟨?_, first⟩
    rintro ⟨more, he⟩
    cases he
    exact noEnd _ rfl rfl

theorem commentEnd_eq_none_iff {cs : List Char} :
    commentEnd cs = none ↔ ¬ ['*', '/'] <:+: cs := by
  fun_induction commentEnd cs with
  | case1 => simp
  | case2 tail =>
    have here : ['*', '/'] <:+: '*' :: '/' :: tail := ⟨[], tail, rfl⟩
    simp [here]
  | case3 c cs noEnd ih =>
    have notHere : ¬ ['*', '/'] <+: c :: cs := by
      rintro ⟨more, he⟩
      cases he
      exact noEnd _ rfl rfl
    rw [Option.map_eq_none_iff, ih, List.infix_cons_iff, or_iff_right notHere]

/-! ## Trivia -/

theorem isGap_iff {c : Char} : isGap c = true ↔ c ∈ [' ', '\t', '\r', '\n'] := by
  simp [isGap, or_assoc]

theorem ne_newline_iff (c : Char) : decide (c ≠ '\n') = true ↔ c ≠ '\n' :=
  decide_eq_true_iff

theorem trivia_blank {c : Char} (h : c ∈ [' ', '\t', '\r', '\n']) (cs : List Char) :
    trivia (c :: cs) = trivia cs + 1 := by
  have noComment : c ≠ '/' := by
    rintro rfl
    exact absurd h (by decide)
  rw [trivia.eq_4 c cs (fun _ hc _ => noComment hc) (fun _ hc _ => noComment hc),
    if_pos (isGap_iff.mpr h)]

theorem trivia_line {body cs : List Char} (h : Spans (· ≠ '\n') body cs) :
    trivia ('/' :: '/' :: (body ++ cs)) = trivia cs + (body.length + 2) := by
  rw [trivia.eq_2, h.takeWhile_eq ne_newline_iff, List.drop_left]

theorem trivia_block {body : List Char} (h : ¬ ['*', '/'] <:+: body) (cs : List Char) :
    trivia ('/' :: '*' :: (body ++ '*' :: '/' :: cs)) = trivia cs + (body.length + 4) := by
  have dropped : (body ++ '*' :: '/' :: cs).drop (body.length + 2) = cs := by
    rw [← List.drop_drop, List.drop_left]
    rfl
  rw [trivia.eq_3, commentEnd_append h]
  simp only [dropped]

theorem Gap.trivia_append {gap rest : List Char} (h : Gap gap rest) :
    trivia (gap ++ rest) = trivia rest + gap.length := by
  induction h with
  | nil => rfl
  | blank h _ ih =>
    rw [List.cons_append, trivia_blank h, ih, List.length_cons]
    rfl
  | @line body gap rest h _ ih =>
    have spans : Spans (· ≠ '\n') body ('\n' :: (gap ++ rest)) :=
      ⟨fun c hc he => h (he ▸ hc), by simp⟩
    have appended : ('/' :: '/' :: (body ++ '\n' :: gap)) ++ rest =
        '/' :: '/' :: (body ++ '\n' :: (gap ++ rest)) := by simp
    rw [appended, trivia_line spans, trivia_blank (by decide), ih]
    simp
    omega
  | @lastLine body h =>
    have spans : Spans (· ≠ '\n') body [] := ⟨fun c hc he => h (he ▸ hc), by simp⟩
    have line := trivia_line spans
    rw [List.append_nil] at line ⊢
    rw [line]
    rfl
  | @block body gap rest h _ ih =>
    have appended : ('/' :: '*' :: (body ++ '*' :: '/' :: gap)) ++ rest =
        '/' :: '*' :: (body ++ '*' :: '/' :: (gap ++ rest)) := by simp
    rw [appended, trivia_block h, ih]
    simp
    omega

theorem Gap.of_blank {c : Char} (h : c ∈ [' ', '\t', '\r', '\n']) {gap rest : List Char}
    (hg : Gap (c :: gap) rest) : Gap gap rest := by
  cases hg with
  | blank _ more => exact more
  | line _ _ => exact absurd h (by decide)
  | lastLine _ => exact absurd h (by decide)
  | block _ _ => exact absurd h (by decide)

theorem exists_gap (cs : List Char) :
    ∃ gap rest, cs = gap ++ rest ∧ gap.length = trivia cs ∧ Gap gap rest := by
  fun_induction trivia cs with
  | case1 => exact ⟨[], [], rfl, rfl, .nil⟩
  | case2 cs n ih =>
    obtain ⟨body, tail, rfl, spans⟩ := exists_spans ne_newline_iff cs
    have noNewline : '\n' ∉ body := fun h => spans.inside _ h rfl
    simp only [n, spans.takeWhile_eq ne_newline_iff, List.drop_left] at ih ⊢
    obtain ⟨gap, rest, rfl, length, isGap⟩ := ih
    -- the gap behind the body is empty at the end of the text only
    cases gap with
    | nil =>
      cases rest with
      | nil =>
        refine ⟨'/' :: '/' :: body, [], by simp, ?_, .lastLine noNewline⟩
        simp at length ⊢
        omega
      | cons c rest =>
        have newline : c = '\n' := not_not.mp (spans.ends c rfl)
        rw [List.nil_append, newline, trivia_blank (by decide)] at length
        cases length
    | cons c gap =>
      have newline : c = '\n' := not_not.mp (spans.ends c rfl)
      subst newline
      refine ⟨'/' :: '/' :: (body ++ '\n' :: gap), rest, by simp, ?_, .line noNewline ?_⟩
      · simp at length ⊢
        omega
      · exact isGap.of_blank (by decide)
  | case3 cs h => exact ⟨[], _, rfl, rfl, .nil⟩
  | case4 cs n h ih =>
    obtain ⟨body, tail, rfl, rfl, first⟩ := exists_of_commentEnd h
    have dropped : (body ++ '*' :: '/' :: tail).drop (body.length + 2) = tail := by
      rw [← List.drop_drop, List.drop_left]
      rfl
    rw [dropped] at ih ⊢
    obtain ⟨gap, rest, rfl, length, isGap⟩ := ih
    refine ⟨'/' :: '*' :: (body ++ '*' :: '/' :: gap), rest, by simp, ?_, .block first isGap⟩
    simp
    omega
  | case5 c cs _ _ h ih =>
    obtain ⟨gap, rest, rfl, length, isGap⟩ := ih
    exact ⟨c :: gap, rest, rfl, by rw [List.length_cons, length], .blank (isGap_iff.mp h) isGap⟩
  | case6 c cs _ _ h => exact ⟨[], _, rfl, rfl, .nil⟩

/-- The longest gap has the length of the trivia. -/
theorem longestGap_iff {gap rest : List Char} :
    LongestGap gap rest ↔ Gap gap rest ∧ trivia rest = 0 := by
  constructor
  · rintro ⟨h, longest⟩
    obtain ⟨gap', rest', split, length, h'⟩ := exists_gap (gap ++ rest)
    have le := longest gap' rest' split.symm h'
    rw [length, h.trivia_append] at le
    exact ⟨h, by omega⟩
  · rintro ⟨h, none⟩
    refine ⟨h, fun gap' rest' split h' => ?_⟩
    have same := congrArg trivia split
    rw [h.trivia_append, h'.trivia_append] at same
    omega

end Lexical

end TweenScript
