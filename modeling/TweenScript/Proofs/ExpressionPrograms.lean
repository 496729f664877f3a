import TweenScript.Proofs.Concatenation

/-!
# Expressions and their programs

A text is an expression exactly if it is, with a semicolon on a line behind it, the program of this
expression (`parseExpression_eq_ok_iff_program`). Line break and semicolon take no fault away from a
text, so the program has the tokens of the text and the semicolon; and a program that is an expression
is one statement, which ends in its only semicolon outside of the expression.
-/

namespace TweenScript

/-! ## Expressions -/

theorem endsExpr_nil : EndsExpr [] where
  noCall _ h := nomatch h
  noLink _ h := nomatch h
  noOperator _ _ h := nomatch h
  noQuestion _ h := nomatch h

theorem reads_expr_nil_iff {ts : List Token} {e : Expr} :
    Reads (readExpr ts) e [] ↔ Spells .expr ts e := by
  constructor
  · intro h
    obtain ⟨used, rfl, spells⟩ := expr_sound ts h
    rw [List.append_nil]
    exact spells
  · intro h
    have read := h.accepts [] endsExpr_nil
    rw [List.append_nil] at read
    exact read

theorem readExpression_eq_ok_iff {ts : List Token} {e : Expr} :
    readExpression ts = .ok e ↔ Spells .expr ts e := by
  rw [← reads_expr_nil_iff, readExpression]
  cases read : readExpr ts with
  | error r =>
    constructor
    · intro h
      cases h
    · intro h
      exact absurd h not_reads_error
  | ok p =>
    obtain ⟨e', rest, shorter⟩ := p
    rw [reads_ok]
    cases rest with
    | nil =>
      constructor
      · intro h
        cases h
        exact ⟨rfl, rfl⟩
      · rintro ⟨rfl, -⟩
        rfl
    | cons t rest =>
      constructor
      · intro h
        cases h
      · rintro ⟨-, h⟩
        cases h

theorem parseExpression_eq_ok_iff {text : String} {e : Expr} :
    parseExpression text = .ok e ↔ ∃ ts, Scans text ts ∧ Spells .expr ts e := by
  simp only [← readExpression_eq_ok_iff]
  exact Parser.run_eq_ok_iff

theorem spellsProgram_expr_iff {ts : List Token} {e : Expr} :
    SpellsProgram ts (.expr e) ↔ ∃ us, ts = us ++ [.symbol .semicolon] ∧ Spells .expr us e := by
  constructor
  · intro h
    cases h with
    | single h =>
      cases h with
      | exprStatement h => exact ⟨_, rfl, h⟩
  · rintro ⟨us, rfl, h⟩
    exact .single (.exprStatement h)

/-! ## Faults before a line break -/

namespace Lexical

section newline

variable {front rest back : List Char} {cause : LexicalCause}

theorem commentEnd_infix_newline {body : List Char}
    (h : ['*', '/'] <:+: body ++ '\n' :: back) : ['*', '/'] <:+: body ∨ ['*', '/'] <:+: back := by
  induction body with
  | nil =>
    rw [List.nil_append, List.infix_cons_iff] at h
    rcases h with ⟨more, he⟩ | h
    · cases he
    · exact .inr h
  | cons c body ih =>
    rw [List.cons_append, List.infix_cons_iff] at h
    rcases h with ⟨more, he⟩ | h
    · cases body with
      | nil => cases he
      | cons d body =>
        cases he
        exact .inl ⟨[], body, rfl⟩
    · rcases ih h with h | h
      · exact .inl (List.infix_cons h)
      · exact .inr h

theorem Lexes.fault_newline (lexes : Lexes front rest (.error cause))
    (noEnd : ¬ ['*', '/'] <:+: back) : ∃ front' rest',
      front ++ (rest ++ '\n' :: back) = front' ++ rest' ∧ Lexes front' rest' (.error cause) := by
  have admits := admits_newline rest back
  generalize content : Except.error cause = result at lexes
  cases lexes with
  | word _ _ => cases content
  | hex _ _ _ _ => cases content
  | badHex marked spans bad =>
    cases content
    exact ⟨_, _, rfl, .badHex marked (spans.admits admits not_hexDigit_of_blank) bad⟩
  | whole _ _ _ _ _ => cases content
  | fraction _ _ _ _ => cases content
  | spelling _ _ _ => cases content
  | @unclosedComment body unclosed =>
    cases content
    refine ⟨'/' :: '*' :: (body ++ '\n' :: back), [], by simp, .unclosedComment fun closed => ?_⟩
    exact (commentEnd_infix_newline closed).elim unclosed noEnd
  | @unknownCharacter c _ noWord noDigit noSpelling =>
    cases content
    refine ⟨[c], _, rfl, .unknownCharacter noWord noDigit fun p hp found => noSpelling p hp ?_⟩
    obtain ⟨-, short, noBlank⟩ := spellings_short hp
    have begins : p.1 <+: [c] ++ rest := admits.begins (by simpa using short) noBlank found
    exact begins

theorem Lexes.fault_begins (lexes : Lexes front rest (.error cause))
    (none : trivia (front ++ rest) = 0) :
    (∃ body, front ++ rest = '/' :: '*' :: body ∧ ¬ ['*', '/'] <:+: body) ∨
      ∃ c cs, front = c :: cs ∧ c ≠ '/' ∧ c ∉ blanks := by
  generalize content : Except.error cause = result at lexes
  cases lexes with
  | word _ _ => cases content
  | hex _ _ _ _ => cases content
  | badHex _ _ _ => exact .inr ⟨_, _, rfl, by decide, by decide⟩
  | whole _ _ _ _ _ => cases content
  | fraction _ _ _ _ => cases content
  | spelling _ _ _ => cases content
  | unclosedComment unclosed => exact .inl ⟨_, List.append_nil _, unclosed⟩
  | @unknownCharacter c _ noWord noDigit noSpelling =>
    have noSlash : c ≠ '/' := by
      rintro rfl
      exact noSpelling (['/'], .operator .slash) (by simp [spellings]) ⟨rest, rfl⟩
    have noComment : ¬ ['/', '*'] <+: c :: rest := by
      rintro ⟨more, he⟩
      cases he
      exact noSlash rfl
    exact .inr ⟨c, [], rfl, noSlash, ((trivia_eq_zero_iff noComment).mp none).1⟩

theorem LongestGap.fault_newline {gap : List Char} (longest : LongestGap gap (front ++ rest))
    (lexes : Lexes front rest (.error cause)) (noEnd : ¬ ['*', '/'] <:+: back) :
    LongestGap gap (front ++ (rest ++ '\n' :: back)) := by
  obtain ⟨isGap, none⟩ := longestGap_iff.mp longest
  rcases lexes.fault_begins none with ⟨body, comment, unclosed⟩ | ⟨c, cs, rfl, noSlash, noBlank⟩
  · have more : front ++ (rest ++ '\n' :: back) = '/' :: '*' :: (body ++ '\n' :: back) := by
      rw [← List.append_assoc, comment]
      rfl
    have unclosed' : commentEnd (body ++ '\n' :: back) = .none :=
      commentEnd_eq_none_iff.mpr fun closed => (commentEnd_infix_newline closed).elim unclosed noEnd
    rw [comment] at isGap
    rw [more]
    refine longestGap_iff.mpr ⟨isGap.before (List.cons_ne_nil _ _) _, ?_⟩
    rw [trivia.eq_3, unclosed']
  · have noComment (d : Char) : ¬ ['/', d] <+: c :: (cs ++ (rest ++ '\n' :: back)) := fun found =>
      noSlash (List.cons_prefix_cons.mp found).1.symm
    refine longestGap_iff.mpr ⟨isGap.before (List.cons_ne_nil _ _) _, ?_⟩
    exact (trivia_eq_zero_iff (noComment '*')).mpr ⟨noBlank, noComment '/'⟩

end newline

end Lexical

open Lexical

/-- A scanner that comes to a fault comes to one as well with more lines behind its text that end no
comment. -/
theorem Scanner.fault_newline {s s' : Scanner} {back : List Char}
    (rest : s'.rest = s.rest ++ '\n' :: back) (noEnd : ¬ ['*', '/'] <:+: back)
    (fault : s'.tokens.fault = none) : s.tokens.fault = none := by
  obtain ⟨i, m, step⟩ := exists_step s
  have next := next_of_step step
  cases step with
  | finish _ => rw [tokens_of_finish next]
  | @token gap front behind t split longest lexes =>
    have shorter := next_rest_lt next (by simp)
    have admits := admits_newline behind back
    have split' : s'.rest = gap ++ (front ++ (behind ++ '\n' :: back)) := by
      rw [rest, split]
      simp
    have next' := next_of_step (.token split' (longest.admits lexes admits) (lexes.admits admits))
    rw [tokens_of_token next'] at fault
    rw [tokens_of_token next]
    exact fault_newline rfl noEnd fault
  | @fault gap front behind cause split longest lexes =>
    obtain ⟨front', behind', same, lexes'⟩ := lexes.fault_newline noEnd
    have longest' := longest.fault_newline lexes noEnd
    rw [same] at longest'
    have split' : s'.rest = gap ++ (front' ++ behind') := by
      rw [rest, split, ← same]
      simp
    rw [tokens_of_fault (next_of_step (.fault split' longest' lexes'))] at fault
    cases fault
termination_by s.rest.length

theorem scans_semicolon_iff {text : String} {ts : List Token} :
    Scans (text ++ "\n;") (ts ++ [.symbol .semicolon]) ↔ Scans text ts := by
  have semicolon : Scans ";" [.symbol .semicolon] := by
    rw [Scans]
    decide +kernel
  have lines : text ++ "\n" ++ ";" = text ++ "\n;" := by
    rw [String.append_assoc]
    rfl
  constructor
  · intro scans
    obtain ⟨fault, same⟩ := scans_iff.mp scans
    have rest : (Scanner.ofString (text ++ "\n;")).rest = (Scanner.ofString text).rest ++ ['\n', ';'] := by
      simp [Scanner.ofString]
    have none : (Scanner.ofString text).tokens.fault = none :=
      Scanner.fault_newline rest (by decide) fault
    have scans' := (scans_iff.mpr ⟨none, rfl⟩).append semicolon
    rw [lines] at scans'
    obtain ⟨-, same'⟩ := scans_iff.mp scans'
    exact scans_iff.mpr ⟨none, List.append_cancel_right (same'.symm.trans same)⟩
  · intro scans
    rw [← lines]
    exact scans.append semicolon

/-- A text is an expression exactly if it is the program of this expression with a semicolon on a line
behind it. -/
theorem parseExpression_eq_ok_iff_program (text : String) (e : Expr) :
    parseExpression text = .ok e ↔ parseProgram (text ++ "\n;") = .ok (.expr e) := by
  have program : parseProgram (text ++ "\n;") = .ok (.expr e) ↔
      ∃ ts, Scans (text ++ "\n;") ts ∧ SpellsProgram ts (.expr e) := by
    simp only [← readProgram_eq_ok_iff]
    exact Parser.run_eq_ok_iff
  rw [parseExpression_eq_ok_iff, program]
  constructor
  · rintro ⟨ts, scans, spells⟩
    exact ⟨_, scans_semicolon_iff.mpr scans, spellsProgram_expr_iff.mpr ⟨ts, rfl, spells⟩⟩
  · rintro ⟨_, scans, spells⟩
    obtain ⟨ts, rfl, spells'⟩ := spellsProgram_expr_iff.mp spells
    exact ⟨ts, scans_semicolon_iff.mp scans, spells'⟩

end TweenScript
