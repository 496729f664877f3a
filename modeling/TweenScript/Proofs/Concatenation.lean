import TweenScript.Proofs.Atomicity
import TweenScript.Proofs.Grammar.Parsing
import TweenScript.Proofs.Lexing.Separators

/-!
# Programs behind programs

Two texts that are programs make one program with a line break between them, and it does what the
first does and then, if that ended well, what the second does (`parseProgram_append`). A line break
ends whatever gap stands at the end of the first text, a comment included, and no token reaches over
it; statements behind statements are statements; and a program of one statement does what the block
of it does.
-/

namespace TweenScript

/-! ## Texts behind texts -/

namespace Lexical

/-- A text is tokens with longest gaps before, between and behind them. -/
inductive Tokenizes : List Char → List Token → Prop where
  | finish {gap : List Char} (longest : LongestGap gap []) : Tokenizes gap []
  | token {gap lexeme rest : List Char} {t : Token} {ts : List Token}
    (longest : LongestGap gap (lexeme ++ rest)) (lexes : Lexes lexeme rest (.ok t))
    (more : Tokenizes rest ts) : Tokenizes (gap ++ (lexeme ++ rest)) (t :: ts)

theorem Gap.append_newline {gap rest gap' rest' : List Char} (h : Gap gap rest)
    (h' : Gap gap' rest') : Gap (gap ++ '\n' :: gap') rest' := by
  induction h with
  | nil => exact .blank (by decide) h'
  | blank hc _ ih => exact .blank hc ih
  | @line body gap _ noBreak _ ih =>
    have more := Gap.line noBreak ih
    simpa using more
  -- the comment at the end of the text ends with the line now
  | lastLine noBreak => exact .line noBreak h'
  | @block body gap _ noEnd _ ih =>
    have more := Gap.block noEnd ih
    simpa using more

theorem LongestGap.append_newline {gap gap' rest : List Char} (h : LongestGap gap [])
    (h' : LongestGap gap' rest) : LongestGap (gap ++ '\n' :: gap') rest := by
  obtain ⟨isGap, none⟩ := longestGap_iff.mp h'
  exact longestGap_iff.mpr ⟨h.isGap.append_newline isGap, none⟩

theorem admits_newline (rest back : List Char) : Admits rest (rest ++ '\n' :: back) := by
  have behind : Admits [] ('\n' :: back) := ⟨'\n', rfl, .inr (by decide)⟩
  simpa using behind.prepend rest

theorem Tokenizes.append_newline {cs cs' : List Char} {ts ts' : List Token} (h : Tokenizes cs ts)
    (h' : Tokenizes cs' ts') : Tokenizes (cs ++ '\n' :: cs') (ts ++ ts') := by
  induction h with
  | @finish gap longest =>
    -- the last gap of the first text and the first gap of the second one become one gap
    cases h' with
    | finish longest' => exact .finish (longest.append_newline longest')
    | token longest' lexes more =>
      have first := Tokenizes.token (longest.append_newline longest') lexes more
      simpa using first
  | @token gap lexeme rest t ts longest lexes _ ih =>
    have admits := admits_newline rest cs'
    have first := Tokenizes.token (longest.admits lexes admits) (lexes.admits admits) ih
    simpa using first

end Lexical

open Lexical

namespace Scanner

theorem tokenizes_of_items {s : Scanner} {ts : List Token}
    (h : s.items.map (·.1) = ts.map Item.token ++ [.finish]) : Tokenizes s.rest ts := by
  obtain ⟨i, s', step⟩ := exists_step s
  have next := next_of_step step
  cases step with
  | finish longest =>
    rw [items_of_finish next] at h
    cases ts with
    | nil => exact .finish longest
    | cons t ts => simp at h
  | token split longest lexes =>
    rw [items_of_token next] at h
    cases ts with
    | nil => simp at h
    | cons u ts =>
      have shorter := next_rest_lt next (by simp)
      obtain ⟨same, more⟩ := List.cons.inj h
      cases same
      rw [split]
      exact .token longest lexes (tokenizes_of_items more)
  | fault split longest lexes =>
    rw [items_of_fault next] at h
    cases ts <;> simp at h
termination_by s.rest.length

theorem items_of_tokenizes {cs : List Char} {ts : List Token} (h : Tokenizes cs ts) (s : Scanner)
    (rest : s.rest = cs) : s.items.map (·.1) = ts.map Item.token ++ [.finish] := by
  induction h generalizing s with
  | finish longest =>
    rw [← rest] at longest
    rw [items_of_finish (next_of_step (.finish longest))]
    rfl
  | token longest lexes _ ih =>
    rw [items_of_token (next_of_step (.token rest longest lexes)), List.map_cons, ih _ rfl]
    rfl

end Scanner

theorem scans_iff_tokenizes {text : String} {ts : List Token} :
    Scans text ts ↔ Tokenizes text.toList ts :=
  ⟨Scanner.tokenizes_of_items, fun h => Scanner.items_of_tokenizes h _ rfl⟩

/-- With a line break between them texts scan to their tokens, one after the other. -/
theorem Scans.append {text text' : String} {ts ts' : List Token} (h : Scans text ts)
    (h' : Scans text' ts') : Scans (text ++ "\n" ++ text') (ts ++ ts') := by
  rw [scans_iff_tokenizes] at h h' ⊢
  have lines : (text ++ "\n" ++ text').toList = text.toList ++ '\n' :: text'.toList := by
    simp
  rw [lines]
  exact h.append_newline h'

/-! ## Programs behind programs -/

theorem Spells.append {ts us : List Token} {xs ys : List Statement} (h : Spells .statements ts xs)
    (h' : Spells .statements us ys) : Spells .statements (ts ++ us) (xs ++ ys) := by
  induction xs generalizing ts with
  | nil =>
    cases h
    exact h'
  | cons x xs ih =>
    cases h with
    | moreStatements first more =>
      rw [List.append_assoc]
      exact .moreStatements first (ih more)

/-- A text that is a program is statements, and its tree is made of them. -/
theorem exists_statements_iff {text : String} {n : Statement} : parseProgram text = .ok n ↔
    ∃ (ts : List Token) (body : List Statement), Scans text ts ∧ Spells .statements ts body ∧
      n = Statement.ofList body := by
  have parsed : parseProgram text = .ok n ↔ ∃ ts, Scans text ts ∧ readProgram ts = .ok n :=
    Parser.run_eq_ok_iff
  simp only [readProgram_eq_ok_iff, spellsProgram_iff] at parsed
  refine parsed.trans ⟨?_, ?_⟩
  · rintro ⟨ts, scans, body, spells, rfl⟩
    exact ⟨ts, body, scans, spells, rfl⟩
  · rintro ⟨ts, body, scans, spells, rfl⟩
    exact ⟨ts, scans, body, spells, rfl⟩

section evaluation

variable {σ ο τ : Type} (c : Context σ ο τ)

theorem evaluate_ofList (body : List Statement) :
    (Statement.ofList body).evaluate c = evaluateAll c body := by
  unfold Statement.ofList
  split
  · exact (evaluateAll_singleton c _).symm
  · rw [Statement.evaluate]

theorem evaluateAll_append_run (xs ys : List Statement) (s : σ) :
    (evaluateAll c (xs ++ ys)).run.run s =
      match (evaluateAll c xs).run.run s with
      | (.ok (), s') => (evaluateAll c ys).run.run s'
      | (.error f, s') => (.error f, s') := by
  rw [evaluateAll_append]
  cases h : (evaluateAll c xs).run.run s with
  | mk outcome s' =>
    cases outcome with
    | ok _ => exact run_bind_ok h
    | error f => exact run_bind_error h

end evaluation

/-- Two texts that are programs make a program with a line break between them. In whatever context
and from whatever state, it does what the first one does and, if that ended well, goes on with what
the second one does. -/
theorem parseProgram_append {text₁ text₂ : String} {n₁ n₂ : Statement}
    (h₁ : parseProgram text₁ = .ok n₁) (h₂ : parseProgram text₂ = .ok n₂) :
    ∃ n, parseProgram (text₁ ++ "\n" ++ text₂) = .ok n ∧
      ∀ {σ ο τ : Type} (c : Context σ ο τ) (s : σ),
        (n.evaluate c).run.run s =
          match (n₁.evaluate c).run.run s with
          | (.ok (), s') => (n₂.evaluate c).run.run s'
          | (.error f, s') => (.error f, s') := by
  obtain ⟨ts, xs, scans, spells, rfl⟩ := exists_statements_iff.mp h₁
  obtain ⟨us, ys, scans', spells', rfl⟩ := exists_statements_iff.mp h₂
  refine ⟨Statement.ofList (xs ++ ys), ?_, fun c s => ?_⟩
  · exact exists_statements_iff.mpr ⟨_, _, scans.append scans', spells.append spells', rfl⟩
  · rw [evaluate_ofList, evaluate_ofList, evaluate_ofList]
    exact evaluateAll_append_run c xs ys s

/-- A line comment ends the first program, and the second one ends in a fault. -/
theorem parseProgram_append_after_comment :
    let text₁ := "Callback(); // first"
    let text₂ := "{ Callback(); } /* third */ Active();"
    parseProgram text₁ = .ok (.expr .callback) ∧
    parseProgram text₂ = .ok (.block [.block [.expr .callback], .expr (.setActive [])]) ∧
    ∃ n, parseProgram (text₁ ++ "\n" ++ text₂) = .ok n ∧
      (n.evaluate (Recorder.context [])).run.run {} =
        (.error (.arity "Active" "2" 0), ({} : Recorder).call.call) := by
  intro text₁ text₂
  have scans₁ : Scans text₁
      [.identifier "Callback", .symbol .lparen, .symbol .rparen, .symbol .semicolon] := by
    rw [Scans]
    decide +kernel
  have scans₂ : Scans text₂
      [.symbol .lbrace, .identifier "Callback", .symbol .lparen, .symbol .rparen,
        .symbol .semicolon, .symbol .rbrace, .identifier "Active", .symbol .lparen,
        .symbol .rparen, .symbol .semicolon] := by
    rw [Scans]
    decide +kernel
  have parsed₁ : parseProgram text₁ = .ok (.expr .callback) :=
    Parser.run_eq_ok_iff.mpr ⟨_, scans₁, by with_unfolding_all rfl⟩
  have parsed₂ : parseProgram text₂ =
      .ok (.block [.block [.expr .callback], .expr (.setActive [])]) :=
    Parser.run_eq_ok_iff.mpr ⟨_, scans₂, by with_unfolding_all rfl⟩
  obtain ⟨n, parsed, run_eq⟩ := parseProgram_append parsed₁ parsed₂
  exact ⟨parsed₁, parsed₂, n, parsed, (run_eq (Recorder.context []) {}).trans rfl⟩

end TweenScript
