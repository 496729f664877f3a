import TweenScript.Proofs.Grammar.Soundness

/-!
# Readers accept what is in the grammar

Tokens that spell a tree are read as this tree and no further (`Spells.accepts`), provided that no
token comes behind them that the tree could go on with: this is what `Ends` says, and in the
grammar only such tokens follow an expression. Together with soundness the readers accept the
grammar and nothing else (`readProgram_eq_ok_iff`).

The induction is on the derivation. At an operand the statement is about the loop of the rank
above it: reading the operand and then going on with the loop from there is reading from the
front.
-/

namespace TweenScript

/-! ## First tokens -/

/-- What a primary expression can begin with. -/
def Token.beginsPrimary : Token → Bool
  | .number _ | .identifier _ | .symbol .lparen => true
  | _ => false

/-- What an expression can begin with. -/
def Token.beginsExpr : Token → Bool
  | .operator .plus | .operator .minus | .operator .not => true
  | t => t.beginsPrimary

/-- What a statement can begin with. -/
def Token.beginsStatement : Token → Bool
  | .symbol .lbrace | .symbol .when => true
  | t => t.beginsExpr

theorem Token.beginsExpr_of_primary {t : Token} (h : t.beginsPrimary) : t.beginsExpr := by
  unfold beginsExpr
  split
  · rfl
  · rfl
  · rfl
  · exact h

theorem Token.beginsStatement_of_expr {t : Token} (h : t.beginsExpr) : t.beginsStatement := by
  unfold beginsStatement
  split
  · rfl
  · rfl
  · exact h

/-- What tokens of a category can begin with, for categories that are never empty. -/
def Category.begins : Category → Option (Token → Bool)
  | statement => some Token.beginsStatement
  | expr | operand _ | unary | items => some Token.beginsExpr
  | call | primary => some Token.beginsPrimary
  | statements | arguments | links | link => none

theorem Spells.head {c : Category} {ts : List Token} {v : c.Tree} (h : Spells c ts v) :
    ∀ begins ∈ c.begins, ∃ t us, ts = t :: us ∧ begins t := by
  induction h with
  | block | when => exact fun _ hc => Option.some.inj hc ▸ ⟨_, _, rfl, rfl⟩
  | exprStatement _ ih =>
    rintro _ ⟨⟩
    obtain ⟨t, us, rfl, ht⟩ := ih _ rfl
    exact ⟨t, _, rfl, Token.beginsStatement_of_expr ht⟩
  | plain _ ih | signed _ ih | tighter _ ih | oneItem _ ih | noCall _ ih => exact ih
  | conditional _ _ _ ih | binary _ _ _ ih | moreItems _ _ ih =>
    rintro _ ⟨⟩
    obtain ⟨t, us, rfl, ht⟩ := ih _ rfl
    exact ⟨t, _, rfl, ht⟩
  | plus | neg | not => exact fun _ hc => Option.some.inj hc ▸ ⟨_, _, rfl, rfl⟩
  | unsigned _ ih =>
    rintro _ ⟨⟩
    obtain ⟨t, us, rfl, ht⟩ := ih _ rfl
    exact ⟨t, _, rfl, Token.beginsExpr_of_primary ht⟩
  | tween _ _ _ _ ih | setActive _ _ ih | callback _ _ ih =>
    rintro _ ⟨⟩
    obtain ⟨t, us, rfl, ht⟩ := ih _ rfl
    exact ⟨t, _, rfl, ht⟩
  | number | name | group => exact fun _ hc => Option.some.inj hc ▸ ⟨_, _, rfl, rfl⟩
  | noStatements | moreStatements | noArguments | someArguments | noLinks | moreLinks | namedLink
  | andThen => exact fun _ hc => nomatch hc

/-! ## Following tokens -/

/-- No token comes next that an operand of rank `n` could go on with. -/
structure Ends (n : Nat) (rest : List Token) : Prop where
  noCall : ∀ us, rest ≠ .symbol .lparen :: us
  noLink : ∀ us, rest ≠ .symbol .dot :: us
  noOperator : ∀ op us, rest = .operator op :: us → ∀ m ≤ n, op.ofRank? m = none

/-- No token comes next that an expression could go on with. -/
structure EndsExpr (rest : List Token) : Prop extends Ends topRank rest where
  noQuestion : ∀ us, rest ≠ .symbol .question :: us

namespace Ends

variable {n : Nat} {us : List Token}

theorem mono {m : Nat} {rest : List Token} (h : Ends n rest) (hm : m ≤ n) : Ends m rest :=
  { h with noOperator := fun op us hrest k hk => h.noOperator op us hrest k (Nat.le_trans hk hm) }

theorem symbol {s : Symbol} (hcall : s ≠ .lparen) (hlink : s ≠ .dot) :
    Ends n (.symbol s :: us) where
  noCall _ h := by
    cases h
    exact hcall rfl
  noLink _ h := by
    cases h
    exact hlink rfl
  noOperator _ _ h := nomatch h

/-- An operator ends the operands of all ranks below its own. -/
theorem operator {op : Operator} {b : BinaryOp} (h : (op, b) ∈ operatorsOfRank (n + 1)) :
    Ends n (.operator op :: us) where
  noCall _ h := nomatch h
  noLink _ h := nomatch h
  noOperator op' us' heq m hm := by
    cases heq
    have hop := ofRank?_eq_some_iff.mpr h
    cases hnone : op.ofRank? m with
    | none => rfl
    | some b' =>
      obtain ⟨hb, hrank⟩ := Option.filter_eq_some_iff.mp hop
      obtain ⟨hb', hrank'⟩ := Option.filter_eq_some_iff.mp hnone
      obtain rfl : b = b' := Option.some.inj (hb.symm.trans hb')
      simp only [decide_eq_true_eq] at hrank hrank'
      omega

end Ends

theorem EndsExpr.symbol {s : Symbol} {us : List Token} (hcall : s ≠ .lparen) (hlink : s ≠ .dot)
    (hquestion : s ≠ .question) : EndsExpr (.symbol s :: us) where
  toEnds := .symbol hcall hlink
  noQuestion _ h := by
    cases h
    exact hquestion rfl

/-! ## Acceptance -/

/-- What readers make of tokens that spell `v`, whatever comes behind them. -/
def Accepts : (c : Category) → List Token → c.Tree → Prop
  | .statement, ts, s => ∀ rest, Reads (readStatement (ts ++ rest)) s rest
  | .statements, ts, body =>
    ∀ rest, Reads (readBlock (ts ++ .symbol .rbrace :: rest)) body rest
  | .expr, ts, e => ∀ rest, EndsExpr rest → Reads (readExpr (ts ++ rest)) e rest
  | .operand 0, ts, e => ∀ rest, Ends 0 rest → Reads (readBinary 0 (ts ++ rest)) e rest
  | .operand (n + 1), ts, e => ∀ rest, Ends n rest → ∀ e' rest',
    Reads (readOperators n e rest) e' rest' → Reads (readBinary (n + 1) (ts ++ rest)) e' rest'
  | .unary, ts, e => ∀ rest, Ends 0 rest → Reads (readUnary (ts ++ rest)) e rest
  | .call, ts, e => ∀ rest, Ends 0 rest → Reads (readCall (ts ++ rest)) e rest
  | .primary, ts, e => ∀ rest, Reads (readPrimary (ts ++ rest)) e rest
  | .arguments, ts, args =>
    ∀ rest, Reads (readArguments (ts ++ .symbol .rparen :: rest)) args rest
  | .items, ts, args =>
    ∀ rest, Reads (readMoreArguments (ts ++ .symbol .rparen :: rest)) args rest
  | .links, ts, links => ∀ rest, (∀ us, rest ≠ .symbol .dot :: us) →
    Reads (readLinks (ts ++ rest)) links rest
  | .link, ts, link => ∃ name us, ts = .symbol .dot :: .identifier name :: .symbol .lparen :: us ∧
    ∀ rest, Reads (readLink name (us ++ rest)) link rest

theorem Accepts.operand {n : Nat} {ts rest : List Token} {e : Expr} (h : Accepts (.operand n) ts e)
    (hrest : Ends n rest) : Reads (readBinary n (ts ++ rest)) e rest := by
  cases n with
  | zero => exact h rest hrest
  | succ n =>
    apply h rest (hrest.mono (Nat.le_succ n)) e rest
    exact reads_operators.mpr
      (.inr ⟨fun op us hop => hrest.noOperator op us hop _ (Nat.le_refl _), rfl, rfl⟩)

theorem Spells.accepts {c : Category} {ts : List Token} {v : c.Tree} (h : Spells c ts v) :
    Accepts c ts v := by
  induction h with
  | @block ts body _ ih =>
    intro rest
    exact reads_statement.mpr (.inl ⟨_, body, by simp, ih rest, rfl⟩)
  | @when ts us condition body _ _ ihc ihb =>
    intro rest
    have hc := ihc (.symbol .rparen :: (us ++ rest)) (.symbol (by decide) (by decide) (by decide))
    exact reads_statement.mpr
      (.inr (.inl ⟨_, condition, _, body, by simp [parenthesized], hc, ihb rest, rfl⟩))
  | @exprStatement ts e he ih =>
    intro rest
    obtain ⟨t, us, rfl, ht⟩ := he.head _ rfl
    have hread := ih (.symbol .semicolon :: rest) (.symbol (by decide) (by decide) (by decide))
    refine reads_statement.mpr (.inr (.inr ⟨e, ?_, ?_, hread.congr (by simp), rfl⟩))
    · rintro _ ⟨⟩
      cases ht
    · rintro _ ⟨⟩
      cases ht
  | noStatements => exact fun rest => reads_block.mpr (.inl ⟨rfl, rfl⟩)
  | @moreStatements ts us s body hs _ ihs ihb =>
    intro rest
    obtain ⟨t, ts, rfl, ht⟩ := hs.head _ rfl
    have hread := ihs (us ++ .symbol .rbrace :: rest)
    refine reads_block.mpr (.inr ⟨s, _, body, ?_, hread.congr (by simp), ihb rest, rfl⟩)
    rintro _ ⟨⟩
    cases ht
  | plain _ ih =>
    intro rest hrest
    exact reads_expr.mpr ⟨_, rest, ih.operand hrest.toEnds, .inr ⟨hrest.noQuestion, rfl, rfl⟩⟩
  | @conditional ts us vs condition yes no _ _ _ ihc ihy ihn =>
    intro rest hrest
    have ends : Ends topRank (.symbol .question :: (us ++ .symbol .colon :: (vs ++ rest))) :=
      .symbol (by decide) (by decide)
    have hc := ihc.operand ends
    have hy := ihy (.symbol .colon :: (vs ++ rest)) (.symbol (by decide) (by decide) (by decide))
    refine reads_expr.mpr ⟨condition, _, hc.congr (by simp), .inl ⟨_, yes, _, no, rfl, hy, ?_, rfl⟩⟩
    exact ihn rest hrest
  | signed _ ih =>
    intro rest hrest
    exact reads_binary_zero.mpr (ih rest hrest)
  | tighter _ ih =>
    intro rest hrest e' rest' hloop
    exact reads_binary_succ.mpr ⟨_, rest, ih.operand hrest, hloop⟩
  | @binary ts us n op b left right hb _ _ ihl ihr =>
    intro rest hrest e' rest' hloop
    have hread := ihl (.operator op :: (us ++ rest)) (.operator hb) e' rest'
      (reads_operators.mpr (.inl ⟨op, _, b, right, rest, rfl, hb, ihr.operand hrest, hloop⟩))
    exact hread.congr (by simp)
  | plus _ ih =>
    intro rest hrest
    exact reads_unary.mpr (.inl ⟨_, rfl, ih rest hrest⟩)
  | neg _ ih =>
    intro rest hrest
    exact reads_unary.mpr (.inr (.inl ⟨_, _, rfl, ih rest hrest, rfl⟩))
  | not _ ih =>
    intro rest hrest
    exact reads_unary.mpr (.inr (.inr (.inl ⟨_, _, rfl, ih rest hrest, rfl⟩)))
  | unsigned hc ih =>
    intro rest hrest
    have hread := ih rest hrest
    obtain ⟨t, us, rfl, ht⟩ := hc.head _ rfl
    refine reads_unary.mpr (.inr (.inr (.inr ⟨?_, ?_, ?_, hread⟩)))
    all_goals
      rintro _ ⟨⟩
      cases ht
  | noCall _ ih =>
    intro rest hrest
    exact reads_call.mpr ⟨_, rest, ih rest, .inl ⟨hrest.noCall, rfl, rfl⟩⟩
  | @tween ts us vs name channel args links _ hchannel _ _ ihp iha ihl =>
    intro rest hrest
    have hp := ihp (.symbol .lparen :: (us ++ .symbol .rparen :: (vs ++ rest)))
    have hl := ihl rest hrest.noLink
    exact reads_call.mpr ⟨_, _, hp.congr (by simp [parenthesized]), .inr ⟨name, _, rfl, rfl,
      .inl ⟨channel, args, _, links, hchannel, iha _, hl, rfl⟩⟩⟩
  | @setActive ts us args _ _ ihp iha =>
    intro rest _
    have hp := ihp (.symbol .lparen :: (us ++ .symbol .rparen :: rest))
    exact reads_call.mpr ⟨_, _, hp.congr (by simp [parenthesized]), .inr ⟨"Active", _, rfl, rfl,
      .inr (.inl ⟨args, rfl, iha rest, rfl⟩)⟩⟩
  | @callback ts us args _ _ ihp iha =>
    intro rest _
    have hp := ihp (.symbol .lparen :: (us ++ .symbol .rparen :: rest))
    exact reads_call.mpr ⟨_, _, hp.congr (by simp [parenthesized]), .inr ⟨"Callback", _, rfl, rfl,
      .inr (.inr ⟨args, rfl, iha rest, rfl⟩)⟩⟩
  | number value => exact fun rest => reads_primary.mpr (.inl ⟨value, rfl, rfl⟩)
  | name name => exact fun rest => reads_primary.mpr (.inr (.inl ⟨name, rfl, rfl⟩))
  | @group ts e _ ih =>
    intro rest
    have he := ih (.symbol .rparen :: rest) (.symbol (by decide) (by decide) (by decide))
    exact reads_primary.mpr (.inr (.inr ⟨_, by simp [parenthesized], he⟩))
  | noArguments => exact fun rest => reads_arguments.mpr (.inl ⟨rfl, rfl⟩)
  | someArguments hi ih =>
    intro rest
    have hread := ih rest
    obtain ⟨t, us, rfl, ht⟩ := hi.head _ rfl
    refine reads_arguments.mpr (.inr ⟨?_, hread⟩)
    rintro _ ⟨⟩
    cases ht
  | @oneItem ts e _ ih =>
    intro rest
    have he := ih (.symbol .rparen :: rest) (.symbol (by decide) (by decide) (by decide))
    exact reads_moreArguments.mpr ⟨e, _, he, .inr ⟨rfl, rfl⟩⟩
  | @moreItems ts us e args _ _ ihe iha =>
    intro rest
    have he := ihe (.symbol .comma :: (us ++ .symbol .rparen :: rest))
      (.symbol (by decide) (by decide) (by decide))
    exact reads_moreArguments.mpr
      ⟨e, _, he.congr (by simp), .inl ⟨_, args, rfl, iha rest, rfl⟩⟩
  | noLinks => exact fun rest hrest => reads_links.mpr (.inr ⟨hrest, rfl, rfl⟩)
  | @moreLinks ts us link links _ _ ihl ihs =>
    intro rest hrest
    obtain ⟨name, inside, rfl, hl⟩ := ihl
    have hread := hl (us ++ rest)
    exact reads_links.mpr
      (.inl ⟨name, _, link, _, links, by simp, hread, ihs rest hrest, rfl⟩)
  | @namedLink ts name make args hmake _ ih =>
    refine ⟨name, ts ++ [.symbol .rparen], rfl, fun rest => ?_⟩
    have ha := ih rest
    exact reads_link.mpr (.inr ⟨make, args, hmake, ha.congr (by simp), rfl⟩)
  | @andThen ts body _ ih =>
    refine ⟨"Then", ts ++ [.symbol .rparen], rfl, fun rest => ?_⟩
    have hb := ih (.symbol .rparen :: rest)
    exact reads_link.mpr (.inl ⟨body, rfl, hb.congr (by simp), rfl⟩)

/-! ## Whole inputs -/

theorem statements_complete {ts : List Token} {body : List Statement}
    (h : Spells .statements ts body) : readStatements ts = .ok body := by
  induction body generalizing ts with
  | nil =>
    cases h
    exact readStatements_eq_ok_iff.mpr (.inl ⟨rfl, rfl⟩)
  | cons s body ih =>
    cases h with
    | moreStatements hs hb =>
      exact readStatements_eq_ok_iff.mpr (.inr ⟨s, _, body, hs.accepts _, ih hb, rfl⟩)

theorem readStatements_eq_ok_iff_spells {ts : List Token} {body : List Statement} :
    readStatements ts = .ok body ↔ Spells .statements ts body :=
  ⟨statements_sound ts, statements_complete⟩

theorem spells_singleton_iff {ts : List Token} {s : Statement} :
    Spells .statements ts ([s] : List Statement) ↔ Spells .statement ts s := by
  constructor
  · intro h
    cases h with
    | moreStatements hs hnil =>
      cases hnil
      simpa using hs
  · intro h
    simpa using Spells.moreStatements h .noStatements

theorem spellsProgram_iff {ts : List Token} {s : Statement} :
    SpellsProgram ts s ↔ ∃ body, Spells .statements ts body ∧ s = Statement.ofList body := by
  constructor
  · intro h
    cases h with
    | single h => exact ⟨[s], spells_singleton_iff.mpr h, rfl⟩
    | @several body h hlen =>
      refine ⟨body, h, ?_⟩
      unfold Statement.ofList
      split
      · exact absurd rfl hlen
      · rfl
  · rintro ⟨body, h, rfl⟩
    rcases body with _ | ⟨s, _ | ⟨s', body⟩⟩
    · exact .several h (by simp)
    · exact .single (spells_singleton_iff.mp h)
    · exact .several h (by simp)

/-- The reader of programs accepts the grammar and builds its tree. -/
theorem readProgram_eq_ok_iff {ts : List Token} {s : Statement} :
    readProgram ts = .ok s ↔ SpellsProgram ts s := by
  rw [spellsProgram_iff]
  constructor
  · intro h
    cases hb : readStatements ts with
    | error r =>
      rw [readProgram, hb] at h
      cases h
    | ok body =>
      rw [readProgram, hb] at h
      cases h
      exact ⟨body, readStatements_eq_ok_iff_spells.mp hb, rfl⟩
  · rintro ⟨body, h, rfl⟩
    rw [readProgram, readStatements_eq_ok_iff_spells.mpr h]
    rfl

end TweenScript
