import TweenScript.Proofs.Grammar.Reading

/-!
# What readers accept is in the grammar

Whatever a reader comes to is spelled by the tokens that it has taken (`statement_sound` and its
companions). The proof is by recursion along the readers, with their own measures. The loop over
operators carries the invariant that the left operand so far is spelled by the tokens before it.
-/

namespace TweenScript

/-- The tokens of `ts` in front of `rest` spell `v`. -/
def Fronts (c : Category) (ts : List Token) (v : c.Tree) (rest : List Token) : Prop :=
  ∃ used, ts = used ++ rest ∧ Spells c used v

-- The equations for `ts` are kept as hypotheses: the termination proofs read lengths off them.
mutual

theorem statement_sound (ts : List Token) {s : Statement} {rest : List Token}
    (h : Reads (readStatement ts) s rest) : Fronts .statement ts s rest := by
  rcases reads_statement.mp h with ⟨us, body, hts, hb, rfl⟩ |
    ⟨us, condition, vs, body, hts, hc, hb, rfl⟩ | ⟨e, -, -, he, rfl⟩
  · have hlen : us.length < ts.length := by simp [hts]
    obtain ⟨used, hus, hs⟩ := block_sound us hb
    exact ⟨_, by simp [hts, hus], .block hs⟩
  · have hlen : us.length + 1 < ts.length := by simp [hts]
    have hlen' : vs.length + 1 < us.length := hc.shorter
    obtain ⟨condUsed, hus, hcond⟩ := expr_sound us hc
    obtain ⟨bodyUsed, hvs, hbody⟩ := statement_sound vs hb
    exact ⟨_, by simp [hts, hus, hvs, parenthesized], .when hcond hbody⟩
  · obtain ⟨used, hts, hs⟩ := expr_sound ts he
    exact ⟨_, by simp [hts], .exprStatement hs⟩
termination_by 16 * ts.length + 12
decreasing_by all_goals omega

theorem block_sound (ts : List Token) {body : List Statement} {rest : List Token}
    (h : Reads (readBlock ts) body rest) :
    Fronts .statements ts body (.symbol .rbrace :: rest) := by
  rcases reads_block.mp h with ⟨hts, rfl⟩ | ⟨s, us, others, -, hs, ho, rfl⟩
  · exact ⟨[], hts, .noStatements⟩
  · have hlen := hs.shorter
    obtain ⟨used, hts, hs'⟩ := statement_sound ts hs
    obtain ⟨othersUsed, hus, ho'⟩ := block_sound us ho
    exact ⟨_, by simp [hts, hus], .moreStatements hs' ho'⟩
termination_by 16 * ts.length + 13
decreasing_by all_goals omega

theorem expr_sound (ts : List Token) {e : Expr} {rest : List Token}
    (h : Reads (readExpr ts) e rest) : Fronts .expr ts e rest := by
  obtain ⟨first, us, hf, h⟩ := reads_expr.mp h
  have hlen := hf.shorter
  obtain ⟨used, hts, hfirst⟩ := binary_sound topRank ts hf
  rcases h with ⟨vs, yes, ws, no, hus, hy, hn, rfl⟩ | ⟨-, rfl, rfl⟩
  · have hlen' : vs.length < us.length := by simp [hus]
    have hlen'' : ws.length + 1 < vs.length := hy.shorter
    obtain ⟨yesUsed, hvs, hyes⟩ := expr_sound vs hy
    obtain ⟨noUsed, hws, hno⟩ := expr_sound ws hn
    exact ⟨_, by simp [hts, hus, hvs, hws], .conditional hfirst hyes hno⟩
  · exact ⟨used, hts, .plain hfirst⟩
termination_by 16 * ts.length + 11
decreasing_by all_goals have htop : topRank = 6 := rfl; omega

theorem binary_sound (n : Nat) (ts : List Token) {e : Expr} {rest : List Token}
    (h : Reads (readBinary n ts) e rest) : Fronts (.operand n) ts e rest := by
  match n with
  | 0 =>
    obtain ⟨used, hts, hs⟩ := unary_sound ts (reads_binary_zero.mp h)
    exact ⟨used, hts, .signed hs⟩
  | n + 1 =>
    obtain ⟨left, us, hl, ho⟩ := reads_binary_succ.mp h
    have hlen := hl.shorter
    obtain ⟨used, hts, hs⟩ := binary_sound n ts hl
    obtain ⟨more, hus, hs'⟩ := operators_sound n us ho hs.tighter
    exact ⟨_, by simp [hts, hus], hs'⟩
termination_by 16 * ts.length + n + 3
decreasing_by all_goals omega

theorem operators_sound (n : Nat) (ts : List Token) {left e : Expr} {before rest : List Token}
    (h : Reads (readOperators n left ts) e rest) (hleft : Spells (.operand (n + 1)) before left) :
    ∃ used, ts = used ++ rest ∧ Spells (.operand (n + 1)) (before ++ used) e := by
  rcases reads_operators.mp h with ⟨op, us, b, right, vs, hts, hb, hr, ho⟩ | ⟨-, rfl, rfl⟩
  · have hlen : us.length < ts.length := by simp [hts]
    have hlen' := hr.shorter
    obtain ⟨used, hus, hright⟩ := binary_sound n us hr
    obtain ⟨more, hvs, hs⟩ := operators_sound n vs ho (.binary hb hleft hright)
    refine ⟨.operator op :: (used ++ more), by simp [hts, hus, hvs], ?_⟩
    simpa using hs
  · exact ⟨[], rfl, by simpa using hleft⟩
termination_by 16 * ts.length + n
decreasing_by all_goals omega

theorem unary_sound (ts : List Token) {e : Expr} {rest : List Token}
    (h : Reads (readUnary ts) e rest) : Fronts .unary ts e rest := by
  rcases reads_unary.mp h with ⟨us, hts, ho⟩ | ⟨us, operand, hts, ho, rfl⟩ |
    ⟨us, operand, hts, ho, rfl⟩ | ⟨-, -, -, hc⟩
  · have hlen : us.length < ts.length := by simp [hts]
    obtain ⟨used, hus, hs⟩ := unary_sound us ho
    exact ⟨_, by simp [hts, hus], .plus hs⟩
  · have hlen : us.length < ts.length := by simp [hts]
    obtain ⟨used, hus, hs⟩ := unary_sound us ho
    exact ⟨_, by simp [hts, hus], .neg hs⟩
  · have hlen : us.length < ts.length := by simp [hts]
    obtain ⟨used, hus, hs⟩ := unary_sound us ho
    exact ⟨_, by simp [hts, hus], .not hs⟩
  · obtain ⟨used, hts, hs⟩ := call_sound ts hc
    exact ⟨used, hts, .unsigned hs⟩
termination_by 16 * ts.length + 2
decreasing_by all_goals omega

theorem call_sound (ts : List Token) {e : Expr} {rest : List Token}
    (h : Reads (readCall ts) e rest) : Fronts .call ts e rest := by
  obtain ⟨callee, us, hp, h⟩ := reads_call.mp h
  have hlen := hp.shorter
  obtain ⟨used, hts, hcallee⟩ := primary_sound ts hp
  rcases h with ⟨-, rfl, rfl⟩ | ⟨name, vs, rfl, hus, h⟩
  · exact ⟨used, hts, .noCall hcallee⟩
  · have hlen' : vs.length < us.length := by simp [hus]
    rcases h with ⟨channel, args, ws, links, hchannel, ha, hl, rfl⟩ | ⟨args, rfl, ha, rfl⟩ |
      ⟨args, rfl, ha, rfl⟩
    · have hlen'' := ha.shorter
      obtain ⟨argsUsed, hvs, hargs⟩ := arguments_sound vs ha
      obtain ⟨linksUsed, hws, hlinks⟩ := links_sound ws hl
      exact ⟨_, by simp [hts, hus, hvs, hws, parenthesized],
        .tween hcallee hchannel hargs hlinks⟩
    · obtain ⟨argsUsed, hvs, hargs⟩ := arguments_sound vs ha
      exact ⟨_, by simp [hts, hus, hvs, parenthesized], .setActive hcallee hargs⟩
    · obtain ⟨argsUsed, hvs, hargs⟩ := arguments_sound vs ha
      exact ⟨_, by simp [hts, hus, hvs, parenthesized], .callback hcallee hargs⟩
termination_by 16 * ts.length + 1
decreasing_by all_goals omega

theorem primary_sound (ts : List Token) {e : Expr} {rest : List Token}
    (h : Reads (readPrimary ts) e rest) : Fronts .primary ts e rest := by
  rcases reads_primary.mp h with ⟨value, hts, rfl⟩ | ⟨name, hts, rfl⟩ | ⟨us, hts, he⟩
  · exact ⟨[.number value], hts, .number value⟩
  · exact ⟨[.identifier name], hts, .name name⟩
  · have hlen : us.length < ts.length := by simp [hts]
    obtain ⟨used, hus, hs⟩ := expr_sound us he
    exact ⟨_, by simp [hts, hus, parenthesized], .group hs⟩
termination_by 16 * ts.length
decreasing_by omega

theorem arguments_sound (ts : List Token) {args : List Expr} {rest : List Token}
    (h : Reads (readArguments ts) args rest) :
    Fronts .arguments ts args (.symbol .rparen :: rest) := by
  rcases reads_arguments.mp h with ⟨hts, rfl⟩ | ⟨-, hi⟩
  · exact ⟨[], hts, .noArguments⟩
  · obtain ⟨used, hts, hs⟩ := items_sound ts hi
    exact ⟨used, hts, .someArguments hs⟩
termination_by 16 * ts.length + 13
decreasing_by omega

theorem items_sound (ts : List Token) {args : List Expr} {rest : List Token}
    (h : Reads (readMoreArguments ts) args rest) :
    Fronts .items ts args (.symbol .rparen :: rest) := by
  obtain ⟨e, us, he, h⟩ := reads_moreArguments.mp h
  have hlen := he.shorter
  obtain ⟨used, hts, hs⟩ := expr_sound ts he
  rcases h with ⟨vs, others, hus, ho, rfl⟩ | ⟨hus, rfl⟩
  · have hlen' : vs.length < us.length := by simp [hus]
    obtain ⟨more, hvs, hs'⟩ := items_sound vs ho
    exact ⟨_, by simp [hts, hus, hvs], .moreItems hs hs'⟩
  · exact ⟨used, by rw [hts, hus], .oneItem hs⟩
termination_by 16 * ts.length + 12
decreasing_by all_goals omega

theorem links_sound (ts : List Token) {links : List Link} {rest : List Token}
    (h : Reads (readLinks ts) links rest) : Fronts .links ts links rest := by
  rcases reads_links.mp h with ⟨name, us, link, vs, others, hts, hl, ho, rfl⟩ | ⟨-, rfl, rfl⟩
  · have hlen : us.length + 2 < ts.length := by simp [hts]
    have hlen' := hl.shorter
    obtain ⟨used, hus, hs⟩ := link_sound name us hl
    obtain ⟨more, hvs, hs'⟩ := links_sound vs ho
    exact ⟨_, by simp [hts, hus, hvs], .moreLinks hs hs'⟩
  · exact ⟨[], rfl, .noLinks⟩
termination_by 16 * ts.length
decreasing_by all_goals omega

theorem link_sound (name : String) (ts : List Token) {link : Link} {rest : List Token}
    (h : Reads (readLink name ts) link rest) :
    ∃ used, ts = used ++ rest ∧
      Spells .link (.symbol .dot :: .identifier name :: .symbol .lparen :: used) link := by
  rcases reads_link.mp h with ⟨body, rfl, hb, rfl⟩ | ⟨make, args, hmake, ha, rfl⟩
  · obtain ⟨used, hts, hs⟩ := statement_sound ts hb
    exact ⟨used ++ [Token.symbol .rparen], by simp [hts], .andThen hs⟩
  · obtain ⟨used, hts, hs⟩ := arguments_sound ts ha
    exact ⟨used ++ [Token.symbol .rparen], by simp [hts], .namedLink hmake hs⟩
termination_by 16 * ts.length + 14
decreasing_by all_goals omega

end

/-- Tokens that are read as statements to their end spell these. -/
theorem statements_sound (ts : List Token) {body : List Statement}
    (h : readStatements ts = .ok body) : Spells .statements ts body := by
  rcases readStatements_eq_ok_iff.mp h with ⟨rfl, rfl⟩ | ⟨s, us, others, hs, ho, rfl⟩
  · exact .noStatements
  · have hlen := hs.shorter
    obtain ⟨used, hts, hs'⟩ := statement_sound ts hs
    rw [hts]
    exact .moreStatements hs' (statements_sound us ho)
termination_by ts.length
decreasing_by exact hlen

end TweenScript
