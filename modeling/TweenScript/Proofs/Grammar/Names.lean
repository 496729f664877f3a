import TweenScript.Proofs.Grammar.Completeness

/-!
# Spellings of names

Parentheses and plus signs leave no trace in a tree, so a tree that is a name may be spelled with them
around its one identifier. An expression that is a name is an identifier in any number of parentheses and
plus signs (`Spells.expr_variable_iff`); where no sign may stand, the outermost of them are parentheses
(`Spells.primary_variable_iff`). What is neither cannot be called (`readCall_of_not_callee`).
-/

namespace TweenScript

variable {ts : List Token} {e : Expr}

/-! ## Names -/

/-- The tokens of an expression that is a name: its identifier in parentheses and behind plus signs. -/
inductive Names (name : String) : List Token → Prop where
  | bare : Names name [.identifier name]
  | group {ts : List Token} : Names name ts → Names name (parenthesized ts)
  | plus {ts : List Token} : Names name ts → Names name (.operator .plus :: ts)

/-- The tokens in front of the arguments of a call: a bare name, or a name in parentheses. -/
inductive Callee (name : String) : List Token → Prop where
  | bare : Callee name [.identifier name]
  | group {ts : List Token} : Names name ts → Callee name (parenthesized ts)

namespace Callee

variable {name : String}

theorem names (h : Callee name ts) : Names name ts := by
  cases h with
  | bare => exact .bare
  | group h => exact .group h

theorem length_pos (h : Callee name ts) : 0 < ts.length := by
  cases h with
  | bare => exact Nat.succ_pos _
  | group _ => exact Nat.succ_pos _

end Callee

theorem Spells.operand (h : Spells .unary ts e) : ∀ n, Spells (.operand n) ts e
  | 0 => .signed h
  | n + 1 => .tighter (Spells.operand h n)

theorem Spells.expr_of_unary (h : Spells .unary ts e) : Spells .expr ts e :=
  .plain (h.operand topRank)

theorem Names.spells_unary {name : String} (h : Names name ts) :
    Spells .unary ts (Expr.variable name) := by
  induction h with
  | bare => exact .unsigned (.noCall (.name name))
  | group _ ih => exact .unsigned (.noCall (.group ih.expr_of_unary))
  | plus _ ih => exact .plus ih

/-- What is known of the tokens if the tree is a name. -/
def Category.SpellsName : (c : Category) → List Token → c.Tree → Prop
  | .expr, ts, e | .operand _, ts, e | .unary, ts, e => ∀ name, e = .variable name → Names name ts
  | .call, ts, e | .primary, ts, e => ∀ name, e = .variable name → Callee name ts
  | _, _, _ => True

theorem Spells.spellsName {c : Category} {v : c.Tree} (h : Spells c ts v) : c.SpellsName ts v := by
  induction h with
  | plain _ ih => exact ih
  | conditional _ _ _ _ _ _ => exact fun _ h => nomatch h
  | signed _ ih => exact ih
  | tighter _ ih => exact ih
  | binary _ _ _ _ _ => exact fun _ h => nomatch h
  | plus _ ih => exact fun name h => .plus (ih name h)
  | neg _ _ => exact fun _ h => nomatch h
  | not _ _ => exact fun _ h => nomatch h
  | unsigned _ ih => exact fun name h => (ih name h).names
  | noCall _ ih => exact ih
  | tween _ _ _ _ _ _ _ => exact fun _ h => nomatch h
  | setActive _ _ _ _ => exact fun _ h => nomatch h
  | callback _ _ _ _ => exact fun _ h => nomatch h
  | number value => exact fun _ h => nomatch h
  | name name =>
    intro _ h
    cases h
    exact .bare
  | group _ ih => exact fun name h => .group (ih name h)
  | _ => trivial

/-- An expression is a name exactly if its tokens are that identifier in parentheses and plus signs. -/
theorem Spells.expr_variable_iff {name : String} :
    Spells .expr ts (Expr.variable name) ↔ Names name ts :=
  ⟨fun h => h.spellsName name rfl, fun h => h.spells_unary.expr_of_unary⟩

/-- Where no sign may stand, a plus sign is inside of parentheses. -/
theorem Spells.primary_variable_iff {name : String} :
    Spells .primary ts (Expr.variable name) ↔ Callee name ts := by
  constructor
  · exact fun h => h.spellsName name rfl
  · rintro (_ | h)
    · exact .name name
    · exact .group (Spells.expr_variable_iff.mpr h)

/-! ## Calls -/

/-- Tokens of a primary expression that are no callee, with a parenthesis behind them, are refused at that
parenthesis. -/
theorem readCall_of_not_callee {rest : List Token} (spells : Spells .primary ts e)
    (other : ∀ name, ¬ Callee name ts) :
    readCall (ts ++ .symbol .lparen :: rest) = .error ⟨.badCallee, .symbol .lparen :: rest⟩ := by
  obtain ⟨shorter, read⟩ := spells.accepts (.symbol .lparen :: rest)
  rw [readCall, read]
  cases e with
  | «variable» name => exact absurd (Spells.primary_variable_iff.mp spells) (other name)
  | _ => rfl

/-! ## Arguments -/

/-- Lists of tokens with commas between them. -/
def commaSeparated : List (List Token) → List Token
  | [] => []
  | [ts] => ts
  | ts :: us :: more => ts ++ .symbol .comma :: commaSeparated (us :: more)

theorem commaSeparated_cons {us : List (List Token)} (h : us ≠ []) :
    commaSeparated (ts :: us) = ts ++ .symbol .comma :: commaSeparated us := by
  cases us with
  | nil => exact absurd rfl h
  | cons u us => rfl

/-- Each argument of a call is spelled by tokens of its own. -/
def Category.SpellsApart : (c : Category) → List Token → c.Tree → Prop
  | .items, ts, args =>
    ∃ parts ≠ [], ts = commaSeparated parts ∧ List.Forall₂ (Spells .expr) parts args
  | .arguments, ts, args => ∃ parts, ts = commaSeparated parts ∧ List.Forall₂ (Spells .expr) parts args
  | _, _, _ => True

theorem Spells.spellsApart {c : Category} {v : c.Tree} (h : Spells c ts v) : c.SpellsApart ts v := by
  induction h with
  | noArguments => exact ⟨[], rfl, .nil⟩
  | someArguments _ ih =>
    obtain ⟨parts, -, apart⟩ := ih
    exact ⟨parts, apart⟩
  | oneItem h _ => exact ⟨[_], List.cons_ne_nil _ _, rfl, .cons h .nil⟩
  | moreItems h _ _ ih =>
    obtain ⟨parts, some, rfl, spelled⟩ := ih
    exact ⟨_ :: parts, List.cons_ne_nil _ _, (commaSeparated_cons some).symm, .cons h spelled⟩
  | _ => trivial

end TweenScript
