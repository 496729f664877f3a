import TweenScript.Proofs.Catalogue
import TweenScript.Proofs.Grammar

/-!
# What each reader accepts

`Reads x v rest`: the reading `x` has come to the value `v` and leaves `rest`. For every reader of
the grammar one equivalence says when it comes to a value, in terms of the readers that it calls;
soundness and completeness both go through these and never unfold a reader.
-/

namespace TweenScript

variable {α β : Type} {b c : Nat} {ts rest : List Token}

/-- The reading `x` has come to `v` and leaves `rest`. -/
def Reads (x : Reading α b) (v : α) (rest : List Token) : Prop :=
  ∃ h, x = .ok ⟨v, rest, h⟩

theorem Reads.shorter {x : Reading α b} {v : α} (h : Reads x v rest) : rest.length < b := by
  obtain ⟨h, -⟩ := h
  exact h

theorem Reads.congr {read : (ts : List Token) → Reading α ts.length} {us : List Token} {v : α}
    (h : Reads (read ts) v rest) (heq : us = ts) : Reads (read us) v rest := by
  rw [heq]
  exact h

theorem not_reads_nil {x : Reading α ([] : List Token).length} {v : α} : ¬ Reads x v rest :=
  fun h => absurd h.shorter (Nat.not_lt_zero _)

theorem reads_ok {v w : α} {us : List Token} {h : us.length < b} :
    Reads (.ok ⟨v, us, h⟩ : Reading α b) w rest ↔ w = v ∧ rest = us := by
  constructor
  · rintro ⟨_, h⟩
    cases h
    exact ⟨rfl, rfl⟩
  · rintro ⟨rfl, rfl⟩
    exact ⟨h, rfl⟩

theorem reads_pure {v w : α} {us : List Token} {h : us.length < b} :
    Reads (pure ⟨v, us, h⟩ : Reading α b) w rest ↔ w = v ∧ rest = us :=
  reads_ok

theorem not_reads_error {r : Refusal} {v : α} : ¬ Reads (.error r : Reading α b) v rest := by
  rintro ⟨_, h⟩
  cases h

theorem not_reads_throw {r : Refusal} {v : α} : ¬ Reads (throw r : Reading α b) v rest :=
  not_reads_error

/-- A reading in two steps; `k` may use that the first one leaves less. -/
theorem reads_bind {x : Reading α b} {k : Parsed Token α b → Reading β c} {w : β} :
    Reads (x >>= k) w rest ↔ ∃ v us, Reads x v us ∧ ∃ h, Reads (k ⟨v, us, h⟩) w rest := by
  cases x with
  | error r =>
    constructor
    · exact fun h => absurd h not_reads_error
    · rintro ⟨_, _, h, _⟩
      exact absurd h not_reads_error
  | ok p =>
    constructor
    · exact fun h => ⟨p.value, p.rest, ⟨p.shorter, rfl⟩, p.shorter, h⟩
    · rintro ⟨v, us, ⟨_, hx⟩, h, hk⟩
      cases hx
      exact hk

/-! ## Symbols and names -/

theorem reads_expect {s : Symbol} {cause : GrammarCause} {v : Unit} :
    Reads (expect s cause ts) v rest ↔ ts = .symbol s :: rest := by
  unfold expect
  split
  · rename_i t us
    by_cases h : t = s
    · simp [h, reads_ok, eq_comm]
    · simp [h, not_reads_error]
  · rename_i us hts
    simp only [not_reads_error, false_iff]
    rintro rfl
    exact hts _ _ rfl

theorem linkName_iff {name : String} {make : List Expr → Link} :
    Link.named name = .ok make ↔ LinkName name make := by
  constructor
  · intro h
    unfold Link.named at h
    split_ifs at h with h₁ h₂ h₃ h₄ h₅
    · cases h; subst h₁; exact .start
    · cases h; subst h₂; exact .startRelative
    · cases h; subst h₃; exact .delay
    · cases h; subst h₄; exact .animate
    · split at h
      · rename_i e he
        cases h
        obtain ⟨m, hm, f, hf, rfl, rfl⟩ := Ease.named?_eq_some_iff.mp he
        exact .ease hm hf
      · cases h
  · intro h
    cases h with
    | start | startRelative | delay | animate => rfl
    | ease hm hf =>
      rename_i m f
      have hmarked := Ease.isMarked_join m.1 f.1
      have hnot {name : String} (h : Ease.isMarked name = false) : Ease.mark ++ m.1 ++ f.1 ≠ name := by
        rintro rfl
        rw [hmarked] at h
        cases h
      rw [Link.named, if_neg (hnot (by decide)), if_neg (hnot (by decide)),
        if_neg (hnot (by decide)), if_neg (hnot (by decide)), if_pos hmarked,
        Ease.named?_join m hm f hf]

/-! ## Categories -/

theorem reads_statement {s : Statement} :
    Reads (readStatement ts) s rest ↔
      (∃ us body, ts = .symbol .lbrace :: us ∧ Reads (readBlock us) body rest ∧ s = .block body) ∨
      (∃ us condition vs body, ts = .symbol .when :: .symbol .lparen :: us ∧
        Reads (readExpr us) condition (.symbol .rparen :: vs) ∧ Reads (readStatement vs) body rest ∧
        s = .when condition body) ∨
      (∃ e, (∀ us, ts ≠ .symbol .lbrace :: us) ∧ (∀ us, ts ≠ .symbol .when :: us) ∧
        Reads (readExpr ts) e (.symbol .semicolon :: rest) ∧ s = .expr e) := by
  rw [readStatement.eq_def]
  split
  · rename_i us
    simp only [reads_bind, reads_pure]
    constructor
    · rintro ⟨body, us', h, -, rfl, rfl⟩
      exact .inl ⟨us, body, rfl, h, rfl⟩
    · rintro (⟨_, body, hts, h, rfl⟩ | ⟨_, _, _, _, hts, -⟩ | ⟨_, hts, -⟩)
      · cases hts
        exact ⟨body, rest, h, h.shorter, rfl, rfl⟩
      · cases hts
      · exact absurd rfl (hts us)
  · rename_i us
    simp only [reads_bind, reads_pure, reads_expect]
    constructor
    · rintro ⟨_, us, rfl, -, condition, _, hc, -, _, vs, rfl, -, body, _, hb, -, rfl, rfl⟩
      exact .inr (.inl ⟨us, condition, vs, body, rfl, hc, hb, rfl⟩)
    · rintro (⟨_, _, hts, -⟩ | ⟨us, condition, vs, body, hts, hc, hb, rfl⟩ | ⟨_, -, hts, -⟩)
      · cases hts
      · cases hts
        exact ⟨(), us, rfl, Nat.lt_succ_self _, condition, _, hc, hc.shorter, (), vs, rfl,
          Nat.lt_succ_self _, body, rest, hb, hb.shorter, rfl, rfl⟩
      · exact absurd rfl (hts us)
  · rename_i hbrace hwhen
    simp only [reads_bind, reads_pure, reads_expect]
    constructor
    · rintro ⟨e, _, he, -, _, us, rfl, -, rfl, rfl⟩
      exact .inr (.inr ⟨e, hbrace, hwhen, he, rfl⟩)
    · rintro (⟨us, _, hts, -⟩ | ⟨us, _, _, _, hts, -⟩ | ⟨e, -, -, he, rfl⟩)
      · exact absurd hts (hbrace us)
      · exact absurd hts (hwhen _)
      · exact ⟨e, _, he, he.shorter, (), rest, rfl, Nat.lt_succ_self _, rfl, rfl⟩

theorem reads_block {body : List Statement} :
    Reads (readBlock ts) body rest ↔
      (ts = .symbol .rbrace :: rest ∧ body = []) ∨
      (∃ s us others, (∀ us, ts ≠ .symbol .rbrace :: us) ∧ Reads (readStatement ts) s us ∧
        Reads (readBlock us) others rest ∧ body = s :: others) := by
  rw [readBlock.eq_def]
  split
  · simp only [not_reads_error, false_iff]
    rintro (⟨hts, -⟩ | ⟨_, _, _, -, h, -⟩)
    · cases hts
    · exact not_reads_nil h
  · rename_i us
    simp only [reads_ok]
    constructor
    · rintro ⟨rfl, rfl⟩
      exact .inl ⟨rfl, rfl⟩
    · rintro (⟨hts, rfl⟩ | ⟨_, _, _, hts, -⟩)
      · cases hts
        exact ⟨rfl, rfl⟩
      · exact absurd rfl (hts us)
  · rename_i hnil hbrace
    simp only [reads_bind, reads_pure]
    constructor
    · rintro ⟨s, us, hs, -, others, _, ho, -, rfl, rfl⟩
      exact .inr ⟨s, us, others, hbrace, hs, ho, rfl⟩
    · rintro (⟨hts, -⟩ | ⟨s, us, others, -, hs, ho, rfl⟩)
      · exact absurd hts (hbrace _)
      · exact ⟨s, us, hs, hs.shorter, others, rest, ho, ho.shorter, rfl, rfl⟩

theorem reads_expr {e : Expr} :
    Reads (readExpr ts) e rest ↔ ∃ first us, Reads (readBinary topRank ts) first us ∧
      ((∃ vs yes ws no, us = .symbol .question :: vs ∧
          Reads (readExpr vs) yes (.symbol .colon :: ws) ∧ Reads (readExpr ws) no rest ∧
          e = .conditional first yes no) ∨
        ((∀ vs, us ≠ .symbol .question :: vs) ∧ e = first ∧ rest = us)) := by
  rw [readExpr.eq_def]
  simp only [reads_bind]
  constructor
  · rintro ⟨first, us, hf, _, h⟩
    refine ⟨first, us, hf, ?_⟩
    split at h
    · rename_i vs _ _
      simp only [reads_bind, reads_pure, reads_expect] at h
      obtain ⟨yes, _, hy, -, _, ws, rfl, -, no, _, hn, -, rfl, rfl⟩ := h
      exact .inl ⟨vs, yes, ws, no, rfl, hy, hn, rfl⟩
    · rename_i hquestion
      rw [reads_pure] at h
      refine .inr ⟨?_, h⟩
      rintro vs rfl
      exact hquestion vs _ rfl HEq.rfl
  · rintro ⟨first, us, hf, h⟩
    refine ⟨first, us, hf, hf.shorter, ?_⟩
    rcases h with ⟨vs, yes, ws, no, rfl, hy, hn, rfl⟩ | ⟨hquestion, rfl, rfl⟩
    · simp only [reads_bind, reads_pure, reads_expect]
      exact ⟨yes, _, hy, hy.shorter, (), ws, rfl, Nat.lt_succ_self _, no, rest, hn, hn.shorter,
        rfl, rfl⟩
    · split
      · exact absurd rfl (hquestion _)
      · exact reads_pure.mpr ⟨rfl, rfl⟩

theorem reads_binary_zero {e : Expr} :
    Reads (readBinary 0 ts) e rest ↔ Reads (readUnary ts) e rest := by
  rw [readBinary]

theorem reads_binary_succ {n : Nat} {e : Expr} :
    Reads (readBinary (n + 1) ts) e rest ↔
      ∃ left us, Reads (readBinary n ts) left us ∧ Reads (readOperators n left us) e rest := by
  rw [readBinary.eq_def]
  simp only [reads_bind, reads_pure]
  constructor
  · rintro ⟨left, us, hl, -, _, _, ho, -, rfl, rfl⟩
    exact ⟨left, us, hl, ho⟩
  · rintro ⟨left, us, hl, ho⟩
    exact ⟨left, us, hl, hl.shorter, e, rest, ho, ho.shorter, rfl, rfl⟩

theorem reads_operators {n : Nat} {left e : Expr} :
    Reads (readOperators n left ts) e rest ↔
      (∃ op us b right vs, ts = .operator op :: us ∧ (op, b) ∈ operatorsOfRank (n + 1) ∧
        Reads (readBinary n us) right vs ∧ Reads (readOperators n (.binary b left right) vs) e rest) ∨
      ((∀ op us, ts = .operator op :: us → op.ofRank? (n + 1) = none) ∧ e = left ∧ rest = ts) := by
  rw [readOperators.eq_def]
  split
  · rename_i op us
    split
    · rename_i b hb
      simp only [reads_bind, reads_pure]
      constructor
      · rintro ⟨right, vs, hr, -, _, _, ho, -, rfl, rfl⟩
        exact .inl ⟨op, us, b, right, vs, rfl, ofRank?_eq_some_iff.mp hb, hr, ho⟩
      · rintro (⟨_, _, b', right, vs, hts, hb', hr, ho⟩ | ⟨hnone, -⟩)
        · cases hts
          obtain rfl : b = b' := Option.some.inj (hb.symm.trans (ofRank?_eq_some_iff.mpr hb'))
          exact ⟨right, vs, hr, hr.shorter, e, rest, ho, ho.shorter, rfl, rfl⟩
        · rw [hnone op us rfl] at hb
          cases hb
    · rename_i hb
      rw [reads_ok]
      constructor
      · rintro ⟨rfl, rfl⟩
        refine .inr ⟨?_, rfl, rfl⟩
        rintro _ _ hts
        cases hts
        exact hb
      · rintro (⟨_, _, b', _, _, hts, hb', -⟩ | ⟨-, h⟩)
        · cases hts
          rw [ofRank?_eq_some_iff.mpr hb'] at hb
          cases hb
        · exact h
  · rename_i hop
    rw [reads_ok]
    constructor
    · intro h
      exact .inr ⟨fun op us hts => absurd hts (hop op us), h⟩
    · rintro (⟨op, us, _, _, _, hts, -⟩ | ⟨-, h⟩)
      · exact absurd hts (hop op us)
      · exact h

theorem reads_unary {e : Expr} :
    Reads (readUnary ts) e rest ↔
      (∃ us, ts = .operator .plus :: us ∧ Reads (readUnary us) e rest) ∨
      (∃ us operand, ts = .operator .minus :: us ∧ Reads (readUnary us) operand rest ∧
        e = .unary .neg operand) ∨
      (∃ us operand, ts = .operator .not :: us ∧ Reads (readUnary us) operand rest ∧
        e = .unary .not operand) ∨
      ((∀ us, ts ≠ .operator .plus :: us) ∧ (∀ us, ts ≠ .operator .minus :: us) ∧
        (∀ us, ts ≠ .operator .not :: us) ∧ Reads (readCall ts) e rest) := by
  rw [readUnary.eq_def]
  split
  · rename_i us
    simp only [reads_bind, reads_pure]
    constructor
    · rintro ⟨_, _, h, -, rfl, rfl⟩
      exact .inl ⟨us, rfl, h⟩
    · rintro (⟨_, hts, h⟩ | ⟨_, _, hts, -⟩ | ⟨_, _, hts, -⟩ | ⟨hts, -⟩)
      · cases hts
        exact ⟨e, rest, h, h.shorter, rfl, rfl⟩
      · cases hts
      · cases hts
      · exact absurd rfl (hts us)
  · rename_i us
    simp only [reads_bind, reads_pure]
    constructor
    · rintro ⟨operand, _, h, -, rfl, rfl⟩
      exact .inr (.inl ⟨us, operand, rfl, h, rfl⟩)
    · rintro (⟨_, hts, -⟩ | ⟨_, operand, hts, h, rfl⟩ | ⟨_, _, hts, -⟩ | ⟨-, hts, -⟩)
      · cases hts
      · cases hts
        exact ⟨operand, rest, h, h.shorter, rfl, rfl⟩
      · cases hts
      · exact absurd rfl (hts us)
  · rename_i us
    simp only [reads_bind, reads_pure]
    constructor
    · rintro ⟨operand, _, h, -, rfl, rfl⟩
      exact .inr (.inr (.inl ⟨us, operand, rfl, h, rfl⟩))
    · rintro (⟨_, hts, -⟩ | ⟨_, _, hts, -⟩ | ⟨_, operand, hts, h, rfl⟩ | ⟨-, -, hts, -⟩)
      · cases hts
      · cases hts
      · cases hts
        exact ⟨operand, rest, h, h.shorter, rfl, rfl⟩
      · exact absurd rfl (hts us)
  · rename_i hplus hminus hnot
    constructor
    · intro h
      exact .inr (.inr (.inr ⟨hplus, hminus, hnot, h⟩))
    · rintro (⟨us, hts, -⟩ | ⟨us, _, hts, -⟩ | ⟨us, _, hts, -⟩ | ⟨-, -, -, h⟩)
      · exact absurd hts (hplus us)
      · exact absurd hts (hminus us)
      · exact absurd hts (hnot us)
      · exact h

theorem reads_call {e : Expr} :
    Reads (readCall ts) e rest ↔ ∃ callee us, Reads (readPrimary ts) callee us ∧
      (((∀ vs, us ≠ .symbol .lparen :: vs) ∧ e = callee ∧ rest = us) ∨
        ∃ name vs, callee = .variable name ∧ us = .symbol .lparen :: vs ∧
          ((∃ channel args ws links, Channel.named? name = some channel ∧
              Reads (readArguments vs) args ws ∧ Reads (readLinks ws) links rest ∧
              e = .tween ⟨channel, name, args, links⟩) ∨
            (∃ args, name = "Active" ∧ Reads (readArguments vs) args rest ∧ e = .setActive args) ∨
            (∃ args, name = "Callback" ∧ Reads (readArguments vs) args rest ∧ e = .callback))) := by
  rw [readCall.eq_def]
  simp only [reads_bind]
  constructor
  · rintro ⟨callee, us, hp, _, h⟩
    refine ⟨callee, us, hp, ?_⟩
    split at h
    · rename_i vs _ _
      split at h
      · rename_i name
        refine .inr ⟨name, vs, rfl, rfl, ?_⟩
        split at h
        · rename_i channel hchannel
          simp only [reads_bind, reads_pure] at h
          obtain ⟨args, ws, ha, -, links, _, hl, -, rfl, rfl⟩ := h
          exact .inl ⟨channel, args, ws, links, hchannel, ha, hl, rfl⟩
        · split_ifs at h with hactive hcallback
          · simp only [reads_bind, reads_pure] at h
            obtain ⟨args, _, ha, -, rfl, rfl⟩ := h
            exact .inr (.inl ⟨args, hactive, ha, rfl⟩)
          · simp only [reads_bind, reads_pure] at h
            obtain ⟨args, _, ha, -, rfl, rfl⟩ := h
            exact .inr (.inr ⟨args, hcallback, ha, rfl⟩)
          · exact absurd h not_reads_throw
      · exact absurd h not_reads_throw
    · rename_i hparen
      rw [reads_pure] at h
      refine .inl ⟨?_, h⟩
      rintro vs rfl
      exact hparen vs _ rfl HEq.rfl
  · rintro ⟨callee, us, hp, h⟩
    refine ⟨callee, us, hp, hp.shorter, ?_⟩
    rcases h with ⟨hparen, rfl, rfl⟩ | ⟨name, vs, rfl, rfl, h⟩
    · split
      · exact absurd rfl (hparen _)
      · exact reads_pure.mpr ⟨rfl, rfl⟩
    · rcases h with ⟨channel, args, ws, links, hchannel, ha, hl, rfl⟩ | ⟨args, rfl, ha, rfl⟩ |
        ⟨args, rfl, ha, rfl⟩
      · simp only [hchannel, reads_bind, reads_pure]
        exact ⟨args, ws, ha, ha.shorter, links, rest, hl, hl.shorter, rfl, rfl⟩
      · have hchannel : Channel.named? "Active" = none := by decide
        simp only [hchannel, if_true, reads_bind, reads_pure]
        exact ⟨args, rest, ha, ha.shorter, rfl, rfl⟩
      · have hchannel : Channel.named? "Callback" = none := by decide
        have hactive : ¬ "Callback" = "Active" := by decide
        simp only [hchannel, if_neg hactive, if_true, reads_bind, reads_pure]
        exact ⟨args, rest, ha, ha.shorter, trivial, rfl⟩

theorem reads_primary {e : Expr} :
    Reads (readPrimary ts) e rest ↔
      (∃ value, ts = .number value :: rest ∧ e = .number value) ∨
      (∃ name, ts = .identifier name :: rest ∧ e = .variable name) ∨
      (∃ us, ts = .symbol .lparen :: us ∧ Reads (readExpr us) e (.symbol .rparen :: rest)) := by
  rw [readPrimary.eq_def]
  split
  · simp [reads_ok, eq_comm, and_comm]
  · simp [reads_ok, eq_comm, and_comm]
  · rename_i us
    simp only [reads_bind, reads_pure, reads_expect]
    constructor
    · rintro ⟨_, _, he, -, _, _, rfl, -, rfl, rfl⟩
      exact .inr (.inr ⟨us, rfl, he⟩)
    · rintro (⟨_, hts, -⟩ | ⟨_, hts, -⟩ | ⟨us, hts, he⟩)
      · cases hts
      · cases hts
      · cases hts
        exact ⟨e, _, he, he.shorter, (), rest, rfl, Nat.lt_succ_self _, rfl, rfl⟩
  · simp [not_reads_error]
  · rename_i s us hs
    simp only [not_reads_error, false_iff]
    rintro (⟨_, hts, -⟩ | ⟨_, hts, -⟩ | ⟨us, hts, -⟩)
    · cases hts
    · cases hts
    · cases hts
      exact hs rfl
  · simp [not_reads_error]

theorem reads_arguments {args : List Expr} :
    Reads (readArguments ts) args rest ↔
      (ts = .symbol .rparen :: rest ∧ args = []) ∨
      ((∀ us, ts ≠ .symbol .rparen :: us) ∧ Reads (readMoreArguments ts) args rest) := by
  rw [readArguments.eq_def]
  split
  · rename_i us
    rw [reads_ok]
    constructor
    · rintro ⟨rfl, rfl⟩
      exact .inl ⟨rfl, rfl⟩
    · rintro (⟨hts, rfl⟩ | ⟨hts, -⟩)
      · cases hts
        exact ⟨rfl, rfl⟩
      · exact absurd rfl (hts us)
  · rename_i hparen
    constructor
    · intro h
      exact .inr ⟨hparen, h⟩
    · rintro (⟨hts, -⟩ | ⟨-, h⟩)
      · exact absurd hts (hparen rest)
      · exact h

theorem reads_moreArguments {args : List Expr} :
    Reads (readMoreArguments ts) args rest ↔ ∃ e us, Reads (readExpr ts) e us ∧
      ((∃ vs others, us = .symbol .comma :: vs ∧ Reads (readMoreArguments vs) others rest ∧
          args = e :: others) ∨
        (us = .symbol .rparen :: rest ∧ args = [e])) := by
  rw [readMoreArguments.eq_def]
  simp only [reads_bind]
  constructor
  · rintro ⟨e, us, he, _, h⟩
    refine ⟨e, us, he, ?_⟩
    split at h
    · rename_i vs _ _
      simp only [reads_bind, reads_pure] at h
      obtain ⟨others, _, ho, -, rfl, rfl⟩ := h
      exact .inl ⟨vs, others, rfl, ho, rfl⟩
    · obtain ⟨rfl, rfl⟩ := reads_pure.mp h
      exact .inr ⟨rfl, rfl⟩
    · exact absurd h not_reads_throw
  · rintro ⟨e, us, he, h⟩
    refine ⟨e, us, he, he.shorter, ?_⟩
    rcases h with ⟨vs, others, rfl, ho, rfl⟩ | ⟨rfl, rfl⟩
    · simp only [reads_bind, reads_pure]
      exact ⟨others, rest, ho, ho.shorter, rfl, rfl⟩
    · exact reads_pure.mpr ⟨rfl, rfl⟩

theorem reads_links {links : List Link} :
    Reads (readLinks ts) links rest ↔
      (∃ name us link vs others, ts = .symbol .dot :: .identifier name :: .symbol .lparen :: us ∧
        Reads (readLink name us) link vs ∧ Reads (readLinks vs) others rest ∧
        links = link :: others) ∨
      ((∀ us, ts ≠ .symbol .dot :: us) ∧ links = [] ∧ rest = ts) := by
  rw [readLinks.eq_def]
  split
  · rename_i name us
    simp only [reads_bind, reads_pure]
    constructor
    · rintro ⟨link, vs, hl, -, others, _, ho, -, rfl, rfl⟩
      exact .inl ⟨name, us, link, vs, others, rfl, hl, ho, rfl⟩
    · rintro (⟨_, _, link, vs, others, hts, hl, ho, rfl⟩ | ⟨hts, -⟩)
      · cases hts
        exact ⟨link, vs, hl, hl.shorter, others, rest, ho, ho.shorter, rfl, rfl⟩
      · exact absurd rfl (hts _)
  · rename_i name us hparen
    simp only [not_reads_error, false_iff]
    rintro (⟨_, _, _, _, _, hts, -⟩ | ⟨hts, -⟩)
    · cases hts
      exact hparen _ rfl
    · exact hts _ rfl
  · rename_i us hname hparen
    simp only [not_reads_error, false_iff]
    rintro (⟨_, _, _, _, _, hts, -⟩ | ⟨hts, -⟩)
    · cases hts
      exact hparen _ _ rfl
    · exact hts _ rfl
  · rename_i hdot
    rw [reads_ok]
    constructor
    · intro h
      exact .inr ⟨hdot, h⟩
    · rintro (⟨_, _, _, _, _, hts, -⟩ | ⟨-, h⟩)
      · exact absurd hts (hdot _)
      · exact h

theorem reads_link {name : String} {link : Link} :
    Reads (readLink name ts) link rest ↔
      (∃ body, name = "Then" ∧ Reads (readStatement ts) body (.symbol .rparen :: rest) ∧
        link = .andThen body) ∨
      (∃ make args, LinkName name make ∧ Reads (readArguments ts) args rest ∧ link = make args) := by
  rw [readLink.eq_def]
  split_ifs with hthen
  · subst hthen
    simp only [reads_bind, reads_pure, reads_expect]
    constructor
    · rintro ⟨body, _, hb, -, _, _, rfl, -, rfl, rfl⟩
      exact .inl ⟨body, trivial, hb, rfl⟩
    · rintro (⟨body, -, hb, rfl⟩ | ⟨make, _, hmake, -⟩)
      · exact ⟨body, _, hb, hb.shorter, (), rest, rfl, Nat.lt_succ_self _, rfl, rfl⟩
      · have hnamed : Link.named "Then" = .error (.unknownLink "Then") := rfl
        rw [linkName_iff.mpr hmake] at hnamed
        cases hnamed
  · split
    · rename_i make hmake
      simp only [reads_bind, reads_pure]
      constructor
      · rintro ⟨args, _, ha, -, rfl, rfl⟩
        exact .inr ⟨make, args, linkName_iff.mp hmake, ha, rfl⟩
      · rintro (⟨_, hname, -⟩ | ⟨make', args, hmake', ha, rfl⟩)
        · exact absurd hname hthen
        · obtain rfl : make = make' :=
            Except.ok.inj (hmake.symm.trans (linkName_iff.mpr hmake'))
          exact ⟨args, rest, ha, ha.shorter, rfl, rfl⟩
    · rename_i cause hcause
      simp only [not_reads_error, false_iff]
      rintro (⟨_, hname, -⟩ | ⟨make, _, hmake, -⟩)
      · exact hthen hname
      · rw [linkName_iff.mpr hmake] at hcause
        cases hcause

/-! ## Whole inputs -/

theorem readStatements_eq_ok_iff {body : List Statement} :
    readStatements ts = .ok body ↔
      (ts = [] ∧ body = []) ∨
      (∃ s us others, Reads (readStatement ts) s us ∧ readStatements us = .ok others ∧
        body = s :: others) := by
  rw [readStatements.eq_def]
  split
  · constructor
    · intro h
      exact .inl ⟨rfl, (Except.ok.inj h).symm⟩
    · rintro (⟨-, rfl⟩ | ⟨_, _, _, h, -⟩)
      · rfl
      · exact absurd h not_reads_nil
  · rename_i hnil
    constructor
    · intro h
      cases hs : readStatement ts with
      | error r =>
        rw [hs] at h
        cases h
      | ok p =>
        obtain ⟨s, us, hus⟩ := p
        rw [hs] at h
        change (readStatements us >>= fun others => Except.ok (s :: others)) = _ at h
        cases ho : readStatements us with
        | error r =>
          rw [ho] at h
          cases h
        | ok others =>
          rw [ho] at h
          cases h
          exact .inr ⟨s, us, others, ⟨hus, rfl⟩, ho, rfl⟩
    · rintro (⟨hts, -⟩ | ⟨s, us, others, ⟨hus, hs⟩, ho, rfl⟩)
      · exact absurd hts hnil
      · rw [hs]
        show (readStatements us >>= fun others => Except.ok (s :: others)) = _
        rw [ho]
        rfl

end TweenScript
