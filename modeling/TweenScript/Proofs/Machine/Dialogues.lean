import TweenScript.Proofs.Dialogue.Endings
import TweenScript.Proofs.Machine

/-!
# Parsers at work and dialogues

A parser at work does what the dialogue of the same category does with its scanner, whatever notes of visits
it has and whether it has taken the token ahead before it asks for the next one (`Work.Enacts`).
-/

namespace TweenScript

variable {α β : Type}

theorem Dialogue.hold_bind (d : Dialogue α) (k : α → Dialogue β) (s : Scanner) :
    (d.bind k).hold s = match (d.hold s).outcome with
      | some (.ok a) =>
        let rest := (k a).hold (d.hold s).scanner
        { rest with asked := (d.hold s).asked + rest.asked }
      | some (.error f) => ⟨some (.error f), (d.hold s).asked, (d.hold s).scanner⟩
      | none => ⟨none, (d.hold s).asked, (d.hold s).scanner⟩ := by
  induction d generalizing s with
  | value a =>
    simp only [bind, hold, Nat.zero_add]
  | refuse cause => rfl
  | tired => rfl
  | ask reply ih =>
    rcases item : s.next with ⟨i, s'⟩
    cases i with
    | token t =>
      rw [bind, hold_of_token item, hold_of_token item, ih (some t) s']
      rcases ((reply (some t)).hold s').outcome with _ | f | a
      · rfl
      · rfl
      · simp only [Nat.add_right_comm]
    | finish =>
      rw [bind, hold_of_finish item, hold_of_finish item, ih none s']
      rcases ((reply none).hold s').outcome with _ | f | a
      · rfl
      · rfl
      · simp only [Nat.add_right_comm]
    | fault f => rw [bind, hold_of_fault item, hold_of_fault item]

namespace Work

/-- `x` does what the dialogue `d` does that ends with a value and the token ahead. -/
def Enacts (x : Work α) (m : Machine) (d : Dialogue (α × Option Token)) : Prop :=
  ∀ outcome, (d.hold m.scanner).outcome = some outcome → ∃ m',
    x.run.run m = some (outcome.map (·.1), m') ∧ m'.scanner = (d.hold m.scanner).scanner ∧
      m'.asked = m.asked + (d.hold m.scanner).asked ∧ ∀ a, outcome = .ok a → m'.ahead = a.2

namespace Enacts

variable {x : Work α} {k : α → Work β} {m : Machine} {t : Option Token} {d : Lookahead α}
  {k' : α → Lookahead β}

theorem tired : Enacts x m .tired :=
  fun _ h => nomatch h

theorem pure_ahead {a : α} (h : m.ahead = t) :
    Enacts (Pure.pure a : Work α) m ((Pure.pure a : Lookahead α) t) := by
  rintro _ ⟨⟩
  exact ⟨m, rfl, rfl, rfl, fun _ value => by cases value; exact h⟩

theorem pure {a : α} : Enacts (Pure.pure a : Work α) m ((Pure.pure a : Lookahead α) m.ahead) :=
  pure_ahead rfl

theorem refuse {cause : GrammarCause} :
    Enacts (Work.refuse cause : Work α) m ((Lookahead.refuse cause : Lookahead α) t) := by
  rintro _ ⟨⟩
  exact ⟨m, rfl, rfl, rfl, fun _ h => nomatch h⟩

theorem bind (hx : Enacts x m (d t)) (hk : ∀ a m', Enacts (k a) m' (k' a m'.ahead)) :
    Enacts (x >>= k) m ((d >>= k') t) := by
  have parts : (d >>= k') t = (d t).bind fun p => k' p.1 p.2 := rfl
  intro outcome h
  rw [parts, Dialogue.hold_bind] at h ⊢
  rcases first : ((d t).hold m.scanner).outcome with _ | f | ⟨a, t'⟩
  · rw [first] at h
    cases h
  · rw [first] at h
    cases h
    obtain ⟨m', run, scanner, asked, -⟩ := hx _ first
    exact ⟨m', run_bind_of_error run, scanner, asked, fun _ h => nomatch h⟩
  · obtain ⟨m', run, scanner, asked, ahead⟩ := hx _ first
    rw [first] at h
    obtain rfl : m'.ahead = t' := ahead _ rfl
    rw [← scanner] at h ⊢
    obtain ⟨m'', run', scanner', asked', ahead'⟩ := hk a m' outcome h
    refine ⟨m'', (run_bind_of_ok run).trans run', scanner', ?_, ahead'⟩
    rw [asked', asked, Nat.add_assoc]

theorem bind_shift {d : Lookahead α} (hx : Enacts x m ((do Lookahead.shift; d) t))
    (hk : ∀ a m', Enacts (k a) m' (k' a m'.ahead)) :
    Enacts (x >>= k) m ((do Lookahead.shift; let a ← d; k' a) t) :=
  bind (d := do Lookahead.shift; d) hx hk

/-- Both look at the token ahead. A case split on it in `k` is one of `d` as well. -/
theorem ahead {k : Option Token → Work β} {k' : Option Token → Lookahead β}
    (h : ∀ t d, m.ahead = t → k' t = d → Enacts (k t) m (d t)) :
    Enacts (Work.ahead >>= k) m ((Lookahead.ahead >>= k') m.ahead) :=
  h m.ahead (k' m.ahead) rfl rfl

theorem take {k : Option Token → Work β} {k' : Option Token → Lookahead β}
    (h : ∀ t d, k' t = d → Enacts (k t) { m with ahead := none } (d t)) :
    Enacts (Work.take >>= k) m ((Lookahead.ahead >>= k') m.ahead) :=
  h m.ahead (k' m.ahead) rfl

theorem refuse_back {cause : GrammarCause} {t' : Option Token} :
    Enacts (do putBack t'; Work.refuse cause : Work α) m ((Lookahead.refuse cause : Lookahead α) t) :=
  refuse (m := { m with ahead := t' })

theorem enter {c : Routine} {caller : Option Caller} {k : Option Caller → Work β}
    {d : Dialogue (β × Option Token)} (h : ∀ self m', m'.ahead = m.ahead → Enacts (k self) m' d) :
    Enacts (Work.enter c caller >>= k) m d :=
  h _ { m with visits := ⟨⟨c, m.asked⟩, caller⟩ :: m.visits } rfl

theorem routine {c : Routine} {caller : Option Caller} {k : Option Caller → Work β}
    {k' : Lookahead β} (h : ∀ self m', Enacts (k self) m' (k' m'.ahead)) :
    Enacts (Work.enter c caller >>= k) m (k' m.ahead) :=
  enter fun self m' same => same ▸ h self m'

theorem next : Enacts Work.next m (Lookahead.shift t) := by
  intro outcome h
  rcases item : m.scanner.next with ⟨i, s⟩
  cases i with
  | token t' =>
    rw [Lookahead.shift, Dialogue.hold_of_token item] at h ⊢
    cases h
    refine ⟨_, (run_next m).trans (by rw [item]; rfl), rfl, rfl, fun _ h => by cases h; rfl⟩
  | finish =>
    rw [Lookahead.shift, Dialogue.hold_of_finish item] at h ⊢
    cases h
    refine ⟨_, (run_next m).trans (by rw [item]; rfl), rfl, rfl, fun _ h => by cases h; rfl⟩
  | fault f =>
    rw [Lookahead.shift, Dialogue.hold_of_fault item] at h ⊢
    cases h
    refine ⟨_, (run_next m).trans (by rw [item]; rfl), rfl, rfl, fun _ h => nomatch h⟩

theorem expect {s : Symbol} {cause : GrammarCause} :
    Enacts (Work.expect s cause) m (Lookahead.expect s cause m.ahead) := by
  refine ahead fun t d front eq => ?_
  subst eq
  split
  · exact next
  · exact refuse

theorem expect_ahead {s : Symbol} {cause : GrammarCause} (h : m.ahead = some (.symbol s)) :
    Enacts (Work.expect s cause) m (Lookahead.shift t) := by
  have run : (Work.expect s cause).run.run m = Work.next.run.run m := by rw [run_expect, if_pos h]
  rw [Enacts, run]
  exact next

theorem expect_other {s : Symbol} {cause : GrammarCause} {k : Unit → Work β}
    (h : m.ahead ≠ some (.symbol s)) :
    Enacts (Work.expect s cause >>= k) m ((Lookahead.refuse cause : Lookahead β) t) := by
  have run : (Work.expect s cause).run.run m =
      some (.error (.grammar m.scanner.position.line cause), m) := by
    rw [run_expect, if_neg h]
    rfl
  rintro _ ⟨⟩
  exact ⟨m, run_bind_of_error run, rfl, rfl, fun _ h => nomatch h⟩

end Enacts

/-! ## Routines -/

open Routine (perform)

/-- The statements of a block and the brace behind them. -/
def blockRest (self : Option Caller) : Work (List Statement) := do
  let body ← perform self (.statements true)
  expect .rbrace .missingBlockEnd
  return body

/-- Arguments and the parenthesis behind them. -/
def itemsRest (self : Option Caller) : Work (List Expr) := do
  let args ← perform self .items
  expect .rparen .missingArgumentsEnd
  return args

/-- The rest of a link behind its name. -/
def linkRest (self : Option Caller) (name : String) : Work Link :=
  if name = "Then" then do
    next
    let body ← perform self .statement
    expect .rparen .missingThenEnd
    return .andThen body
  else
    match Link.named name with
    | .ok make => return make (← perform self .arguments)
    | .error cause => refuse cause

/-- The routines enact dialogues of depth `n`. -/
structure Enacting (n : Nat) : Prop where
  statement : ∀ caller m, Enacts (perform caller .statement) m (Lookahead.statement n m.ahead)
  block : ∀ caller m, Enacts (blockRest caller) m (Lookahead.block n m.ahead)
  expr : ∀ caller m, Enacts (perform caller .expr) m (Lookahead.expr n m.ahead)
  operand : ∀ rank caller m, Enacts (perform caller (.operand rank)) m (Lookahead.binary n rank m.ahead)
  operators : ∀ rank left caller m, Enacts (perform caller (.operators rank left)) m
    (Lookahead.operators n rank left m.ahead)
  unary : ∀ caller m, Enacts (perform caller .unary) m (Lookahead.unary n m.ahead)
  call : ∀ caller m, Enacts (perform caller .call) m (Lookahead.call n m.ahead)
  primary : ∀ caller m, Enacts (perform caller .primary) m (Lookahead.primary n m.ahead)
  arguments : ∀ caller m, m.ahead = some (.symbol .lparen) →
    Enacts (perform caller .arguments) m ((do Lookahead.shift; Lookahead.arguments n) m.ahead)
  items : ∀ caller m, Enacts (itemsRest caller) m (Lookahead.moreArguments n m.ahead)
  links : ∀ caller m, Enacts (perform caller .links) m (Lookahead.links n m.ahead)
  link : ∀ name caller m, m.ahead = some (.symbol .lparen) →
    Enacts (linkRest caller name) m (Lookahead.link n name m.ahead)

section routines

variable {n : Nat} (rest : Enacting n) (caller : Option Caller) (m : Machine)

include rest

theorem statement_enacts :
    Enacts (perform caller .statement) m (Lookahead.statement (n + 1) m.ahead) := by
  rw [perform, Lookahead.statement]
  refine .routine fun self m => .ahead fun t d front eq => ?_
  split
  · subst eq
    have perform_block : perform self .block = do
        let self ← enter .block self
        expect .lbrace (.other "Missing '\x7b' of block")
        let body ← blockRest self
        return .block body := by
      rw [perform]
      simp only [blockRest, bind_assoc, pure_bind]
    rw [perform_block]
    refine .enter fun self m' same' => .bind (.expect_ahead (same'.trans front)) fun _ m₁ => ?_
    exact .bind (rest.block self m₁) fun body m₂ => .pure
  · subst eq
    rw [perform]
    refine .enter fun self m' same' => .bind (.expect_ahead (same'.trans front)) fun _ m₁ => ?_
    refine .bind .expect fun _ m₂ => .bind (rest.expr self m₂) fun condition m₃ => ?_
    refine .bind .expect fun _ m₄ => .bind (rest.statement self m₄) fun body m₅ => .pure
  · split at eq
    · contradiction
    · contradiction
    · subst front eq
      refine .bind (rest.expr self m) fun e m₁ => ?_
      exact .bind .expect fun _ m₂ => .pure

theorem block_enacts : Enacts (blockRest caller) m (Lookahead.block (n + 1) m.ahead) := by
  rw [blockRest, perform, Lookahead.block]
  simp only [bind_assoc]
  refine .routine fun self m => .ahead fun t d front eq => ?_
  rcases t with _ | t
  · subst eq
    exact .expect_other (by simp [front])
  · by_cases brace : t = .symbol .rbrace
    · subst brace eq
      exact .bind (.expect_ahead front) fun _ m₁ => .pure
    · dsimp only
      rw [if_neg fun h => brace h.2]
      simp only [bind_assoc, pure_bind]
      have d_eq : d = do
          let s ← Lookahead.statement n
          return s :: (← Lookahead.block n) := by
        rw [← eq]
        split
        · contradiction
        · rename_i same
          exact absurd (Option.some.inj same) brace
        · rfl
      rw [d_eq, ← front]
      refine .bind (rest.statement self m) fun s m₁ => ?_
      have more : (do
          let body ← perform self (.statements true)
          expect .rbrace .missingBlockEnd
          return s :: body) = do return s :: (← blockRest self) := by
        simp only [blockRest, bind_assoc, pure_bind]
      rw [more]
      exact .bind (rest.block self m₁) fun body m₂ => .pure

theorem expr_enacts : Enacts (perform caller .expr) m (Lookahead.expr (n + 1) m.ahead) := by
  rw [perform, Lookahead.expr]
  refine .routine fun self m => .bind (rest.operand (Fin.last topRank) self m) fun e m₁ => ?_
  refine .ahead fun t d front eq => ?_
  split
  · rename_i question
    subst question eq
    refine .bind .next fun _ m₂ => .bind (rest.expr self m₂) fun yes m₃ => ?_
    exact .bind .expect fun _ m₄ => .bind (rest.expr self m₄) fun no m₅ => .pure
  · split at eq
    · contradiction
    · subst front eq
      exact .pure

theorem operand_enacts : ∀ rank : Fin (topRank + 1),
    Enacts (perform caller (.operand rank)) m (Lookahead.binary (n + 1) rank m.ahead)
  | ⟨0, _⟩ => by
    rw [perform, Lookahead.binary]
    exact .routine fun self m => rest.unary self m
  | ⟨rank + 1, le⟩ => by
    rw [perform, Lookahead.binary]
    refine .routine fun self m => ?_
    refine .bind (rest.operand ⟨rank, Nat.lt_of_succ_lt le⟩ self m) fun left m₁ => ?_
    exact rest.operators ⟨rank, Nat.lt_of_succ_lt_succ le⟩ left self m₁

theorem operators_enacts (rank : Fin topRank) (left : Expr) :
    Enacts (perform caller (.operators rank left)) m
      (Lookahead.operators (n + 1) rank left m.ahead) := by
  rw [perform, Lookahead.operators]
  refine .routine fun self m => .ahead fun t d front eq => ?_
  split
  · dsimp only at eq
    split
    · rename_i b found
      rw [found] at eq
      subst eq
      refine .bind .next fun _ m₁ => .bind (rest.operand rank.castSucc self m₁) fun right m₂ => ?_
      exact rest.operators rank _ self m₂
    · rename_i found
      rw [found] at eq
      subst eq
      exact .pure_ahead front
  · rename_i other
    split at eq
    · rename_i op
      exact absurd rfl (other op)
    · subst front eq
      exact .pure

theorem unary_enacts : Enacts (perform caller .unary) m (Lookahead.unary (n + 1) m.ahead) := by
  rw [perform, Lookahead.unary]
  refine .routine fun self m => .ahead fun t d front eq => ?_
  split
  · subst eq
    exact .bind .next fun _ m₁ => rest.unary self m₁
  · subst eq
    exact .bind .next fun _ m₁ => .bind (rest.unary self m₁) fun e m₂ => .pure
  · subst eq
    exact .bind .next fun _ m₁ => .bind (rest.unary self m₁) fun e m₂ => .pure
  · split at eq
    · contradiction
    · contradiction
    · contradiction
    · subst front eq
      exact rest.call self m

theorem call_enacts : Enacts (perform caller .call) m (Lookahead.call (n + 1) m.ahead) := by
  rw [perform, Lookahead.call]
  refine .routine fun self m => .bind (rest.primary self m) fun callee m₁ => ?_
  refine .ahead fun t d paren eq => ?_
  split
  · rename_i opened
    subst opened
    dsimp only at eq
    split
    · rename_i name
      split
      · rename_i channel found
        simp only [found] at eq
        subst eq
        refine .bind_shift (rest.arguments self m₁ paren) fun args m₂ => ?_
        exact .bind (rest.links self m₂) fun links m₃ => .pure
      · rename_i found
        simp only [found] at eq
        split
        · rename_i active
          rw [if_pos active] at eq
          subst eq
          exact .bind_shift (rest.arguments self m₁ paren) fun args m₂ => .pure
        · rename_i active
          rw [if_neg active] at eq
          split
          · rename_i callback
            rw [if_pos callback] at eq
            subst eq
            exact .bind_shift (rest.arguments self m₁ paren) fun args m₂ => .pure
          · rename_i callback
            rw [if_neg callback] at eq
            subst eq
            exact .refuse
    · rename_i other
      split at eq
      · rename_i name
        exact absurd rfl (other name)
      · subst eq
        exact .refuse
  · split at eq
    · contradiction
    · subst paren eq
      exact .pure

theorem primary_enacts :
    Enacts (perform caller .primary) m (Lookahead.primary (n + 1) m.ahead) := by
  rw [perform, Lookahead.primary]
  refine .routine fun self m => .take fun t d eq => ?_
  rcases t with _ | name | v | op | s
  · subst eq
    exact .refuse
  · subst eq
    exact .bind .next fun _ m₁ => .pure
  · subst eq
    exact .bind .next fun _ m₁ => .pure
  · subst eq
    exact .refuse_back
  · cases s with
    | lparen =>
      subst eq
      refine .bind .next fun _ m₁ => .bind (rest.expr self m₁) fun e m₂ => ?_
      exact .bind .expect fun _ m₃ => .pure
    | _ =>
      subst eq
      exact .refuse_back

theorem arguments_enacts (paren : m.ahead = some (.symbol .lparen)) :
    Enacts (perform caller .arguments) m
      ((do Lookahead.shift; Lookahead.arguments (n + 1)) m.ahead) := by
  rw [perform, Lookahead.arguments]
  refine .enter fun self m' same => ?_
  refine .bind (.expect_ahead (same.trans paren)) fun _ m₁ => .ahead fun t d front eq => ?_
  split
  · rename_i closed
    subst closed eq
    exact .bind (.expect_ahead front) fun _ m₂ => .pure
  · split at eq
    · contradiction
    · subst front eq
      exact rest.items self m₁

theorem items_enacts : Enacts (itemsRest caller) m (Lookahead.moreArguments (n + 1) m.ahead) := by
  rw [itemsRest, perform, Lookahead.moreArguments]
  simp only [bind_assoc]
  refine .routine fun self m => .bind (rest.expr self m) fun e m₁ => .ahead fun t d front eq => ?_
  split
  · rename_i comma
    subst comma eq
    have more : (do
        let args ← perform self .items
        let args ← (return e :: args : Work (List Expr))
        expect .rparen .missingArgumentsEnd
        return args) = do return e :: (← itemsRest self) := by
      simp only [itemsRest, bind_assoc, pure_bind]
    simp only [bind_assoc]
    rw [more]
    exact .bind .next fun _ m₂ => .bind (rest.items self m₂) fun args m₃ => .pure
  · split at eq
    · contradiction
    · subst eq
      exact .bind (.expect_ahead front) fun _ m₂ => .pure
    · rename_i other
      subst front eq
      exact .expect_other other

theorem links_enacts : Enacts (perform caller .links) m (Lookahead.links (n + 1) m.ahead) := by
  rw [perform, Lookahead.links]
  refine .routine fun self m => .ahead fun t d front eq => ?_
  split
  · rename_i dot
    subst dot eq
    refine .bind .next fun _ m₁ => .take fun t d eq => ?_
    split
    · rename_i name
      subst eq
      refine .bind .next fun _ m₂ => .ahead fun t d paren eq => ?_
      split
      · rename_i opened
        subst opened eq
        have named := rest.link name self m₂ paren
        rw [paren] at named
        refine .bind named fun link m₃ => ?_
        exact .bind (rest.links self m₃) fun links m₄ => .pure
      · split at eq
        · contradiction
        · subst eq
          exact .refuse
    · rename_i other
      split at eq
      · rename_i name
        exact absurd rfl (other name)
      · subst eq
        exact .refuse_back
  · split at eq
    · contradiction
    · subst front eq
      exact .pure

theorem link_enacts (name : String) (paren : m.ahead = some (.symbol .lparen)) :
    Enacts (linkRest caller name) m (Lookahead.link (n + 1) name m.ahead) := by
  rw [linkRest, Lookahead.link]
  split
  · refine .bind .next fun _ m₁ => .bind (rest.statement caller m₁) fun body m₂ => ?_
    exact .bind .expect fun _ m₃ => .pure
  · rcases Link.named name with cause | make
    · exact .refuse
    · exact .bind_shift (rest.arguments caller m paren) fun args m₁ => .pure

end routines

/-- The routines enact dialogues of any depth. -/
theorem enacting (n : Nat) : Enacting n := by
  induction n with
  | zero => exact {
      statement := fun _ _ => .tired
      block := fun _ _ => .tired
      expr := fun _ _ => .tired
      operand := fun _ _ _ => .tired
      operators := fun _ _ _ _ => .tired
      unary := fun _ _ => .tired
      call := fun _ _ => .tired
      primary := fun _ _ => .tired
      items := fun _ _ => .tired
      links := fun _ _ => .tired
      link := fun _ _ _ _ => .tired
      arguments := by
        intro caller m paren
        rw [perform]
        -- the dialogue asks for a token before it breaks off
        refine .enter fun self m' same => ?_
        exact .bind (.expect_ahead (same.trans paren)) fun _ m₁ => .tired }
  | succ n rest => exact {
      statement := statement_enacts rest
      block := block_enacts rest
      expr := expr_enacts rest
      operand := fun rank caller m => operand_enacts rest caller m rank
      operators := fun rank left caller m => operators_enacts rest caller m rank left
      unary := unary_enacts rest
      call := call_enacts rest
      primary := primary_enacts rest
      arguments := arguments_enacts rest
      items := items_enacts rest
      links := links_enacts rest
      link := fun name caller m => link_enacts rest caller m name }

theorem statements_enacts : ∀ (n : Nat) (caller : Option Caller) (m : Machine),
    Enacts (perform caller (.statements false)) m (Lookahead.statements n m.ahead)
  | 0, _, _ => .tired
  | n + 1, caller, m => by
    rw [perform, Lookahead.statements]
    refine .routine fun self m => .ahead fun t d front eq => ?_
    rcases t with _ | t
    · subst eq
      exact .pure_ahead front
    · subst eq
      dsimp only
      rw [if_neg fun h => Bool.noConfusion h.1, ← front]
      refine .bind ((enacting n).statement self m) fun s m₁ => ?_
      exact .bind (statements_enacts n self m₁) fun body m₂ => .pure

/-! ## Whole texts -/

theorem hold_start (d : Lookahead α) (s : Scanner) : d.start.hold s =
    let held := ((do Lookahead.shift; d : Lookahead α) none).hold s
    ⟨held.outcome.map (·.map (·.1)), held.asked, held.scanner⟩ := by
  have start : d.start =
      ((do Lookahead.shift; d : Lookahead α) none).bind fun p => .value p.1 := rfl
  rw [start, Dialogue.hold_bind]
  rcases ((do Lookahead.shift; d : Lookahead α) none).hold s with ⟨_ | f | p, asked, scanner⟩ <;> rfl

/-- Reading a whole text enacts the dialogue about it, in whatever state the parser is. -/
theorem parse_enacts (mode : ParseMode) (m : Machine) (n : Nat) {outcome : Except Fault mode.Tree}
    (h : ((mode.dialogue n).hold m.scanner.rewind).outcome = some outcome) :
    ∃ m', (parse mode).run.run m = some (outcome, m') ∧
      m'.scanner = ((mode.dialogue n).hold m.scanner.rewind).scanner ∧
      m'.asked = m.asked + ((mode.dialogue n).hold m.scanner.rewind).asked := by
  let front : Machine := { m with scanner := m.scanner.rewind }
  have begun {α : Type} {x : Work α} {d : Lookahead α} {outcome : Except Fault α}
      (rest : ∀ m, Enacts x m (d m.ahead)) (h : (d.start.hold m.scanner.rewind).outcome = some outcome) :
      ∃ m', (do next; x : Work α).run.run front = some (outcome, m') ∧
        m'.scanner = (d.start.hold m.scanner.rewind).scanner ∧
        m'.asked = m.asked + (d.start.hold m.scanner.rewind).asked := by
    have whole : Enacts (do next; x) front ((do Lookahead.shift; d) none) :=
      .bind .next fun _ m => rest m
    rw [hold_start] at h ⊢
    obtain ⟨outcome, held, rfl⟩ := Option.map_eq_some_iff.mp h
    obtain ⟨m', run, scanner, asked, -⟩ := whole outcome held
    exact ⟨m', run, scanner, asked⟩
  cases mode with
  | program =>
    exact begun (fun m => .bind (statements_enacts n none m) fun body m' => .pure) h
  | expression =>
    refine begun (fun m => .bind ((enacting n).expr none m) fun e m' => ?_) h
    refine .ahead fun t d front eq => ?_
    subst eq
    rcases t with _ | t
    · exact .pure_ahead front
    · exact .refuse

end Work

end TweenScript
