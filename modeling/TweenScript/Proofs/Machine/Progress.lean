import TweenScript.Proofs.Dialogue.Endings
import TweenScript.Proofs.Machine

/-!
# Progress of parsers

Between two visits with as many items asked for, no token is taken, and then the routines get smaller
(`Routine.weight`). So the number of tokens left and the weight bound the depth of calls together, and every
routine returns.
-/

namespace TweenScript

/-! ## The order of visits -/

namespace Routine

/-- What a routine weighs. Of routines called with the same token ahead, later ones weigh less: first those
that go on behind an operand, then those that begin something, down to a primary expression. -/
def weight : Routine → Nat
  | primary => 0
  | call => 1
  | unary => 2
  | operand rank => 3 + rank
  | expr => 10
  | block | condition | items => 11
  | statement => 12
  | statements _ => 13
  | arguments => 14
  | operators rank _ => 20 - rank
  | links => 21

/-- More than any routine weighs. -/
def topWeight : Nat := 22

theorem weight_lt_topWeight (c : Routine) : c.weight < topWeight := by
  cases c with
  | operand rank =>
    have le : rank.val ≤ 6 := Nat.le_of_lt_succ rank.isLt
    simp only [weight, topWeight]
    omega
  | _ =>
    simp only [weight, topWeight]
    omega

/-- The calls without a token taken: of what may stand at the front of the caller. -/
inductive Descends : Routine → Routine → Prop where
  | statement (inBlock : Bool) : Descends (statements inBlock) statement
  | block : Descends statement block
  | condition : Descends statement condition
  | exprStatement : Descends statement expr
  | item : Descends items expr
  | operand : Descends expr (operand (Fin.last topRank))
  | tighter (rank : Nat) (h : rank + 1 < topRank + 1) :
    Descends (operand ⟨rank + 1, h⟩) (operand ⟨rank, Nat.lt_of_succ_lt h⟩)
  | unary (h : 0 < topRank + 1) : Descends (operand ⟨0, h⟩) unary
  | call : Descends unary call
  | primary : Descends call primary

theorem Descends.weight_lt {c c' : Routine} (h : Descends c c') : c'.weight < c.weight := by
  cases h <;> simp only [weight, Fin.val_last, topRank] <;> omega

/-- How many tokens the routine takes at least, if it ends well. -/
def gain : Routine → Nat
  | statements _ | operators _ _ | links => 0
  | _ => 1

theorem Descends.gain_eq {c c' : Routine} (h : Descends c c') : c'.gain = 1 := by
  cases h <;> rfl

/-- What the visits weigh at least that a routine ends well with, if no token was taken behind them. -/
def floor : Routine → Nat
  | statement | block | condition | arguments | primary => topWeight
  | call | unary | links => 21
  | operand rank => 21 - rank
  | operators rank _ => 20 - rank
  | expr | items => 15
  | statements _ => 13

end Routine

/-- The visit `v` comes behind `u`: more tokens were taken, or a smaller routine was called. -/
def Visit.Behind (v u : Visit) : Prop :=
  u.asked < v.asked ∨ u.asked = v.asked ∧ v.routine.weight < u.routine.weight

/-- The call takes place with a token taken by the caller, or without one if it may. -/
def Caller.Calls (caller : Caller) (c : Routine) (asked : Nat) : Prop :=
  caller.asked < asked ∨ caller.asked = asked ∧ caller.routine.Descends c

/-- The visits are in order, the latest first, and each is a call as calls may be. -/
structure Orderly (visits : List Visit) : Prop where
  behind : visits.Pairwise Visit.Behind
  called : ∀ v ∈ visits, ∀ caller ∈ v.caller, caller.Calls v.routine v.asked

/-- How many tokens there are, the one ahead included. -/
def Machine.left (m : Machine) : Nat :=
  match m.ahead with
  | none => 0
  | some _ => m.scanner.tokens.list.length + 1

/-- How a parser stands that may ask for `total` items altogether and has asked for `least` of them. The
visits since the last token was taken weigh `w` or more. -/
structure Machine.Stands (total least w : Nat) (m : Machine) : Prop where
  total_eq : m.asked + m.left = total
  orderly : Orderly m.visits
  past : ∀ v ∈ m.visits, v.asked < m.asked ∨ v.asked = m.asked ∧ w ≤ v.routine.weight
  least_le : least ≤ m.asked

/-! ## Standing -/

namespace Machine.Stands

variable {total least w : Nat} {m : Machine}

theorem asked_le (h : m.Stands total least w) : m.asked ≤ total :=
  h.total_eq ▸ Nat.le_add_right _ _

theorem here (h : m.Stands total least w) : m.Stands total m.asked w :=
  { h with least_le := Nat.le_refl _ }

theorem mono {least' w' : Nat} (h : m.Stands total least w) (fewer : least' ≤ least) (lighter : w' ≤ w) :
    m.Stands total least' w' where
  total_eq := h.total_eq
  orderly := h.orderly
  past v mem := (h.past v mem).imp_right fun ⟨asked, heavy⟩ => ⟨asked, Nat.le_trans lighter heavy⟩
  least_le := Nat.le_trans fewer h.least_le

theorem less (h : m.Stands total (least + 1) w) : m.Stands total least w :=
  h.mono (Nat.le_succ _) (Nat.le_refl _)

theorem enter {c : Routine} {caller : Option Caller} (h : m.Stands total least w) (light : c.weight < w)
    (called : ∀ self ∈ caller, self.Calls c m.asked) :
    Machine.Stands total least c.weight
      { m with visits := ⟨⟨c, m.asked⟩, caller⟩ :: m.visits } where
  total_eq := h.total_eq
  orderly := by
    constructor
    · refine List.pairwise_cons.mpr ⟨fun v mem => ?_, h.orderly.behind⟩
      rcases h.past v mem with before | ⟨asked, heavy⟩
      · exact .inl before
      · exact .inr ⟨asked, Nat.lt_of_lt_of_le light heavy⟩
    · exact List.forall_mem_cons.mpr ⟨called, h.orderly.called⟩
  past := by
    refine List.forall_mem_cons.mpr ⟨.inr ⟨rfl, Nat.le_refl _⟩, fun v mem => ?_⟩
    rcases h.past v mem with before | ⟨asked, heavy⟩
    · exact .inl before
    · exact .inr ⟨asked, Nat.le_of_lt (Nat.lt_of_lt_of_le light heavy)⟩
  least_le := h.least_le

theorem advance {m' : Machine} (h : m.Stands total least w) (asked : m'.asked = m.asked + 1)
    (left : m'.left + 1 = m.left) (visits : m'.visits = m.visits) :
    m'.Stands total (least + 1) Routine.topWeight where
  total_eq := by
    have total := h.total_eq
    omega
  orderly := visits ▸ h.orderly
  past v mem := by
    rw [visits] at mem
    have asked_le : v.asked ≤ m.asked := (h.past v mem).elim Nat.le_of_lt (·.1.le)
    exact .inl (by omega)
  least_le := by
    have least := h.least_le
    omega

end Machine.Stands

namespace Work

/-- `x` returns. Ending well it comes to `Q`, and otherwise it has not asked for more than `total` items. -/
def Yields {α : Type} (total : Nat) (x : Work α) (m : Machine) (Q : Machine → Prop) : Prop :=
  ∃ outcome m', x.run.run m = some (outcome, m') ∧ match outcome with
    | .ok _ => Q m'
    | .error _ => m'.asked ≤ total ∧ Orderly m'.visits

namespace Yields

variable {α β : Type} {total least w : Nat} {m : Machine} {x : Work α} {k : α → Work β}
  {Q R : Machine → Prop}

theorem pure {a : α} (h : Q m) : Yields total (Pure.pure a : Work α) m Q :=
  ⟨.ok a, m, rfl, h⟩

theorem bind (hx : Yields total x m R) (hk : ∀ a m', R m' → Yields total (k a) m' Q) :
    Yields total (x >>= k) m Q := by
  obtain ⟨outcome, m', run, h⟩ := hx
  cases outcome with
  | ok a =>
    obtain ⟨outcome, m'', run', h'⟩ := hk a m' h
    exact ⟨outcome, m'', (run_bind_of_ok run).trans run', h'⟩
  | error f => exact ⟨.error f, m', run_bind_of_error run, h⟩

theorem imp (hx : Yields total x m R) (h : ∀ m', R m' → Q m') : Yields total x m Q := by
  obtain ⟨outcome, m', run, hr⟩ := hx
  refine ⟨outcome, m', run, ?_⟩
  cases outcome with
  | ok a => exact h m' hr
  | error f => exact hr

theorem ahead {k : Option Token → Work α} (h : Yields total (k m.ahead) m Q) :
    Yields total (Work.ahead >>= k) m Q :=
  h

theorem take {k : Option Token → Work α} (h : Yields total (k m.ahead) { m with ahead := none } Q) :
    Yields total (Work.take >>= k) m Q :=
  h

theorem refuse_held {cause : GrammarCause} (h : m.Stands total least w) (ahead : Option Token) :
    Yields total (Work.refuse cause : Work α) { m with ahead } Q :=
  ⟨_, { m with ahead }, rfl, h.asked_le, h.orderly⟩

theorem refuse {cause : GrammarCause} (h : m.Stands total least w) :
    Yields total (Work.refuse cause : Work α) m Q :=
  refuse_held h m.ahead

theorem refuse_back {cause : GrammarCause} (h : m.Stands total least w) (t ahead : Option Token) :
    Yields total (do putBack t; Work.refuse cause : Work α) { m with ahead } Q :=
  refuse_held h t

theorem next_held {t : Token} (h : m.Stands total least w) (held : m.ahead = some t)
    (ahead : Option Token) :
    Yields total Work.next { m with ahead } (Machine.Stands total (least + 1) Routine.topWeight) := by
  have left : m.left = m.scanner.tokens.list.length + 1 := by rw [Machine.left, held]
  rw [Yields, run_next]
  rcases item : m.scanner.next with ⟨i, scanner⟩
  cases i with
  | token t' =>
    rw [Scanner.tokens_of_token item] at left
    exact ⟨_, _, rfl, h.advance rfl left.symm rfl⟩
  | finish =>
    rw [Scanner.tokens_of_finish item] at left
    exact ⟨_, _, rfl, h.advance rfl left.symm rfl⟩
  | fault f =>
    refine ⟨_, _, rfl, ?_, h.orderly⟩
    have total := h.total_eq
    show m.asked + 1 ≤ _
    omega

theorem next {t : Token} (h : m.Stands total least w) (ahead : m.ahead = some t) :
    Yields total Work.next m (Machine.Stands total (least + 1) Routine.topWeight) :=
  next_held h ahead m.ahead

theorem expect {s : Symbol} {cause : GrammarCause} (h : m.Stands total least w) :
    Yields total (Work.expect s cause) m (Machine.Stands total (least + 1) Routine.topWeight) := by
  rw [Yields, run_expect]
  split
  · rename_i ahead
    exact next h ahead
  · exact refuse h

end Yields

end Work

/-! ## Routines -/

/-- The routine, performed where less than `n` visits are to come, returns and has taken its tokens. -/
def Routine.Advances (total n : Nat) (c : Routine) : Prop :=
  ∀ (caller : Option Caller) (m : Machine) (w : Nat), 32 * (total - m.asked) + c.weight < n →
    m.Stands total m.asked w → c.weight < w → (∀ self ∈ caller, self.Calls c m.asked) →
    Work.Yields total (c.perform caller) m
      (Machine.Stands total (m.asked + c.gain) c.floor)

/-- Inside of a routine that was called with `caller.asked` items asked for, where the routines that are
called from here on return. -/
structure Inside (total n : Nat) (caller : Caller) : Prop where
  /-- How many visits may come. -/
  room : 32 * (total - caller.asked) + caller.routine.weight < n + 1
  advances : ∀ c : Routine, c.Advances total n

namespace Inside

open Work

variable {total n w : Nat} {caller : Caller} {c : Routine} {m : Machine}

theorem descend (inside : Inside total n caller) (h : m.Stands total caller.asked caller.routine.weight)
    (asked : m.asked = caller.asked) (front : caller.routine.Descends c) :
    Yields total (c.perform (some caller)) m (Machine.Stands total (caller.asked + 1) c.floor) := by
  have lighter := front.weight_lt
  have room := inside.room
  have called (self : Caller) (mem : self ∈ some caller) : self.Calls c m.asked := by
    cases mem
    exact .inr ⟨asked.symm, front⟩
  have yields := inside.advances c (some caller) m _ (by omega) h.here lighter called
  rwa [front.gain_eq, asked] at yields

theorem call (inside : Inside total n caller) (h : m.Stands total (caller.asked + 1) w)
    (lighter : c.weight < w) :
    Yields total (c.perform (some caller)) m (Machine.Stands total (caller.asked + 1) c.floor) := by
  have room := inside.room
  have least := h.least_le
  have most := h.asked_le
  have small : c.weight < 22 := c.weight_lt_topWeight
  have called (self : Caller) (mem : self ∈ some caller) : self.Calls c m.asked := by
    cases mem
    exact .inl least
  refine (inside.advances c (some caller) m w (by omega) h.here lighter called).imp fun m' h' => ?_
  exact h'.mono (Nat.le_trans least (Nat.le_add_right _ _)) (Nat.le_refl _)

end Inside

/-- It is enough to look at what a routine does behind the note of its visit. -/
theorem Routine.advances_of_body {total n : Nat} {c : Routine} {body : Option Caller → Work c.Result}
    (rest : ∀ c : Routine, c.Advances total n)
    (perform_eq : ∀ caller, c.perform caller = Work.enter c caller >>= body)
    (yields : ∀ (m : Machine) (asked : Nat), m.asked = asked → m.Stands total asked c.weight →
      Inside total n ⟨c, asked⟩ → Work.Yields total (body (some ⟨c, asked⟩)) m
        (Machine.Stands total (asked + c.gain) c.floor)) :
    c.Advances total (n + 1) := by
  intro caller m w room h lighter called
  rw [perform_eq]
  exact yields _ m.asked rfl (h.enter lighter called) ⟨room, rest⟩

section routines

open Work Routine

variable {total n : Nat} (rest : ∀ c : Routine, c.Advances total n)

include rest

theorem statement_advances : statement.Advances total (n + 1) := by
  refine advances_of_body rest (fun _ => by rw [perform]) fun m asked same h inside => ?_
  refine .ahead ?_
  split
  · exact inside.descend h same .block
  · exact inside.descend h same .condition
  · refine .bind (inside.descend h same .exprStatement) fun e m' h' => ?_
    exact .bind (.expect h') fun _ m'' h'' => .pure h''.less

theorem block_advances : block.Advances total (n + 1) := by
  refine advances_of_body rest (fun _ => by rw [perform]) fun m asked same h inside => ?_
  refine .bind (.expect h) fun _ m₁ h₁ => ?_
  refine .bind (inside.call h₁ (weight_lt_topWeight _)) fun body m₂ h₂ => ?_
  exact .bind (.expect h₂) fun _ m₃ h₃ => .pure h₃.less

theorem condition_advances : condition.Advances total (n + 1) := by
  refine advances_of_body rest (fun _ => by rw [perform]) fun m asked same h inside => ?_
  refine .bind (.expect h) fun _ m₁ h₁ => ?_
  refine .bind (.expect h₁) fun _ m₂ h₂ => ?_
  have h₂ := h₂.less
  refine .bind (inside.call h₂ (weight_lt_topWeight _)) fun e m₃ h₃ => ?_
  refine .bind (.expect h₃) fun _ m₄ h₄ => ?_
  have h₄ := h₄.less
  exact .bind (inside.call h₄ (weight_lt_topWeight _)) fun body m₅ h₅ => .pure h₅

theorem statements_advances (inBlock : Bool) : (statements inBlock).Advances total (n + 1) := by
  refine advances_of_body rest (fun _ => by rw [perform]) fun m asked same h inside => ?_
  refine .ahead ?_
  split
  · exact .pure h
  · split
    · exact .pure h
    · refine .bind (inside.descend h same (.statement inBlock)) fun s m₁ h₁ => ?_
      refine .bind (inside.call h₁ (weight_lt_topWeight _)) fun body m₂ h₂ => ?_
      exact .pure h₂.less

theorem expr_advances : expr.Advances total (n + 1) := by
  refine advances_of_body rest (fun _ => by rw [perform]) fun m asked same h inside => ?_
  refine .bind (inside.descend h same .operand) fun e m₁ h₁ => .ahead ?_
  split
  · rename_i ahead
    refine .bind (.next h₁ ahead) fun _ m₂ h₂ => ?_
    have h₂ := h₂.less
    refine .bind (inside.call h₂ (weight_lt_topWeight _)) fun yes m₃ h₃ => ?_
    refine .bind (.expect h₃) fun _ m₄ h₄ => ?_
    have h₄ := h₄.less
    exact .bind (inside.call h₄ (weight_lt_topWeight _)) fun no m₅ h₅ => .pure h₅
  · exact .pure h₁

theorem operand_advances : ∀ rank, (operand rank).Advances total (n + 1)
  | ⟨0, pos⟩ => by
    refine advances_of_body rest (fun _ => by rw [perform]) fun m asked same h inside => ?_
    exact inside.descend h same (.unary pos)
  | ⟨rank + 1, le⟩ => by
    refine advances_of_body rest (fun _ => by rw [perform]) fun m asked same h inside => ?_
    refine .bind (inside.descend h same (.tighter rank le)) fun left m₁ h₁ => ?_
    have small : rank < 6 := Nat.lt_of_succ_lt_succ le
    refine (inside.call h₁ (by simp only [floor, weight]; omega)).imp fun m₂ h₂ => ?_
    exact h₂.mono (Nat.le_refl _) (by simp only [floor]; omega)

theorem operators_advances (rank : Fin topRank) (left : Expr) :
    (operators rank left).Advances total (n + 1) := by
  refine advances_of_body rest (fun _ => by rw [perform]) fun m asked same h inside => ?_
  have small : rank.val < 6 := rank.isLt
  refine .ahead ?_
  split
  · rename_i op ahead
    split
    · refine .bind (.next h ahead) fun _ m₁ h₁ => ?_
      refine .bind (inside.call h₁ (weight_lt_topWeight _)) fun right m₂ h₂ => ?_
      refine (inside.call h₂ (by simp [floor, weight]; omega)).imp fun m₃ h₃ => ?_
      exact h₃.less
    · exact .pure h
  · exact .pure h

theorem unary_advances : unary.Advances total (n + 1) := by
  refine advances_of_body rest (fun _ => by rw [perform]) fun m asked same h inside => ?_
  refine .ahead ?_
  split
  · rename_i ahead
    exact .bind (.next h ahead) fun _ m₁ h₁ => inside.call h₁ (weight_lt_topWeight _)
  · rename_i ahead
    refine .bind (.next h ahead) fun _ m₁ h₁ => ?_
    exact .bind (inside.call h₁ (weight_lt_topWeight _)) fun e m₂ h₂ => .pure h₂
  · rename_i ahead
    refine .bind (.next h ahead) fun _ m₁ h₁ => ?_
    exact .bind (inside.call h₁ (weight_lt_topWeight _)) fun e m₂ h₂ => .pure h₂
  · exact inside.descend h same .call

theorem call_advances : call.Advances total (n + 1) := by
  refine advances_of_body rest (fun _ => by rw [perform]) fun m asked same h inside => ?_
  refine .bind (inside.descend h same .primary) fun callee m₁ h₁ => .ahead ?_
  have args : Routine.arguments.weight < primary.floor := by decide
  have done {m' : Machine} (h : m'.Stands total (asked + 1) topWeight) :
      m'.Stands total (asked + 1) 21 := h.mono (Nat.le_refl _) (Nat.le_succ _)
  split
  · split
    · split
      · refine .bind (inside.call h₁ args) fun args m₂ h₂ => ?_
        exact .bind (inside.call h₂ (weight_lt_topWeight _)) fun links m₃ h₃ => .pure h₃
      · split
        · exact .bind (inside.call h₁ args) fun args m₂ h₂ => .pure (done h₂)
        · split
          · exact .bind (inside.call h₁ args) fun args m₂ h₂ => .pure (done h₂)
          · exact .refuse h₁
    · exact .refuse h₁
  · exact .pure (done h₁)

theorem primary_advances : primary.Advances total (n + 1) := by
  refine advances_of_body rest (fun _ => by rw [perform]) fun m asked same h inside => ?_
  refine .take ?_
  split
  · rename_i ahead
    exact .bind (.next_held h ahead none) fun _ m₁ h₁ => .pure h₁
  · rename_i ahead
    exact .bind (.next_held h ahead none) fun _ m₁ h₁ => .pure h₁
  · rename_i ahead
    refine .bind (.next_held h ahead none) fun _ m₁ h₁ => ?_
    refine .bind (inside.call h₁ (weight_lt_topWeight _)) fun e m₂ h₂ => ?_
    exact .bind (.expect h₂) fun _ m₃ h₃ => .pure h₃.less
  · exact .refuse_back h _ none
  · exact .refuse_back h _ none
  · exact .refuse_held h none

theorem arguments_advances : arguments.Advances total (n + 1) := by
  refine advances_of_body rest (fun _ => by rw [perform]) fun m asked same h inside => ?_
  refine .bind (.expect h) fun _ m₁ h₁ => .ahead ?_
  have close {args : List Expr} {w : Nat} (m' : Machine) (h' : m'.Stands total (asked + 1) w) :
      Yields total (do Work.expect .rparen .missingArgumentsEnd; return args) m'
        (Machine.Stands total (asked + 1) topWeight) :=
    .bind (.expect h') fun _ m'' h'' => .pure h''.less
  split
  · exact .bind (.pure h₁) fun _ m₂ h₂ => close m₂ h₂
  · exact .bind (inside.call h₁ (weight_lt_topWeight _)) fun _ m₂ h₂ => close m₂ h₂

theorem items_advances : items.Advances total (n + 1) := by
  refine advances_of_body rest (fun _ => by rw [perform]) fun m asked same h inside => ?_
  refine .bind (inside.descend h same .item) fun e m₁ h₁ => .ahead ?_
  split
  · rename_i ahead
    refine .bind (.next h₁ ahead) fun _ m₂ h₂ => ?_
    have h₂ := h₂.less
    exact .bind (inside.call h₂ (weight_lt_topWeight _)) fun args m₃ h₃ => .pure h₃
  · exact .pure h₁

theorem links_advances : links.Advances total (n + 1) := by
  refine advances_of_body rest (fun _ => by rw [perform]) fun m asked same h inside => ?_
  refine .ahead ?_
  split
  · rename_i ahead
    refine .bind (.next h ahead) fun _ m₁ h₁ => .take ?_
    split
    · rename_i name ahead
      refine .bind (.next_held h₁ ahead none) fun _ m₂ h₂ => .ahead ?_
      have h₂ := h₂.less
      split
      · rename_i ahead
        refine .bind (R := Machine.Stands total (asked + 1) topWeight) ?_ fun link m₃ h₃ => ?_
        · split
          · refine .bind (.next h₂ ahead) fun _ m₃ h₃ => ?_
            have h₃ := h₃.less
            refine .bind (inside.call h₃ (weight_lt_topWeight _)) fun body m₄ h₄ => ?_
            exact .bind (.expect h₄) fun _ m₅ h₅ => .pure h₅.less
          · split
            · exact .bind (inside.call h₂ (weight_lt_topWeight _)) fun args m₃ h₃ => .pure h₃
            · exact .refuse h₂
        · refine .bind (inside.call h₃ (weight_lt_topWeight _)) fun links m₄ h₄ => ?_
          exact .pure h₄.less
      · exact .refuse h₂
    · exact .refuse_back h₁ _ none
  · exact .pure h

end routines

/-- Every routine returns, having taken its tokens. -/
theorem Routine.advances (total n : Nat) (c : Routine) : c.Advances total n := by
  -- the induction is on the number of visits that may come, which tokens left and weight bound together
  induction n generalizing c with
  | zero => exact fun _ _ _ room => absurd room (Nat.not_lt_zero _)
  | succ n rest =>
    cases c with
    | statement => exact statement_advances rest
    | block => exact block_advances rest
    | condition => exact condition_advances rest
    | statements inBlock => exact statements_advances rest inBlock
    | expr => exact expr_advances rest
    | operand rank => exact operand_advances rest rank
    | operators rank left => exact operators_advances rest rank left
    | unary => exact unary_advances rest
    | call => exact call_advances rest
    | primary => exact primary_advances rest
    | arguments => exact arguments_advances rest
    | items => exact items_advances rest
    | links => exact links_advances rest

/-! ## Whole texts -/

/-- How many items a parser may have asked for when it has read its text from the front. -/
def Machine.limit (m : Machine) : Nat :=
  m.asked + (m.scanner.rewind.tokens.list.length + 1)

namespace Work

variable {total : Nat} {m : Machine}

theorem perform_yields (c : Routine) (h : m.Stands total m.asked Routine.topWeight) :
    Yields total (c.perform none) m (Machine.Stands total (m.asked + c.gain) c.floor) :=
  c.advances total _ none m _ (Nat.lt_succ_self _) h c.weight_lt_topWeight fun _ mem => nomatch mem

theorem orderly_nil : Orderly [] :=
  ⟨.nil, fun _ mem => nomatch mem⟩

theorem stands_of_restart {m' : Machine} (visits : m'.visits = []) (asked : m'.asked = m.asked + 1)
    (left : m'.left = m.scanner.rewind.tokens.list.length) :
    m'.Stands m.limit (m.asked + 1) Routine.topWeight where
  total_eq := by
    rw [asked, left, Machine.limit]
    omega
  orderly := visits ▸ orderly_nil
  past v mem := by
    rw [visits] at mem
    cases mem
  least_le := asked.ge

theorem restart_yields (visits : m.visits = []) : Yields m.limit restart m
    (Machine.Stands m.limit (m.asked + 1) Routine.topWeight) := by
  have run : restart.run.run m = next.run.run { m with scanner := m.scanner.rewind } := rfl
  rw [Yields, run, run_next]
  rcases item : m.scanner.rewind.next with ⟨i, scanner⟩
  cases i with
  | token t =>
    refine ⟨_, _, rfl, stands_of_restart visits rfl ?_⟩
    rw [Scanner.tokens_of_token item]
    rfl
  | finish =>
    refine ⟨_, _, rfl, stands_of_restart visits rfl ?_⟩
    rw [Scanner.tokens_of_finish item]
    rfl
  | fault f =>
    exact ⟨_, _, rfl, Nat.add_le_add_left (Nat.le_add_left _ _) _, visits ▸ orderly_nil⟩

/-- Reading a text takes no more items than there are tokens, and one. -/
theorem parse_yields (mode : ParseMode) (visits : m.visits = []) : Yields m.limit (parse mode) m
    fun m' => m'.asked ≤ m.limit ∧ Orderly m'.visits := by
  cases mode with
  | program =>
    refine .bind (restart_yields visits) fun _ m₁ h₁ => ?_
    exact .bind (perform_yields _ h₁.here) fun body m₂ h₂ => .pure ⟨h₂.asked_le, h₂.orderly⟩
  | expression =>
    refine .bind (restart_yields visits) fun _ m₁ h₁ => ?_
    refine .bind (perform_yields _ h₁.here) fun e m₂ h₂ => .ahead ?_
    split
    · exact .pure ⟨h₂.asked_le, h₂.orderly⟩
    · exact .refuse h₂

end Work

end TweenScript
