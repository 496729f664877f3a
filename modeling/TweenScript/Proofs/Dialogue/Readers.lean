import Mathlib.Tactic.SplitIfs
import TweenScript.Proofs.Dialogue

/-!
# Dialogues and readers

A dialogue that is answered with the tokens of a list comes to what the reader of the same category comes
to, and has asked for no token behind the one that follows what the reader has taken.
-/

namespace TweenScript

variable {α β : Type} {b c : Nat} {ts : List Token}

namespace Dialogue

/-- What a dialogue comes to, and how many questions it has asked, if the answers are the tokens `ts`
and then the end. -/
def feed : Dialogue α → List Token → Option (Except GrammarCause α) × Nat
  | value a, _ => (some (.ok a), 0)
  | refuse cause, _ => (some (.error cause), 0)
  | tired, _ => (none, 0)
  | ask reply, ts =>
    let rest := (reply ts.head?).feed ts.tail
    (rest.1, rest.2 + 1)

theorem feed_bind_ok {d : Dialogue α} {k : α → Dialogue β} {a : α} {n : Nat}
    (h : d.feed ts = (some (.ok a), n)) :
    (d.bind k).feed ts = (((k a).feed (ts.drop n)).1, n + ((k a).feed (ts.drop n)).2) := by
  induction d generalizing ts n with
  | value a' =>
    cases h
    simp [bind]
  | refuse cause => cases h
  | tired => cases h
  | ask reply ih =>
    obtain ⟨hx, rfl⟩ := Prod.mk.inj h
    have rest := ih ts.head? (Prod.ext hx rfl)
    simp only [bind, feed, rest, List.drop_tail, Prod.mk.injEq, true_and]
    exact Nat.add_right_comm ..

theorem feed_bind_error {d : Dialogue α} {k : α → Dialogue β} {cause : GrammarCause} {n : Nat}
    (h : d.feed ts = (some (.error cause), n)) :
    (d.bind k).feed ts = (some (.error cause), n) := by
  induction d generalizing ts n with
  | value a => cases h
  | refuse cause' =>
    cases h
    rfl
  | tired => cases h
  | ask reply ih =>
    obtain ⟨hx, rfl⟩ := Prod.mk.inj h
    have rest := ih ts.head? (Prod.ext hx rfl)
    simp only [bind, feed, rest]

end Dialogue

/-- The reading of `ts` and the dialogue come to the same; the dialogue has asked for as many tokens as the
reading has taken. -/
inductive Comes (ts : List Token) :
    Reading α b → Option (Except GrammarCause (α × Option Token)) × Nat → Prop where
  | ok {used left : List Token} {a : α} {h : left.length < b} (split : ts = used ++ left) :
    Comes ts (.ok ⟨a, left, h⟩) (some (.ok (a, left.head?)), used.length)
  | error {used left : List Token} {cause : GrammarCause} (split : ts = used ++ left) :
    Comes ts (.error ⟨cause, left⟩) (some (.error cause), used.length)

/-- With the first token of `ts` ahead and the others as answers, the dialogue follows the reading. -/
def Follows (m : Lookahead α) (ts : List Token) (x : Reading α b) : Prop :=
  Comes ts x ((m ts.head?).feed ts.tail)

namespace Follows

open Lookahead

theorem pure {a : α} {h : ts.length < b} :
    Follows (Pure.pure a) ts (Pure.pure ⟨a, ts, h⟩ : Reading α b) :=
  Comes.ok (List.nil_append ts).symm

theorem refuse {cause : GrammarCause} :
    Follows (Lookahead.refuse cause) ts (.error ⟨cause, ts⟩ : Reading α b) :=
  Comes.error (List.nil_append ts).symm

theorem bind {m : Lookahead α} {k : α → Lookahead β} {x : Reading α b}
    {k' : Parsed Token α b → Reading β c} (hm : Follows m ts x)
    (hk : ∀ a left h, Follows (k a) left (k' ⟨a, left, h⟩)) : Follows (m >>= k) ts (x >>= k') := by
  have eq : ((m >>= k) ts.head?) = (m ts.head?).bind fun p => k p.1 p.2 := rfl
  unfold Follows at *
  rw [eq]
  generalize hr : (m ts.head?).feed ts.tail = r at hm
  cases hm with
  | @ok used left a h split =>
    have next := hk a left h
    rw [Dialogue.feed_bind_ok hr, List.drop_tail]
    have tail : ts.drop (used.length + 1) = left.tail := by
      rw [← List.tail_drop, split, List.drop_left]
    rw [tail]
    generalize (k a left.head?).feed left.tail = r at next
    show Comes ts (k' ⟨a, left, h⟩) _
    generalize k' ⟨a, left, h⟩ = y at next
    cases next with
    | @ok more rest a' h' split' =>
      have whole : ts = (used ++ more) ++ rest := by rw [split, split', List.append_assoc]
      rw [← List.length_append]
      exact .ok whole
    | @error more rest cause split' =>
      have whole : ts = (used ++ more) ++ rest := by rw [split, split', List.append_assoc]
      rw [← List.length_append]
      exact .error whole
  | error split =>
    rw [Dialogue.feed_bind_error hr]
    exact .error split

theorem ahead {k : Option Token → Lookahead α} {x : Reading α b} (h : Follows (k ts.head?) ts x) :
    Follows (Lookahead.ahead >>= k) ts x :=
  h

theorem shift {k : Unit → Lookahead α} {x : Reading α b} {t : Token} (h : Follows (k ()) ts x) :
    Follows (Lookahead.shift >>= k) (t :: ts) x := by
  have asked : ((Lookahead.shift >>= k) (t :: ts).head?).feed (t :: ts).tail =
      (((k () ts.head?).feed ts.tail).1, ((k () ts.head?).feed ts.tail).2 + 1) := rfl
  unfold Follows at *
  rw [asked]
  generalize (k () ts.head?).feed ts.tail = r at h
  cases h with
  | @ok used left a h split =>
    have whole : t :: ts = (t :: used) ++ left := by rw [split, List.cons_append]
    exact Comes.ok whole
  | @error used left cause split =>
    have whole : t :: ts = (t :: used) ++ left := by rw [split, List.cons_append]
    exact Comes.error whole

theorem rebound {m : Lookahead α} {x : Reading α b} {k : Parsed Token α b → Reading α c}
    (hm : Follows m ts x) (hk : ∀ a left h, ∃ h', k ⟨a, left, h⟩ = .ok ⟨a, left, h'⟩) :
    Follows m ts (x >>= k) := by
  unfold Follows at *
  generalize (m ts.head?).feed ts.tail = r at hm
  cases hm with
  | @ok used left a h split =>
    obtain ⟨h', same⟩ := hk a left h
    show Comes ts (k ⟨a, left, h⟩) _
    rw [same]
    exact .ok split
  | error split => exact .error split

theorem expect {s : Symbol} {cause : GrammarCause} :
    Follows (Lookahead.expect s cause) ts (TweenScript.expect s cause ts) := by
  refine .ahead ?_
  split
  · rename_i h
    obtain ⟨rest, rfl⟩ := List.head?_eq_some_iff.mp h
    rw [TweenScript.expect, if_pos rfl]
    exact .shift .pure
  · rename_i h
    unfold TweenScript.expect
    split
    · rename_i t rest
      rw [if_neg fun he => h (by rw [he]; rfl)]
      exact .refuse
    · exact .refuse

end Follows

/-! ## Categories -/

open Lookahead

theorem not_cons_of_head? {t : Token} (h : ts.head? = some t → False) (rest : List Token) :
    ts = t :: rest → False := by
  rintro rfl
  exact h rfl

-- the recursion is on the depth, which the lengths of what is left keep above the measures of the readers
mutual

theorem statement_follows : ∀ (n : Nat) (ts : List Token), 16 * ts.length + 12 < n →
    Follows (statement n) ts (readStatement ts)
  | 0, _, depth => absurd depth (Nat.not_lt_zero _)
  | n + 1, ts, depth => by
    refine .ahead ?_
    split
    · rename_i h
      obtain ⟨rest, rfl⟩ := List.head?_eq_some_iff.mp h
      rw [List.length_cons] at depth
      rw [readStatement.eq_1]
      refine .shift (.bind (block_follows n rest (by omega)) fun body left _ => ?_)
      exact .pure
    · rename_i h
      obtain ⟨rest, rfl⟩ := List.head?_eq_some_iff.mp h
      rw [List.length_cons] at depth
      rw [readStatement.eq_2]
      refine .shift (.bind .expect fun _ us _ => ?_)
      refine .bind (expr_follows n us (by omega)) fun condition vs _ => ?_
      refine .bind .expect fun _ ws _ => ?_
      refine .bind (statement_follows n ws (by omega)) fun body left _ => ?_
      exact .pure
    · rename_i noBrace noWhen
      rw [readStatement.eq_3 ts (not_cons_of_head? noBrace) (not_cons_of_head? noWhen)]
      refine .bind (expr_follows n ts (by omega)) fun e us _ => ?_
      refine .bind .expect fun _ left _ => ?_
      exact .pure

theorem block_follows : ∀ (n : Nat) (ts : List Token), 16 * ts.length + 13 < n →
    Follows (block n) ts (readBlock ts)
  | 0, _, depth => absurd depth (Nat.not_lt_zero _)
  | n + 1, ts, depth => by
    refine .ahead ?_
    split
    · rename_i h
      obtain rfl := List.head?_eq_none_iff.mp h
      rw [readBlock.eq_1]
      exact .refuse
    · rename_i h
      obtain ⟨rest, rfl⟩ := List.head?_eq_some_iff.mp h
      rw [readBlock.eq_2]
      exact .shift .pure
    · rename_i some noBrace
      rw [readBlock.eq_3 ts (fun h => some (by rw [h]; rfl)) (not_cons_of_head? noBrace)]
      refine .bind (statement_follows n ts (by omega)) fun s us _ => ?_
      refine .bind (block_follows n us (by omega)) fun body left _ => ?_
      exact .pure

theorem expr_follows : ∀ (n : Nat) (ts : List Token), 16 * ts.length + 11 < n →
    Follows (expr n) ts (readExpr ts)
  | 0, _, depth => absurd depth (Nat.not_lt_zero _)
  | n + 1, ts, depth => by
    rw [readExpr.eq_1]
    refine .bind (binary_follows n topRank ts (by unfold topRank; omega)) fun e rest shorter => ?_
    refine .ahead ?_
    split
    · rename_i h
      obtain ⟨us, rfl⟩ := List.head?_eq_some_iff.mp h
      rw [List.length_cons] at shorter
      refine .shift (.bind (expr_follows n us (by omega)) fun yes vs _ => ?_)
      refine .bind .expect fun _ ws _ => ?_
      refine .bind (expr_follows n ws (by omega)) fun no left _ => ?_
      exact .pure
    · rename_i noQuestion
      dsimp only
      split
      · exact absurd rfl noQuestion
      · exact .pure

theorem binary_follows : ∀ (n rank : Nat) (ts : List Token), 16 * ts.length + rank + 3 < n →
    Follows (binary n rank) ts (readBinary rank ts)
  | 0, _, _, depth => absurd depth (Nat.not_lt_zero _)
  | n + 1, 0, ts, depth => by
    rw [readBinary.eq_1]
    exact unary_follows n ts (by omega)
  | n + 1, rank + 1, ts, depth => by
    rw [readBinary.eq_2]
    refine .bind (binary_follows n rank ts (by omega)) fun left us _ => ?_
    exact .rebound (operators_follows n rank left us (by omega)) fun _ _ _ => ⟨_, rfl⟩

theorem operators_follows : ∀ (n rank : Nat) (left : Expr) (ts : List Token),
    16 * ts.length + rank < n → Follows (operators n rank left) ts (readOperators rank left ts)
  | 0, _, _, _, depth => absurd depth (Nat.not_lt_zero _)
  | n + 1, rank, left, ts, depth => by
    refine .ahead ?_
    split
    · rename_i op h
      obtain ⟨rest, rfl⟩ := List.head?_eq_some_iff.mp h
      rw [List.length_cons] at depth
      rw [readOperators.eq_1]
      cases op.ofRank? (rank + 1) with
      | some b =>
        refine .shift (.bind (binary_follows n rank rest (by omega)) fun right us _ => ?_)
        exact .rebound (operators_follows n rank _ us (by omega)) fun _ _ _ => ⟨_, rfl⟩
      | none => exact .pure
    · rename_i noOperator
      rw [readOperators.eq_2 _ _ _ fun op => not_cons_of_head? (noOperator op)]
      exact .pure

theorem unary_follows : ∀ (n : Nat) (ts : List Token), 16 * ts.length + 2 < n →
    Follows (unary n) ts (readUnary ts)
  | 0, _, depth => absurd depth (Nat.not_lt_zero _)
  | n + 1, ts, depth => by
    refine .ahead ?_
    split
    · rename_i h
      obtain ⟨rest, rfl⟩ := List.head?_eq_some_iff.mp h
      rw [List.length_cons] at depth
      rw [readUnary.eq_1]
      exact .shift (.rebound (unary_follows n rest (by omega)) fun _ _ _ => ⟨_, rfl⟩)
    · rename_i h
      obtain ⟨rest, rfl⟩ := List.head?_eq_some_iff.mp h
      rw [List.length_cons] at depth
      rw [readUnary.eq_2]
      refine .shift (.bind (unary_follows n rest (by omega)) fun e left _ => ?_)
      exact .pure
    · rename_i h
      obtain ⟨rest, rfl⟩ := List.head?_eq_some_iff.mp h
      rw [List.length_cons] at depth
      rw [readUnary.eq_3]
      refine .shift (.bind (unary_follows n rest (by omega)) fun e left _ => ?_)
      exact .pure
    · rename_i noPlus noMinus noNot
      rw [readUnary.eq_4 ts (not_cons_of_head? noPlus) (not_cons_of_head? noMinus)
        (not_cons_of_head? noNot)]
      exact call_follows n ts (by omega)

theorem call_follows : ∀ (n : Nat) (ts : List Token), 16 * ts.length + 1 < n →
    Follows (call n) ts (readCall ts)
  | 0, _, depth => absurd depth (Nat.not_lt_zero _)
  | n + 1, ts, depth => by
    rw [readCall.eq_1]
    refine .bind (primary_follows n ts (by omega)) fun callee rest shorter => ?_
    refine .ahead ?_
    split
    · rename_i h
      obtain ⟨us, rfl⟩ := List.head?_eq_some_iff.mp h
      rw [List.length_cons] at shorter
      cases callee with
      | «variable» name =>
        dsimp only
        cases Channel.named? name with
        | some channel =>
          refine .shift (.bind (arguments_follows n us (by omega)) fun args vs _ => ?_)
          refine .bind (links_follows n vs (by omega)) fun links left _ => ?_
          exact .pure
        | none =>
          dsimp only
          split_ifs
          · refine .shift (.bind (arguments_follows n us (by omega)) fun args left _ => ?_)
            exact .pure
          · refine .shift (.bind (arguments_follows n us (by omega)) fun args left _ => ?_)
            exact .pure
          · exact .refuse
      | _ => exact .refuse
    · rename_i noCall
      dsimp only
      split
      · exact absurd rfl noCall
      · exact .pure

theorem primary_follows : ∀ (n : Nat) (ts : List Token), 16 * ts.length < n →
    Follows (primary n) ts (readPrimary ts)
  | 0, _, depth => absurd depth (Nat.not_lt_zero _)
  | n + 1, ts, depth => by
    refine .ahead ?_
    split
    · rename_i h
      obtain ⟨rest, rfl⟩ := List.head?_eq_some_iff.mp h
      rw [readPrimary.eq_1]
      exact .shift .pure
    · rename_i h
      obtain ⟨rest, rfl⟩ := List.head?_eq_some_iff.mp h
      rw [readPrimary.eq_2]
      exact .shift .pure
    · rename_i h
      obtain ⟨rest, rfl⟩ := List.head?_eq_some_iff.mp h
      rw [List.length_cons] at depth
      rw [readPrimary.eq_3]
      refine .shift (.bind (expr_follows n rest (by omega)) fun e us _ => ?_)
      refine .bind .expect fun _ left _ => ?_
      exact .pure
    · rename_i h
      obtain ⟨rest, rfl⟩ := List.head?_eq_some_iff.mp h
      rw [readPrimary.eq_4]
      exact .refuse
    · rename_i noGroup h
      obtain ⟨rest, rfl⟩ := List.head?_eq_some_iff.mp h
      rw [readPrimary.eq_5 _ _ fun he => noGroup (by rw [he])]
      exact .refuse
    · rename_i h
      obtain rfl := List.head?_eq_none_iff.mp h
      rw [readPrimary.eq_6]
      exact .refuse

theorem arguments_follows : ∀ (n : Nat) (ts : List Token), 16 * ts.length + 13 < n →
    Follows (arguments n) ts (readArguments ts)
  | 0, _, depth => absurd depth (Nat.not_lt_zero _)
  | n + 1, ts, depth => by
    refine .ahead ?_
    split
    · rename_i h
      obtain ⟨rest, rfl⟩ := List.head?_eq_some_iff.mp h
      rw [readArguments.eq_1]
      exact .shift .pure
    · rename_i some
      rw [readArguments.eq_2 ts (not_cons_of_head? some)]
      exact moreArguments_follows n ts (by omega)

theorem moreArguments_follows : ∀ (n : Nat) (ts : List Token), 16 * ts.length + 12 < n →
    Follows (moreArguments n) ts (readMoreArguments ts)
  | 0, _, depth => absurd depth (Nat.not_lt_zero _)
  | n + 1, ts, depth => by
    rw [readMoreArguments.eq_1]
    refine .bind (expr_follows n ts (by omega)) fun e rest shorter => ?_
    refine .ahead ?_
    split
    · rename_i h
      obtain ⟨us, rfl⟩ := List.head?_eq_some_iff.mp h
      rw [List.length_cons] at shorter
      refine .shift (.bind (moreArguments_follows n us (by omega)) fun es left _ => ?_)
      exact .pure
    · rename_i h
      obtain ⟨us, rfl⟩ := List.head?_eq_some_iff.mp h
      exact .shift .pure
    · rename_i noComma noEnd
      dsimp only
      split
      · exact absurd rfl noComma
      · exact absurd rfl noEnd
      · exact .refuse

theorem links_follows : ∀ (n : Nat) (ts : List Token), 16 * ts.length < n →
    Follows (links n) ts (readLinks ts)
  | 0, _, depth => absurd depth (Nat.not_lt_zero _)
  | n + 1, ts, depth => by
    refine .ahead ?_
    split
    · rename_i h
      obtain ⟨us, rfl⟩ := List.head?_eq_some_iff.mp h
      refine .shift (.ahead ?_)
      split
      · rename_i name h
        obtain ⟨vs, rfl⟩ := List.head?_eq_some_iff.mp h
        refine .shift (.ahead ?_)
        split
        · rename_i h
          obtain ⟨ws, rfl⟩ := List.head?_eq_some_iff.mp h
          simp only [List.length_cons] at depth
          rw [readLinks.eq_1]
          refine .bind (link_follows n name ws (by omega)) fun link rest _ => ?_
          refine .bind (links_follows n rest (by omega)) fun links left _ => ?_
          exact .pure
        · rename_i noArguments
          rw [readLinks.eq_2 _ _ (not_cons_of_head? noArguments)]
          exact .refuse
      · rename_i noName
        rw [readLinks.eq_3 _ (fun name _ => not_cons_of_head? (noName name) _)
          fun name => not_cons_of_head? (noName name)]
        exact .refuse
    · rename_i noLink
      rw [readLinks.eq_4 ts (fun _ _ => not_cons_of_head? noLink _)
        (fun _ _ => not_cons_of_head? noLink _) (not_cons_of_head? noLink)]
      exact .pure

theorem link_follows : ∀ (n : Nat) (name : String) (ts : List Token), 16 * ts.length + 14 < n →
    Follows (link n name) (.symbol .lparen :: ts) (readLink name ts)
  | 0, _, _, depth => absurd depth (Nat.not_lt_zero _)
  | n + 1, name, ts, depth => by
    rw [readLink.eq_1]
    show Follows (if name = "Then" then _ else _) _ _
    split_ifs with isThen
    · refine .shift (.bind (statement_follows n ts (by omega)) fun body us _ => ?_)
      refine .bind .expect fun _ left _ => ?_
      exact .pure
    · cases Link.named name with
      | ok make =>
        refine .shift (.bind (arguments_follows n ts (by omega)) fun args left _ => ?_)
        exact .pure
      | error cause => exact .refuse

end

/-! ## Whole texts -/

/-- A reading that leaves nothing. -/
def atEnd (x : Except Refusal α) : Reading α 1 :=
  x.map fun a => ⟨a, [], Nat.one_pos⟩

theorem atEnd_bind {x : Reading α b} {k : Parsed Token α b → Except Refusal β} :
    atEnd (x >>= k) = x >>= fun p => atEnd (k p) := by
  cases x <;> rfl

theorem statements_follows : ∀ (n : Nat) (ts : List Token), 16 * ts.length + 13 < n →
    Follows (statements n) ts (atEnd (readStatements ts))
  | 0, _, depth => absurd depth (Nat.not_lt_zero _)
  | n + 1, ts, depth => by
    refine .ahead ?_
    split
    · rename_i h
      obtain rfl := List.head?_eq_none_iff.mp h
      rw [readStatements.eq_1]
      exact .pure
    · rename_i some
      rw [readStatements.eq_2 ts (by rintro rfl; cases some), atEnd_bind]
      refine .bind (statement_follows n ts (by omega)) fun s rest _ => ?_
      have others : atEnd (readStatements rest >>= fun body => Pure.pure (s :: body)) =
          atEnd (readStatements rest) >>= fun p => .ok ⟨s :: p.value, p.rest, p.shorter⟩ := by
        cases readStatements rest <;> rfl
      refine Eq.subst others.symm ?_
      refine .bind (statements_follows n rest (by omega)) fun body left _ => ?_
      exact .pure

theorem program_follows (n : Nat) (ts : List Token) (depth : 16 * ts.length + 13 < n) :
    Follows (program n) ts (atEnd (readProgram ts)) := by
  have program : atEnd (readProgram ts) =
      atEnd (readStatements ts) >>= fun p => .ok ⟨Statement.ofList p.value, p.rest, p.shorter⟩ := by
    rw [readProgram]
    cases readStatements ts <;> rfl
  rw [program]
  refine .bind (statements_follows n ts depth) fun body left _ => ?_
  exact .pure

theorem expression_follows (n : Nat) (ts : List Token) (depth : 16 * ts.length + 11 < n) :
    Follows (expression n) ts (atEnd (readExpression ts)) := by
  rw [readExpression, atEnd_bind]
  refine .bind (expr_follows n ts depth) fun e rest _ => .ahead ?_
  cases rest with
  | nil => exact .pure
  | cons t rest => exact .refuse

/-- The reading of all of `ts` and the dialogue come to the same. The dialogue has asked for the tokens up
to the one that is refused, or for all and for the end. -/
inductive Concludes (ts : List Token) :
    Except Refusal α → Option (Except GrammarCause α) × Nat → Prop where
  | ok {a : α} : Concludes ts (.ok a) (some (.ok a), ts.length + 1)
  | error {used left : List Token} {cause : GrammarCause} (split : ts = used ++ left) :
    Concludes ts (.error ⟨cause, left⟩) (some (.error cause), used.length + 1)

theorem Follows.concludes {m : Lookahead α} {x : Except Refusal α} (h : Follows m ts (atEnd x)) :
    Concludes ts x (m.start.feed ts) := by
  have started : m.start.feed ts =
      ((((m ts.head?).bind fun p => .value p.1).feed ts.tail).1,
        (((m ts.head?).bind fun p => .value p.1).feed ts.tail).2 + 1) := rfl
  unfold Follows at h
  rw [started]
  generalize hr : (m ts.head?).feed ts.tail = r at h
  cases x with
  | ok a =>
    cases h with
    | @ok used _ _ _ split =>
      rw [Dialogue.feed_bind_ok hr, split, List.append_nil]
      exact .ok
  | error refusal =>
    cases h with
    | error split =>
      rw [Dialogue.feed_bind_error hr]
      exact .error split

theorem ParseMode.concludes (m : ParseMode) (n : Nat) (ts : List Token)
    (depth : 16 * ts.length + 13 < n) : Concludes ts (m.read ts) ((m.dialogue n).feed ts) := by
  cases m with
  | program => exact (program_follows n ts depth).concludes
  | expression => exact (expression_follows n ts (by omega)).concludes

end TweenScript
