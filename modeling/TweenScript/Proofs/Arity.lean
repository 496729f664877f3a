import Mathlib.Data.List.Forall2
import Mathlib.Data.List.Induction
import TweenScript.Evaluation.Plan

/-!
# Argument counts

Which argument counts the call and the links of a chain may have, as a table, and which fault comes
of a chain that does not keep to it (`Chain.Refused`). The check goes from link to link, and what one
more link makes of its outcome is what it makes of the table and of the fault (`check_link_of_fixed`,
`check_link_of_not_fixed`). So a chain passes exactly if it keeps to the table, and otherwise exactly
one fault stands out (`check_outcome`).
-/

namespace TweenScript

/-! ## The table -/

/-- The arguments of a link. The body of a `Then` link is none. -/
def Link.args : Link → List Expr
  | start _ args | delay args | animate args | ease _ args => args
  | andThen _ => []

/-- The name of a link in messages. -/
def Link.call : Link → String
  | start false _ => "From"
  | start true _ => "FromRelative"
  | delay _ => "Delay"
  | animate _ => "Animate"
  | ease e _ => e.name
  | andThen _ => "Then"

/-- The argument counts of a link on a channel of width `w`. -/
def Link.counts (w : Nat) : Link → List Nat
  | start _ _ => [1, w]
  | delay _ | animate _ => [1]
  | ease _ _ | andThen _ => [0]

/-- The argument counts of a link in words. -/
def Link.wording (w : Nat) : Link → String
  | start _ _ =>
    match w with
    | 1 => "1"
    | 2 => "1 or 2"
    | 3 => "1 or 3"
    | _ => "1 or 4"
  | delay _ | animate _ => "1"
  | ease _ _ | andThen _ => "0"

/-- The argument counts of a call on a channel of width `w`. -/
def countsOfCall (w : Nat) : List Nat :=
  [2, 3, 2 + w]

/-- The argument counts of a call in words. -/
def wordingOfCall : Nat → String
  | 1 => "2 or 3"
  | 2 => "2, 3 or 4"
  | 3 => "2, 3 or 5"
  | _ => "2, 3 or 6"

/-- Whether the count of a link is the same for all channels. -/
def Link.hasFixedCount : Link → Bool
  | delay _ | animate _ | ease _ _ => true
  | start _ _ | andThen _ => false

/-- The link has one of its argument counts. -/
def Link.Fits (w : Nat) (l : Link) : Prop :=
  l.args.length ∈ l.counts w

/-- What is said of a link that has none of its argument counts. -/
def Link.miscount (w : Nat) (l : Link) : Fault :=
  .arity l.call (l.wording w) l.args.length

namespace Chain

variable (c : Chain)

/-- The chain with one more link. -/
def link (l : Link) : Chain :=
  { c with links := c.links ++ [l] }

/-- The links whose argument count is the same on all channels have it. -/
def FixedFit : Prop :=
  ∀ l ∈ c.links, l.hasFixedCount → l.Fits c.channel.width

/-- The call has one of its argument counts. -/
def CallFits : Prop :=
  c.args.length ∈ countsOfCall c.channel.width

/-- The first argument is a bare name. -/
def NamesObject : Prop :=
  ∃ name, c.args.head? = some (.variable name)

/-- The fault that stands out in a chain: that of the last link with a fixed count, then that of the
call, then that of the first start values. -/
inductive Refused : Fault → Prop where
  | fixed {before after : List Link} {l : Link} (split : c.links = before ++ l :: after)
    (counted : l.hasFixedCount) (wrong : ¬ l.Fits c.channel.width)
    (last : ∀ l' ∈ after, l'.hasFixedCount → l'.Fits c.channel.width) :
    Refused (l.miscount c.channel.width)
  | call (fixed : c.FixedFit) (wrong : ¬ c.CallFits) :
    Refused (.arity c.name (wordingOfCall c.channel.width) c.args.length)
  | object (fixed : c.FixedFit) (call : c.CallFits) (wrong : ¬ c.NamesObject) :
    Refused (.argument (.noObjectName c.name))
  | start {before after : List Link} {relative : Bool} {args : List Expr} (fixed : c.FixedFit)
    (call : c.CallFits) (object : c.NamesObject)
    (split : c.links = before ++ .start relative args :: after)
    (wrong : ¬ (Link.start relative args).Fits c.channel.width)
    (first : ∀ l' ∈ before, l'.Fits c.channel.width) :
    Refused ((Link.start relative args).miscount c.channel.width)

end Chain

/-! ## Checks one after the other -/

section checks

variable {ε α β : Type} {x : Except ε α} {g : α → Except ε β} {f : α → Except ε β} {xs : List α}

theorem bind_eq_ok_iff {b : β} : x >>= g = .ok b ↔ ∃ a, x = .ok a ∧ g a = .ok b := by
  cases x with
  | error e => simp [bind, Except.bind]
  | ok a => simp [bind, Except.bind]

theorem bind_eq_error_iff {e : ε} :
    x >>= g = .error e ↔ x = .error e ∨ ∃ a, x = .ok a ∧ g a = .error e := by
  cases x with
  | error e => simp [bind, Except.bind]
  | ok a => simp [bind, Except.bind]

theorem map_eq_ok_iff {g : α → β} {b : β} : g <$> x = .ok b ↔ ∃ a, x = .ok a ∧ g a = b := by
  cases x with
  | error e => simp [Functor.map, Except.map]
  | ok a => simp [Functor.map, Except.map]

theorem map_eq_error_iff {g : α → β} {e : ε} : g <$> x = .error e ↔ x = .error e := by
  cases x with
  | error e' => simp [Functor.map, Except.map]
  | ok a => simp [Functor.map, Except.map]

theorem mapM_eq_ok_iff {ys : List β} :
    xs.mapM f = .ok ys ↔ List.Forall₂ (fun x y => f x = .ok y) xs ys := by
  induction xs generalizing ys with
  | nil => simp [pure, Except.pure, eq_comm]
  | cons x xs ih =>
    rw [List.mapM_cons, List.forall₂_cons_left_iff, bind_eq_ok_iff]
    constructor
    · rintro ⟨y, hx, h⟩
      obtain ⟨zs, hxs, h⟩ := bind_eq_ok_iff.mp h
      cases h
      exact ⟨y, zs, hx, ih.mp hxs, rfl⟩
    · rintro ⟨y, zs, hx, hxs, rfl⟩
      exact ⟨y, hx, bind_eq_ok_iff.mpr ⟨zs, ih.mpr hxs, rfl⟩⟩

theorem exists_mapM_iff : (∃ ys, xs.mapM f = .ok ys) ↔ ∀ x ∈ xs, ∃ y, f x = .ok y := by
  constructor
  · rintro ⟨ys, made⟩
    have each : List.Forall₂ (fun x y => (∃ y, f x = .ok y) ∧ f x = .ok y) xs ys :=
      (mapM_eq_ok_iff.mp made).imp fun x y h => ⟨⟨y, h⟩, h⟩
    exact ((List.forall₂_and_left xs ys).mp each).1
  · intro each
    induction xs with
    | nil => exact ⟨[], rfl⟩
    | cons x xs ih =>
      obtain ⟨⟨y, hx⟩, each⟩ := List.forall_mem_cons.mp each
      obtain ⟨ys, hxs⟩ := ih each
      exact ⟨y :: ys, mapM_eq_ok_iff.mpr (.cons hx (mapM_eq_ok_iff.mp hxs))⟩

theorem discard_map (g : α → β) : discard (g <$> x) = discard x := by
  cases x <;> rfl

theorem discard_bind_eq_ok_iff {y : Except ε β} {b : β} :
    (do discard x; y) = .ok b ↔ (∃ a, x = .ok a) ∧ y = .ok b := by
  cases x with
  | error e => simp [discard, Functor.mapConst, Except.map, bind, Except.bind]
  | ok a => simp [discard, Functor.mapConst, Except.map, bind, Except.bind]

theorem discard_bind_eq_error_iff {y : Except ε β} {e : ε} :
    (do discard x; y) = .error e ↔ x = .error e ∨ (∃ a, x = .ok a) ∧ y = .error e := by
  cases x with
  | error e => simp [discard, Functor.mapConst, Except.map, bind, Except.bind]
  | ok a => simp [discard, Functor.mapConst, Except.map, bind, Except.bind]

end checks

/-! ## Links -/

section links

variable (channel : Channel)

theorem callCounts_width : callCounts channel.width = wordingOfCall channel.width := by
  cases channel with
  | position axes | rotation axes | scale axes => cases axes <;> decide
  | _ => decide

theorem startCounts_width (relative : Bool) (args : List Expr) :
    startCounts channel.width = (Link.start relative args).wording channel.width := by
  cases channel with
  | position axes | rotation axes | scale axes => cases axes <;> rfl
  | _ => rfl

theorem ofList?_eq_none_iff {w : Nat} {args : List Expr} :
    Values.ofList? w args = none ↔ args.length ∉ [1, w] := by
  match args with
  | [] => simp [Values.ofList?]
  | [e] => simp [Values.ofList?]
  | e :: e' :: args => simp [Values.ofList?]

theorem onlyArgument_eq_ok_iff {link : String} {args : List Expr} {e : Expr} :
    onlyArgument link args = .ok e ↔ args = [e] := by
  match args with
  | [] => simp [onlyArgument]
  | [e'] => simp [onlyArgument]
  | e' :: e'' :: args => simp [onlyArgument]

theorem onlyArgument_eq_error_iff {link : String} {args : List Expr} {f : Fault} :
    onlyArgument link args = .error f ↔ args.length ≠ 1 ∧ f = .arity link "1" args.length := by
  match args with
  | [] => simp [onlyArgument, eq_comm]
  | [e] => simp [onlyArgument]
  | e :: e' :: args => simp [onlyArgument, eq_comm]

theorem noArguments_eq_ok_iff {link : String} {args : List Expr} {u : Unit} :
    noArguments link args = .ok u ↔ args = [] := by
  cases args <;> simp [noArguments]

theorem noArguments_eq_error_iff {link : String} {args : List Expr} {f : Fault} :
    noArguments link args = .error f ↔ args.length ≠ 0 ∧ f = .arity link "0" args.length := by
  cases args with
  | nil => simp [noArguments]
  | cons e args => simp [noArguments, eq_comm]

theorem startValues_eq_ok_iff {w : Nat} {relative : Bool} {args : List Expr} {vs : Values} :
    startValues w relative args = .ok vs ↔ Values.ofList? w args = some vs := by
  rw [startValues]
  cases Values.ofList? w args <;> simp

theorem startValues_eq_error_iff {relative : Bool} {args : List Expr} {f : Fault} :
    startValues channel.width relative args = .error f ↔
      args.length ∉ [1, channel.width] ∧ f = (Link.start relative args).miscount channel.width := by
  have call : (if relative then "FromRelative" else "From") = (Link.start relative args).call := by
    cases relative <;> rfl
  rw [startValues, startCounts_width channel relative args, ← ofList?_eq_none_iff, call]
  cases Values.ofList? channel.width args with
  | some vs => simp
  | none => simp [Link.miscount, Link.args, eq_comm]

theorem step_eq_error_iff {l : Link} {f : Fault} :
    l.step channel.width = .error f ↔
      ¬ l.Fits channel.width ∧ f = l.miscount channel.width := by
  cases l with
  | start relative args => rw [Link.step, map_eq_error_iff, startValues_eq_error_iff]; rfl
  | delay args =>
    rw [Link.step, map_eq_error_iff, onlyArgument_eq_error_iff]
    simp [Link.Fits, Link.counts, Link.args, Link.miscount, Link.call, Link.wording]
  | animate args =>
    rw [Link.step, map_eq_error_iff, onlyArgument_eq_error_iff]
    simp [Link.Fits, Link.counts, Link.args, Link.miscount, Link.call, Link.wording]
  | ease e args =>
    rw [Link.step, map_eq_error_iff, noArguments_eq_error_iff]
    simp [Link.Fits, Link.counts, Link.args, Link.miscount, Link.call, Link.wording]
  | andThen body => simp [Link.step, Link.Fits, Link.counts, Link.args]

theorem exists_step_iff {l : Link} :
    (∃ s, l.step channel.width = .ok s) ↔ l.Fits channel.width := by
  constructor
  · rintro ⟨s, hs⟩
    by_contra wrong
    rw [(step_eq_error_iff channel).mpr ⟨wrong, rfl⟩] at hs
    cases hs
  · intro fits
    cases hl : l.step channel.width with
    | ok s => exact ⟨s, rfl⟩
    | error f => exact absurd fits ((step_eq_error_iff channel).mp hl).1

theorem exists_start_of_not_fits {w : Nat} {l : Link} (fixed : l.hasFixedCount → l.Fits w)
    (wrong : ¬ l.Fits w) : ∃ relative args, l = .start relative args := by
  cases l with
  | start relative args => exact ⟨relative, args, rfl⟩
  | andThen body => exact absurd (by simp [Link.Fits, Link.args, Link.counts]) wrong
  | _ => exact absurd (fixed rfl) wrong

theorem exists_steps_iff {links : List Link} :
    (∃ steps, links.mapM (Link.step channel.width) = .ok steps) ↔
      ∀ l ∈ links, l.Fits channel.width := by
  simp only [exists_mapM_iff, exists_step_iff]

end links

/-! ## Calls -/

/-- The target values of a call on a channel of width `w`, if it has a count that is right. -/
def targetOf? (w : Nat) (values : List Expr) : Option (Option Values) :=
  if values.isEmpty then some none else (Values.ofList? w values).map some

theorem targetOf?_eq_none_iff {w : Nat} {values : List Expr} :
    targetOf? w values = none ↔ values.length + 2 ∉ countsOfCall w := by
  cases values with
  | nil => simp [targetOf?, countsOfCall]
  | cons e values =>
    have counts : (e :: values).length + 2 ∈ countsOfCall w ↔ (e :: values).length ∈ [1, w] := by
      simp only [countsOfCall, List.mem_cons, List.length_cons, List.not_mem_nil, or_false]
      omega
    rw [counts, ← ofList?_eq_none_iff]
    simp [targetOf?]

theorem objectName_eq_ok_iff {call : String} {e : Expr} {name : String} :
    objectName call e = .ok name ↔ e = .variable name := by
  cases e <;> simp [objectName]

theorem objectName_eq_error_iff {call : String} {e : Expr} {f : Fault} :
    objectName call e = .error f ↔
      (∀ name, e ≠ .variable name) ∧ f = .argument (.noObjectName call) := by
  cases e <;> simp [objectName, eq_comm]

section planCall

variable {c : Chain} {object duration : Expr} {values : List Expr}

theorem planCall_of_two (args : c.args = object :: duration :: values) :
    c.planCall = match targetOf? c.channel.width values with
      | some target => do
        let name ← objectName c.name object
        return ⟨c.channel, name, duration, target, []⟩
      | none => .error (.arity c.name (callCounts c.channel.width) c.args.length) := by
  obtain ⟨channel, call, _, links⟩ := c
  cases args
  rfl

theorem planCall_of_short (args : c.args.length < 2) :
    c.planCall = .error (.arity c.name (callCounts c.channel.width) c.args.length) := by
  obtain ⟨channel, call, given, links⟩ := c
  rcases given with _ | ⟨e, _ | ⟨e', given⟩⟩
  · rfl
  · rfl
  · simp only [List.length_cons] at args
    omega

theorem planCall_eq_ok_iff {p : Plan} :
    c.planCall = .ok p ↔ ∃ name duration values target,
      c.args = .variable name :: duration :: values ∧
      targetOf? c.channel.width values = some target ∧
      p = ⟨c.channel, name, duration, target, []⟩ := by
  constructor
  · intro h
    rcases hargs : c.args with _ | ⟨object, _ | ⟨duration, values⟩⟩
    · rw [planCall_of_short (by simp [hargs])] at h
      cases h
    · rw [planCall_of_short (by simp [hargs])] at h
      cases h
    · rw [planCall_of_two hargs] at h
      cases ht : targetOf? c.channel.width values with
      | none =>
        rw [ht] at h
        cases h
      | some target =>
        rw [ht] at h
        obtain ⟨name, named, h⟩ := bind_eq_ok_iff.mp h
        obtain rfl := objectName_eq_ok_iff.mp named
        cases h
        exact ⟨name, duration, values, target, rfl, ht, rfl⟩
  · rintro ⟨name, duration, values, target, hargs, ht, rfl⟩
    rw [planCall_of_two hargs, ht]
    rfl

theorem planCall_eq_error_iff {f : Fault} :
    c.planCall = .error f ↔
      (¬ c.CallFits ∧ f = .arity c.name (wordingOfCall c.channel.width) c.args.length) ∨
      (c.CallFits ∧ ¬ c.NamesObject ∧ f = .argument (.noObjectName c.name)) := by
  have short (h : c.args.length < 2) : c.planCall = .error f ↔
      (¬ c.CallFits ∧ f = .arity c.name (wordingOfCall c.channel.width) c.args.length) ∨
      (c.CallFits ∧ ¬ c.NamesObject ∧ f = .argument (.noObjectName c.name)) := by
    have wrong : ¬ c.CallFits := by
      simp [Chain.CallFits, countsOfCall]
      omega
    rw [planCall_of_short h, callCounts_width]
    simp [wrong, eq_comm]
  rcases hargs : c.args with _ | ⟨object, _ | ⟨duration, values⟩⟩
  · rw [← hargs]
    exact short (by simp [hargs])
  · rw [← hargs]
    exact short (by simp [hargs])
  · have counted : c.CallFits ↔ targetOf? c.channel.width values ≠ none := by
      rw [Ne, targetOf?_eq_none_iff, not_not, Chain.CallFits, hargs]
      rfl
    have named : c.NamesObject ↔ ∃ name, object = .variable name := by
      rw [Chain.NamesObject, hargs]
      simp
    rw [planCall_of_two hargs, counted, named, callCounts_width]
    cases ht : targetOf? c.channel.width values with
    | none => simp [hargs, eq_comm]
    | some target =>
      cases ho : objectName c.name object with
      | ok name =>
        obtain rfl := objectName_eq_ok_iff.mp ho
        simp [bind, Except.bind, pure, Except.pure]
      | error f' =>
        obtain ⟨other, rfl⟩ := objectName_eq_error_iff.mp ho
        simp [bind, Except.bind, other, eq_comm]

theorem channel_of_planCall {p : Plan} (h : c.planCall = .ok p) : p.channel = c.channel := by
  obtain ⟨name, duration, values, target, -, -, rfl⟩ := planCall_eq_ok_iff.mp h
  rfl

theorem exists_planCall_iff : (∃ call, c.planCall = .ok call) ↔ c.CallFits ∧ c.NamesObject := by
  constructor
  · rintro ⟨call, hc⟩
    have passed (f : Fault) : c.planCall ≠ .error f := by
      rw [hc]
      exact fun h => nomatch h
    by_cases fits : c.CallFits
    · by_cases named : c.NamesObject
      · exact ⟨fits, named⟩
      · exact absurd (planCall_eq_error_iff.mpr (.inr ⟨fits, named, rfl⟩)) (passed _)
    · exact absurd (planCall_eq_error_iff.mpr (.inl ⟨fits, rfl⟩)) (passed _)
  · rintro ⟨fits, named⟩
    cases hc : c.planCall with
    | ok call => exact ⟨call, rfl⟩
    | error f =>
      rcases planCall_eq_error_iff.mp hc with ⟨wrong, -⟩ | ⟨-, wrong, -⟩
      · exact absurd fits wrong
      · exact absurd named wrong

end planCall

/-! ## One more link -/

namespace Chain

variable {c : Chain} {l : Link} {f : Fault}

theorem checkBehind_of_fixed (fixed : l.hasFixedCount) (before : List Link) (w : Nat) :
    c.checkBehind (l :: before) = (do discard (l.step w); c.checkBehind before) := by
  cases l with
  | start _ _ | andThen _ => cases fixed
  | delay args => rw [checkBehind, Link.step, discard_map]
  | animate args => rw [checkBehind, Link.step, discard_map]
  | ease e args =>
    rw [checkBehind, Link.step, discard_map]
    cases noArguments e.name args <;> rfl

theorem checkBehind_of_not_fixed (other : ¬ l.hasFixedCount) (before : List Link) :
    c.checkBehind (l :: before) = do
      let channel ← c.checkBehind before
      discard (l.step channel.width)
      return channel := by
  cases l with
  | start relative args => simp only [checkBehind, Link.step, discard_map]
  | andThen body => rw [checkBehind]; exact (bind_pure _).symm
  | delay _ | animate _ | ease _ _ => exact absurd rfl other

theorem checkBehind_link (before : List Link) :
    (c.link l).checkBehind before = c.checkBehind before := by
  induction before with
  | nil => rfl
  | cons m before ih =>
    by_cases fixed : m.hasFixedCount
    · rw [checkBehind_of_fixed fixed before 0, checkBehind_of_fixed fixed before 0, ih]
    · rw [checkBehind_of_not_fixed fixed, checkBehind_of_not_fixed fixed, ih]

theorem check_link : (c.link l).check = c.checkBehind (l :: c.links.reverse) := by
  rw [check, checkBehind_link, link, List.reverse_append]
  rfl

/-- A link with a fixed count comes before the links in front of it. -/
theorem check_link_of_fixed (fixed : l.hasFixedCount) (w : Nat) :
    (c.link l).check = (do discard (l.step w); c.check) := by
  rw [check_link, checkBehind_of_fixed fixed _ w]
  rfl

/-- Any other link comes behind them. -/
theorem check_link_of_not_fixed (other : ¬ l.hasFixedCount) :
    (c.link l).check = do
      let channel ← c.check
      discard (l.step channel.width)
      return channel := by
  rw [check_link, checkBehind_of_not_fixed other]
  rfl

theorem check_link_eq_ok_iff {channel : Channel} :
    (c.link l).check = .ok channel ↔ c.check = .ok channel ∧ l.Fits channel.width := by
  by_cases fixed : l.hasFixedCount
  · rw [check_link_of_fixed fixed channel.width, discard_bind_eq_ok_iff, exists_step_iff, and_comm]
  · rw [check_link_of_not_fixed fixed, bind_eq_ok_iff]
    simp only [discard_bind_eq_ok_iff, exists_step_iff]
    constructor
    · rintro ⟨channel', passed, fits, h⟩
      cases h
      exact ⟨passed, fits⟩
    · rintro ⟨passed, fits⟩
      exact ⟨channel, passed, fits, rfl⟩

theorem check_link_eq_error_of_fixed (fixed : l.hasFixedCount) (channel : Channel) :
    (c.link l).check = .error f ↔
      (¬ l.Fits channel.width ∧ f = l.miscount channel.width) ∨
        l.Fits channel.width ∧ c.check = .error f := by
  rw [check_link_of_fixed fixed channel.width, discard_bind_eq_error_iff, exists_step_iff,
    step_eq_error_iff]

theorem check_link_eq_error_of_not_fixed (other : ¬ l.hasFixedCount) :
    (c.link l).check = .error f ↔ c.check = .error f ∨
      ∃ channel, c.check = .ok channel ∧ ¬ l.Fits channel.width ∧ f = l.miscount channel.width := by
  rw [check_link_of_not_fixed other, bind_eq_error_iff]
  simp only [discard_bind_eq_error_iff, step_eq_error_iff]
  refine or_congr_right (exists_congr fun channel => and_congr_right fun _ => ?_)
  exact or_iff_left fun h => nomatch h.2

theorem fixedFit_link :
    (c.link l).FixedFit ↔ c.FixedFit ∧ (l.hasFixedCount → l.Fits c.channel.width) := by
  rw [FixedFit, link, List.forall_mem_append, List.forall_mem_singleton]
  rfl

theorem refused_of_links_nil (none : c.links = []) : c.Refused f ↔
    (¬ c.CallFits ∧ f = .arity c.name (wordingOfCall c.channel.width) c.args.length) ∨
      (c.CallFits ∧ ¬ c.NamesObject ∧ f = .argument (.noObjectName c.name)) := by
  have fixed : c.FixedFit := by simp [FixedFit, none]
  constructor
  · rintro (⟨split, -, -, -⟩ | ⟨-, wrong⟩ | ⟨-, call, wrong⟩ | ⟨-, -, -, split, -, -⟩)
    · simp [none] at split
    · exact .inl ⟨wrong, rfl⟩
    · exact .inr ⟨call, wrong, rfl⟩
    · simp [none] at split
  · rintro (⟨wrong, rfl⟩ | ⟨call, wrong, rfl⟩)
    · exact .call fixed wrong
    · exact .object fixed call wrong

theorem links_link_eq_iff {before after : List Link} {m : Link} :
    (c.link l).links = before ++ m :: after ↔
      (m = l ∧ before = c.links ∧ after = []) ∨
        ∃ after', after = after' ++ [l] ∧ c.links = before ++ m :: after' := by
  show c.links ++ [l] = before ++ m :: after ↔ _
  constructor
  · intro split
    rcases List.eq_nil_or_concat after with rfl | ⟨after', l', rfl⟩
    · obtain ⟨init, last⟩ := List.append_inj' split rfl
      cases last
      exact .inl ⟨rfl, init.symm, rfl⟩
    · rw [List.concat_eq_append, ← List.cons_append, ← List.append_assoc] at split
      obtain ⟨init, last⟩ := List.append_inj' split rfl
      cases last
      exact .inr ⟨after', List.concat_eq_append, init⟩
  · rintro (⟨rfl, rfl, rfl⟩ | ⟨after', rfl, split⟩)
    · rfl
    · rw [split]
      simp

theorem Refused.link (h : c.Refused f) (fits : l.hasFixedCount → l.Fits c.channel.width) :
    (c.link l).Refused f := by
  cases h with
  | fixed split counted wrong last =>
    refine .fixed (links_link_eq_iff.mpr (.inr ⟨_, rfl, split⟩)) counted wrong ?_
    exact List.forall_mem_append.mpr ⟨last, List.forall_mem_singleton.mpr fits⟩
  | call all wrong => exact .call (fixedFit_link.mpr ⟨all, fits⟩) wrong
  | object all call wrong => exact .object (fixedFit_link.mpr ⟨all, fits⟩) call wrong
  | start all call object split wrong first =>
    exact .start (fixedFit_link.mpr ⟨all, fits⟩) call object
      (links_link_eq_iff.mpr (.inr ⟨_, rfl, split⟩)) wrong first

theorem refused_link_of_fixed (fixed : l.hasFixedCount) : (c.link l).Refused f ↔
    (¬ l.Fits c.channel.width ∧ f = l.miscount c.channel.width) ∨
      l.Fits c.channel.width ∧ c.Refused f := by
  constructor
  · rintro (⟨split, counted, wrong, last⟩ | ⟨all, wrong⟩ | ⟨all, call, wrong⟩ |
      ⟨all, call, object, split, wrong, first⟩)
    · rcases links_link_eq_iff.mp split with ⟨rfl, -, -⟩ | ⟨after, rfl, earlier⟩
      · exact .inl ⟨wrong, rfl⟩
      · obtain ⟨last, fits⟩ := List.forall_mem_append.mp last
        exact .inr ⟨fits l (List.mem_singleton_self l) fixed, .fixed earlier counted wrong last⟩
    · obtain ⟨all, fits⟩ := fixedFit_link.mp all
      exact .inr ⟨fits fixed, .call all wrong⟩
    · obtain ⟨all, fits⟩ := fixedFit_link.mp all
      exact .inr ⟨fits fixed, .object all call wrong⟩
    · rcases links_link_eq_iff.mp split with ⟨rfl, -, -⟩ | ⟨after, rfl, earlier⟩
      · cases fixed
      · obtain ⟨all, fits⟩ := fixedFit_link.mp all
        exact .inr ⟨fits fixed, .start all call object earlier wrong first⟩
  · rintro (⟨wrong, rfl⟩ | ⟨fits, refused⟩)
    · exact .fixed (links_link_eq_iff.mpr (.inl ⟨rfl, rfl, rfl⟩)) fixed wrong (by simp)
    · exact refused.link fun _ => fits

theorem refused_link_of_not_fixed (other : ¬ l.hasFixedCount) : (c.link l).Refused f ↔
    c.Refused f ∨ (c.CallFits ∧ c.NamesObject ∧ ∀ m ∈ c.links, m.Fits c.channel.width) ∧
      ¬ l.Fits c.channel.width ∧ f = l.miscount c.channel.width := by
  constructor
  · rintro (⟨split, counted, wrong, last⟩ | ⟨all, wrong⟩ | ⟨all, call, wrong⟩ |
      ⟨all, call, object, split, wrong, first⟩)
    · rcases links_link_eq_iff.mp split with ⟨rfl, -, -⟩ | ⟨after, rfl, earlier⟩
      · exact absurd counted other
      · exact .inl (.fixed earlier counted wrong (List.forall_mem_append.mp last).1)
    · exact .inl (.call (fixedFit_link.mp all).1 wrong)
    · exact .inl (.object (fixedFit_link.mp all).1 call wrong)
    · rcases links_link_eq_iff.mp split with ⟨rfl, rfl, -⟩ | ⟨after, rfl, earlier⟩
      · exact .inr ⟨⟨call, object, first⟩, wrong, rfl⟩
      · exact .inl (.start (fixedFit_link.mp all).1 call object earlier wrong first)
  · rintro (refused | ⟨⟨call, object, fits⟩, wrong, rfl⟩)
    · exact refused.link fun fixed => absurd fixed other
    · obtain ⟨relative, args, rfl⟩ := exists_start_of_not_fits (fun fixed => absurd fixed other) wrong
      refine .start (fixedFit_link.mpr ⟨fun m mem _ => fits m mem, fun fixed => absurd fixed other⟩)
        call object (links_link_eq_iff.mpr (.inl ⟨rfl, rfl, rfl⟩)) wrong fits

/-! ## Chains -/

/-- A chain is a call with one link after the other. -/
@[elab_as_elim]
theorem linkInduction {motive : Chain → Prop} (call : ∀ c, c.links = [] → motive c)
    (link : ∀ c l, motive c → motive (c.link l)) (c : Chain) : motive c := by
  obtain ⟨channel, name, args, links⟩ := c
  induction links using List.reverseRecOn with
  | nil => exact call _ rfl
  | append_singleton links l ih => exact link _ l ih

theorem check_of_links_nil (none : c.links = []) : c.check = Plan.channel <$> c.planCall := by
  rw [check, none]
  rfl

theorem check_eq_ok_iff {channel : Channel} : c.check = .ok channel ↔
    channel = c.channel ∧ c.CallFits ∧ c.NamesObject ∧ ∀ l ∈ c.links, l.Fits c.channel.width := by
  induction c using linkInduction with
  | call c none =>
    have fits : ∀ l ∈ c.links, l.Fits c.channel.width := by simp [none]
    rw [check_of_links_nil none, map_eq_ok_iff]
    constructor
    · rintro ⟨p, planned, rfl⟩
      obtain ⟨call, object⟩ := exists_planCall_iff.mp ⟨p, planned⟩
      exact ⟨channel_of_planCall planned, call, object, fits⟩
    · rintro ⟨rfl, call, object, -⟩
      obtain ⟨p, planned⟩ := exists_planCall_iff.mpr ⟨call, object⟩
      exact ⟨p, planned, channel_of_planCall planned⟩
  | link c l ih =>
    have links : (∀ m ∈ (c.link l).links, m.Fits c.channel.width) ↔
        (∀ m ∈ c.links, m.Fits c.channel.width) ∧ l.Fits c.channel.width := by
      rw [Chain.link, List.forall_mem_append, List.forall_mem_singleton]
    rw [check_link_eq_ok_iff, ih]
    constructor
    · rintro ⟨⟨rfl, call, object, fits⟩, last⟩
      exact ⟨rfl, call, object, links.mpr ⟨fits, last⟩⟩
    · rintro ⟨rfl, call, object, fits⟩
      obtain ⟨fits, last⟩ := links.mp fits
      exact ⟨⟨rfl, call, object, fits⟩, last⟩

theorem check_eq_error_iff : c.check = .error f ↔ c.Refused f := by
  induction c using linkInduction with
  | call c none =>
    rw [check_of_links_nil none, map_eq_error_iff, planCall_eq_error_iff, refused_of_links_nil none]
  | link c l ih =>
    by_cases fixed : l.hasFixedCount
    · rw [check_link_eq_error_of_fixed fixed c.channel, refused_link_of_fixed fixed, ih]
    · rw [check_link_eq_error_of_not_fixed fixed, refused_link_of_not_fixed fixed, ih]
      simp only [check_eq_ok_iff, and_assoc, exists_eq_left]

end Chain

/-! ## Plans -/

section plan

variable {c : Chain} {f : Fault}

theorem plan_eq_ok_iff {p : Plan} :
    c.plan = .ok p ↔ ∃ call steps, c.planCall = .ok call ∧
      c.links.mapM (Link.step c.channel.width) = .ok steps ∧ p = { call with steps } := by
  rw [Chain.plan]
  simp only [bind_eq_ok_iff]
  constructor
  · rintro ⟨channel, passed, call, hc, steps, hs, h⟩
    obtain ⟨rfl, -⟩ := Chain.check_eq_ok_iff.mp passed
    cases h
    exact ⟨call, steps, hc, hs, rfl⟩
  · rintro ⟨call, steps, hc, hs, rfl⟩
    obtain ⟨fits, object⟩ := exists_planCall_iff.mp ⟨call, hc⟩
    have passed := Chain.check_eq_ok_iff.mpr
      ⟨rfl, fits, object, (exists_steps_iff c.channel).mp ⟨steps, hs⟩⟩
    exact ⟨c.channel, passed, call, hc, steps, hs, rfl⟩

theorem check_eq_channel_plan (c : Chain) : c.check = Plan.channel <$> c.plan := by
  cases passed : c.check with
  | error f => rw [Chain.plan, passed]; rfl
  | ok channel =>
    obtain ⟨rfl, fits, object, links⟩ := Chain.check_eq_ok_iff.mp passed
    obtain ⟨call, hc⟩ := exists_planCall_iff.mpr ⟨fits, object⟩
    obtain ⟨steps, hs⟩ := (exists_steps_iff c.channel).mpr links
    rw [plan_eq_ok_iff.mpr ⟨call, steps, hc, hs, rfl⟩, ← channel_of_planCall hc]
    rfl

theorem plan_eq_error_iff : c.plan = .error f ↔ c.Refused f := by
  rw [← Chain.check_eq_error_iff, check_eq_channel_plan, map_eq_error_iff]

/-- A chain passes its check, which yields its channel, exactly if its call and its links keep to the
table of argument counts and the call names an object. Otherwise it is refused for the fault that
stands out. Once it has passed, there is a plan for it. -/
theorem check_outcome (c : Chain) :
    (∀ channel, c.check = .ok channel ↔ channel = c.channel ∧ c.CallFits ∧ c.NamesObject ∧
      ∀ l ∈ c.links, l.Fits c.channel.width) ∧
    (∀ f, c.check = .error f ↔ c.Refused f) ∧ c.check = Plan.channel <$> c.plan :=
  ⟨fun _ => Chain.check_eq_ok_iff, fun _ => Chain.check_eq_error_iff, check_eq_channel_plan c⟩

end plan

end TweenScript
