import TweenScript.Token.Scanner

/-!
# Scanning to the end

The items of a text, found one at a time, are its tokens up to the first fault and then what comes
after. A text scans to its end (`Scans`) if no fault does.
-/

namespace TweenScript

namespace Scanner

variable {s s' : Scanner}

/-! ## One item -/

theorem items_of_finish (h : s.next = (.finish, s')) : s.items = [(.finish, s')] := by
  rw [items.eq_def]
  split <;> rename_i heq <;> rw [h] at heq <;> cases heq
  rfl

theorem items_of_token {t : Token} (h : s.next = (.token t, s')) :
    s.items = (.token t, s') :: s'.items := by
  rw [items.eq_def]
  split <;> rename_i heq <;> rw [h] at heq <;> cases heq
  rfl

theorem items_of_fault {f : Fault} (h : s.next = (.fault f, s')) :
    s.items = (.fault f, s') :: s'.items := by
  rw [items.eq_def]
  split <;> rename_i heq <;> rw [h] at heq <;> cases heq
  rfl

theorem tokens_of_finish (h : s.next = (.finish, s')) : s.tokens = ⟨[], none, s'⟩ := by
  rw [tokens.eq_def]
  split <;> rename_i heq <;> rw [h] at heq <;> cases heq
  rfl

theorem tokens_of_token {t : Token} (h : s.next = (.token t, s')) :
    s.tokens = { s'.tokens with list := (t, s') :: s'.tokens.list } := by
  rw [tokens.eq_def]
  split <;> rename_i heq <;> rw [h] at heq <;> cases heq
  rfl

theorem tokens_of_fault {f : Fault} (h : s.next = (.fault f, s')) :
    s.tokens = ⟨[], some f, s'⟩ := by
  rw [tokens.eq_def]
  split <;> rename_i heq <;> rw [h] at heq <;> cases heq
  rfl

/-! ## All items -/

theorem items_eq_iff (s : Scanner) (ts : List Token) :
    s.items.map (·.1) = ts.map Item.token ++ [.finish] ↔
      s.tokens.fault = none ∧ s.tokens.list.map (·.1) = ts := by
  rcases hs : s.next with ⟨i, s'⟩
  cases i with
  | finish =>
    rw [items_of_finish hs, tokens_of_finish hs]
    cases ts <;> simp
  | fault f =>
    rw [items_of_fault hs, tokens_of_fault hs]
    cases ts <;> simp
  | token t =>
    rw [items_of_token hs, tokens_of_token hs]
    cases ts with
    | nil => simp
    | cons u ts =>
      have hlt := next_rest_lt hs (by simp)
      have ih := items_eq_iff s' ts
      simp only [List.map_cons, List.cons_append, List.cons.injEq, Item.token.injEq, ih]
      exact and_left_comm
termination_by s.rest.length

end Scanner

/-- The scanner turns all of `text` into the tokens `ts`, without a fault. -/
def Scans (text : String) (ts : List Token) : Prop :=
  (Scanner.ofString text).items.map (·.1) = ts.map Item.token ++ [.finish]

theorem scans_iff {text : String} {ts : List Token} :
    Scans text ts ↔ (Scanner.ofString text).tokens.fault = none ∧
      (Scanner.ofString text).tokens.list.map (·.1) = ts :=
  Scanner.items_eq_iff _ ts

end TweenScript
