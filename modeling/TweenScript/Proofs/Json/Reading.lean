import TweenScript.Proofs.Json.Lexemes

/-!
# Reading JSON is the grammar of JSON

For every reader of values one equivalence says when it comes to a value, in terms of the readers
that it calls. From these follow both halves: what is read is in the grammar, by recursion along the
readers, and what is in the grammar is read, by induction on the derivation. A text is read as a
value exactly if it spells the value (`Json.read_eq_some_iff`).
-/

namespace TweenScript

namespace Json

variable {cs rest : List Char}

/-! ## What each reader accepts -/

theorem reads_value {j : Json} : Reads (readValue cs) j rest ↔ ∃ gap us, Gap gap ∧ cs = gap ++ us ∧
    ((∃ vs text, us = '"' :: vs ∧ Reads (readString vs) text rest ∧
        j = .string (text.map String.ofList)) ∨
      (∃ vs items, us = '[' :: vs ∧ Reads (readArray vs) items rest ∧ j = .array items) ∨
      (∃ vs members, us = '{' :: vs ∧ Reads (readObject vs) members rest ∧ j = .object members) ∨
      (∃ c vs, us = c :: vs ∧ ¬ isGap c ∧ c ≠ '"' ∧ c ≠ '[' ∧ c ≠ '{' ∧
        Reads (readAtom us) j rest)) := by
  rw [readValue]
  simp only [reads_bind, reads_next]
  constructor
  · rintro ⟨c, us, ⟨gap, hgap, rfl, hc⟩, _, h⟩
    refine ⟨gap, c :: us, hgap, rfl, ?_⟩
    split_ifs at h with hquote hbracket hbrace
    · simp only [reads_bind, reads_pure] at h
      obtain ⟨text, _, h, -, rfl, rfl⟩ := h
      exact .inl ⟨us, text, by rw [hquote], h, rfl⟩
    · simp only [reads_bind, reads_pure] at h
      obtain ⟨items, _, h, -, rfl, rfl⟩ := h
      exact .inr (.inl ⟨us, items, by rw [hbracket], h, rfl⟩)
    · simp only [reads_bind, reads_pure] at h
      obtain ⟨members, _, h, -, rfl, rfl⟩ := h
      exact .inr (.inr (.inl ⟨us, members, by rw [hbrace], h, rfl⟩))
    · simp only [reads_bind, reads_pure] at h
      obtain ⟨_, _, h, -, rfl, rfl⟩ := h
      exact .inr (.inr (.inr ⟨c, us, rfl, hc, hquote, hbracket, hbrace, h⟩))
  · rintro ⟨gap, us, hgap, rfl, ⟨vs, text, rfl, h, rfl⟩ | ⟨vs, items, rfl, h, rfl⟩ |
      ⟨vs, members, rfl, h, rfl⟩ | ⟨c, vs, rfl, hc, hquote, hbracket, hbrace, h⟩⟩
    · refine ⟨'"', vs, ⟨gap, hgap, rfl, by decide⟩, by simp; omega, ?_⟩
      rw [if_pos rfl]
      simp only [reads_bind, reads_pure]
      exact ⟨text, rest, h, h.shorter, rfl, rfl⟩
    · refine ⟨'[', vs, ⟨gap, hgap, rfl, by decide⟩, by simp; omega, ?_⟩
      rw [if_neg (by decide), if_pos rfl]
      simp only [reads_bind, reads_pure]
      exact ⟨items, rest, h, h.shorter, rfl, rfl⟩
    · refine ⟨'{', vs, ⟨gap, hgap, rfl, by decide⟩, by simp; omega, ?_⟩
      rw [if_neg (by decide), if_neg (by decide), if_pos rfl]
      simp only [reads_bind, reads_pure]
      exact ⟨members, rest, h, h.shorter, rfl, rfl⟩
    · refine ⟨c, vs, ⟨gap, hgap, rfl, hc⟩, by simp; omega, ?_⟩
      rw [if_neg hquote, if_neg hbracket, if_neg hbrace]
      simp only [reads_bind, reads_pure]
      exact ⟨j, rest, h, h.shorter, rfl, rfl⟩

theorem reads_bracket {α : Type} {close : Char} (hclose : ¬ isGap close)
    {more : Reading (List α) cs.length} {vs : List α} :
    Reads (next? cs >>= fun p => if p.value = close then pure ⟨[], p.rest, p.shorter⟩ else more) vs
        rest ↔
      (∃ gap, Gap gap ∧ cs = gap ++ close :: rest ∧ vs = []) ∨
        (∃ gap c us, Gap gap ∧ cs = gap ++ c :: us ∧ ¬ isGap c ∧ c ≠ close ∧ Reads more vs rest) := by
  simp only [reads_bind, reads_next]
  constructor
  · rintro ⟨c, us, ⟨gap, hgap, hcs, hc⟩, _, h⟩
    split_ifs at h with closed
    · obtain ⟨rfl, rfl⟩ := reads_pure.mp h
      exact .inl ⟨gap, hgap, by rw [hcs, closed], rfl⟩
    · exact .inr ⟨gap, c, us, hgap, hcs, hc, closed, h⟩
  · rintro (⟨gap, hgap, hcs, rfl⟩ | ⟨gap, c, us, hgap, hcs, hc, other, h⟩)
    · refine ⟨close, rest, ⟨gap, hgap, hcs, hclose⟩, by simp [hcs]; omega, ?_⟩
      rw [if_pos rfl]
      exact reads_pure.mpr ⟨rfl, rfl⟩
    · refine ⟨c, us, ⟨gap, hgap, hcs, hc⟩, by simp [hcs]; omega, ?_⟩
      rw [if_neg other]
      exact h

theorem reads_array {items : List Json} : Reads (readArray cs) items rest ↔
    (∃ gap, Gap gap ∧ cs = gap ++ ']' :: rest ∧ items = []) ∨
      (∃ gap c us, Gap gap ∧ cs = gap ++ c :: us ∧ ¬ isGap c ∧ c ≠ ']' ∧
        Reads (readItems cs) items rest) := by
  rw [readArray]
  exact reads_bracket (by decide)

theorem reads_object {members : List Member} : Reads (readObject cs) members rest ↔
    (∃ gap, Gap gap ∧ cs = gap ++ '}' :: rest ∧ members = []) ∨
      (∃ gap c us, Gap gap ∧ cs = gap ++ c :: us ∧ ¬ isGap c ∧ c ≠ '}' ∧
        Reads (readMembers cs) members rest) := by
  rw [readObject]
  exact reads_bracket (by decide)

theorem reads_comma {α : Type} {close : Char} (hclose : ¬ isGap close) (other : close ≠ ',')
    {more : (us : List Char) → Reading (List α) us.length} {b : Nat} {us : List Char}
    (shorter : us.length < b) {v : α} {vs : List α} :
    Reads (next? us >>= fun p =>
        if p.value = ',' then
          more p.rest >>= fun q =>
            pure ⟨v :: q.value, q.rest, q.shorter.trans (p.shorter.trans shorter)⟩
        else if p.value = close then pure ⟨[v], p.rest, p.shorter.trans shorter⟩
        else none : Reading (List α) b) vs rest ↔
      ∃ gap, Gap gap ∧ ((∃ ws others, us = gap ++ ',' :: ws ∧ Reads (more ws) others rest ∧
          vs = v :: others) ∨
        (us = gap ++ close :: rest ∧ vs = [v])) := by
  simp only [reads_bind, reads_next]
  constructor
  · rintro ⟨c, ws, ⟨gap, hgap, hus, -⟩, _, h⟩
    refine ⟨gap, hgap, ?_⟩
    split_ifs at h with comma closed
    · simp only [reads_bind, reads_pure] at h
      obtain ⟨others, _, h, -, rfl, rfl⟩ := h
      exact .inl ⟨ws, others, by rw [hus, comma], h, rfl⟩
    · obtain ⟨rfl, rfl⟩ := reads_pure.mp h
      exact .inr ⟨by rw [hus, closed], rfl⟩
    · exact absurd h not_reads_none
  · rintro ⟨gap, hgap, ⟨ws, others, hus, h, rfl⟩ | ⟨hus, rfl⟩⟩
    · refine ⟨',', ws, ⟨gap, hgap, hus, by decide⟩, by simp [hus]; omega, ?_⟩
      rw [if_pos rfl]
      simp only [reads_bind, reads_pure]
      exact ⟨others, rest, h, h.shorter, rfl, rfl⟩
    · refine ⟨close, rest, ⟨gap, hgap, hus, hclose⟩, by simp [hus]; omega, ?_⟩
      rw [if_neg other, if_pos rfl]
      exact reads_pure.mpr ⟨rfl, rfl⟩

theorem reads_items {items : List Json} : Reads (readItems cs) items rest ↔
    ∃ item us, Reads (readValue cs) item us ∧ ∃ gap, Gap gap ∧
      ((∃ vs others, us = gap ++ ',' :: vs ∧ Reads (readItems vs) others rest ∧
          items = item :: others) ∨
        (us = gap ++ ']' :: rest ∧ items = [item])) := by
  rw [readItems, reads_bind]
  constructor
  · rintro ⟨item, us, hitem, shorter, h⟩
    exact ⟨item, us, hitem, (reads_comma (by decide) (by decide) shorter).mp h⟩
  · rintro ⟨item, us, hitem, h⟩
    have shorter := hitem.shorter
    exact ⟨item, us, hitem, shorter, (reads_comma (by decide) (by decide) shorter).mpr h⟩

/-- A member is read: a key, a colon and a value. -/
def ReadsMember (cs : List Char) (m : Member) (rest : List Char) : Prop :=
  ∃ before ks key after vs, Gap before ∧ cs = before ++ '"' :: ks ∧
    Reads (readString ks) key (after ++ ':' :: vs) ∧ Gap after ∧ Reads (readValue vs) m.value rest ∧
      m.key = key.map String.ofList

theorem ReadsMember.shorter {m : Member} (h : ReadsMember cs m rest) : rest.length < cs.length := by
  obtain ⟨before, ks, key, after, vs, -, rfl, hkey, -, hvalue, -⟩ := h
  have hkey := hkey.shorter
  have hvalue := hvalue.shorter
  simp only [List.length_append, List.length_cons] at hkey ⊢
  omega

theorem reads_members {members : List Member} : Reads (readMembers cs) members rest ↔
    ∃ m us, ReadsMember cs m us ∧ ∃ gap, Gap gap ∧
      ((∃ vs others, us = gap ++ ',' :: vs ∧ Reads (readMembers vs) others rest ∧
          members = m :: others) ∨
        (us = gap ++ '}' :: rest ∧ members = [m])) := by
  rw [readMembers]
  rw [reads_bind]
  simp only [reads_next]
  constructor
  · rintro ⟨q, ks, ⟨before, hbefore, rfl, -⟩, _, h⟩
    split_ifs at h with hquote
    · exact absurd h not_reads_none
    · obtain ⟨key, us, hkey, _, h⟩ := reads_bind.mp h
      obtain ⟨c, vs, hnext, _, h⟩ := reads_bind.mp h
      obtain ⟨after, hafter, rfl, -⟩ := reads_next.mp hnext
      split_ifs at h with hcolon
      · exact absurd h not_reads_none
      · obtain ⟨value, us, hvalue, _, h⟩ := reads_bind.mp h
        obtain rfl : q = '"' := not_not.mp hquote
        obtain rfl : c = ':' := not_not.mp hcolon
        have hm : ReadsMember (before ++ '"' :: ks) ⟨key.map String.ofList, value⟩ us :=
          ⟨before, ks, key, after, vs, hbefore, rfl, hkey, hafter, hvalue, rfl⟩
        exact ⟨_, us, hm, (reads_comma (by decide) (by decide) hm.shorter).mp h⟩
  · rintro ⟨⟨_, value⟩, us, hm, h⟩
    have shorter := hm.shorter
    obtain ⟨before, ks, key, after, vs, hbefore, rfl, hkey, hafter, hvalue, rfl⟩ := hm
    refine ⟨'"', ks, ⟨before, hbefore, rfl, by decide⟩, by simp; omega, ?_⟩
    rw [if_neg (not_not.mpr rfl)]
    refine reads_bind.mpr ⟨key, _, hkey, hkey.shorter, ?_⟩
    refine reads_bind.mpr ⟨':', vs, reads_next.mpr ⟨after, hafter, rfl, by decide⟩, by simp; omega, ?_⟩
    rw [if_neg (not_not.mpr rfl)]
    refine reads_bind.mpr ⟨value, us, hvalue, hvalue.shorter, ?_⟩
    exact (reads_comma (by decide) (by decide) shorter).mpr h

/-! ## What is read is in the grammar -/

/-- The characters of `cs` in front of `rest` spell `v`. -/
def Fronts (c : Category) (cs : List Char) (v : c.Tree) (rest : List Char) : Prop :=
  ∃ used, cs = used ++ rest ∧ Spells c used v

theorem Fronts.gap {j : Json} {gap : List Char} (h : Fronts .element cs j (gap ++ rest))
    (hgap : Gap gap) : Fronts .element cs j rest := by
  obtain ⟨used, hcs, hs⟩ := h
  cases hs with
  | @element before used after j hb hs ha =>
    exact ⟨_, by rw [hcs]; simp only [List.append_assoc],
      .element hb hs (gap_append.mpr ⟨ha, hgap⟩)⟩

theorem Fronts.of_value {j : Json} {gap us : List Char} (h : Fronts .value us j rest)
    (hcs : cs = gap ++ us) (hgap : Gap gap) : Fronts .element cs j rest := by
  obtain ⟨used, hus, hs⟩ := h
  exact ⟨gap ++ (used ++ []), by simp [hcs, hus], .element hgap hs gap_nil⟩

theorem atom_sound {j : Json} (h : Reads (readAtom cs) j rest) : Fronts .value cs j rest := by
  unfold readAtom at h
  split at h
  · obtain ⟨rfl, rfl⟩ := reads_some.mp h
    exact ⟨_, rfl, .nullWord⟩
  · obtain ⟨rfl, rfl⟩ := reads_some.mp h
    exact ⟨_, rfl, .trueWord⟩
  · obtain ⟨rfl, rfl⟩ := reads_some.mp h
    exact ⟨_, rfl, .falseWord⟩
  · obtain ⟨used, n, hcs, hn, rfl⟩ := number_sound h
    exact ⟨used, hcs, .number hn⟩

-- The equations for `cs` are kept as hypotheses: the termination proofs read lengths off them.
mutual

theorem value_sound (cs : List Char) {j : Json} {rest : List Char}
    (h : Reads (readValue cs) j rest) : Fronts .element cs j rest := by
  obtain ⟨gap, us, hgap, hcs, cases⟩ := reads_value.mp h
  rcases cases with ⟨vs, text, hus, hv, rfl⟩ | ⟨vs, items, hus, hv, rfl⟩ |
    ⟨vs, members, hus, hv, rfl⟩ | ⟨c, vs, -, -, -, -, -, hv⟩
  · obtain ⟨used, hvs, hs⟩ := reads_string_iff.mp hv
    exact Fronts.of_value ⟨_, by simp [hus, hvs, quoted], .string hs⟩ hcs hgap
  · have hlen : vs.length < cs.length := by simp [hcs, hus]; omega
    exact (array_sound vs hv).of_value (by rw [hcs, hus]) hgap
  · have hlen : vs.length < cs.length := by simp [hcs, hus]; omega
    exact (object_sound vs hv).of_value (by rw [hcs, hus]) hgap
  · exact (atom_sound hv).of_value hcs hgap
termination_by 3 * cs.length
decreasing_by all_goals omega

theorem array_sound (cs : List Char) {items : List Json} {rest : List Char}
    (h : Reads (readArray cs) items rest) : Fronts .value ('[' :: cs) (.array items) rest := by
  rcases reads_array.mp h with ⟨gap, hgap, hcs, rfl⟩ | ⟨_, _, _, -, -, -, -, hi⟩
  · exact ⟨_, by simp [hcs], .emptyArray hgap⟩
  · obtain ⟨used, hcs, hs⟩ := items_sound cs hi
    exact ⟨_, by simp [hcs], .array hs⟩
termination_by 3 * cs.length + 2
decreasing_by all_goals omega

theorem items_sound (cs : List Char) {items : List Json} {rest : List Char}
    (h : Reads (readItems cs) items rest) : Fronts .items cs items (']' :: rest) := by
  obtain ⟨item, us, hitem, gap, hgap, h⟩ := reads_items.mp h
  have hlen := hitem.shorter
  rcases h with ⟨vs, others, hus, ho, rfl⟩ | ⟨hus, rfl⟩
  · have hlen' : vs.length < us.length := by simp [hus]; omega
    obtain ⟨used, hcs, hs⟩ := (hus ▸ value_sound cs hitem).gap hgap
    obtain ⟨more, hvs, hs'⟩ := items_sound vs ho
    exact ⟨_, by simp [hcs, hvs], .moreItems hs hs'⟩
  · obtain ⟨used, hcs, hs⟩ := (hus ▸ value_sound cs hitem).gap hgap
    exact ⟨used, hcs, .oneItem hs⟩
termination_by 3 * cs.length + 1
decreasing_by all_goals omega

theorem object_sound (cs : List Char) {members : List Member} {rest : List Char}
    (h : Reads (readObject cs) members rest) :
    Fronts .value ('{' :: cs) (.object members) rest := by
  rcases reads_object.mp h with ⟨gap, hgap, hcs, rfl⟩ | ⟨_, _, _, -, -, -, -, hm⟩
  · exact ⟨_, by simp [hcs], .emptyObject hgap⟩
  · obtain ⟨used, hcs, hs⟩ := members_sound cs hm
    exact ⟨_, by simp [hcs], .object hs⟩
termination_by 3 * cs.length + 2
decreasing_by all_goals omega

theorem member_sound (cs : List Char) {m : Member} {gap rest : List Char}
    (h : ReadsMember cs m (gap ++ rest)) (hgap : Gap gap) : Fronts .member cs m rest := by
  obtain ⟨before, ks, key, after, vs, hbefore, hcs, hkey, hafter, hvalue, hm⟩ := h
  have hlen := hkey.shorter
  have hlen' : vs.length < cs.length := by
    simp only [List.length_append, List.length_cons] at hlen
    simp [hcs]
    omega
  obtain ⟨text, hks, hk⟩ := reads_string_iff.mp hkey
  obtain ⟨used, hvs, hs⟩ := (value_sound vs hvalue).gap hgap
  obtain ⟨_, value⟩ := m
  cases hm
  exact ⟨_, by simp [hcs, hks, hvs, quoted], .member hbefore hk hafter hs⟩
termination_by 3 * cs.length
decreasing_by all_goals omega

theorem members_sound (cs : List Char) {members : List Member} {rest : List Char}
    (h : Reads (readMembers cs) members rest) : Fronts .members cs members ('}' :: rest) := by
  obtain ⟨m, us, hm, gap, hgap, h⟩ := reads_members.mp h
  rcases h with ⟨vs, others, rfl, ho, rfl⟩ | ⟨rfl, rfl⟩
  · obtain ⟨used, hcs, hs⟩ := member_sound cs hm hgap
    have hlen : vs.length < cs.length := by simp [hcs]; omega
    obtain ⟨more, hvs, hs'⟩ := members_sound vs ho
    exact ⟨_, by simp [hcs, hvs], .moreMembers hs hs'⟩
  · obtain ⟨used, hcs, hs⟩ := member_sound cs hm hgap
    exact ⟨used, hcs, .oneMember hs⟩
termination_by 3 * cs.length + 1
decreasing_by all_goals omega

end

/-! ## What is in the grammar is read -/

/-- What a number begins with. -/
def beginsNumber (c : Char) : Bool :=
  c.isDigit || c == '-'

/-- What a value without brackets and quotes begins with. -/
def beginsAtom (c : Char) : Bool :=
  beginsNumber c || c ∈ ['n', 't', 'f']

/-- What a value begins with. -/
def beginsValue (c : Char) : Bool :=
  beginsAtom c || c ∈ ['"', '[', '{']

theorem ne_of_begins {p : Char → Bool} {c d : Char} (hc : p c = true) (hd : p d = false) : c ≠ d := by
  rintro rfl
  rw [hd] at hc
  cases hc

theorem not_isGap_of_begins {p : Char → Bool} {c : Char} (hc : p c = true)
    (h : [' ', '\t', '\r', '\n'].any p = false) : ¬ isGap c := fun hgap =>
  List.any_eq_false.mp h c (isGap_iff.mp hgap) hc

theorem Number.head {n : Numeral} (h : Number cs n) : ∃ c us, cs = c :: us ∧ beginsNumber c := by
  cases h with
  | @mk negative whole _ _ _ _ isWhole _ _ =>
    obtain ⟨c, ds, rfl⟩ := List.exists_cons_of_ne_nil isWhole.1.1
    have digit := isWhole.1.2 c List.mem_cons_self
    cases negative with
    | true => exact ⟨'-', _, rfl, by decide⟩
    | false => exact ⟨c, _, rfl, by simp [beginsNumber, digit]⟩

theorem Spells.head {c : Category} {v : c.Tree} (h : Spells c cs v) :
    ∃ gap d us, Gap gap ∧ cs = gap ++ d :: us ∧ beginsValue d := by
  induction h with
  | nullWord | trueWord | falseWord | string | emptyArray | array | emptyObject | object =>
    exact ⟨[], _, _, gap_nil, rfl, by decide⟩
  | number h =>
    obtain ⟨d, us, rfl, hd⟩ := h.head
    exact ⟨[], d, us, gap_nil, rfl, by simp [beginsValue, beginsAtom, hd]⟩
  | @element before cs after j hb _ _ ih =>
    obtain ⟨gap, d, us, hgap, rfl, hd⟩ := ih
    exact ⟨before ++ gap, d, us ++ after, gap_append.mpr ⟨hb, hgap⟩, by simp, hd⟩
  | oneItem _ ih | oneMember _ ih => exact ih
  | moreItems _ _ ih | moreMembers _ _ ih =>
    obtain ⟨gap, d, us, hgap, rfl, hd⟩ := ih
    exact ⟨gap, d, _, hgap, by simp; rfl, hd⟩
  | @member before ks after cs key j hb _ _ _ _ =>
    exact ⟨before, '"', _, hb, rfl, by decide⟩

theorem endsNumber_cons {c : Char} (h : c ∈ [' ', '\t', '\r', '\n', ',', ']', '}']) :
    EndsNumber (c :: rest) := by
  intro d hd
  obtain rfl : c = d := Option.some.inj hd
  simp only [List.mem_cons, List.not_mem_nil, or_false] at h
  rcases h with rfl | rfl | rfl | rfl | rfl | rfl | rfl <;> decide

theorem EndsNumber.gap {gap : List Char} (h : EndsNumber rest) (hgap : Gap gap) :
    EndsNumber (gap ++ rest) := by
  cases gap with
  | nil => exact h
  | cons c gap =>
    have hc := hgap c List.mem_cons_self
    exact endsNumber_cons (List.mem_append_left [',', ']', '}'] hc)

/-- What readers make of characters that spell `v`, whatever comes behind them. -/
def Accepts : (c : Category) → List Char → c.Tree → Prop
  | .value, cs, j =>
    ∀ gap rest, Gap gap → EndsNumber rest → Reads (readValue (gap ++ (cs ++ rest))) j rest
  | .element, cs, j =>
    ∀ rest, EndsNumber rest → ∃ gap, Gap gap ∧ Reads (readValue (cs ++ rest)) j (gap ++ rest)
  | .items, cs, items => ∀ rest, Reads (readItems (cs ++ ']' :: rest)) items rest
  | .member, cs, m =>
    ∀ rest, EndsNumber rest → ∃ gap, Gap gap ∧ ReadsMember (cs ++ rest) m (gap ++ rest)
  | .members, cs, members => ∀ rest, Reads (readMembers (cs ++ '}' :: rest)) members rest

theorem accepts_atom {j : Json} (head : ∃ c us, cs = c :: us ∧ beginsAtom c)
    (read : ∀ rest, EndsNumber rest → Reads (readAtom (cs ++ rest)) j rest) :
    Accepts .value cs j := by
  intro gap rest hgap ends
  obtain ⟨c, us, rfl, hc⟩ := head
  refine reads_value.mpr ⟨gap, _, hgap, rfl, .inr (.inr (.inr ⟨c, us ++ rest, rfl, ?_⟩))⟩
  exact ⟨not_isGap_of_begins hc (by decide), ne_of_begins hc (by decide),
    ne_of_begins hc (by decide), ne_of_begins hc (by decide), read rest ends⟩

theorem accepts_number {n : Numeral} (h : Number cs n) : Accepts .value cs (Json.number n) := by
  obtain ⟨c, us, rfl, hc⟩ := h.head
  refine accepts_atom ⟨c, us, rfl, by simp [beginsAtom, hc]⟩ fun rest ends => ?_
  rw [readAtom.eq_4]
  · exact number_complete h ends
  all_goals
    intro _ heq
    exact ne_of_begins hc (by decide) (List.cons.inj heq).1

theorem Spells.accepts {c : Category} {v : c.Tree} (h : Spells c cs v) : Accepts c cs v := by
  induction h with
  | nullWord => exact accepts_atom ⟨_, _, rfl, by decide⟩ fun _ _ => reads_some.mpr ⟨rfl, rfl⟩
  | trueWord => exact accepts_atom ⟨_, _, rfl, by decide⟩ fun _ _ => reads_some.mpr ⟨rfl, rfl⟩
  | falseWord => exact accepts_atom ⟨_, _, rfl, by decide⟩ fun _ _ => reads_some.mpr ⟨rfl, rfl⟩
  | number h => exact accepts_number h
  | @string cs text h =>
    intro gap rest hgap _
    refine reads_value.mpr ⟨gap, _, hgap, rfl, .inl ⟨cs ++ ['"'] ++ rest, text, rfl, ?_, rfl⟩⟩
    exact (string_complete h rest).congr (by simp)
  | @emptyArray inner h =>
    intro gap rest hgap _
    refine reads_value.mpr ⟨gap, _, hgap, rfl, .inr (.inl ⟨inner ++ [']'] ++ rest, [], rfl, ?_, rfl⟩)⟩
    exact reads_array.mpr (.inl ⟨inner, h, by simp, rfl⟩)
  | @array cs items h ih =>
    intro gap rest hgap _
    refine reads_value.mpr
      ⟨gap, _, hgap, rfl, .inr (.inl ⟨cs ++ [']'] ++ rest, items, rfl, ?_, rfl⟩)⟩
    obtain ⟨inner, d, us, hinner, heq, hd⟩ := h.head
    refine reads_array.mpr (.inr ⟨inner, d, us ++ ([']'] ++ rest), hinner, by simp [heq],
      not_isGap_of_begins hd (by decide), ne_of_begins hd (by decide), ?_⟩)
    exact (ih rest).congr (by simp)
  | @emptyObject inner h =>
    intro gap rest hgap _
    refine reads_value.mpr
      ⟨gap, _, hgap, rfl, .inr (.inr (.inl ⟨inner ++ ['}'] ++ rest, [], rfl, ?_, rfl⟩))⟩
    exact reads_object.mpr (.inl ⟨inner, h, by simp, rfl⟩)
  | @object cs members h ih =>
    intro gap rest hgap _
    refine reads_value.mpr
      ⟨gap, _, hgap, rfl, .inr (.inr (.inl ⟨cs ++ ['}'] ++ rest, members, rfl, ?_, rfl⟩))⟩
    obtain ⟨inner, d, us, hinner, heq, hd⟩ := h.head
    refine reads_object.mpr (.inr ⟨inner, d, us ++ (['}'] ++ rest), hinner, by simp [heq],
      not_isGap_of_begins hd (by decide), ne_of_begins hd (by decide), ?_⟩)
    exact (ih rest).congr (by simp)
  | @element before cs after j hb h ha ih =>
    intro rest ends
    refine ⟨after, ha, ?_⟩
    exact (ih before (after ++ rest) hb (ends.gap ha)).congr (by simp)
  | oneItem h ih =>
    intro rest
    obtain ⟨gap, hgap, h⟩ := ih (']' :: rest) (endsNumber_cons (by decide))
    exact reads_items.mpr ⟨_, _, h, gap, hgap, .inr ⟨rfl, rfl⟩⟩
  | @moreItems cs ds j items h more ih ih' =>
    intro rest
    obtain ⟨gap, hgap, h⟩ := ih (',' :: (ds ++ ']' :: rest)) (endsNumber_cons (by decide))
    refine reads_items.mpr
      ⟨j, _, h.congr (by simp), gap, hgap, .inl ⟨_, items, rfl, ih' rest, rfl⟩⟩
  | @member before ks after cs key j hb hk ha h ih =>
    intro rest ends
    obtain ⟨gap, hgap, h⟩ := ih rest ends
    refine ⟨gap, hgap, before, _, key, after, cs ++ rest, hb, ?_, string_complete hk _, ha, h, rfl⟩
    simp [quoted]
  | oneMember h ih =>
    intro rest
    obtain ⟨gap, hgap, h⟩ := ih ('}' :: rest) (endsNumber_cons (by decide))
    exact reads_members.mpr ⟨_, _, h, gap, hgap, .inr ⟨rfl, rfl⟩⟩
  | @moreMembers cs ds m members h more ih ih' =>
    intro rest
    obtain ⟨gap, hgap, h⟩ := ih (',' :: (ds ++ '}' :: rest)) (endsNumber_cons (by decide))
    refine reads_members.mpr ⟨m, _, ?_, gap, hgap, .inl ⟨_, members, rfl, ih' rest, rfl⟩⟩
    rw [List.append_assoc]
    exact h

/-! ## Whole texts -/

/-- A text is read as a value exactly if it spells the value, with blanks around it. -/
theorem read_eq_some_iff {text : String} {j : Json} :
    read? text = some j ↔ Spells .element text.toList j := by
  unfold read?
  constructor
  · intro h
    obtain ⟨⟨value, rest, shorter⟩, hread, h⟩ := Option.bind_eq_some_iff.mp h
    dsimp only at h
    split at h
    · rename_i hnext
      cases h
      have element := value_sound text.toList ⟨shorter, hread⟩
      rw [← List.append_nil rest] at element
      obtain ⟨used, htext, hs⟩ := element.gap (next_eq_none_iff.mp hnext)
      rw [htext, List.append_nil]
      exact hs
    · cases h
  · intro h
    obtain ⟨gap, hgap, hread⟩ := h.accepts [] fun _ hc => nomatch hc
    obtain ⟨shorter, hread⟩ := hread.congr (List.append_nil _).symm
    refine Option.bind_eq_some_iff.mpr ⟨_, hread, ?_⟩
    dsimp only
    rw [List.append_nil, next_eq_none_iff.mpr hgap]
    rfl

end Json

end TweenScript
