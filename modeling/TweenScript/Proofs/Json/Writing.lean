import TweenScript.Json.Writer
import TweenScript.Proofs.Json.Lexemes

/-!
# Written JSON is in the grammar

The text that is written for a value spells this value (`Json.write_spells`), provided that all its
strings have texts and all its numerals are numerals of JSON; such are the numerals of finite
floating-point numbers (`Json.number_numeral`).
-/

namespace TweenScript

namespace Json

/-! ## Strings -/

theorem quad_control {c : Char} (h : c.toNat < 0x20) :
    Quad ['0', '0', hexDigit (c.toNat / 16), hexDigit (c.toNat % 16)] c.toNat := by
  have all : ∀ n < 32,
      hexQuad? '0' '0' (hexDigit (n / 16)) (hexDigit (n % 16)) = some n := by decide
  exact quad_cons.mpr (all c.toNat h)

theorem chars_escape (c : Char) {cs : List Char} {text : Option (List Char)} (h : Chars cs text) :
    Chars (escape c ++ cs) (text.map (c :: ·)) := by
  unfold escape
  split_ifs with quote backslash newline carriage tab backspace feed control
  · exact .short (by rw [quote]; decide) h
  · exact .short (by rw [backslash]; decide) h
  · exact .short (by rw [newline]; decide) h
  · exact .short (by rw [carriage]; decide) h
  · exact .short (by rw [tab]; decide) h
  · exact .short (by rw [backspace]; decide) h
  · exact .short (by rw [feed]; decide) h
  · exact .unit (quad_control control) h
  · exact .plain (Nat.le_of_not_lt control) quote backslash h

theorem chars_flatMap_escape (cs : List Char) : Chars (cs.flatMap escape) (some cs) := by
  induction cs with
  | nil => exact .nil
  | cons c cs ih => exact chars_escape c ih

theorem quote_eq (cs : List Char) : quote cs = quoted (cs.flatMap escape) :=
  rfl

/-! ## Numerals -/

theorem digits_toDigits (n : Nat) : Digits (Nat.toDigits 10 n) :=
  ⟨Nat.toDigits_ne_nil, fun _ hc => Nat.isDigit_of_mem_toDigits (by decide) (by decide) hc⟩

theorem exponent_text (e : Int) :
    Exponent ('e' :: (if e < 0 then ['-'] else ['+']) ++ Nat.toDigits 10 e.natAbs) (some e) := by
  have value : Nat.ofDigitChars 10 (Nat.toDigits 10 e.natAbs) 0 = e.natAbs :=
    Nat.ofDigitChars_toDigits (by decide) (by decide)
  have digits := digits_toDigits e.natAbs
  by_cases he : e < 0
  · have exponent : Exponent ('e' :: '-' :: Nat.toDigits 10 e.natAbs) _ := .minus (.inl rfl) digits
    rw [value, show -(e.natAbs : Int) = e by omega] at exponent
    rw [if_pos he]
    exact exponent
  · have exponent : Exponent ('e' :: '+' :: Nat.toDigits 10 e.natAbs) _ := .plus (.inl rfl) digits
    rw [value, show (e.natAbs : Int) = e by omega] at exponent
    rw [if_neg he]
    exact exponent

theorem number_text {n : Numeral} (hw : Whole n.whole) (hf : ∀ c ∈ n.fraction, c.isDigit) :
    Number (n.text "+") n := by
  obtain ⟨negative, whole, fraction, exponent⟩ := n
  have isFraction : Fraction (if fraction = [] then [] else '.' :: fraction) fraction := by
    split_ifs with h
    · rw [h]
      exact .absent
    · exact .point ⟨h, hf⟩
  cases exponent with
  | none => exact .mk negative hw isFraction .absent
  | some e => exact .mk negative hw isFraction (exponent_text e)

theorem head_toDigits {n : Nat} (h : 0 < n) : (Nat.toDigits 10 n).head? ≠ some '0' := by
  induction n using Nat.strongRecOn with
  | ind n ih =>
    by_cases hn : n < 10
    · have all : ∀ m < 10, 0 < m → (Nat.toDigits 10 m).head? ≠ some '0' := by decide
      exact all n hn h
    · have shorter : 0 < n / 10 := by omega
      rw [Nat.toDigits_of_base_le (by decide) (by omega),
        List.head?_append_of_ne_nil _ Nat.toDigits_ne_nil]
      exact ih (n / 10) (by omega) shorter

end Json

/-! ## Shortest decimals -/

namespace Decimal

theorem pos_of_inside {even : Prop} [Decidable even] {low x high : Nat} (hlow : 0 < low)
    (h : (if even then decide (low ≤ x) && decide (x ≤ high)
      else decide (low < x) && decide (x < high)) = true) : 0 < x := by
  split at h <;> simp only [Bool.and_eq_true, decide_eq_true_eq] at h <;> omega

theorem onGrid_pos {tie : Tie} {b : Binary} {k : Int} {n : Nat} (hb : 0 < b.significand)
    (h : onGrid tie b k = some n) : 0 < n := by
  have reach : b.reachBelow ≤ 2 := by
    unfold Binary.reachBelow
    split <;> omega
  have low : 0 < (4 * b.significand - b.reachBelow) *
      (Nat.pow 2 (b.exponent - 2).toNat * Nat.pow 10 (-k).toNat) :=
    Nat.mul_pos (by omega) (Nat.mul_pos (Nat.pow_pos (by decide)) (Nat.pow_pos (by decide)))
  unfold onGrid at h
  dsimp only at h
  split at h
  · cases h
  · rename_i lower _
    cases h
    exact Nat.pos_of_mul_pos_right (pos_of_inside low lower)
  · cases h
    exact Nat.succ_pos _
  · rename_i lower upper
    have positive := Nat.pos_of_mul_pos_right (pos_of_inside low lower)
    split at h
    · cases h
      exact positive
    · cases h
      exact Nat.succ_pos _
    · cases h
      split
      · exact Nat.succ_pos _
      · exact positive

theorem shortest_pos {tie : Tie} {b : Binary} (hb : 0 < b.significand) :
    0 < (shortest tie b).coefficient ∨ shortest tie b = ⟨0, 0⟩ := by
  unfold shortest
  dsimp only
  cases hfound : (List.range 20).findSome? fun (i : Nat) =>
    (onGrid tie b (topExponent b - i)).map fun n => (⟨n, topExponent b - i⟩ : Decimal) with
  | none => exact .inr rfl
  | some d =>
    obtain ⟨i, -, hi⟩ := List.exists_of_findSome?_eq_some hfound
    obtain ⟨n, hn, rfl⟩ := Option.map_eq_some_iff.mp hi
    exact .inl (onGrid_pos hb hn)

end Decimal

namespace Json

theorem whole_zero : Whole ['0'] :=
  ⟨⟨by simp, by simp⟩, fun _ => rfl⟩

theorem whole_take_one {ds : List Char} (h : Digits ds) : Whole (ds.take 1) := by
  obtain ⟨c, ds, rfl⟩ := List.exists_cons_of_ne_nil h.1
  refine ⟨⟨by simp, by simpa using h.2 c List.mem_cons_self⟩, fun hzero => ?_⟩
  obtain rfl : c = '0' := Option.some.inj hzero
  rfl

theorem whole_positional (st : Style) (negative : Bool) {d : Decimal}
    (hd : 0 < d.coefficient ∨ d = ⟨0, 0⟩) :
    Whole (st.positionalNumeral negative d.digits d.exponent).whole := by
  have digits : Digits d.digits := digits_toDigits d.coefficient
  unfold Style.positionalNumeral
  split_ifs with he
  · rcases hd with hd | rfl
    · refine ⟨⟨by simp [digits.1], ?_⟩, fun hzero => ?_⟩
      · simp only [List.forall_mem_append]
        exact ⟨digits.2, fun c hc => by rw [List.eq_of_mem_replicate hc]; decide⟩
      · rw [List.head?_append_of_ne_nil _ digits.1] at hzero
        exact absurd hzero (head_toDigits hd)
    · exact whole_zero
  · have positive : 0 < d.coefficient := hd.resolve_right (by rintro rfl; exact he (Int.le_refl _))
    have places : 0 < d.exponent.natAbs := by omega
    dsimp only
    by_cases short : d.digits.length ≤ d.exponent.natAbs
    -- all digits stand behind the point
    · have zeros : d.exponent.natAbs + 1 - d.digits.length =
          (d.exponent.natAbs - d.digits.length) + 1 := by omega
      have one : (List.replicate (d.exponent.natAbs + 1 - d.digits.length) '0' ++ d.digits).length -
          d.exponent.natAbs = 1 := by
        rw [List.length_append, List.length_replicate]
        omega
      rw [one, zeros, List.replicate_succ]
      exact whole_zero
    · have noZeros : d.exponent.natAbs + 1 - d.digits.length = 0 := by omega
      rw [noZeros, List.replicate_zero, List.nil_append]
      obtain ⟨c, ds, hds⟩ := List.exists_cons_of_ne_nil digits.1
      have head := head_toDigits positive
      rw [← Decimal.digits, hds] at head
      obtain ⟨k, hk⟩ : ∃ k, d.digits.length - d.exponent.natAbs = k + 1 :=
        ⟨d.digits.length - d.exponent.natAbs - 1, by omega⟩
      rw [hk]
      refine ⟨⟨by simp [hds], fun e he => digits.2 e (List.mem_of_mem_take he)⟩, fun hzero => ?_⟩
      rw [hds] at hzero
      exact absurd hzero head

theorem fraction_positional {st : Style} (hst : ∀ c ∈ st.wholeFraction, c.isDigit) (negative : Bool)
    (d : Decimal) :
    ∀ c ∈ (st.positionalNumeral negative d.digits d.exponent).fraction, c.isDigit := by
  unfold Style.positionalNumeral
  split_ifs
  · exact hst
  · intro c hc
    rcases List.mem_append.mp (List.mem_of_mem_drop hc) with hc | hc
    · rw [List.eq_of_mem_replicate hc]
      decide
    · exact (digits_toDigits d.coefficient).2 c hc

/-- **Numerals of JSON**: the numeral of a floating-point number is written as it is read. -/
theorem number_numeral (v : Float) :
    Number ((Style.json.numeral v).text "+") (Style.json.numeral v) := by
  have wholeFraction : ∀ c ∈ Style.json.wholeFraction, c.isDigit := by simp [Style.json]
  unfold Style.numeral
  dsimp only
  split_ifs with hzero
  · exact number_text whole_zero wholeFraction
  · exact number_text (whole_positional _ _ (Decimal.shortest_pos (Nat.pos_of_ne_zero hzero)))
      (fraction_positional wholeFraction _ _)
  · have digits := digits_toDigits (Decimal.shortest Style.json.tie (Binary.ofFloat v)).coefficient
    exact number_text (whole_take_one digits) fun c hc => digits.2 c (List.mem_of_mem_drop hc)

/-! ## Values -/

theorem gap_newline (depth : Nat) : Gap (newline depth) := by
  refine gap_cons.mpr ⟨by decide, fun c hc => ?_⟩
  rw [List.eq_of_mem_replicate hc]
  decide

/-- What can be written: every string has a text, and every numeral is one of JSON. -/
inductive Writable : Json → Prop where
  | null : Writable .null
  | bool (b : Bool) : Writable (.bool b)
  | number {n : Numeral} (h : Number (n.text "+") n) : Writable (.number n)
  | string (s : String) : Writable (.string (some s))
  | array {items : List Json} (h : ∀ item ∈ items, Writable item) : Writable (.array items)
  | object {members : List Member} (keys : ∀ m ∈ members, m.key ≠ none)
    (values : ∀ m ∈ members, Writable m.value) : Writable (.object members)

/-- The written text of a value spells it, at any depth. -/
def WritesItself (j : Json) : Prop :=
  ∀ depth, Spells .value (j.write depth) j

theorem spells_quoteText (s : String) :
    ∃ cs, quoteText (some s) = quoted cs ∧ Chars cs (some s.toList) :=
  ⟨_, quote_eq s.toList, chars_flatMap_escape s.toList⟩

theorem spells_writeItems (depth : Nat) {item : Json} {items : List Json}
    (h : ∀ j ∈ item :: items, WritesItself j) {before after : List Char} (hb : Gap before)
    (ha : Gap after) :
    Spells .items (before ++ (item.write depth ++ (writeItems depth items ++ after)))
      (item :: items : List Json) := by
  induction items generalizing item before with
  | nil =>
    rw [writeItems]
    exact .oneItem (.element hb (h item List.mem_cons_self depth) ha)
  | cons next items ih =>
    have first := Spells.element hb (h item List.mem_cons_self depth) gap_nil
    have more := ih (fun j hj => h j (List.mem_cons_of_mem item hj)) (gap_newline depth)
    rw [writeItems]
    convert Spells.moreItems first more using 1
    simp

theorem spells_writeMember (depth : Nat) {m : Member} (hk : m.key ≠ none)
    (h : WritesItself m.value) {before after : List Char} (hb : Gap before) (ha : Gap after) :
    Spells .member (before ++ (m.write depth ++ after)) m := by
  obtain ⟨key, value⟩ := m
  obtain ⟨s, rfl⟩ := Option.ne_none_iff_exists'.mp hk
  obtain ⟨cs, hquote, hcs⟩ := spells_quoteText s
  have blank : Gap [' '] := gap_cons.mpr ⟨by decide, gap_nil⟩
  have spelled := Spells.member hb hcs gap_nil (Spells.element blank (h depth) ha)
  rw [Member.write, hquote]
  convert spelled using 1
  simp

theorem spells_writeMembers (depth : Nat) {m : Member} {members : List Member}
    (hk : ∀ m' ∈ m :: members, m'.key ≠ none) (h : ∀ m' ∈ m :: members, WritesItself m'.value)
    {before after : List Char} (hb : Gap before) (ha : Gap after) :
    Spells .members (before ++ (m.write depth ++ (writeMembers depth members ++ after)))
      (m :: members : List Member) := by
  induction members generalizing m before with
  | nil =>
    rw [writeMembers]
    exact .oneMember
      (spells_writeMember depth (hk m List.mem_cons_self) (h m List.mem_cons_self) hb ha)
  | cons next members ih =>
    have first := spells_writeMember depth (hk m List.mem_cons_self)
      (h m List.mem_cons_self) hb gap_nil
    have more := ih (fun m' hm => hk m' (List.mem_cons_of_mem m hm))
      (fun m' hm => h m' (List.mem_cons_of_mem m hm)) (gap_newline depth)
    rw [writeMembers]
    convert Spells.moreMembers first more using 1
    simp

/-- **Written JSON spells what was written.** -/
theorem write_spells {j : Json} (h : Writable j) : WritesItself j := by
  induction h with
  | null => exact fun _ => .nullWord
  | bool b =>
    intro depth
    cases b with
    | true => exact .trueWord
    | false => exact .falseWord
  | number h => exact fun _ => .number h
  | string s =>
    intro depth
    obtain ⟨cs, hquote, hcs⟩ := spells_quoteText s
    rw [Json.write, hquote]
    convert Spells.string hcs using 1
    simp
  | @array items h ih =>
    intro depth
    cases items with
    | nil => exact .emptyArray gap_nil
    | cons item items =>
      have spelled := spells_writeItems (depth + 1) ih (gap_newline (depth + 1)) (gap_newline depth)
      rw [Json.write]
      convert Spells.array spelled using 1
      simp
  | @object members keys values ih =>
    intro depth
    cases members with
    | nil => exact .emptyObject gap_nil
    | cons m members =>
      have spelled :=
        spells_writeMembers (depth + 1) keys ih (gap_newline (depth + 1)) (gap_newline depth)
      rw [Json.write]
      convert Spells.object spelled using 1
      simp

end Json

end TweenScript
