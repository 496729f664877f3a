import TweenScript.Json.Reader
import TweenScript.Proofs.Json.Grammar
import TweenScript.Proofs.Lexing.Lexemes

/-!
# Reading numbers and strings

`Reads x v rest`: a reading comes to a value and leaves the rest of the text. The readers of numbers
and of strings come to what the grammar says (`number_sound`, `number_complete`, `reads_string_iff`).
A number goes on as long as it can, so what may stand behind one matters; a string ends at its quote.
-/

namespace TweenScript

namespace Json

variable {α β : Type} {b c : Nat} {cs rest : List Char}

/-- The reading `x` has come to `v` and leaves `rest`. -/
def Reads (x : Reading α b) (v : α) (rest : List Char) : Prop :=
  ∃ h, x = some ⟨v, rest, h⟩

theorem Reads.shorter {x : Reading α b} {v : α} (h : Reads x v rest) : rest.length < b := by
  obtain ⟨h, -⟩ := h
  exact h

theorem Reads.congr {read : (cs : List Char) → Reading α cs.length} {us : List Char} {v : α}
    (h : Reads (read cs) v rest) (heq : us = cs) : Reads (read us) v rest := by
  rw [heq]
  exact h

theorem reads_some {v w : α} {us : List Char} {h : us.length < b} :
    Reads (some ⟨v, us, h⟩ : Reading α b) w rest ↔ w = v ∧ rest = us := by
  constructor
  · rintro ⟨_, h⟩
    cases h
    exact ⟨rfl, rfl⟩
  · rintro ⟨rfl, rfl⟩
    exact ⟨h, rfl⟩

theorem reads_pure {v w : α} {us : List Char} {h : us.length < b} :
    Reads (pure ⟨v, us, h⟩ : Reading α b) w rest ↔ w = v ∧ rest = us :=
  reads_some

theorem not_reads_none {v : α} : ¬ Reads (none : Reading α b) v rest := by
  rintro ⟨_, h⟩
  cases h

/-- A reading in two steps; `k` may use that the first one leaves less. -/
theorem reads_bind {x : Reading α b} {k : Parsed Char α b → Reading β c} {w : β} :
    Reads (x >>= k) w rest ↔ ∃ v us, Reads x v us ∧ ∃ h, Reads (k ⟨v, us, h⟩) w rest := by
  cases x with
  | none =>
    constructor
    · exact fun h => absurd h not_reads_none
    · rintro ⟨_, _, h, _⟩
      exact absurd h not_reads_none
  | some p =>
    constructor
    · exact fun h => ⟨p.value, p.rest, ⟨p.shorter, rfl⟩, p.shorter, h⟩
    · rintro ⟨v, us, ⟨_, hx⟩, h, hk⟩
      cases hx
      exact hk

theorem reads_option_bind {x : Option α} {k : α → Reading β c} {w : β} :
    Reads (x >>= k) w rest ↔ ∃ v, x = some v ∧ Reads (k v) w rest := by
  cases x with
  | none => simp [not_reads_none]
  | some v => simp

/-! ## Blanks -/

theorem isGap_iff {c : Char} : isGap c = true ↔ c ∈ [' ', '\t', '\r', '\n'] := by
  simp [isGap, or_assoc]

theorem gap_nil : Gap [] :=
  fun _ hc => absurd hc List.not_mem_nil

theorem gap_cons {c : Char} : Gap (c :: cs) ↔ isGap c ∧ Gap cs := by
  simp only [Gap, List.forall_mem_cons, isGap_iff]

theorem gap_append {ds : List Char} : Gap (cs ++ ds) ↔ Gap cs ∧ Gap ds := by
  simp only [Gap, List.forall_mem_append]

theorem reads_next {d : Char} :
    Reads (next? cs) d rest ↔ ∃ gap, Gap gap ∧ cs = gap ++ d :: rest ∧ ¬ isGap d := by
  induction cs with
  | nil => simp [next?, not_reads_none]
  | cons e cs ih =>
    rw [next?]
    by_cases he : isGap e
    · rw [if_pos he]
      have behind : Reads (next? cs) d rest ↔
          ∃ gap, Gap gap ∧ e :: cs = gap ++ d :: rest ∧ ¬ isGap d := by
        rw [ih]
        constructor
        · rintro ⟨gap, hgap, rfl, hd⟩
          exact ⟨e :: gap, gap_cons.mpr ⟨he, hgap⟩, rfl, hd⟩
        · rintro ⟨gap, hgap, heq, hd⟩
          cases gap with
          | nil =>
            cases heq
            exact absurd he hd
          | cons g gap =>
            cases heq
            exact ⟨gap, (gap_cons.mp hgap).2, rfl, hd⟩
      rw [← behind]
      cases next? cs with
      | none => simp only [not_reads_none]
      | some p => exact reads_some.trans reads_some.symm
    · rw [if_neg he, reads_some]
      constructor
      · rintro ⟨rfl, rfl⟩
        exact ⟨[], gap_nil, rfl, he⟩
      · rintro ⟨gap, hgap, heq, hd⟩
        cases gap with
        | nil =>
          cases heq
          exact ⟨rfl, rfl⟩
        | cons g gap =>
          cases heq
          exact absurd (gap_cons.mp hgap).1 he

theorem next_eq_none_iff : next? cs = none ↔ Gap cs := by
  induction cs with
  | nil => simp [next?, gap_nil]
  | cons c cs ih =>
    rw [next?, gap_cons]
    by_cases hc : isGap c
    · rw [if_pos hc, ← ih]
      cases next? cs <;> simp [hc]
    · simp [hc]

/-! ## Numbers -/

/-- No character comes next that a number could go on with. -/
def EndsNumber (rest : List Char) : Prop :=
  ∀ c, rest.head? = some c → ¬ c.isDigit ∧ c ≠ '.' ∧ c ≠ 'e' ∧ c ≠ 'E'

theorem takeWhile_digits {ds : List Char} (all : ∀ c ∈ ds, c.isDigit)
    (ends : ∀ c, rest.head? = some c → ¬ c.isDigit) : (ds ++ rest).takeWhile Char.isDigit = ds := by
  have spans : Lexical.Spans (·.isDigit) ds rest := ⟨all, ends⟩
  exact spans.takeWhile_eq fun _ => Iff.rfl

theorem dropWhile_digits {ds : List Char} (all : ∀ c ∈ ds, c.isDigit)
    (ends : ∀ c, rest.head? = some c → ¬ c.isDigit) : (ds ++ rest).dropWhile Char.isDigit = rest := by
  have spans : Lexical.Spans (·.isDigit) ds rest := ⟨all, ends⟩
  exact spans.dropWhile_eq fun _ => Iff.rfl

theorem digits_takeWhile (h : cs.takeWhile Char.isDigit ≠ []) :
    Digits (cs.takeWhile Char.isDigit) :=
  ⟨h, fun _ hc => List.mem_takeWhile_imp hc⟩

theorem readWhole_sound {whole : List Char} (h : readWhole cs = some (whole, rest)) :
    cs = whole ++ rest ∧ Whole whole := by
  unfold readWhole at h
  split at h
  · cases h
    exact ⟨rfl, ⟨by simp, by simp⟩, fun _ => rfl⟩
  · rename_i c cs hzero
    split at h
    · rename_i hc
      cases h
      have all : ∀ d ∈ c :: cs.takeWhile Char.isDigit, d.isDigit :=
        List.forall_mem_cons.mpr ⟨hc, fun d hd => List.mem_takeWhile_imp hd⟩
      refine ⟨by simp, ⟨by simp, all⟩, fun hhead => ?_⟩
      exact absurd (Option.some.inj hhead) hzero
    · cases h
  · cases h

theorem readWhole_complete {whole : List Char} (h : Whole whole)
    (ends : ∀ c, rest.head? = some c → ¬ c.isDigit) :
    readWhole (whole ++ rest) = some (whole, rest) := by
  obtain ⟨hdigits, hzero⟩ := h
  obtain ⟨c, ds, rfl⟩ := List.exists_cons_of_ne_nil hdigits.1
  have digit : c.isDigit := hdigits.2 c List.mem_cons_self
  have all : ∀ d ∈ ds, d.isDigit := fun d hd => hdigits.2 d (List.mem_cons_of_mem c hd)
  by_cases hc : c = '0'
  · subst hc
    obtain rfl : ds = [] := (List.cons.inj (hzero rfl)).2
    rfl
  · rw [List.cons_append]
    unfold readWhole
    split
    · rename_i heq
      exact absurd (List.cons.inj heq).1 hc
    · rename_i heq
      cases heq
      rw [if_pos digit, takeWhile_digits all ends, dropWhile_digits all ends]
    · rename_i heq
      cases heq

theorem readFraction_sound (cs : List Char) :
    ∃ text, cs = text ++ (readFraction cs).2 ∧ Fraction text (readFraction cs).1 := by
  unfold readFraction
  split
  · rename_i cs
    split
    · exact ⟨[], rfl, .absent⟩
    · rename_i hds
      exact ⟨'.' :: cs.takeWhile Char.isDigit, by simp, .point (digits_takeWhile hds)⟩
  · exact ⟨[], rfl, .absent⟩

theorem readFraction_complete {text ds : List Char} (h : Fraction text ds)
    (ends : ∀ c, rest.head? = some c → ¬ c.isDigit ∧ c ≠ '.') :
    readFraction (text ++ rest) = (ds, rest) := by
  cases h with
  | absent =>
    rw [List.nil_append]
    unfold readFraction
    split
    · exact absurd rfl (ends '.' rfl).2
    · rfl
  | point digits =>
    have stops := fun c hc => (ends c hc).1
    rw [List.cons_append, readFraction, takeWhile_digits digits.2 stops, if_neg digits.1,
      dropWhile_digits digits.2 stops]

theorem readExponent_sound {e : Int} (h : Numeral.readExponent cs = some (e, rest)) :
    ∃ text, cs = text ++ rest ∧ Exponent text (some e) := by
  unfold Numeral.readExponent at h
  split at h
  · rename_i mark cs
    split at h
    · rename_i marked
      dsimp only at h
      split at h <;> split at h
      · cases h
      · rename_i ds hds
        cases h
        exact ⟨mark :: '-' :: ds.takeWhile Char.isDigit, by simp,
          .minus marked (digits_takeWhile hds)⟩
      · cases h
      · rename_i ds hds
        cases h
        exact ⟨mark :: '+' :: ds.takeWhile Char.isDigit, by simp,
          .plus marked (digits_takeWhile hds)⟩
      · cases h
      · rename_i hds
        cases h
        exact ⟨mark :: cs.takeWhile Char.isDigit, by simp, .plain marked (digits_takeWhile hds)⟩
    · cases h
  · cases h

theorem readExponent_complete {text : List Char} {e : Int} (h : Exponent text (some e))
    (ends : ∀ c, rest.head? = some c → ¬ c.isDigit) :
    Numeral.readExponent (text ++ rest) = some (e, rest) := by
  cases h with
  | @plain mark ds marked digits =>
    have taken := takeWhile_digits digits.2 ends
    have dropped := dropWhile_digits digits.2 ends
    obtain ⟨d, ds, rfl⟩ := List.exists_cons_of_ne_nil digits.1
    have unsigned (c : Char) (hc : ¬ c.isDigit) : d ≠ c := by
      rintro rfl
      exact hc (digits.2 d List.mem_cons_self)
    rw [List.cons_append, Numeral.readExponent.eq_def]
    dsimp only
    rw [if_pos marked]
    split
    · rename_i heq
      exact absurd (List.cons.inj heq).1 (unsigned '-' (by decide))
    · rename_i heq
      exact absurd (List.cons.inj heq).1 (unsigned '+' (by decide))
    · rw [taken, dropped, if_neg digits.1]
      rfl
  | plus marked digits | minus marked digits =>
    rw [List.cons_append, List.cons_append, Numeral.readExponent, if_pos marked]
    simp only [takeWhile_digits digits.2 ends, dropWhile_digits digits.2 ends, if_neg digits.1]
    simp

theorem readExponent_eq_none (ends : EndsNumber rest) : Numeral.readExponent rest = none := by
  cases rest with
  | nil => rfl
  | cons c rest =>
    obtain ⟨-, -, lower, upper⟩ := ends c rfl
    rw [Numeral.readExponent.eq_def]
    exact if_neg (not_or.mpr ⟨lower, upper⟩)

theorem readSign_sound (cs : List Char) : cs = sign (readSign cs).1 ++ (readSign cs).2 := by
  unfold readSign
  split <;> rfl

theorem readSign_complete (negative : Bool) (h : cs.head? ≠ some '-') :
    readSign (sign negative ++ cs) = (negative, cs) := by
  cases negative with
  | true => rfl
  | false =>
    show readSign cs = (false, cs)
    unfold readSign
    split
    · exact absurd rfl h
    · rfl

theorem reads_number {j : Json} :
    Reads (readNumber cs) j rest ↔ ∃ whole us, readWhole (readSign cs).2 = some (whole, us) ∧
      ((Numeral.readExponent (readFraction us).2 = none ∧ rest = (readFraction us).2 ∧
          j = .number ⟨(readSign cs).1, whole, (readFraction us).1, none⟩) ∨
        ∃ e, Numeral.readExponent (readFraction us).2 = some (e, rest) ∧
          j = .number ⟨(readSign cs).1, whole, (readFraction us).1, some e⟩) := by
  unfold readNumber
  dsimp only
  split
  · rename_i hw
    simp [hw, not_reads_none]
  · rename_i whole us hw
    split
    · rename_i he
      simp only [reads_some, hw, Option.some.injEq, Prod.mk.injEq]
      constructor
      · rintro ⟨rfl, rfl⟩
        exact ⟨whole, us, ⟨rfl, rfl⟩, .inl ⟨he, rfl, rfl⟩⟩
      · rintro ⟨_, _, ⟨rfl, rfl⟩, ⟨-, rfl, rfl⟩ | ⟨e, he', -⟩⟩
        · exact ⟨rfl, rfl⟩
        · rw [he] at he'
          cases he'
    · rename_i e us' he
      simp only [reads_some, hw, Option.some.injEq, Prod.mk.injEq]
      constructor
      · rintro ⟨rfl, rfl⟩
        exact ⟨whole, us, ⟨rfl, rfl⟩, .inr ⟨e, he, rfl⟩⟩
      · rintro ⟨_, _, ⟨rfl, rfl⟩, ⟨he', -⟩ | ⟨e', he', rfl⟩⟩
        · rw [he] at he'
          cases he'
        · rw [he] at he'
          cases he'
          exact ⟨rfl, rfl⟩

theorem number_sound {j : Json} (h : Reads (readNumber cs) j rest) :
    ∃ used n, cs = used ++ rest ∧ Number used n ∧ j = .number n := by
  obtain ⟨whole, us, hw, h⟩ := reads_number.mp h
  have hsign := readSign_sound cs
  obtain ⟨hwhole, isWhole⟩ := readWhole_sound hw
  obtain ⟨fractionText, hfraction, isFraction⟩ := readFraction_sound us
  rcases h with ⟨-, hrest, rfl⟩ | ⟨e, he, rfl⟩
  · refine ⟨_, _, ?_, .mk _ isWhole isFraction .absent, rfl⟩
    rw [hrest, List.append_nil, List.append_assoc, List.append_assoc, ← hfraction, ← hwhole,
      ← hsign]
  · obtain ⟨exponentText, hexponent, isExponent⟩ := readExponent_sound he
    refine ⟨_, _, ?_, .mk _ isWhole isFraction isExponent, rfl⟩
    rw [List.append_assoc, List.append_assoc, List.append_assoc, ← hexponent, ← hfraction,
      ← hwhole, ← hsign]

theorem Exponent.head {text : List Char} {e : Option Int} (h : Exponent text e)
    (ends : EndsNumber rest) {c : Char} (hc : (text ++ rest).head? = some c) :
    ¬ c.isDigit ∧ c ≠ '.' := by
  have marks {mark : Char} (marked : mark = 'e' ∨ mark = 'E') : ¬ mark.isDigit ∧ mark ≠ '.' := by
    rcases marked with rfl | rfl <;> decide
  cases h with
  | absent => exact ⟨(ends c hc).1, (ends c hc).2.1⟩
  | plain marked | plus marked | minus marked =>
    obtain rfl := Option.some.inj hc
    exact marks marked

theorem Fraction.head {text ds : List Char} (h : Fraction text ds)
    (ends : ∀ c, rest.head? = some c → ¬ c.isDigit ∧ c ≠ '.') {c : Char}
    (hc : (text ++ rest).head? = some c) : ¬ c.isDigit := by
  cases h with
  | absent => exact (ends c hc).1
  | point =>
    obtain rfl := Option.some.inj hc
    decide

theorem number_complete {n : Numeral} (h : Number cs n) (ends : EndsNumber rest) :
    Reads (readNumber (cs ++ rest)) (.number n) rest := by
  cases h with
  | @mk negative whole fractionText fraction exponentText exponent isWhole isFraction isExponent =>
    have afterFraction := fun c => isExponent.head ends (c := c)
    have afterWhole := fun c => isFraction.head afterFraction (c := c)
    have noSign : (whole ++ (fractionText ++ (exponentText ++ rest))).head? ≠ some '-' := by
      obtain ⟨c, ds, rfl⟩ := List.exists_cons_of_ne_nil isWhole.1.1
      intro hc
      obtain rfl := Option.some.inj hc
      exact absurd (isWhole.1.2 '-' List.mem_cons_self) (by decide)
    have hsign := readSign_complete negative noSign
    rw [List.append_assoc, List.append_assoc, List.append_assoc]
    refine reads_number.mpr ⟨whole, fractionText ++ (exponentText ++ rest), ?_, ?_⟩
    · rw [hsign, readWhole_complete isWhole afterWhole]
    · rw [hsign, readFraction_complete isFraction afterFraction]
      cases exponent with
      | none =>
        cases isExponent
        exact .inl ⟨readExponent_eq_none ends, rfl, rfl⟩
      | some e =>
        exact .inr ⟨e, readExponent_complete isExponent fun c hc => (ends c hc).1, rfl⟩

/-! ## Code units -/

theorem hexValue_eq_some_iff {c : Char} {n : Nat} :
    hexValue? c = some n ↔ Lexical.HexDigit c ∧ n = Lexical.digits.idxOf c.toLower := by
  rw [Lexical.hexDigit_iff_mem]
  by_cases hc : c ∈ Lexical.bothCases
  · have all : Lexical.bothCases.map hexValue? =
        Lexical.bothCases.map fun c => some (Lexical.digits.idxOf c.toLower) := by decide
    rw [List.map_inj_left.mp all c hc]
    simp [hc, eq_comm]
  · have outside := hc
    rw [Lexical.mem_bothCases_iff] at outside
    obtain ⟨digit, lower, upper⟩ := by simpa only [not_or] using outside
    simp [hexValue?, hc, Lexical.isDigit_iff_toNat, Char.le_def, UInt32.le_iff_toNat_le, digit,
      lower, upper]

theorem quad_cons {a b c d : Char} {n : Nat} : Quad [a, b, c, d] n ↔
    hexQuad? a b c d = some n := by
  have value_eq : Lexical.value 16 [a, b, c, d] = ((Lexical.digits.idxOf a.toLower * 16 +
      Lexical.digits.idxOf b.toLower) * 16 + Lexical.digits.idxOf c.toLower) * 16 +
        Lexical.digits.idxOf d.toLower := by
    simp [Lexical.value, Nat.ofDigits_cons]
    omega
  simp only [hexQuad?, Option.bind_eq_bind, Option.bind_eq_some_iff, hexValue_eq_some_iff,
    Option.pure_def, Option.some.injEq]
  constructor
  · intro h
    have hd := h.digits
    simp only [List.forall_mem_cons] at hd
    exact ⟨_, ⟨hd.1, rfl⟩, _, ⟨hd.2.1, rfl⟩, _, ⟨hd.2.2.1, rfl⟩, _, ⟨hd.2.2.2.1, rfl⟩,
      value_eq.symm.trans h.value⟩
  · rintro ⟨_, ⟨ha, rfl⟩, _, ⟨hb, rfl⟩, _, ⟨hc, rfl⟩, _, ⟨hd, rfl⟩, h⟩
    exact ⟨rfl, by simp [ha, hb, hc, hd], value_eq.trans h⟩

theorem Quad.exists_cons {q : List Char} {n : Nat} (h : Quad q n) :
    ∃ a b c d, q = [a, b, c, d] ∧ hexQuad? a b c d = some n := by
  match q, h.length with
  | [a, b, c, d], _ => exact ⟨a, b, c, d, rfl, quad_cons.mp h⟩

theorem Quad.lt {q : List Char} {n : Nat} (h : Quad q n) : n < 0x10000 := by
  have digit (c : Char) (hc : c ∈ q) : Lexical.digits.idxOf c.toLower < 16 :=
    List.idxOf_lt_length_of_mem (h.digits c hc)
  rw [← h.value, Lexical.value]
  refine Nat.lt_of_lt_of_eq (Nat.ofDigits_lt_base_pow_length (by decide) ?_) (by simp [h.length])
  simp only [List.mem_map, List.mem_reverse]
  rintro _ ⟨c, hc, rfl⟩
  exact digit c hc

theorem isLead_iff {n : Nat} : isLead n = true ↔ 0xD800 ≤ n ∧ n < 0xDC00 := by
  simp [isLead]

theorem isTrail_iff {n : Nat} : isTrail n = true ↔ 0xDC00 ≤ n ∧ n < 0xE000 := by
  simp [isTrail]

theorem toNat_valid (c : Char) : c.toNat < 0xD800 ∨ 0xDFFF < c.toNat ∧ c.toNat < 0x110000 :=
  c.valid

theorem toNat_ofNat {n : Nat} (h : n < 0xD800 ∨ 0xDFFF < n ∧ n < 0x110000) :
    (Char.ofNat n).toNat = n := by
  have valid : n.isValidChar := h
  rw [Char.ofNat, dif_pos valid]
  rfl

theorem pair_halves {c : Char} (beyond : 0x10000 ≤ c.toNat) : pair (leadOf c) (trailOf c) = c := by
  have hc := toNat_valid c
  have whole : 0x10000 + (leadOf c - 0xD800) * 0x400 + (trailOf c - 0xDC00) = c.toNat := by
    unfold leadOf trailOf
    omega
  rw [pair, whole, Char.ofNat_toNat]

theorem isLead_leadOf {c : Char} (beyond : 0x10000 ≤ c.toNat) : isLead (leadOf c) = true := by
  have hc := toNat_valid c
  rw [isLead_iff, leadOf]
  omega

theorem isTrail_trailOf (c : Char) : isTrail (trailOf c) = true := by
  rw [isTrail_iff, trailOf]
  omega

theorem halves_pair {n m : Nat} (hn : isLead n = true) (hm : isTrail m = true) :
    0x10000 ≤ (pair n m).toNat ∧ leadOf (pair n m) = n ∧ trailOf (pair n m) = m := by
  rw [isLead_iff] at hn
  rw [isTrail_iff] at hm
  have hpair : (pair n m).toNat = 0x10000 + (n - 0xD800) * 0x400 + (m - 0xDC00) :=
    toNat_ofNat (by omega)
  rw [leadOf, trailOf, hpair]
  omega

theorem trail_eq_some_iff {n : Nat} : trail? cs = some (n, rest) ↔
    ∃ q, cs = '\\' :: 'u' :: (q ++ rest) ∧ Quad q n ∧ isTrail n := by
  constructor
  · intro h
    unfold trail? at h
    split at h
    · rename_i a b c d cs
      simp only [Option.bind_eq_bind, Option.bind_eq_some_iff] at h
      obtain ⟨m, hm, h⟩ := h
      split at h
      · rename_i ht
        cases h
        exact ⟨[a, b, c, d], rfl, quad_cons.mpr hm, ht⟩
      · cases h
    · cases h
  · rintro ⟨q, rfl, hq, ht⟩
    obtain ⟨a, b, c, d, rfl, h⟩ := hq.exists_cons
    simp [trail?, h, ht]

theorem trail_eq_none_iff : trail? cs = none ↔ ∀ m, 0xDC00 ≤ m → m < 0xE000 → ¬ BeginsUnit cs m := by
  rw [Option.eq_none_iff_forall_not_mem, Prod.forall]
  constructor
  · rintro h m hlow hhigh ⟨q, more, rfl, hq⟩
    exact h m more (trail_eq_some_iff.mpr ⟨q, rfl, hq, isTrail_iff.mpr ⟨hlow, hhigh⟩⟩)
  · intro h m more hm
    obtain ⟨q, rfl, hq, ht⟩ := trail_eq_some_iff.mp hm
    obtain ⟨hlow, hhigh⟩ := isTrail_iff.mp ht
    exact h m hlow hhigh ⟨q, more, rfl, hq⟩

/-! ## Strings -/

theorem unescape_eq_some_iff {e c : Char} : unescape? e = some c ↔ (e, c) ∈ shortEscapes := by
  constructor
  · intro h
    unfold unescape? at h
    split at h <;> cases h <;> decide
  · intro h
    simp only [shortEscapes, List.mem_cons, List.not_mem_nil, or_false, Prod.mk.injEq] at h
    rcases h with ⟨rfl, rfl⟩ | ⟨rfl, rfl⟩ | ⟨rfl, rfl⟩ | ⟨rfl, rfl⟩ | ⟨rfl, rfl⟩ | ⟨rfl, rfl⟩ |
      ⟨rfl, rfl⟩ | ⟨rfl, rfl⟩ <;> rfl

/-- What is read up to the quote is in the grammar. The recursion is the reader's own: behind a pair it
goes on after both halves. -/
theorem string_sound (cs : List Char) {text : Option (List Char)} {rest : List Char}
    (h : Reads (readString cs) text rest) : ∃ used, cs = used ++ '"' :: rest ∧ Chars used text := by
  rw [readString.eq_def] at h
  split at h
  · obtain ⟨rfl, rfl⟩ := reads_some.mp h
    exact ⟨[], rfl, .nil⟩
  · rename_i a b c d us
    obtain ⟨n, hn, h⟩ := reads_option_bind.mp h
    have quad := quad_cons.mpr hn
    split at h
    · rename_i lead
      rw [isLead_iff] at lead
      split at h
      · rename_i m vs ht
        have shorter := length_lt_of_trail? ht
        simp only [reads_bind, reads_pure] at h
        obtain ⟨t, _, h, -, rfl, rfl⟩ := h
        obtain ⟨used, rfl, hused⟩ := string_sound vs h
        obtain ⟨r, rfl, hr, trail⟩ := trail_eq_some_iff.mp ht
        obtain ⟨beyond, hlead, htrail⟩ := halves_pair (isLead_iff.mpr lead) trail
        exact ⟨_, by simp, .pair beyond (hlead.symm ▸ quad) (htrail.symm ▸ hr) hused⟩
      · -- no second half comes next, so none does before the quote either
        rename_i ht
        simp only [reads_bind, reads_pure] at h
        obtain ⟨t, _, h, -, rfl, rfl⟩ := h
        obtain ⟨used, rfl, hused⟩ := string_sound us h
        refine ⟨_, by simp, .lone quad ⟨lead.1, by omega⟩ (fun _ m hlow hhigh => ?_) hused⟩
        rintro ⟨q, more, rfl, hq⟩
        refine trail_eq_none_iff.mp ht m hlow hhigh ⟨q, more ++ '"' :: rest, by simp, hq⟩
    · rename_i lead
      rw [isLead_iff] at lead
      simp only [reads_bind, reads_pure] at h
      obtain ⟨t, _, h, -, rfl, rfl⟩ := h
      obtain ⟨used, rfl, hused⟩ := string_sound us h
      split
      · rename_i trail
        rw [isTrail_iff] at trail
        refine ⟨_, by simp, .lone quad ⟨by omega, trail.2⟩ (fun hlow => ?_) hused⟩
        omega
      · rename_i trail
        rw [isTrail_iff] at trail
        have hlt := quad.lt
        have toNat_eq : (Char.ofNat n).toNat = n := toNat_ofNat (by omega)
        exact ⟨_, by simp, .unit (toNat_eq.symm ▸ quad) hused⟩
  · rename_i e us hunit
    obtain ⟨c, hc, h⟩ := reads_option_bind.mp h
    simp only [reads_bind, reads_pure] at h
    obtain ⟨t, _, h, -, rfl, rfl⟩ := h
    obtain ⟨used, rfl, hused⟩ := string_sound us h
    exact ⟨_, by simp, .short (unescape_eq_some_iff.mp hc) hused⟩
  · rename_i c us hquote _ _
    split at h
    · exact absurd h not_reads_none
    · rename_i hc
      obtain ⟨visible, noBackslash⟩ := not_or.mp hc
      simp only [reads_bind, reads_pure] at h
      obtain ⟨t, _, h, -, rfl, rfl⟩ := h
      obtain ⟨used, rfl, hused⟩ := string_sound us h
      exact ⟨_, by simp, .plain (Nat.le_of_not_lt visible) hquote noBackslash hused⟩
  · exact absurd h not_reads_none
termination_by cs.length
decreasing_by all_goals (simp only [‹cs = _›, List.length_cons]; omega)

theorem beginsUnit_of_append {n : Nat} (h : BeginsUnit (cs ++ '"' :: rest) n) :
    BeginsUnit cs n := by
  obtain ⟨q, more, heq, hq⟩ := h
  have split : cs ++ '"' :: rest = ('\\' :: 'u' :: q) ++ more := by rw [heq]; rfl
  rcases List.append_eq_append_iff.mp split with ⟨tail, hunit, hquote⟩ | ⟨tail, rfl, -⟩
  · cases tail with
    | nil => exact ⟨q, [], by simpa using hunit.symm, hq⟩
    | cons c tail =>
      obtain rfl : '"' = c := (List.cons.inj hquote).1
      have mem : '"' ∈ '\\' :: 'u' :: q := hunit ▸ List.mem_append_right cs List.mem_cons_self
      have digit := hq.digits '"' (by simpa using mem)
      exact absurd ((Lexical.hexDigit_iff_mem '"').mp digit) (by decide)
  · exact ⟨q, tail, rfl, hq⟩

theorem string_complete {used : List Char} {text : Option (List Char)} (h : Chars used text)
    (rest : List Char) : Reads (readString (used ++ '"' :: rest)) text rest := by
  induction h with
  | nil =>
    rw [List.nil_append, readString.eq_def]
    exact reads_some.mpr ⟨rfl, rfl⟩
  | @plain c cs text visible noQuote noBackslash _ ih =>
    have stays : ¬ (c.toNat < 0x20 ∨ c = '\\') :=
      not_or.mpr ⟨Nat.not_lt_of_le visible, noBackslash⟩
    rw [List.cons_append, readString.eq_4 c _ noQuote (fun _ _ _ _ _ h => absurd h noBackslash)
      (fun _ _ h => absurd h noBackslash), if_neg stays]
    simp only [reads_bind, reads_pure]
    exact ⟨text, rest, ih, ih.shorter, rfl, rfl⟩
  | @short e c cs text mem _ ih =>
    have noUnit : e ≠ 'u' := by
      rintro rfl
      have named : ∀ p ∈ shortEscapes, p.1 ≠ 'u' := by decide
      exact named _ mem rfl
    rw [List.cons_append, List.cons_append,
      readString.eq_3 e _ (fun _ _ _ _ _ h => absurd h noUnit)]
    refine reads_option_bind.mpr ⟨c, unescape_eq_some_iff.mpr mem, ?_⟩
    simp only [reads_bind, reads_pure]
    exact ⟨text, rest, ih, ih.shorter, rfl, rfl⟩
  | @unit q cs c text quad _ ih =>
    have surrogate := toNat_valid c
    have noLead : ¬ isLead c.toNat := by
      rw [isLead_iff]
      omega
    have noTrail : ¬ isTrail c.toNat := by
      rw [isTrail_iff]
      omega
    obtain ⟨a, b, c', d, rfl, hquad⟩ := quad.exists_cons
    simp only [List.cons_append, List.nil_append]
    rw [readString.eq_2]
    refine reads_option_bind.mpr ⟨c.toNat, hquad, ?_⟩
    rw [if_neg noLead]
    simp only [reads_bind, reads_pure, if_neg noTrail, Char.ofNat_toNat]
    exact ⟨text, rest, ih, ih.shorter, rfl, rfl⟩
  | @pair q r cs c text beyond lead trail _ ih =>
    obtain ⟨a, b, c', d, rfl, hlead⟩ := lead.exists_cons
    have htrail : trail? ('\\' :: 'u' :: (r ++ cs ++ '"' :: rest)) =
        some (trailOf c, cs ++ '"' :: rest) :=
      trail_eq_some_iff.mpr ⟨r, by simp, trail, isTrail_trailOf c⟩
    simp only [List.cons_append, List.nil_append]
    rw [readString.eq_2]
    refine reads_option_bind.mpr ⟨leadOf c, hlead, ?_⟩
    rw [if_pos (isLead_leadOf beyond)]
    split
    · rename_i m us ht
      obtain ⟨rfl, rfl⟩ := Prod.mk.inj (Option.some.inj (htrail.symm.trans ht))
      simp only [reads_bind, reads_pure, pair_halves beyond]
      exact ⟨text, rest, ih, ih.shorter, rfl, rfl⟩
    · rename_i ht
      cases htrail.symm.trans ht
  | @lone q cs n text quad surrogate noPair _ ih =>
    obtain ⟨a, b, c', d, rfl, hquad⟩ := quad.exists_cons
    simp only [List.cons_append, List.nil_append]
    rw [readString.eq_2]
    refine reads_option_bind.mpr ⟨n, hquad, ?_⟩
    split
    · rename_i lead
      have alone : trail? (cs ++ '"' :: rest) = none :=
        trail_eq_none_iff.mpr fun m hlow hhigh h =>
          noPair (isLead_iff.mp lead).2 m hlow hhigh (beginsUnit_of_append h)
      split
      · rename_i ht
        cases alone.symm.trans ht
      · simp only [reads_bind, reads_pure]
        exact ⟨text, rest, ih, ih.shorter, trivial, rfl⟩
    · rename_i lead
      have trail : isTrail n := by
        rw [isLead_iff] at lead
        rw [isTrail_iff]
        omega
      simp only [reads_bind, reads_pure, if_pos trail]
      exact ⟨text, rest, ih, ih.shorter, trivial, rfl⟩

/-- Strings are read as the grammar says. -/
theorem reads_string_iff {text : Option (List Char)} : Reads (readString cs) text rest ↔
    ∃ used, cs = used ++ '"' :: rest ∧ Chars used text := by
  constructor
  · exact string_sound cs
  · rintro ⟨used, rfl, h⟩
    exact string_complete h rest

end Json

end TweenScript
