import TweenScript.Proofs.Json.Fields
import TweenScript.Proofs.Json.Reading

/-!
# What JSON says about an asset

`Asset.Describes j a` says which JSON values describe an asset, and `Asset.Flawed j` lists what keeps
a value from describing any. Neither looks at the order of members, at members that nobody asked for
or at the text that spells the value; `Asset.ofText` depends on nothing else
(`Asset.reading_iff_spelling`).
-/

namespace TweenScript

namespace Asset

open Json

/-! ## Entries and tables -/

/-- A value is an entry of a table: a name, and under `key` a value that means `e.2`. -/
def IsEntry {α : Type} (key : String) (means : Json → α → Prop) (j : Json) (e : String × α) : Prop :=
  ∃ name value, HasFields ["name", key] j [some name, some value] ∧ IsText name e.1 ∧ means value e.2

/-- What keeps a value from being an entry. -/
inductive NoEntry (key : String) (wrong : Json → Prop) (j : Json) : Prop where
  | fields (h : LacksFields ["name", key] j)
  | missing {fields : List (Option Json)} (h : HasFields ["name", key] j fields)
    (absent : none ∈ fields)
  | name {name : Json} {value : Option Json} (h : HasFields ["name", key] j [some name, value])
    (noText : NoText name)
  | value {name : Option Json} {value : Json} (h : HasFields ["name", key] j [name, some value])
    (bad : wrong value)

/-- A table is an array of entries in order; it is empty if it is missing. -/
inductive IsTable {α : Type} (key : String) (means : Json → α → Prop) :
    Option Json → List (String × α) → Prop where
  | absent : IsTable key means none []
  | array {items : List Json} {entries : List (String × α)}
    (each : List.Forall₂ (IsEntry key means) items entries) :
    IsTable key means (some (.array items)) entries

/-- What keeps a value from being a table. -/
inductive NoTable (key : String) (wrong : Json → Prop) : Json → Prop where
  | wrongType {j : Json} (h : ∀ items, j ≠ .array items) : NoTable key wrong j
  | entry {items : List Json} {item : Json} (mem : item ∈ items) (h : NoEntry key wrong item) :
    NoTable key wrong (.array items)

section tables

variable {α : Type} {key : String} {read : Json → Option α} {means : Json → α → Prop}
  {wrong : Json → Prop}

theorem readEntry_eq_some_iff (reads : ∀ j v, read j = some v ↔ means j v) {j : Json}
    {e : String × α} : readEntry key read j = some e ↔ IsEntry key means j e := by
  constructor
  · intro h
    obtain ⟨fields, hfields, h⟩ := Option.bind_eq_some_iff.mp h
    have has := fields_eq_some_iff.mp hfields
    split at h
    · rename_i name value
      obtain ⟨s, hs, h⟩ := Option.bind_eq_some_iff.mp h
      obtain ⟨v, hv, h⟩ := Option.bind_eq_some_iff.mp h
      obtain rfl := Option.some.inj h
      exact ⟨name, value, has, text_eq_some_iff.mp hs, (reads value v).mp hv⟩
    · cases h
  · rintro ⟨name, value, has, hs, hv⟩
    refine Option.bind_eq_some_iff.mpr ⟨_, fields_eq_some_iff.mpr has, ?_⟩
    refine Option.bind_eq_some_iff.mpr ⟨e.1, text_eq_some_iff.mpr hs, ?_⟩
    exact Option.bind_eq_some_iff.mpr ⟨e.2, (reads value e.2).mpr hv, rfl⟩

theorem readEntry_eq_none_iff (refuses : ∀ j, read j = none ↔ wrong j) {j : Json} :
    readEntry key read j = none ↔ NoEntry key wrong j := by
  constructor
  · intro h
    cases hfields : j.fields? ["name", key] with
    | none => exact .fields (fields_eq_none_iff.mp hfields)
    | some fields =>
      have has := fields_eq_some_iff.mp hfields
      simp only [readEntry, hfields, Option.bind_eq_bind, Option.bind_some] at h
      match fields, has.length_eq with
      | [none, _], _ => exact .missing has (by simp)
      | [some _, none], _ => exact .missing has (by simp)
      | [some name, some value], _ =>
        cases hs : name.text? with
        | none => exact .name has (text_eq_none_iff.mp hs)
        | some s =>
          cases hv : read value with
          | none => exact .value has ((refuses value).mp hv)
          | some v => simp [hs, hv] at h
  · intro h
    refine Option.eq_none_iff_forall_not_mem.mpr fun e he => ?_
    obtain ⟨name, value, has, hname, hvalue⟩ :=
      (readEntry_eq_some_iff fun j v => (Iff.rfl : read j = some v ↔ read j = some v)).mp he
    cases h with
    | fields h => exact h.not_hasFields has
    | missing has' absent =>
      rw [has'.unique has] at absent
      simp at absent
    | name has' noText =>
      cases has'.unique has
      exact noText.not_isText hname
    | value has' bad =>
      cases has'.unique has
      rw [(refuses value).mpr bad] at hvalue
      cases hvalue

theorem readEntries_eq_some_iff (reads : ∀ j v, read j = some v ↔ means j v) {j : Option Json}
    {entries : List (String × α)} :
    readEntries key read j = some entries ↔ IsTable key means j entries := by
  have each (items : List Json) : items.mapM (readEntry key read) = some entries ↔
      List.Forall₂ (IsEntry key means) items entries := by
    rw [mapM_eq_some_iff]
    simp only [readEntry_eq_some_iff reads]
  constructor
  · intro h
    cases j with
    | none =>
      cases h
      exact .absent
    | some table =>
      obtain ⟨items, hitems, h⟩ := Option.bind_eq_some_iff.mp h
      cases table with
      | array items' =>
        cases hitems
        exact .array ((each items).mp h)
      | _ => cases hitems
  · intro h
    cases h with
    | absent => rfl
    | @array items _ h => exact (each items).mpr h

theorem readEntries_eq_none_iff (refuses : ∀ j, read j = none ↔ wrong j) {j : Option Json} :
    readEntries key read j = none ↔ ∃ table, j = some table ∧ NoTable key wrong table := by
  constructor
  · intro h
    cases j with
    | none => cases h
    | some table =>
      refine ⟨table, rfl, ?_⟩
      cases table with
      | array items =>
        obtain ⟨item, mem, h⟩ := mapM_eq_none_iff.mp h
        exact .entry mem ((readEntry_eq_none_iff refuses).mp h)
      | _ => exact .wrongType fun _ he => nomatch he
  · rintro ⟨table, rfl, h⟩
    cases h with
    | wrongType h =>
      cases table with
      | array items => exact absurd rfl (h items)
      | _ => rfl
    | entry mem h => exact mapM_eq_none_iff.mpr ⟨_, mem, (readEntry_eq_none_iff refuses).mpr h⟩

end tables

/-! ## Assets -/

/-- The keys of an asset. -/
def keys : List String :=
  ["object_maps", "variables", "expression"]

/-- A value describes an asset: its fields, of which the tables may be missing. -/
def Describes (j : Json) (a : Asset) : Prop :=
  ∃ paths values expression, HasFields keys j [paths, values, some expression] ∧
    IsTable "path" IsText paths a.paths ∧ IsTable "value" IsNumber values a.values ∧
      IsText expression a.expression

/-- What keeps a value from describing an asset. -/
inductive Flawed (j : Json) : Prop where
  | fields (h : LacksFields keys j)
  | noExpression {paths values : Option Json} (h : HasFields keys j [paths, values, none])
  | expression {paths values : Option Json} {expression : Json}
    (h : HasFields keys j [paths, values, some expression]) (noText : NoText expression)
  | paths {paths : Json} {values expression : Option Json}
    (h : HasFields keys j [some paths, values, expression]) (noTable : NoTable "path" NoText paths)
  | values {values : Json} {paths expression : Option Json}
    (h : HasFields keys j [paths, some values, expression])
    (noTable : NoTable "value" NoNumber values)

theorem readPaths_eq_some_iff {j : Option Json} {entries : List (String × String)} :
    readEntries "path" Json.text? j = some entries ↔ IsTable "path" IsText j entries :=
  readEntries_eq_some_iff fun _ _ => text_eq_some_iff

theorem readValues_eq_some_iff {j : Option Json} {entries : List (String × Float)} :
    readEntries "value" Json.float? j = some entries ↔ IsTable "value" IsNumber j entries :=
  readEntries_eq_some_iff fun _ _ => float_eq_some_iff

theorem readPaths_eq_none_iff {j : Option Json} :
    readEntries "path" Json.text? j = none ↔ ∃ table, j = some table ∧ NoTable "path" NoText table :=
  readEntries_eq_none_iff fun _ => text_eq_none_iff

theorem readValues_eq_none_iff {j : Option Json} :
    readEntries "value" Json.float? j = none ↔
      ∃ table, j = some table ∧ NoTable "value" NoNumber table :=
  readEntries_eq_none_iff fun _ => float_eq_none_iff

theorem ofJson_eq_some_iff {j : Json} {a : Asset} : ofJson? j = some a ↔ Describes j a := by
  constructor
  · intro h
    obtain ⟨fields, hfields, h⟩ := Option.bind_eq_some_iff.mp h
    have has := fields_eq_some_iff.mp hfields
    split at h
    · rename_i paths values expression
      obtain ⟨pathTable, hpaths, h⟩ := Option.bind_eq_some_iff.mp h
      obtain ⟨valueTable, hvalues, h⟩ := Option.bind_eq_some_iff.mp h
      obtain ⟨script, hscript, h⟩ := Option.bind_eq_some_iff.mp h
      obtain rfl := Option.some.inj h
      exact ⟨paths, values, expression, has, readPaths_eq_some_iff.mp hpaths,
        readValues_eq_some_iff.mp hvalues, text_eq_some_iff.mp hscript⟩
    · cases h
  · rintro ⟨paths, values, expression, has, hpaths, hvalues, hscript⟩
    refine Option.bind_eq_some_iff.mpr ⟨_, fields_eq_some_iff.mpr has, ?_⟩
    refine Option.bind_eq_some_iff.mpr ⟨_, readPaths_eq_some_iff.mpr hpaths, ?_⟩
    refine Option.bind_eq_some_iff.mpr ⟨_, readValues_eq_some_iff.mpr hvalues, ?_⟩
    exact Option.bind_eq_some_iff.mpr ⟨_, text_eq_some_iff.mpr hscript, rfl⟩

theorem flawed_of_ofJson_eq_none {j : Json} (h : ofJson? j = none) : Flawed j := by
  cases hfields : j.fields? keys with
  | none => exact .fields (fields_eq_none_iff.mp hfields)
  | some fields =>
    have has := fields_eq_some_iff.mp hfields
    have read := Option.bind_eq_none_iff.mp h fields hfields
    match fields, has.length_eq with
    | [paths, values, none], _ => exact .noExpression has
    | [paths, values, some expression], _ =>
      cases hpaths : readEntries "path" Json.text? paths with
      | none =>
        obtain ⟨table, rfl, bad⟩ := readPaths_eq_none_iff.mp hpaths
        exact .paths has bad
      | some pathTable =>
        cases hvalues : readEntries "value" Json.float? values with
        | none =>
          obtain ⟨table, rfl, bad⟩ := readValues_eq_none_iff.mp hvalues
          exact .values has bad
        | some valueTable =>
          cases hscript : expression.text? with
          | none => exact .expression has (text_eq_none_iff.mp hscript)
          | some script => simp [hpaths, hvalues, hscript] at read

theorem Flawed.not_describes {j : Json} (h : Flawed j) (a : Asset) : ¬ Describes j a := by
  rintro ⟨paths, values, expression, has, hpaths, hvalues, hscript⟩
  cases h with
  | fields h => exact h.not_hasFields has
  | noExpression has' => cases has'.unique has
  | expression has' noText =>
    cases has'.unique has
    exact noText.not_isText hscript
  | paths has' noTable =>
    cases has'.unique has
    have refused := readPaths_eq_none_iff.mpr ⟨_, rfl, noTable⟩
    rw [readPaths_eq_some_iff.mpr hpaths] at refused
    cases refused
  | values has' noTable =>
    cases has'.unique has
    have refused := readValues_eq_none_iff.mpr ⟨_, rfl, noTable⟩
    rw [readValues_eq_some_iff.mpr hvalues] at refused
    cases refused

theorem ofJson_eq_none_iff {j : Json} : ofJson? j = none ↔ Flawed j := by
  constructor
  · exact flawed_of_ofJson_eq_none
  · intro h
    refine Option.eq_none_iff_forall_not_mem.mpr fun a ha => ?_
    exact h.not_describes a (ofJson_eq_some_iff.mp ha)

/-! ## Texts -/

/-- **Assets are read as they are spelled**: a text is read as an asset exactly if it is JSON that
describes the asset, and is refused exactly if it is no JSON or what it says is flawed. -/
theorem reading_iff_spelling (text : String) :
    (∀ a, ofText text = .ok a ↔ ∃ j : Json, Json.Spells .element text.toList j ∧ Describes j a) ∧
      (ofText text = .error (.asset .notJson) ↔
        ∀ j : Json, Json.Spells .element text.toList j → Flawed j) := by
  simp only [← read_eq_some_iff, ← ofJson_eq_some_iff, ← ofJson_eq_none_iff]
  unfold ofText
  cases hread : read? text with
  | none => simp
  | some j => cases hj : ofJson? j <;> simp [hj]

end Asset

end TweenScript
