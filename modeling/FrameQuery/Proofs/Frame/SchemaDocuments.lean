import FrameQuery.Frame.Schema
import FrameQuery.Proofs.Json.Members
import FrameQuery.Proofs.Outcome
import Mathlib.Data.List.Nodup

/-!
# The shape of schema documents

Which JSON values state a document, said without reading them: records are objects without repeated
fields, or arrays of the values of their fields, and where there is a list of entries a single entry
may stand for itself. A document is read from exactly the values that state it.
-/

namespace FrameQuery.Schema

/-- A record of the fields with `names` has certain members. It is an object in which no field is
repeated, or an array of the values of the fields in order, at least of the first `needed`. -/
inductive Record (names : List String) (needed : Nat) : Json → List (String × Json) → Prop
  | object {members : List (String × Json)}
    (single : ∀ name ∈ names, (members.map Prod.fst).count name ≤ 1) :
    Record names needed (.object members) members
  | array {items : List Json} (enough : needed ≤ items.length)
    (fits : items.length ≤ names.length) :
    Record names needed (.array items) (names.zip items)

/-- A list of entries is stated by an array of what states each of them, and a single entry by what
states it. -/
inductive OneOrMany {α : Type} (States : α → Json → Prop) : List α → Json → Prop
  | one {entry : α} {json : Json} (h : States entry json) : OneOrMany States [entry] json
  | many {entries : List α} {items : List Json} (h : List.Forall₂ States entries items) :
    OneOrMany States entries (.array items)

/-- A list of a document states entries within the limits of such lists. -/
def Listed {α : Type} (States : α → Json → Prop) (entries : List α) (json : Json) : Prop :=
  keepsLimits json = true ∧ OneOrMany States entries json

/-- A JSON value states a text. -/
def StatesText (text : String) (json : Json) : Prop := json = .string text

/-- A JSON value states a column: its name, its type, and its kind unless that is left out or
null. -/
def ColumnEntry.StatedBy (entry : ColumnEntry) (json : Json) : Prop :=
  ∃ members, Record ["_type", "name", "type"] 3 json members ∧
    (match entry.kind with
      | some kind => ("_type", .string kind) ∈ members
      | none => ∀ value, ("_type", value) ∈ members → value = .null) ∧
    ("name", .string entry.name) ∈ members ∧ ("type", .string entry.type) ∈ members

/-- A JSON value states an enumeration: its type and its values. -/
def EnumEntry.StatedBy (entry : EnumEntry) (json : Json) : Prop :=
  ∃ members, Record ["type", "values"] 2 json members ∧ ("type", .string entry.type) ∈ members ∧
    ∃ values, ("values", values) ∈ members ∧ OneOrMany StatesText entry.values values

/-- A JSON value states a document: its columns, and its enumerations unless there are none. -/
def Document.StatedBy (document : Document) (json : Json) : Prop :=
  ∃ members, Record ["columns", "enums"] 1 json members ∧
    (∃ columns, ("columns", columns) ∈ members ∧
      Listed ColumnEntry.StatedBy document.columns columns) ∧
    ((∃ enums, ("enums", enums) ∈ members ∧ Listed EnumEntry.StatedBy document.enums enums) ∨
      document.enums = [] ∧ ∀ enums, ("enums", enums) ∉ members)

/-! ### Records -/

variable {names : List String} {needed : Nat} {json : Json} {members : List (String × Json)}

/-- No field of a record is repeated. -/
theorem Record.single (h : Record names needed json members) (distinct : names.Nodup)
    {name : String} (hn : name ∈ names) : (members.map Prod.fst).count name ≤ 1 := by
  cases h with
  | object single => exact single name hn
  | @array items enough fits =>
    have front : (names.take items.length).count name ≤ names.count name :=
      (List.take_sublist _ names).count_le name
    have sized : (names.take items.length).length ≤ (items.take items.length).length := by
      rw [List.length_take, List.take_length]
      exact Nat.min_le_left _ _
    rw [List.zip_eq_zip_take_min, Nat.min_eq_right fits, List.map_fst_zip sized]
    exact Nat.le_trans front (List.nodup_iff_count_le_one.mp distinct name)

/-- Members with a key, counted by their keys. -/
private theorem count_keys (members : List (String × Json)) (key : String) :
    (members.map Prod.fst).count key = (members.filter (·.1 == key)).length := by
  rw [List.count_eq_countP, List.countP_map, List.countP_eq_length_filter]
  rfl

/-- The fields of a record are read exactly from such a record. -/
theorem fields_eq_some_iff :
    fields names needed json = some members ↔ Record names needed json members := by
  have repeats (members : List (String × Json)) :
      (names.all fun name ↦ (members.filter (·.1 == name)).length ≤ 1) = true ↔
        ∀ name ∈ names, (members.map Prod.fst).count name ≤ 1 := by
    simp only [List.all_eq_true, decide_eq_true_eq, count_keys]
  constructor
  · intro h
    cases json with
    | object all =>
      rw [fields, Option.ite_none_right_eq_some] at h
      obtain ⟨single, he⟩ := h
      obtain rfl := Option.some.inj he
      exact .object ((repeats all).mp single)
    | array items =>
      rw [fields, Option.ite_none_right_eq_some] at h
      obtain ⟨⟨enough, fits⟩, he⟩ := h
      obtain rfl := Option.some.inj he
      exact .array enough fits
    | _ => cases h
  · intro h
    cases h with
    | object single => rw [fields, if_pos ((repeats members).mpr single)]
    | array enough fits => rw [fields, if_pos ⟨enough, fits⟩]

/-! ### Lists -/

section

variable {α : Type} {States : α → Json → Prop} {decode : Json → Option α} {entries : List α}

/-- Entries that are stated by an array do not look like a list of entries. -/
def Apart (States : α → Json → Prop) : Prop :=
  ∀ entry items entries, States entry (.array items) → ¬List.Forall₂ States entries items

/-- A list is read exactly from an array of what its entries are read from. -/
theorem list?_eq_some_iff (exact : ∀ json entry, decode json = some entry ↔ States entry json) :
    Json.list? decode json = some entries ↔
      ∃ items, json = .array items ∧ List.Forall₂ States entries items := by
  cases json with
  | array items =>
    rw [Json.list?, mapM_eq_some]
    simp only [exact, Json.array.injEq, exists_eq_left']
    exact ⟨.flip, .flip⟩
  | _ => simp [Json.list?]

/-- A single entry or a list of entries is read exactly from what states it. -/
theorem oneOrMany_eq_some_iff (exact : ∀ json entry, decode json = some entry ↔ States entry json)
    (apart : Apart States) :
    oneOrMany decode json = some entries ↔ OneOrMany States entries json := by
  rw [oneOrMany]
  cases read : decode json with
  | some entry =>
    have stated := (exact json entry).mp read
    constructor
    · intro h
      obtain rfl := Option.some.inj h
      exact .one stated
    · intro h
      cases h with
      | one other => rw [← read, (exact _ _).mpr other]
      | many several => exact absurd several (apart _ _ _ stated)
  | none =>
    have unstated (entry : α) : ¬States entry json := by
      rw [← exact, read]
      exact nofun
    rw [list?_eq_some_iff exact]
    constructor
    · rintro ⟨items, rfl, several⟩
      exact .many several
    · intro h
      cases h with
      | one other => exact absurd other (unstated _)
      | many several => exact ⟨_, rfl, several⟩

/-- A list of a document is read exactly from what states it. -/
theorem listed_eq_some_iff (exact : ∀ json entry, decode json = some entry ↔ States entry json)
    (apart : Apart States) :
    listed decode json = some entries ↔ Listed States entries json := by
  rw [listed, Option.ite_none_right_eq_some, oneOrMany_eq_some_iff exact apart, Listed]

/-- What states a list states no other one. -/
theorem Listed.unique {others : List α} (h : Listed States entries json)
    (exact : ∀ json entry, decode json = some entry ↔ States entry json) (apart : Apart States)
    (h' : Listed States others json) : entries = others := by
  rw [← listed_eq_some_iff exact apart] at h h'
  exact Option.some.inj (h.symm.trans h')

end

/-! ### Columns and enumerations -/

/-- A text is read exactly from what states it. -/
theorem string?_eq_some_iff (json : Json) (text : String) :
    Json.string? json = some text ↔ StatesText text json := by
  cases json <;> simp [Json.string?, StatesText, eq_comm]

/-- A text that is a field is read exactly from the member that is that text. -/
theorem required_string_iff {key text : String} (single : (members.map Prod.fst).count key ≤ 1) :
    Json.required Json.string? key members = some text ↔ (key, .string text) ∈ members := by
  rw [Json.required_eq_some_iff single]
  simp only [string?_eq_some_iff, StatesText, exists_eq_right]

/-- A column is read exactly from what states it. -/
theorem ColumnEntry.ofJson?_eq_some_iff (json : Json) (entry : ColumnEntry) :
    ofJson? json = some entry ↔ entry.StatedBy json := by
  obtain ⟨kind, name, type⟩ := entry
  simp only [ofJson?, Option.bind_eq_bind, Option.bind_eq_some_iff, Option.pure_def,
    Option.some.injEq, ColumnEntry.mk.injEq, StatedBy, fields_eq_some_iff]
  refine exists_congr fun members ↦ and_congr_right fun record ↦ ?_
  have single {key : String} (hk : key ∈ ["_type", "name", "type"]) := record.single (by decide) hk
  have kinds : Json.optional Json.string? "_type" members = some kind ↔
      match kind with
      | some kind => ("_type", .string kind) ∈ members
      | none => ∀ value, ("_type", value) ∈ members → value = .null := by
    cases kind with
    | none => exact Json.optional_eq_some_none_iff (single (by simp))
    | some kind =>
      rw [Json.optional_eq_some_some_iff (single (by simp)) rfl]
      simp only [string?_eq_some_iff, StatesText, exists_eq_right]
  rw [← kinds, ← required_string_iff (single (by simp)), ← required_string_iff (single (by simp))]
  constructor
  · rintro ⟨_, hk, _, hn, _, ht, rfl, rfl, rfl⟩
    exact ⟨hk, hn, ht⟩
  · rintro ⟨hk, hn, ht⟩
    exact ⟨_, hk, _, hn, _, ht, rfl, rfl, rfl⟩

/-- The values of a record that is an array are its items. -/
theorem Record.mem_items {items : List Json} (h : Record names needed (.array items) members)
    {key : String} {value : Json} (mem : (key, value) ∈ members) : value ∈ items := by
  cases h
  exact (List.of_mem_zip mem).2

/-- An array with a text among its items is no list of entries, if no text states an entry. -/
theorem not_forall₂_of_text {α : Type} {States : α → Json → Prop}
    (solid : ∀ entry text, ¬States entry (.string text)) {text : String} {items : List Json}
    (mem : .string text ∈ items) (entries : List α) : ¬List.Forall₂ States entries items := by
  intro several
  obtain ⟨entry, -, stated⟩ := Outcome.exists_of_mem_right several mem
  exact solid entry text stated

/-- No text states a column. -/
theorem ColumnEntry.not_statedBy_string (entry : ColumnEntry) (text : String) :
    ¬entry.StatedBy (.string text) := by
  rintro ⟨_, ⟨⟩, -⟩

/-- A column does not look like a list of columns. -/
theorem ColumnEntry.apart : Apart StatedBy := by
  rintro entry items entries ⟨members, record, -, named, -⟩
  exact not_forall₂_of_text not_statedBy_string (record.mem_items named) entries

/-- No array states a text. -/
theorem apart_statesText : Apart StatesText := nofun

/-- An enumeration is read exactly from what states it. -/
theorem EnumEntry.ofJson?_eq_some_iff (json : Json) (entry : EnumEntry) :
    ofJson? json = some entry ↔ entry.StatedBy json := by
  obtain ⟨type, values⟩ := entry
  simp only [ofJson?, Option.bind_eq_bind, Option.bind_eq_some_iff, Option.pure_def,
    Option.some.injEq, EnumEntry.mk.injEq, StatedBy, fields_eq_some_iff]
  refine exists_congr fun members ↦ and_congr_right fun record ↦ ?_
  have single {key : String} (hk : key ∈ ["type", "values"]) := record.single (by decide) hk
  have values? : Json.required (oneOrMany Json.string?) "values" members = some values ↔
      ∃ json, ("values", json) ∈ members ∧ OneOrMany StatesText values json := by
    rw [Json.required_eq_some_iff (single (by simp))]
    simp only [oneOrMany_eq_some_iff string?_eq_some_iff apart_statesText]
  rw [← required_string_iff (single (by simp)), ← values?]
  constructor
  · rintro ⟨_, ht, _, hv, rfl, rfl⟩
    exact ⟨ht, hv⟩
  · rintro ⟨ht, hv⟩
    exact ⟨_, ht, _, hv, rfl, rfl⟩

/-- No text states an enumeration. -/
theorem EnumEntry.not_statedBy_string (entry : EnumEntry) (text : String) :
    ¬entry.StatedBy (.string text) := by
  rintro ⟨_, ⟨⟩, -⟩

/-- An enumeration does not look like a list of enumerations. -/
theorem EnumEntry.apart : Apart StatedBy := by
  rintro entry items entries ⟨members, record, typed, -⟩
  exact not_forall₂_of_text not_statedBy_string (record.mem_items typed) entries

/-! ### Documents -/

/-- A document is read exactly from what states it. -/
theorem Document.ofJson?_eq_some_iff (json : Json) (document : Document) :
    ofJson? json = some document ↔ document.StatedBy json := by
  obtain ⟨columns, enums⟩ := document
  rw [ofJson?, Option.bind_eq_bind, Option.bind_eq_some_iff, StatedBy]
  simp only [fields_eq_some_iff]
  refine exists_congr fun members ↦ and_congr_right fun record ↦ ?_
  have single {key : String} (hk : key ∈ ["columns", "enums"]) := record.single (by decide) hk
  have columns? (columns : List ColumnEntry) :
      Json.required (listed ColumnEntry.ofJson?) "columns" members = some columns ↔
        ∃ json, ("columns", json) ∈ members ∧ Listed ColumnEntry.StatedBy columns json := by
    rw [Json.required_eq_some_iff (single (by simp))]
    simp only [listed_eq_some_iff ColumnEntry.ofJson?_eq_some_iff ColumnEntry.apart]
  rw [← columns?]
  cases found : Json.lookup "enums" members with
  | none =>
    have absent := Json.lookup_eq_none_iff.mp found
    simp only [Option.bind_eq_bind, Option.bind_some, Option.bind_eq_some_iff, Option.pure_def,
      Option.some.injEq, Document.mk.injEq]
    constructor
    · rintro ⟨_, hc, rfl, rfl⟩
      exact ⟨hc, .inr ⟨rfl, absent⟩⟩
    · rintro ⟨hc, ⟨json, mem, -⟩ | ⟨rfl, -⟩⟩
      · exact absurd mem (absent json)
      · exact ⟨_, hc, rfl, rfl⟩
  | some value =>
    have mem := Json.mem_of_lookup found
    simp only [Option.bind_eq_bind, Option.bind_eq_some_iff, Option.pure_def, Option.some.injEq,
      Document.mk.injEq, listed_eq_some_iff EnumEntry.ofJson?_eq_some_iff EnumEntry.apart]
    constructor
    · rintro ⟨_, he, _, hc, rfl, rfl⟩
      exact ⟨hc, .inl ⟨value, mem, he⟩⟩
    · rintro ⟨hc, ⟨json, mem', he⟩ | ⟨-, absent⟩⟩
      · rw [Json.value_unique (single (by simp)) mem' mem] at he
        exact ⟨_, he, _, hc, rfl, rfl⟩
      · exact absurd mem (absent value)

end FrameQuery.Schema
