import FrameQuery.Proofs.Frame.SchemaDocuments
import Mathlib.Logic.Relation

/-!
# Lists with one entry in schema documents

A list of columns, of enumerations or of the values of an enumeration may be written as its entry if
it has only one. What a document states is not changed by that.
-/

namespace FrameQuery.Schema

/-- An array with one item is replaced by the item. -/
inductive Bared : Json → Json → Prop
  | intro (item : Json) : Bared (.array [item]) item

/-- In a record of the fields with `names`, the value of the field `key` is replaced. -/
inductive FieldReplaced (names : List String) (key : String) (Replaced : Json → Json → Prop) :
    Json → Json → Prop
  | object {before after : List (String × Json)} {value value' : Json}
    (h : Replaced value value') :
    FieldReplaced names key Replaced (.object (before ++ (key, value) :: after))
      (.object (before ++ (key, value') :: after))
  | array {earlier later : List String} {before after : List Json} {value value' : Json}
    (place : names = earlier ++ key :: later) (same : earlier.length = before.length)
    (h : Replaced value value') :
    FieldReplaced names key Replaced (.array (before ++ value :: after))
      (.array (before ++ value' :: after))

/-- A single entry is replaced, or one of a list of entries. -/
inductive EntryReplaced (Replaced : Json → Json → Prop) : Json → Json → Prop
  | one {json json' : Json} (h : Replaced json json') : EntryReplaced Replaced json json'
  | many {before after : List Json} {json json' : Json} (h : Replaced json json') :
    EntryReplaced Replaced (.array (before ++ json :: after)) (.array (before ++ json' :: after))

/-- A list of a document that states some entries is replaced. -/
def ListReplaced {α : Type} (States : α → Json → Prop) (Replaced : Json → Json → Prop)
    (json json' : Json) : Prop := (∃ entries, Listed States entries json) ∧ Replaced json json'

/-- In a document, a list of columns, of enumerations or of the values of an enumeration is replaced
by its only entry. The rest of the document may be anything. -/
inductive Unlisted (json json' : Json) : Prop
  | columns (h : FieldReplaced ["columns", "enums"] "columns"
      (ListReplaced ColumnEntry.StatedBy Bared) json json')
  | enums (h : FieldReplaced ["columns", "enums"] "enums"
      (ListReplaced EnumEntry.StatedBy Bared) json json')
  | values (h : FieldReplaced ["columns", "enums"] "enums" (ListReplaced EnumEntry.StatedBy
      (EntryReplaced (FieldReplaced ["type", "values"] "values" Bared))) json json')

/-! ### Limits -/

/-- What holds of all entries holds of them after one is replaced, if it holds of the new one. -/
private theorem forall_replaced {α : Type} {P : α → Prop} {before after : List α} {a a' : α}
    (each : P a → P a') (h : ∀ x ∈ before ++ a :: after, P x) :
    ∀ x ∈ before ++ a' :: after, P x := by
  rw [List.forall_mem_append, List.forall_mem_cons] at h ⊢
  exact ⟨h.1, each h.2.1, h.2.2⟩

/-- The depth of items bounds that of each. -/
private theorem itemsDepth_le_iff {items : List Json} {n : Nat} :
    Json.itemsDepth items ≤ n ↔ ∀ item ∈ items, item.depth ≤ n := by
  induction items with
  | nil => simp [Json.itemsDepth]
  | cons item rest ih => rw [Json.itemsDepth, Nat.max_le, ih, List.forall_mem_cons]

/-- The depth of members bounds that of each. -/
private theorem membersDepth_le_iff {members : List (String × Json)} {n : Nat} :
    Json.membersDepth members ≤ n ↔ ∀ member ∈ members, member.2.depth ≤ n := by
  induction members with
  | nil => simp [Json.membersDepth]
  | cons member rest ih => rw [Json.membersDepth, Nat.max_le, ih, List.forall_mem_cons]

/-- Items are plain if each is. -/
private theorem itemsArePlain_iff {items : List Json} :
    itemsArePlain items = true ↔ ∀ item ∈ items, isPlain item = true := by
  induction items with
  | nil => simp [itemsArePlain]
  | cons item rest ih => rw [itemsArePlain, Bool.and_eq_true, ih, List.forall_mem_cons]

/-- Members are plain if each is. -/
private theorem membersArePlain_iff {members : List (String × Json)} :
    membersArePlain members = true ↔ ∀ member ∈ members, isPlain member.2 = true := by
  induction members with
  | nil => simp [membersArePlain]
  | cons member rest ih => rw [membersArePlain, Bool.and_eq_true, ih, List.forall_mem_cons]

/-- A JSON value is within the limits that another one keeps. -/
structure Within (json json' : Json) : Prop where
  shallow : json'.depth ≤ json.depth
  plain : isPlain json = true → isPlain json' = true

namespace Within

variable {json json' value value' : Json}

/-- Limits are kept within them. -/
theorem keepsLimits (h : Within json json') (kept : Schema.keepsLimits json = true) :
    Schema.keepsLimits json' = true := by
  rw [Schema.keepsLimits, Bool.and_eq_true, decide_eq_true_eq] at kept ⊢
  exact ⟨Nat.le_trans h.shallow kept.1, h.plain kept.2⟩

/-- An item is within its array. -/
theorem bared (h : Bared json json') : Within json json' := by
  cases h with
  | intro item =>
    constructor
    · rw [Json.depth, Json.itemsDepth]
      exact Nat.le_succ_of_le (Nat.le_max_left _ _)
    · intro plain
      rw [isPlain, itemsArePlain_iff] at plain
      exact plain json' List.mem_cons_self

/-- An array is within the limits if what replaces one of its items is. -/
theorem array {before after : List Json} (h : Within value value') :
    Within (.array (before ++ value :: after)) (.array (before ++ value' :: after)) := by
  constructor
  · rw [Json.depth, Json.depth, Nat.add_le_add_iff_right, itemsDepth_le_iff]
    exact forall_replaced (Nat.le_trans h.shallow) (itemsDepth_le_iff.mp (Nat.le_refl _))
  · rw [isPlain, isPlain, itemsArePlain_iff, itemsArePlain_iff]
    exact forall_replaced h.plain

/-- An object is within the limits if what replaces the value of one of its members is. -/
theorem object {key : String} {before after : List (String × Json)} (h : Within value value') :
    Within (.object (before ++ (key, value) :: after))
      (.object (before ++ (key, value') :: after)) := by
  constructor
  · rw [Json.depth, Json.depth, Nat.add_le_add_iff_right, membersDepth_le_iff]
    exact forall_replaced (Nat.le_trans h.shallow) (membersDepth_le_iff.mp (Nat.le_refl _))
  · rw [isPlain, isPlain, membersArePlain_iff, membersArePlain_iff]
    exact forall_replaced h.plain

/-- A record is within the limits if what replaces the value of a field is. -/
theorem field {names : List String} {key : String} {Replaced : Json → Json → Prop}
    (within : ∀ value value', Replaced value value' → Within value value')
    (h : FieldReplaced names key Replaced json json') : Within json json' := by
  cases h with
  | object h => exact object (within _ _ h)
  | array _ _ h => exact array (within _ _ h)

/-- A list is within the limits if what replaces an entry is. -/
theorem entry {Replaced : Json → Json → Prop}
    (within : ∀ value value', Replaced value value' → Within value value')
    (h : EntryReplaced Replaced json json') : Within json json' := by
  cases h with
  | one h => exact within _ _ h
  | many h => exact array (within _ _ h)

end Within

/-! ### Records -/

variable {names : List String} {needed : Nat} {key : String} {json json' : Json}
  {members : List (String × Json)} {Replaced : Json → Json → Prop}

/-- A value that is replaced is replaced in a wider sense. -/
private theorem FieldReplaced.imp {Wider : Json → Json → Prop}
    (wider : ∀ value value', Replaced value value' → Wider value value')
    (h : FieldReplaced names key Replaced json json') :
    FieldReplaced names key Wider json json' := by
  cases h with
  | object h => exact .object (wider _ _ h)
  | array place same h => exact .array place same (wider _ _ h)

/-- Values that may be replaced by each other are so in a field. -/
private theorem FieldReplaced.symm
    (back : ∀ value value', Replaced value value' → Replaced value' value)
    (h : FieldReplaced names key Replaced json json') :
    FieldReplaced names key Replaced json' json := by
  cases h with
  | object h => exact .object (back _ _ h)
  | array place same h => exact .array place same (back _ _ h)

/-- The member that is replaced stands among the others as before. -/
private theorem Record.exists_replaced (record : Record names needed json members)
    (h : FieldReplaced names key Replaced json json') :
    ∃ before after value value', members = before ++ (key, value) :: after ∧
      Replaced value value' ∧ Record names needed json' (before ++ (key, value') :: after) := by
  cases h with
  | @object before after value value' h =>
    cases record with
    | object single =>
      refine ⟨before, after, value, value', rfl, h, .object ?_⟩
      intro name hn
      have once := single name hn
      rwa [List.map_append, List.map_cons] at once ⊢
  | @array earlier later before after value value' place same h =>
    cases record with
    | array enough fits =>
      have zipped (value : Json) : names.zip (before ++ value :: after) =
          earlier.zip before ++ (key, value) :: later.zip after := by
        rw [place, List.zip_append same, List.zip_cons_cons]
      have sized : (before ++ value' :: after).length = (before ++ value :: after).length := by
        rw [List.length_append, List.length_append, List.length_cons, List.length_cons]
      refine ⟨_, _, value, value', zipped value, h, ?_⟩
      rw [← zipped]
      exact .array (sized ▸ enough) (sized ▸ fits)

/-- After the value of a field is replaced, a record has the new value in this field, and the other
fields as before. -/
theorem Record.replaced (record : Record names needed json members)
    (h : FieldReplaced names key Replaced json json') :
    ∃ members' value value', Record names needed json' members' ∧ (key, value) ∈ members ∧
      Replaced value value' ∧ (key, value') ∈ members' ∧
      ∀ name ≠ key, ∀ other, (name, other) ∈ members' ↔ (name, other) ∈ members := by
  obtain ⟨before, after, value, value', rfl, h, record⟩ := record.exists_replaced h
  exact ⟨_, value, value', record, by simp, h, by simp, fun name apart other ↦ by simp [apart]⟩

/-- A record of several fields is no array with one item. -/
theorem Record.not_single {item : Json} (several : 1 < needed) :
    ¬Record names needed (.array [item]) members := by
  intro record
  cases record with
  | array enough _ => exact absurd (Nat.lt_of_lt_of_le several enough) (Nat.lt_irrefl 1)

/-! ### Lists -/

section

variable {α : Type} {States : α → Json → Prop} {entries : List α}

/-- An array of one entry states what the entry itself states. -/
theorem OneOrMany.bared (h : OneOrMany States entries json) (hb : Bared json json')
    (solid : ∀ entry item, ¬States entry (.array [item])) : OneOrMany States entries json' := by
  cases hb with
  | intro item =>
    cases h with
    | one stated => exact absurd stated (solid _ _)
    | many several =>
      obtain ⟨entry, rest, stated, none, rfl⟩ := List.forall₂_cons_right_iff.mp several
      obtain rfl := List.forall₂_nil_right_iff.mp none
      exact .one stated

/-- Items state the same entries after one is replaced by what states the same entry. -/
private theorem forall₂_replaced {before after : List Json} {item item' : Json}
    (keeps : ∀ entry, States entry item → States entry item')
    (h : List.Forall₂ States entries (before ++ item :: after)) :
    List.Forall₂ States entries (before ++ item' :: after) := by
  induction before generalizing entries with
  | nil =>
    obtain ⟨entry, rest, stated, others, rfl⟩ := List.forall₂_cons_right_iff.mp h
    exact .cons (keeps entry stated) others
  | cons first before ih =>
    obtain ⟨entry, rest, stated, others, rfl⟩ := List.forall₂_cons_right_iff.mp h
    exact .cons stated (ih others)

/-- What states an entry may be replaced where it stands for itself and in an array of entries, if
an entry that is an array does not look like a list of entries. -/
theorem OneOrMany.replaced (h : OneOrMany States entries json)
    (hr : EntryReplaced Replaced json json')
    (keeps : ∀ entry value value', States entry value → Replaced value value' →
      States entry value')
    (inside : ∀ entry items, States entry (.array items) →
      ∀ item ∈ items, ∀ value', ¬Replaced item value')
    (outside : ∀ entries items, List.Forall₂ States entries items →
      ∀ value', ¬Replaced (.array items) value') : OneOrMany States entries json' := by
  cases hr with
  | one hr =>
    cases h with
    | one stated => exact .one (keeps _ _ _ stated hr)
    | many several => exact absurd hr (outside _ _ several _)
  | @many before after item item' hr =>
    cases h with
    | one stated => exact absurd hr (inside _ _ stated item (by simp) _)
    | many several =>
      exact .many (forall₂_replaced (fun entry stated ↦ keeps entry _ _ stated hr) several)

/-- Within its limits, a list of one entry states what the entry itself states. -/
theorem Listed.bared (h : Listed States entries json) (hb : Bared json json')
    (solid : ∀ entry item, ¬States entry (.array [item])) : Listed States entries json' :=
  ⟨Within.keepsLimits (.bared hb) h.1, h.2.bared hb solid⟩

end

/-! ### Documents -/

/-- No array with one item states a column. -/
theorem ColumnEntry.not_statedBy_single (entry : ColumnEntry) (item : Json) :
    ¬entry.StatedBy (.array [item]) := by
  rintro ⟨members, record, -⟩
  exact record.not_single (by decide)

/-- No array with one item states an enumeration. -/
theorem EnumEntry.not_statedBy_single (entry : EnumEntry) (item : Json) :
    ¬entry.StatedBy (.array [item]) := by
  rintro ⟨members, record, -⟩
  exact record.not_single (by decide)

/-- An enumeration is stated as well if its only value stands for the list of its values. -/
theorem EnumEntry.StatedBy.unlisted {entry : EnumEntry} (h : entry.StatedBy json)
    (hr : FieldReplaced ["type", "values"] "values" Bared json json') : entry.StatedBy json' := by
  obtain ⟨members, record, typed, values, mem, several⟩ := h
  obtain ⟨members', value, value', record', mem', hb, replaced, others⟩ := record.replaced hr
  rw [Json.value_unique (record.single (by decide) (by simp)) mem mem'] at several
  exact ⟨members', record', (others "type" (by decide) _).mpr typed, value', replaced,
    several.bared hb nofun⟩

/-- An array whose value of a field is replaced has a one-element array among its items. -/
private theorem FieldReplaced.exists_single {items : List Json}
    (h : FieldReplaced names key Bared (.array items) json') :
    ∃ item, .array [item] ∈ items := by
  generalize he : Json.array items = json at h
  cases h with
  | object h => cases he
  | @array _ _ _ _ _ item place same h =>
    rw [Json.array.inj he]
    cases h
    exact ⟨item, List.mem_append_right _ List.mem_cons_self⟩

/-- A list of enumerations is stated as well if in one of them, the only value stands for the list
of values. -/
theorem OneOrMany.unlisted {entries : List EnumEntry}
    (h : OneOrMany EnumEntry.StatedBy entries json)
    (hr : EntryReplaced (FieldReplaced ["type", "values"] "values" Bared) json json') :
    OneOrMany EnumEntry.StatedBy entries json' := by
  refine h.replaced hr (fun _ _ _ ↦ .unlisted) ?_ ?_
  · -- The items of an enumeration are a text and its values, and no enumeration is among these.
    rintro ⟨type, texts⟩ items ⟨members, record, typed, values, mem, several⟩ item hi value' hr
    cases record with
    | array enough fits =>
      obtain ⟨first, second, rfl⟩ := List.length_eq_two.mp (Nat.le_antisymm fits enough)
      obtain rfl : .string type = first := by simpa using typed
      obtain rfl : values = second := by simpa using mem
      rcases List.mem_pair.mp hi with rfl | rfl
      · cases hr
      · cases several with
        | one stated =>
          rw [stated] at hr
          cases hr
        | many stated =>
          obtain ⟨single, mem⟩ := hr.exists_single
          obtain ⟨_, -, text⟩ := Outcome.exists_of_mem_right stated mem
          cases text
  · intro entries items several value' hr
    obtain ⟨item, mem⟩ := hr.exists_single
    obtain ⟨entry, -, stated⟩ := Outcome.exists_of_mem_right several mem
    exact entry.not_statedBy_single item stated

/-- Two JSON values state the same list of entries. -/
def SameEntries {α : Type} (States : α → Json → Prop) (json json' : Json) : Prop :=
  ∃ entries, Listed States entries json ∧ Listed States entries json'

/-- To state the same entries is symmetric. -/
private theorem SameEntries.symm {α : Type} {States : α → Json → Prop}
    (h : SameEntries States json json') : SameEntries States json' json := by
  obtain ⟨entries, one, other⟩ := h
  exact ⟨entries, other, one⟩

/-- A list with one entry states the same entries as its entry. -/
private theorem SameEntries.bared {α : Type} {States : α → Json → Prop}
    (solid : ∀ entry item, ¬States entry (.array [item]))
    (h : ListReplaced States Bared json json') :
    SameEntries States json json' := by
  obtain ⟨⟨entries, listed⟩, hb⟩ := h
  exact ⟨entries, listed, listed.bared hb solid⟩

/-- A list of enumerations states the same enumerations if in one of them, the only value stands
for the list of values. -/
private theorem SameEntries.values (h : ListReplaced EnumEntry.StatedBy
    (EntryReplaced (FieldReplaced ["type", "values"] "values" Bared)) json json') :
    SameEntries EnumEntry.StatedBy json json' := by
  obtain ⟨⟨entries, listed⟩, he⟩ := h
  have kept := Within.keepsLimits (.entry (fun _ _ ↦ .field fun _ _ ↦ .bared) he) listed.1
  exact ⟨entries, listed, kept, listed.2.unlisted he⟩

/-- What states the columns of a document may be replaced by what states the same columns. -/
private theorem Document.StatedBy.columns_replaced {document : Document}
    (h : document.StatedBy json) (hr : FieldReplaced ["columns", "enums"] "columns"
      (SameEntries ColumnEntry.StatedBy) json json') : document.StatedBy json' := by
  obtain ⟨members, record, ⟨columns, mem, listed⟩, enums⟩ := h
  obtain ⟨members', value, value', record', mem', ⟨entries, one, other⟩, replaced, others⟩ :=
    record.replaced hr
  rw [Json.value_unique (record.single (by decide) (by simp)) mem mem'] at listed
  rw [← listed.unique ColumnEntry.ofJson?_eq_some_iff ColumnEntry.apart one] at other
  refine ⟨members', record', ⟨value', replaced, other⟩, ?_⟩
  simpa only [others "enums" (by decide)] using enums

/-- What states the enumerations of a document may be replaced by what states the same ones. -/
private theorem Document.StatedBy.enums_replaced {document : Document}
    (h : document.StatedBy json) (hr : FieldReplaced ["columns", "enums"] "enums"
      (SameEntries EnumEntry.StatedBy) json json') : document.StatedBy json' := by
  obtain ⟨members, record, columns, enums⟩ := h
  obtain ⟨members', value, value', record', mem', ⟨entries, one, other⟩, replaced, others⟩ :=
    record.replaced hr
  refine ⟨members', record', ?_, ?_⟩
  · simpa only [others "columns" (by decide)] using columns
  · rcases enums with ⟨enums, mem, listed⟩ | ⟨-, absent⟩
    · rw [Json.value_unique (record.single (by decide) (by simp)) mem mem'] at listed
      rw [← listed.unique EnumEntry.ofJson?_eq_some_iff EnumEntry.apart one] at other
      exact .inl ⟨value', replaced, other⟩
    · exact absurd mem' (absent value)

/-- The only entry of a list states the same document in place of the list. -/
theorem Document.statedBy_iff_of_unlisted (h : Unlisted json json') (document : Document) :
    document.StatedBy json' ↔ document.StatedBy json := by
  cases h with
  | columns hr =>
    have same := hr.imp fun _ _ ↦ SameEntries.bared ColumnEntry.not_statedBy_single
    exact ⟨(·.columns_replaced (same.symm fun _ _ ↦ .symm)), (·.columns_replaced same)⟩
  | enums hr =>
    have same := hr.imp fun _ _ ↦ SameEntries.bared EnumEntry.not_statedBy_single
    exact ⟨(·.enums_replaced (same.symm fun _ _ ↦ .symm)), (·.enums_replaced same)⟩
  | values hr =>
    have same := hr.imp fun _ _ ↦ SameEntries.values
    exact ⟨(·.enums_replaced (same.symm fun _ _ ↦ .symm)), (·.enums_replaced same)⟩

/-- The only entries of several lists state the same document in place of the lists. -/
theorem Document.statedBy_iff_of_all_unlisted (h : Relation.ReflTransGen Unlisted json json')
    (document : Document) : document.StatedBy json' ↔ document.StatedBy json := by
  induction h with
  | refl => exact .rfl
  | tail _ step ih => exact (statedBy_iff_of_unlisted step document).trans ih

end FrameQuery.Schema
