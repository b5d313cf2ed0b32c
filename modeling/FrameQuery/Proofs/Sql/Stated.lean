import FrameQuery.Proofs.Json.Members
import FrameQuery.Sql.Tree

/-!
# JSON values that state a tree

A tree without floating point numbers is stated by its JSON form, and by any JSON value that differs
from it in how its records and variants are laid out: their members may stand in any order, there
may be members that are no field, and an absent field may be null or missing. Decoders of the usual
shapes read all of these values alike.
-/

namespace FrameQuery.Sql

namespace Tree

mutual

/-- A JSON value states a tree. -/
def StatedBy : Tree → Json → Prop
  | .text value, json => json = .string value
  | .boolean value, json => json = .boolean value
  | .integer value, json => json = .integer value
  | .double _, _ => False
  | .absent, json => json = .null
  | .present value, json => value.StatedBy json
  | .list items, json => ∃ jsons, json = .array jsons ∧ ItemsStated items jsons
  | .record _ fields, json => ∃ members known, json = .object members ∧
      (members.filter fun m ↦ fields.any fun f ↦ f.1 = m.1).Perm known ∧ FieldsStated fields known
  | .unit name, json => json = .string name
  | .wrapped name content, json => ∃ inner, json = .object [(name, inner)] ∧ content.StatedBy inner
  | .variant name fields, json => ∃ members known, json = .object [(name, .object members)] ∧
      (members.filter fun m ↦ fields.any fun f ↦ f.1 = m.1).Perm known ∧ FieldsStated fields known

/-- JSON values state the items of a list. -/
def ItemsStated : List Tree → List Json → Prop
  | [], jsons => jsons = []
  | item :: rest, jsons =>
    ∃ json others, jsons = json :: others ∧ item.StatedBy json ∧ ItemsStated rest others

/-- Members state fields in their order, absent ones perhaps left out. -/
def FieldsStated : List (String × Tree) → List (String × Json) → Prop
  | [], members => members = []
  | (name, value) :: rest, members =>
    (∃ json others, members = (name, json) :: others ∧ value.StatedBy json ∧
      FieldsStated rest others) ∨
    value = .absent ∧ FieldsStated rest members

/-- No floating point number stands in a tree. -/
def DoubleFree : Tree → Prop
  | .double _ => False
  | .present value => value.DoubleFree
  | .list items => ItemsDoubleFree items
  | .record _ fields => FieldsDoubleFree fields
  | .wrapped _ content => content.DoubleFree
  | .variant _ fields => FieldsDoubleFree fields
  | _ => True

/-- No floating point number stands in the items of a list. -/
def ItemsDoubleFree : List Tree → Prop
  | [] => True
  | item :: rest => item.DoubleFree ∧ ItemsDoubleFree rest

/-- No floating point number stands in fields. -/
def FieldsDoubleFree : List (String × Tree) → Prop
  | [] => True
  | (_, value) :: rest => value.DoubleFree ∧ FieldsDoubleFree rest

end

/-! ### The JSON form -/

/-- The members of the JSON form are fields. -/
private theorem filter_fieldsToJson (writeDouble : Double → Json) (fields : List (String × Tree)) :
    ((fieldsToJson writeDouble fields).filter fun m ↦ fields.any fun f ↦ f.1 = m.1) =
      fieldsToJson writeDouble fields := by
  have keys (fields : List (String × Tree)) :
      (fieldsToJson writeDouble fields).map Prod.fst = fields.map Prod.fst := by
    induction fields with
    | nil => rfl
    | cons field rest ih => rw [fieldsToJson, List.map_cons, List.map_cons, ih]
  apply List.filter_eq_self.mpr
  intro member hm
  have named : member.1 ∈ fields.map Prod.fst := keys fields ▸ List.mem_map_of_mem hm
  obtain ⟨field, hf, he⟩ := List.mem_map.mp named
  exact List.any_eq_true.mpr ⟨field, hf, decide_eq_true he⟩

mutual

/-- A tree without floating point numbers is stated by its JSON form. -/
theorem statedBy_toJson (writeDouble : Double → Json) :
    ∀ tree : Tree, tree.DoubleFree → tree.StatedBy (tree.toJson writeDouble)
  | .text _, _ | .boolean _, _ | .integer _, _ | .absent, _ | .unit _, _ => rfl
  | .double _, h => h.elim
  | .present value, h => statedBy_toJson writeDouble value h
  | .list items, h => ⟨_, rfl, itemsStated_toJson writeDouble items h⟩
  | .record _ fields, h =>
    ⟨_, _, rfl, .of_eq (filter_fieldsToJson writeDouble fields),
      fieldsStated_toJson writeDouble fields h⟩
  | .wrapped _ content, h => ⟨_, rfl, statedBy_toJson writeDouble content h⟩
  | .variant _ fields, h =>
    ⟨_, _, rfl, .of_eq (filter_fieldsToJson writeDouble fields),
      fieldsStated_toJson writeDouble fields h⟩

/-- Items of a list are stated by their JSON forms. -/
theorem itemsStated_toJson (writeDouble : Double → Json) :
    ∀ items : List Tree, ItemsDoubleFree items →
      ItemsStated items (itemsToJson writeDouble items)
  | [], _ => rfl
  | item :: rest, h =>
    ⟨_, _, rfl, statedBy_toJson writeDouble item h.1, itemsStated_toJson writeDouble rest h.2⟩

/-- Fields are stated by their JSON forms. -/
theorem fieldsStated_toJson (writeDouble : Double → Json) :
    ∀ fields : List (String × Tree), FieldsDoubleFree fields →
      FieldsStated fields (fieldsToJson writeDouble fields)
  | [], _ => rfl
  | (_, value) :: rest, h =>
    .inl ⟨_, _, rfl, statedBy_toJson writeDouble value h.1,
      fieldsStated_toJson writeDouble rest h.2⟩

end

/-! ### Single fields -/

/-- The members with a name are one that states a value, or none for an absent one. -/
def FieldStated (name : String) (value : Tree) (members : List (String × Json)) : Prop :=
  (∃ json, members.filter (fun m ↦ m.1 = name) = [(name, json)] ∧ value.StatedBy json) ∨
    value = .absent ∧ members.filter (fun m ↦ m.1 = name) = []

/-- Each of some fields is stated. -/
def EachStated (members : List (String × Json)) : List (String × Tree) → Prop
  | [] => True
  | (name, value) :: rest => FieldStated name value members ∧ EachStated members rest

/-- Members that state fields have names of fields. -/
private theorem FieldsStated.not_mem {name : String} :
    ∀ {fields : List (String × Tree)} {members : List (String × Json)},
      FieldsStated fields members → name ∉ fields.map Prod.fst →
      members.filter (fun m ↦ m.1 = name) = []
  | [], _, h, _ => by rw [show _ = [] from h, List.filter_nil]
  | (other, value) :: rest, members, h, outside => by
    rw [List.map_cons, List.mem_cons, not_or] at outside
    rcases h with ⟨json, others, rfl, -, h⟩ | ⟨-, h⟩
    · rw [List.filter_cons_of_neg (by simpa using Ne.symm outside.1)]
      exact FieldsStated.not_mem h outside.2
    · exact FieldsStated.not_mem h outside.2

/-- What is said of a field only depends on the members with its name. -/
private theorem EachStated.congr {fields : List (String × Tree)}
    {members others : List (String × Json)} (h : EachStated others fields)
    (same : ∀ name ∈ fields.map Prod.fst, (members.filter fun m ↦ m.1 = name).Perm
      (others.filter fun m ↦ m.1 = name)) : EachStated members fields := by
  induction fields with
  | nil => trivial
  | cons field rest ih =>
    rw [List.map_cons, List.forall_mem_cons] at same
    constructor
    · rcases h.1 with ⟨json, only, stated⟩ | ⟨absent, none⟩
      · have alike := same.1
        rw [only] at alike
        exact .inl ⟨json, List.perm_singleton.mp alike, stated⟩
      · have alike := same.1
        rw [none] at alike
        exact .inr ⟨absent, List.perm_nil.mp alike⟩
    · exact ih h.2 same.2

/-- Where no name is repeated, each field is stated on its own. -/
private theorem FieldsStated.each :
    ∀ {fields : List (String × Tree)} {members : List (String × Json)},
      FieldsStated fields members → (fields.map Prod.fst).Nodup → EachStated members fields
  | [], _, _, _ => trivial
  | (name, value) :: rest, members, h, distinct => by
    rw [List.map_cons, List.nodup_cons] at distinct
    rcases h with ⟨json, others, rfl, stated, h⟩ | ⟨absent, h⟩
    · constructor
      · refine .inl ⟨json, ?_, stated⟩
        rw [List.filter_cons_of_pos (by simp), h.not_mem distinct.1]
      · apply EachStated.congr (FieldsStated.each h distinct.2)
        intro other ho
        have apart : name ≠ other := by
          rintro rfl
          exact distinct.1 ho
        rw [List.filter_cons_of_neg (by simpa using apart)]
    · exact ⟨.inr ⟨absent, h.not_mem distinct.1⟩, FieldsStated.each h distinct.2⟩

/-- Members that are no field are left out of account, and so is the order of the others. -/
private theorem eachStated_of_perm {fields : List (String × Tree)}
    {members known : List (String × Json)}
    (same : (members.filter fun m ↦ fields.any fun f ↦ f.1 = m.1).Perm known)
    (h : FieldsStated fields known) (distinct : (fields.map Prod.fst).Nodup) :
    EachStated members fields := by
  apply EachStated.congr (h.each distinct)
  intro name hn
  obtain ⟨field, hf, rfl⟩ := List.mem_map.mp hn
  refine .trans (.of_eq ?_) (same.filter _)
  rw [List.filter_filter]
  apply List.filter_congr
  intro m _
  by_cases he : m.1 = field.1
  · have found : (fields.any fun f ↦ f.1 = m.1) = true :=
      List.any_eq_true.mpr ⟨field, hf, decide_eq_true he.symm⟩
    simp [found]
  · simp [he]

end Tree

/-! ### Objects -/

open FrameQuery.Sql.Tree (FieldStated EachStated)

/-- What a look-up finds is nested less deeply than the object. -/
private theorem depth_le_of_lookup {key : String} {members : List (String × Json)} {json : Json}
    (h : Json.lookup key members = some json) : json.depth ≤ Json.membersDepth members := by
  induction members with
  | nil => cases h
  | cons member rest ih =>
    obtain ⟨k, value⟩ := member
    rw [Json.membersDepth]
    rw [Json.lookup, Option.or_eq_some_iff] at h
    rcases h with h | ⟨-, h⟩
    · exact Nat.le_trans (ih h) (Nat.le_max_right _ _)
    · rw [Option.ite_none_right_eq_some] at h
      rw [Option.some.inj h.2]
      exact Nat.le_max_left _ _

variable {name : String} {fields : List (String × Tree)} {json : Json} {n : Nat}

/-- A record is an object in which each field is stated. -/
theorem Tree.StatedBy.record (h : (Tree.record name fields).StatedBy json)
    (distinct : (fields.map Prod.fst).Nodup) (shallow : json.depth ≤ n) :
    ∃ members, json = .object members ∧ Json.membersDepth members < n ∧
      EachStated members fields := by
  obtain ⟨members, known, rfl, same, stated⟩ := h
  exact ⟨members, rfl, shallow, eachStated_of_perm same stated distinct⟩

/-- A variant with fields is an object in an object of one member. -/
theorem Tree.StatedBy.variant (h : (Tree.variant name fields).StatedBy json)
    (distinct : (fields.map Prod.fst).Nodup) (shallow : json.depth ≤ n + 1) :
    ∃ members, json.variant? = some (name, some (.object members)) ∧
      Json.membersDepth members < n ∧ EachStated members fields := by
  obtain ⟨members, known, rfl, same, stated⟩ := h
  have inside : max (Json.membersDepth members + 1) 0 + 1 ≤ n + 1 := shallow
  exact ⟨members, rfl, by omega, eachStated_of_perm same stated distinct⟩

/-! ### Decoders -/

/-- A tree of an optional value. -/
def Tree.isOptional : Tree → Bool
  | .absent | .present _ => true
  | _ => false

/-- A tree of a value that is there is not stated by null. -/
theorem Tree.StatedBy.ne_null {tree : Tree} (h : tree.StatedBy json)
    (solid : tree.isOptional = false) : json ≠ .null := by
  rintro rfl
  cases tree with
  | absent => cases solid
  | present _ => cases solid
  | double _ => exact h
  | list _ =>
    obtain ⟨_, he, -⟩ := h
    cases he
  | wrapped _ _ =>
    obtain ⟨_, he, -⟩ := h
    cases he
  | record _ _ =>
    obtain ⟨_, _, he, -⟩ := h
    cases he
  | variant _ _ =>
    obtain ⟨_, _, he, -⟩ := h
    cases he
  | _ => cases h

/-- A tree whose JSON form is an array or an object. -/
def Tree.isNested : Tree → Bool
  | .list _ | .record _ _ | .wrapped _ _ | .variant _ _ => true
  | _ => false

/-- Values that state such a tree have some depth. -/
theorem Tree.StatedBy.depth_pos {tree : Tree} (h : tree.StatedBy json)
    (nested : tree.isNested = true) : 0 < json.depth := by
  cases tree with
  | list _ =>
    obtain ⟨_, rfl, -⟩ := h
    exact Nat.succ_pos _
  | wrapped _ _ =>
    obtain ⟨_, rfl, -⟩ := h
    exact Nat.succ_pos _
  | record _ _ =>
    obtain ⟨_, _, rfl, -⟩ := h
    exact Nat.succ_pos _
  | variant _ _ =>
    obtain ⟨_, _, rfl, -⟩ := h
    exact Nat.succ_pos _
  | _ => cases nested

/-- A variant with one content is read from an object of one member. -/
theorem Tree.StatedBy.wrapped {content : Tree} (h : (Tree.wrapped name content).StatedBy json)
    (solid : content.isOptional = false) (shallow : json.depth ≤ n + 1) :
    ∃ inner, json.variant? = some (name, some inner) ∧ inner.depth ≤ n ∧
      content.StatedBy inner := by
  obtain ⟨inner, rfl, stated⟩ := h
  have inside : max inner.depth 0 + 1 ≤ n + 1 := shallow
  refine ⟨inner, ?_, by omega, stated⟩
  have there := stated.ne_null solid
  cases inner with
  | null => exact absurd rfl there
  | _ => rfl

/-- A decoder goes on with what it has read. -/
theorem bind_of_eq {α β : Type} {x : Option α} {f : α → Option β} {a : α} {b : β}
    (hx : x = some a) (hf : f a = some b) : x >>= f = some b :=
  Option.bind_eq_some_iff.mpr ⟨a, hx, hf⟩

/-- A decoder reads all JSON values up to a depth that state a value. -/
structure Decodes {α : Type} (n : Nat) (tree : α → Tree) (decode : Json → Option α) : Prop where
  solid (value : α) : (tree value).isOptional = false
  reads (value : α) (json : Json) (stated : (tree value).StatedBy json) (shallow : json.depth ≤ n) :
    decode json = some value

namespace Decodes

variable {α : Type} {n : Nat} {tree : α → Tree} {decode : Json → Option α}

/-- Nothing without depth states a value with an array or an object as its form. -/
theorem zero (nested : ∀ value, (tree value).isNested = true) : Decodes 0 tree decode where
  solid value := by
    have form := nested value
    cases he : tree value with
    | absent => rw [he] at form; cases form
    | present _ => rw [he] at form; cases form
    | _ => rfl
  reads value json stated shallow :=
    absurd (stated.depth_pos (nested value)) (Nat.not_lt.mpr shallow)

/-- A decoder that reads a value reads it in a field. -/
theorem required (h : Decodes n tree decode) {key : String} {value : α}
    {members : List (String × Json)} (stated : FieldStated key (tree value) members)
    (shallow : Json.membersDepth members ≤ n) : Json.required decode key members = some value := by
  rcases stated with ⟨json, only, stated⟩ | ⟨absent, -⟩
  · have found : Json.lookup key members = some json := by
      rw [Json.lookup_eq, only]
      rfl
    rw [Json.required, found]
    exact h.reads value json stated (Nat.le_trans (depth_le_of_lookup found) shallow)
  · have solid := h.solid value
    rw [absent] at solid
    cases solid

/-- A decoder that reads a value reads it in an optional field. -/
theorem optional (h : Decodes n tree decode) {key : String} {value : Option α}
    {members : List (String × Json)}
    (stated : FieldStated key (.optional (value.map tree)) members)
    (shallow : Json.membersDepth members ≤ n) : Json.optional decode key members = some value := by
  rcases stated with ⟨json, only, stated⟩ | ⟨absent, none⟩
  · have found : Json.lookup key members = some json := by
      rw [Json.lookup_eq, only]
      rfl
    cases value with
    | none =>
      obtain rfl : json = .null := stated
      rw [Json.optional, found]
    | some value =>
      have stated : (tree value).StatedBy json := stated
      have read := h.reads value json stated (Nat.le_trans (depth_le_of_lookup found) shallow)
      have there := stated.ne_null (h.solid value)
      rw [Json.optional, found]
      cases json with
      | null => exact absurd rfl there
      | _ =>
        dsimp only
        rw [read, Option.map_some]
  · cases value with
    | none => rw [Json.optional, Json.lookup_eq, none, List.getLast?_nil, Option.map_none]
    | some value => cases absent

/-- A decoder that reads a value reads lists of values. -/
theorem list (h : Decodes n tree decode) :
    Decodes n (fun values ↦ .list (values.map tree)) (Json.list? decode) where
  solid _ := rfl
  reads values json stated shallow := by
    obtain ⟨jsons, rfl, stated⟩ := stated
    replace shallow : Json.itemsDepth jsons ≤ n := Nat.le_of_succ_le shallow
    rw [Json.list?]
    induction values generalizing jsons with
    | nil =>
      obtain rfl : jsons = [] := stated
      rfl
    | cons value rest ih =>
      obtain ⟨json, others, rfl, first, stated⟩ := stated
      rw [Json.itemsDepth, Nat.max_le] at shallow
      rw [List.mapM_cons, h.reads value json first shallow.1, ih others stated shallow.2]
      rfl

/-- Texts are read. -/
theorem text : Decodes n .text Json.string? where
  solid _ := rfl
  reads value json stated _ := by rw [show json = .string value from stated, Json.string?]

/-- Truth values are read. -/
theorem boolean : Decodes n .boolean Json.boolean? where
  solid _ := rfl
  reads value json stated _ := by rw [show json = .boolean value from stated, Json.boolean?]

/-- Integers of 64 bits are read. -/
theorem int64 : Decodes n (fun value : Int64 ↦ .integer value.toInt) Json.int64? where
  solid _ := rfl
  reads value json stated _ := by
    obtain rfl : json = .integer value.toInt := stated
    have bounds : Int64.minValue.toInt ≤ value.toInt ∧ value.toInt ≤ Int64.maxValue.toInt :=
      ⟨value.minValue_le_toInt, value.toInt_le⟩
    rw [Json.int64?, Json.integer?, Option.bind_eq_bind, Option.bind_some, if_pos bounds,
      Int64.ofInt_toInt]

/-- Unsigned integers of 32 bits are read. -/
theorem uint32 : Decodes n (fun value : UInt32 ↦ .integer value.toNat) Json.uint32? where
  solid _ := rfl
  reads value json stated _ := by
    obtain rfl : json = .integer value.toNat := stated
    have bounds : 0 ≤ (value.toNat : Int) ∧ (value.toNat : Int) < UInt32.size := by
      have bound := value.toNat_lt_size
      omega
    rw [Json.uint32?, Json.integer?, Option.bind_eq_bind, Option.bind_some, if_pos bounds,
      Int.toNat_natCast, UInt32.ofNat_toNat]

end Decodes

/-! ### Closed lists -/

/-- A closed list in which each value is found by its name. -/
class LawfulNamed (α : Type) [Named α] : Prop where
  ofName?_name (value : α) : Named.ofName? (Named.name value) = some value

instance : LawfulNamed JoinType := ⟨fun v ↦ by cases v <;> rfl⟩
instance : LawfulNamed SortOrdering := ⟨fun v ↦ by cases v <;> rfl⟩
instance : LawfulNamed NullOrdering := ⟨fun v ↦ by cases v <;> rfl⟩
instance : LawfulNamed DurationUnit := ⟨fun v ↦ by cases v <;> rfl⟩
instance : LawfulNamed ComparisonOperator := ⟨fun v ↦ by cases v <;> rfl⟩
instance : LawfulNamed LogicalOperator := ⟨fun v ↦ by cases v <;> rfl⟩
instance : LawfulNamed ArithmeticOperator := ⟨fun v ↦ by cases v <;> rfl⟩
instance : LawfulNamed CurrentTimeKind := ⟨fun v ↦ by cases v <;> rfl⟩
instance : LawfulNamed ExtractField := ⟨fun v ↦ by cases v <;> rfl⟩
instance : LawfulNamed WindowFrameMode := ⟨fun v ↦ by cases v <;> rfl⟩
instance : LawfulNamed FrameBoundType := ⟨fun v ↦ by cases v <;> rfl⟩
instance : LawfulNamed TrimKind := ⟨fun v ↦ by cases v <;> rfl⟩
instance : LawfulNamed MathFunction := ⟨fun v ↦ by cases v <;> rfl⟩
instance : LawfulNamed AggregateFunction := ⟨fun v ↦ by cases v <;> rfl⟩
instance : LawfulNamed DateTruncPart := ⟨fun v ↦ by cases v <;> rfl⟩
instance : LawfulNamed DatePartField := ⟨fun v ↦ by cases v <;> rfl⟩

/-- Values of closed lists are read by their names. -/
theorem Decodes.named {α : Type} {n : Nat} [Named α] [LawfulNamed α] :
    Decodes n (Tree.named : α → Tree) Json.named? where
  solid _ := rfl
  reads value json stated _ := by
    obtain rfl : json = .string (Named.name value) := stated
    exact LawfulNamed.ofName?_name value

end FrameQuery.Sql
