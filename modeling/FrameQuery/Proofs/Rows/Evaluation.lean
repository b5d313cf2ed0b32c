import FrameQuery.Proofs.Expr.WindowFunctions
import Mathlib.Data.List.Sort

/-!
# Values of expressions

What an expression means in a database. The database is a parameter: what its tables hold, what its
functions compute, how it orders values and which of them count as true. An expression has its value
at a place, which is one of the groups of rows of a query block; where a block does not group, each
of its rows is a group of its own. A column is read from a row of the group, an aggregate reduces
the values of its operands on all rows of the group, and a call over a window sees the other groups
of the block.
-/

namespace FrameQuery.Sql

/-! ### Operators without their operands -/

namespace Expression

/-- What stands in place of an operand. -/
def hole : Expression := .literal .null

/-- Whether an expression reduces the values of its operands. -/
def isAggregate : Expression → Bool
  | .extension (.aggregate _ _) | .extension (.joinStrings _ _) => true
  | _ => false

end Expression

open Expression (hole)

/-- A call without its operands. -/
def FunctionCall.head (call : FunctionCall) : FunctionCall :=
  { call with arguments := call.arguments.map fun _ ↦ hole, filter := call.filter.map fun _ ↦ hole }

/-- A domain function without its operands. -/
def Extension.head : Extension → Extension
  | .stringLength _ => .stringLength hole
  | .stringLike _ _ => .stringLike hole hole
  | .stringUpper _ => .stringUpper hole
  | .stringLower _ => .stringLower hole
  | .stringTrim _ kind => .stringTrim hole kind
  | .stringPos _ _ => .stringPos hole hole
  | .stringConcat _ _ => .stringConcat hole hole
  | .math function _ => .math function hole
  | .power _ _ => .power hole hole
  | .remainder _ _ => .remainder hole hole
  | .round _ scale => .round hole (scale.map fun _ ↦ hole)
  | .arcTan2 _ _ => .arcTan2 hole hole
  | .aggregate function _ => .aggregate function hole
  | .joinStrings _ _ => .joinStrings hole hole
  | .dateTrunc part _ => .dateTrunc part hole
  | .datePart field _ => .datePart field hole
  | .dateAdjust _ interval => .dateAdjust hole interval

namespace Expression

/-- An expression without its operands, which is all that a database has to know to compute the
value of the expression from those of its operands. -/
def head : Expression → Expression
  | .comparison operator _ _ => .comparison operator hole hole
  | .logical operator _ _ => .logical operator hole hole
  | .not _ => .not hole
  | .arithmetic operator _ _ => .arithmetic operator hole hole
  | .negative _ => .negative hole
  | .cast _ columnType => .cast hole columnType
  | .list items => .list (items.map fun _ ↦ hole)
  | .inPredicate _ _ => .inPredicate hole hole
  | .isNull _ => .isNull hole
  | .isNotNull _ => .isNotNull hole
  | .extract field _ => .extract field hole
  | .call function => .call function.head
  | .namedArgument name _ => .namedArgument name hole
  | .searchedCase clauses otherwise =>
    .searchedCase (clauses.map fun _ ↦ ⟨hole, hole⟩) (otherwise.map fun _ ↦ hole)
  | .extension function => .extension function.head
  | x => x

/-- Without its operands, an expression still reduces what it reduces. -/
theorem isAggregate_head {x : Expression} : x.head.isAggregate = x.isAggregate := by
  cases x with
  | extension function => cases function <;> rfl
  | _ => rfl

end Expression

/-! ### Databases -/

/-- Rows under the names of their columns. The parts of a name lead from the relation that a column
belongs to, as far as that has a name, to the column itself. -/
structure Table (V : Type) where
  columns : List (List String)
  rows : List (List V)

/-- What values a query reads, computes and compares. -/
structure Engine (V : Type) where
  null : V
  /-- A table. Its columns have the names that queries write, without the table. -/
  table : QualifiedName → Table V
  /-- A function that returns a table. -/
  tableFunction : FunctionCall → Table V
  /-- The value of an operator, given without operands, from the values of these. -/
  scalar : Expression → List V → V
  /-- The value of an aggregate from the values of its operands on all rows of a group. -/
  aggregate : Expression → List (List V) → V
  /-- The value of a call over a window at a position among rows in order, each given by the values
  of the operands and by the sort keys. -/
  windowed : Expression → List (SortOrdering × NullOrdering) → Option WindowFrame →
    List (List V × List V) → Nat → V
  holds : V → Bool
  count : V → Nat
  /-- Whether a value may come before another one. -/
  le : SortOrdering → NullOrdering → V → V → Bool
  holds_true : holds (scalar (.boolean true) []) = true
  /-- Two conditions hold together if each of them holds. -/
  holds_and : ∀ a b, holds (scalar (.logical .and hole hole) [a, b]) = (holds a && holds b)
  count_integer : ∀ n : Int64, count (scalar (.integer n) []) = n.toNatClampNeg
  /-- An aggregate over all rows of a partition reduces these. -/
  windowed_aggregate : ∀ (x : Expression) (rows : List (List V × List V)) (i : Nat),
    x.isAggregate = true → windowed x [] none rows i = aggregate x (rows.map (·.1))
  le_total : ∀ ordering nulls a b,
    le ordering nulls a b = true ∨ le ordering nulls b a = true
  le_trans : ∀ ordering nulls a b c,
    le ordering nulls a b = true → le ordering nulls b c = true → le ordering nulls a c = true

/-- The values of a row by the names of its columns. -/
abbrev Env (V : Type) := List (List String × V)

variable {V : Type}

namespace Engine

variable (engine : Engine V)

/-- The value of the column that a name refers to; the name may leave out the relation. -/
def read (env : Env V) (parts : List String) : V :=
  (env.find? fun column ↦ parts.isSuffixOf column.1).elim engine.null (·.2)

/-- Whether a row may come before another one by the values of their sort keys, of which the first
that tells them apart decides. -/
def keysLe : List (SortOrdering × NullOrdering) → List V → List V → Bool
  | [], _, _ => true
  | _ :: _, [], _ => true
  | _ :: _, _ :: _, [] => false
  | (ordering, nulls) :: rest, a :: as, b :: bs =>
    engine.le ordering nulls a b && (!engine.le ordering nulls b a || keysLe rest as bs)

/-- Rows with their sort keys in the order of these; rows that no key tells apart stay as they
are. -/
def sorted {α : Type} (orderings : List (SortOrdering × NullOrdering)) (keys : α → List V)
    (rows : List α) : List α :=
  rows.insertionSort fun a b ↦ engine.keysLe orderings (keys a) (keys b) = true

end Engine

/-! ### A database of integers -/

namespace Engine

/-- Some operators on integers. Truth values are one and zero. -/
private def integerScalar : Expression → List Int → Int
  | .literal (.boolean true), _ => 1
  | .literal (.integer value), _ => value.toInt
  | .logical .and _ _, [a, b] => if a = 1 ∧ b = 1 then 1 else 0
  | .comparison .greaterThan _ _, [a, b] => if a > b then 1 else 0
  | .arithmetic .add _ _, [a, b] => a + b
  | _, _ => 0

/-- Sums of integers. -/
private def integerAggregate : Expression → List (List Int) → Int
  | .extension (.aggregate .sum _), rows => rows.flatten.foldr (· + ·) 0
  | _, _ => 0

/-- A database of integers all of whose tables have the same rows. -/
def integers (columns : List String) (rows : List (List Int)) : Engine Int where
  null := 0
  table _ := ⟨columns.map ([·]), rows⟩
  tableFunction _ := ⟨[], []⟩
  scalar := integerScalar
  aggregate := integerAggregate
  windowed x _ _ rows _ := integerAggregate x (rows.map (·.1))
  holds value := value = 1
  count value := value.toNat
  le
    | .ascending, _, a, b => a ≤ b
    | .descending, _, a, b => b ≤ a
  holds_true := rfl
  holds_and a b := by simp [integerScalar]
  count_integer _ := rfl
  windowed_aggregate _ _ _ _ := rfl
  le_total ordering _ a b := by cases ordering <;> simp <;> omega
  le_trans ordering _ a b c := by cases ordering <;> simp <;> omega

end Engine

/-- How sort keys order rows. -/
def SortItem.orderings (items : List SortItem) : List (SortOrdering × NullOrdering) :=
  items.map fun item ↦ (item.ordering, item.nulls)

/-! ### Places -/

/-- One of the groups of rows of a query block. -/
structure Place (V : Type) where
  groups : List (List (Env V))
  position : Nat

namespace Place

/-- A row that is looked at alone. -/
def row (env : Env V) : Place V := ⟨[[env]], 0⟩

/-- The rows of the group. -/
def group (place : Place V) : List (Env V) := place.groups[place.position]?.getD []

/-- The row that columns are read from; in a legal block all rows of the group agree on what is read
there. -/
def env (place : Place V) : Env V := place.group.head?.getD []

/-- The places of all groups. -/
def all (groups : List (List (Env V))) : List (Place V) :=
  (List.range groups.length).map fun i ↦ ⟨groups, i⟩

/-- The places that agree with a place on the partition keys. -/
def partition [DecidableEq V] (place : Place V) (keys : Place V → List V) : List (Place V) :=
  (all place.groups).filter fun other ↦ keys other = keys place

end Place

/-! ### Values -/

namespace Expression

/-- A sort key of a window is an operand of the window call. -/
private theorem mem_operands_of_key {nested : Expression} {w : Window} {k : SortItem}
    (h : k ∈ w.orderBy) : k.key ∈ (window nested w).operands :=
  List.mem_cons_of_mem _ (List.mem_append_left _ (List.mem_append_right _ (List.mem_map_of_mem h)))

/-- A partition key of a window is an operand of the window call. -/
private theorem mem_operands_of_partition {nested y : Expression} {w : Window}
    (h : y ∈ w.partitions) : y ∈ (window nested w).operands :=
  List.mem_cons_of_mem _ (List.mem_append_left _ (List.mem_append_left _ h))

variable [DecidableEq V]

/-- The value of an expression at a place. -/
def value (engine : Engine V) : Expression → Place V → V
  | .reference name, place => engine.read place.env name.parts
  | .window nested w, place =>
    let rows := engine.sorted (SortItem.orderings w.orderBy)
      (fun p ↦ w.orderBy.attach.map fun k ↦ k.1.key.value engine p)
      (place.partition fun p ↦ w.partitions.attach.map fun y ↦ y.1.value engine p)
    engine.windowed nested.head (SortItem.orderings w.orderBy) w.frame
      (rows.map fun p ↦ (nested.operands.attach.map fun y ↦ y.1.value engine p,
        w.orderBy.attach.map fun k ↦ k.1.key.value engine p))
      ((rows.map (·.position)).idxOf place.position)
  | x, place =>
    if x.isAggregate then
      engine.aggregate x.head (place.group.map fun env ↦
        x.operands.attach.map fun y ↦ y.1.value engine (.row env))
    else engine.scalar x.head (x.operands.attach.map fun y ↦ y.1.value engine place)
termination_by x => sizeOf x
decreasing_by
  · exact sizeOf_operand_lt (mem_operands_of_key k.2)
  · exact sizeOf_operand_lt (mem_operands_of_partition y.2)
  · exact (sizeOf_operand_lt y.2).trans (sizeOf_operand_lt List.mem_cons_self)
  · exact sizeOf_operand_lt (mem_operands_of_key k.2)
  · exact sizeOf_operand_lt y.2
  · exact sizeOf_operand_lt y.2

variable {engine : Engine V} {place : Place V} {x nested : Expression} {w : Window}

/-- A column has the value that is read under its name. -/
theorem value_reference (name : QualifiedName) :
    (reference name).value engine place = engine.read place.env name.parts := by
  rw [value]

/-- A window call sees the rows of its partition in the order of its sort keys. -/
theorem value_window :
    (window nested w).value engine place =
      let keys := fun p ↦ w.orderBy.map (·.key.value engine p)
      let rows := engine.sorted (SortItem.orderings w.orderBy) keys
        (place.partition fun p ↦ w.partitions.map (·.value engine p))
      engine.windowed nested.head (SortItem.orderings w.orderBy) w.frame
        (rows.map fun p ↦ (nested.operands.map (·.value engine p), keys p))
        ((rows.map (·.position)).idxOf place.position) := by
  rw [value]
  simp only [List.map_attach_eq_pmap, List.pmap_eq_map]

/-- What is no column and no window call is computed from the values of its operands. -/
private theorem value_of_operands (column : ∀ name, x ≠ .reference name)
    (plain : ∀ nested w, x ≠ .window nested w) :
    x.value engine place = if x.isAggregate then
      engine.aggregate x.head (place.group.map fun env ↦
        x.operands.map (·.value engine (.row env)))
      else engine.scalar x.head (x.operands.map (·.value engine place)) := by
  rw [value]
  · simp only [List.map_attach_eq_pmap, List.pmap_eq_map]
  · exact column
  · exact plain

/-- An aggregate reduces the values of its operands on the rows of the group. -/
theorem value_aggregate (aggregate : x.isAggregate = true) :
    x.value engine place =
      engine.aggregate x.head (place.group.map fun env ↦
        x.operands.map (·.value engine (.row env))) := by
  rw [value_of_operands (by rintro _ rfl; cases aggregate) (by rintro _ _ rfl; cases aggregate),
    if_pos aggregate]

/-- Whether the value of an expression is computed from the values of its operands at the same
place. -/
def isOperator : Expression → Bool
  | .reference _ | .window _ _ | .subquery _ => false
  | .call function => function.window.isNone && !(Expression.call function).isWindowFunction
  | x => !x.isAggregate

/-- An operator is computed from the values of its operands. -/
theorem value_operator (operator : x.isOperator = true) :
    x.value engine place = engine.scalar x.head (x.operands.map (·.value engine place)) := by
  have plain : x.isAggregate = false := by
    cases x with
    | extension function => simpa [isOperator] using operator
    | _ => rfl
  rw [value_of_operands (by rintro _ rfl; cases operator) (by rintro _ _ rfl; cases operator),
    plain]
  exact if_neg Bool.false_ne_true

/-! ### Aggregates of a block -/

/-- Where the aggregates of an expression stand: in its operands, and in those of what is called
over a window, but not in what is called itself. -/
def parts : Expression → List Expression
  | .window nested w => nested.operands ++ w.operands
  | x => x.operands

/-- The parts of an expression are smaller than the expression. -/
private theorem sizeOf_part_lt {y : Expression} (h : y ∈ x.parts) : sizeOf y < sizeOf x := by
  cases x with
  | window nested w =>
    rcases List.mem_append.mp h with h | h
    · exact (sizeOf_operand_lt h).trans (sizeOf_operand_lt List.mem_cons_self)
    · exact sizeOf_operand_lt (List.mem_cons_of_mem _ h)
  | _ => exact sizeOf_operand_lt h

/-- Whether an expression reduces the rows of a group, at any depth. -/
def reduces (x : Expression) : Bool := x.isAggregate || x.parts.attach.any fun y ↦ y.1.reduces
termination_by sizeOf x
decreasing_by exact sizeOf_part_lt y.2

/-- An expression reduces rows if it is an aggregate or one of its parts reduces rows. -/
theorem reduces_eq (x : Expression) : x.reduces = (x.isAggregate || x.parts.any reduces) := by
  rw [reduces]
  simp

end Expression

end FrameQuery.Sql
