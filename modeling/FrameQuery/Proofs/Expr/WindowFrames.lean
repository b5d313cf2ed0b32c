import FrameQuery.Proofs.Expr.Written
import FrameQuery.Proofs.Sql.Terms

/-!
# What window frames extend over

A frame reaches, on each side of a row, to the end of the partition or to a distance from the row.
Programs give distances as numbers: negative before the row, zero the row itself, positive behind
it. SQL has a word for each side and counts without a sign. Read back, a written frame extends over
what was asked for, unless a distance has no counterpart on the other side of zero. Besides the
columns of its keys a written window has no operands but these counts.
-/

namespace FrameQuery

open Sql (DurationUnit WindowFrameMode)

/-- How far a frame reaches from a row: to the first row of the partition, to the last one, or to a
distance, which is negative before the row. -/
inductive FrameEdge where
  | first
  | last
  | distance (value : Int) (unit : Option DurationUnit)
  deriving DecidableEq

/-- What a frame extends over. -/
structure FrameExtent where
  mode : WindowFrameMode
  start : FrameEdge
  stop : FrameEdge
  deriving DecidableEq

/-! ### Frames as programs give them -/

/-- How far a bound reaches. The row itself is at no distance, whatever that is counted in. -/
def Bound.edge (bound : Bound) (isStart : Bool) : FrameEdge :=
  match bound with
  | .unbounded => if isStart then .first else .last
  | .offset value unit => .distance value.toInt (if value = 0 then none else unit)

/-- What a frame that a program gives extends over. -/
def FrameSpec.extent (frame : FrameSpec) : FrameExtent :=
  ⟨frame.mode, frame.start.edge true, frame.stop.edge false⟩

/-- A distance has the same distance on the other side of the row. The smallest number has none:
there is no count that it is without its sign. -/
def Bound.HasOpposite : Bound → Prop
  | .unbounded => True
  | .offset value _ => value ≠ Int64.minValue

/-! ### Frames as queries write them -/

/-- How far a written bound reaches, if it is one with a number. -/
def Sql.FrameBound.edge? : Sql.FrameBound → Option FrameEdge
  | ⟨.unboundedPreceding, _, _⟩ => some .first
  | ⟨.preceding, some (.literal (.integer count)), unit⟩ => some (.distance (-count.toInt) unit)
  | ⟨.currentRow, _, _⟩ => some (.distance 0 none)
  | ⟨.following, some (.literal (.integer count)), unit⟩ => some (.distance count.toInt unit)
  | ⟨.unboundedFollowing, _, _⟩ => some .last
  | _ => none

/-- What a written frame extends over. Without a second bound it ends with the row. -/
def Sql.WindowFrame.extent? (frame : Sql.WindowFrame) : Option FrameExtent := do
  let start ← frame.start.edge?
  let stop ← frame.stop.elim (some (.distance 0 none)) (·.edge?)
  return ⟨frame.mode, start, stop⟩

/-! ### Written frames -/

/-- The number of a negative number is that on the other side of zero, except for the smallest
number. -/
theorem toInt_abs (value : Int64) : value.abs.toInt =
    if value = Int64.minValue then value.toInt
    else if value < 0 then -value.toInt else value.toInt := by
  have smallest : value = Int64.minValue ↔ value.toBitVec = BitVec.intMin 64 :=
    Int64.toBitVec_inj.symm
  have negative : value.toBitVec.msb = true ↔ value < 0 := by
    rw [BitVec.msb_eq_toInt, decide_eq_true_eq, Int64.lt_iff_toInt_lt]
    rfl
  have abs : value.abs.toInt = value.toBitVec.abs.toInt := rfl
  rw [abs, BitVec.toInt_abs_eq_ite]
  simp only [smallest, negative]
  split
  · next h =>
    rw [← h]
    rfl
  · rfl

/-- A written bound reaches as far as the bound, unless it is a distance without an opposite. -/
theorem Bound.edge?_toSql (bound : Bound) (isStart : Bool) :
    (bound.toSql isStart).edge? = some (bound.edge isStart) ↔ bound.HasOpposite := by
  cases bound with
  | unbounded => cases isStart <;> exact iff_of_true rfl trivial
  | offset value unit =>
    by_cases zero : value = 0
    · rw [toSql, if_pos zero, edge, zero]
      have larger : (0 : Int64) ≠ Int64.minValue := by decide
      exact iff_of_true rfl larger
    · rw [toSql, if_neg zero, edge, if_neg zero]
      by_cases negative : value < 0
      · rw [if_pos negative]
        show some (FrameEdge.distance (-value.abs.toInt) unit) = _ ↔ _
        rw [toInt_abs, if_pos negative]
        by_cases smallest : value = Int64.minValue
        · rw [if_pos smallest]
          refine iff_of_false (fun same ↦ ?_) (· smallest)
          obtain ⟨mirrored, -⟩ := FrameEdge.distance.inj (Option.some.inj same)
          rw [smallest] at mirrored
          exact absurd mirrored (by decide)
        · rw [if_neg smallest, Int.neg_neg]
          exact iff_of_true rfl smallest
      · rw [if_neg negative]
        have larger : value ≠ Int64.minValue := by
          rintro rfl
          exact negative (by decide)
        show some (FrameEdge.distance value.abs.toInt unit) = _ ↔ _
        rw [toInt_abs, if_neg larger, if_neg negative]
        exact iff_of_true rfl larger

/-- A written frame extends over what the frame does, unless a bound is a distance without an
opposite. -/
theorem FrameSpec.extent?_toSql (frame : FrameSpec) : frame.toSql.extent? = some frame.extent ↔
    frame.start.HasOpposite ∧ frame.stop.HasOpposite := by
  rw [← frame.start.edge?_toSql true, ← frame.stop.edge?_toSql false, Sql.WindowFrame.extent?,
    extent, toSql, Option.elim_some]
  cases (frame.start.toSql true).edge? with
  | none => simp
  | some start =>
    cases (frame.stop.toSql false).edge? with
    | none => simp
    | some stop => simp

/-! ### Written windows -/

/-- A written window refers to no other one and has the written frame. -/
theorem WindowSpec.clauses_toSql {scope : Scope} {window : WindowSpec} {w : Sql.Window}
    (made : window.toSql scope = .ok w) :
    w.reference = none ∧ w.frame = window.frame.map (·.toSql) := by
  obtain ⟨partitions, keys, -, -, rfl⟩ := WindowSpec.toSql_eq_ok.mp made
  exact ⟨rfl, rfl⟩

/-- A bound of a window frame has at most an integer. -/
private theorem Bound.mem_operands {bound : Bound} {isStart : Bool} {x : Sql.Expression}
    (h : x ∈ (bound.toSql isStart).operands) : ∃ value, x = .integer value := by
  cases bound with
  | unbounded => cases h
  | offset value unit =>
    rw [toSql] at h
    split at h
    · cases h
    · exact ⟨value.abs, List.mem_singleton.mp h⟩

/-- Partitions and keys of a window are columns, and the bounds of its frame are integers. -/
theorem WindowSpec.mem_operands {scope : Scope} {window : WindowSpec} {w : Sql.Window}
    {x : Sql.Expression} (made : window.toSql scope = .ok w) (h : x ∈ w.operands) :
    (∃ name, scope.resolve .right name = .ok x) ∨ ∃ value, x = .integer value := by
  obtain ⟨partitions, keys, hp, hk, rfl⟩ := WindowSpec.toSql_eq_ok.mp made
  rcases List.mem_append.mp h with h | h
  · rcases List.mem_append.mp h with h | h
    · obtain ⟨c, -, hc⟩ := Outcome.exists_of_mem_right hp h
      exact .inl ⟨c, hc⟩
    · obtain ⟨i, hi, rfl⟩ := List.mem_map.mp h
      obtain ⟨k, -, hc⟩ := Outcome.exists_of_mem_right hk hi
      obtain ⟨z, hz, rfl⟩ := SortKey.toSql_eq_ok.mp hc
      exact .inl ⟨k.column, hz⟩
  · obtain ⟨frame, hf, h⟩ := List.mem_flatMap.mp h
    obtain ⟨spec, -, rfl⟩ := Option.map_eq_some_iff.mp (Option.mem_toList.mp hf)
    rcases List.mem_append.mp h with h | h
    · exact .inr (Bound.mem_operands h)
    · exact .inr (Bound.mem_operands (by simpa [FrameSpec.toSql] using h))

end FrameQuery
