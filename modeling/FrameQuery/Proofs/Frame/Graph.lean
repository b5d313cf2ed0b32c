import FrameQuery.Frame.Basic

/-!
# The graph of a frame

The frames that a frame was made of: itself, the frame it was derived from, the frames it reads
besides, and so on.
-/

namespace FrameQuery.Frame

/-- The first frame occurs in the graph of the second. -/
inductive Within : Frame → Frame → Prop
  | self (frame : Frame) : Within frame frame
  | base {inner base frame : Frame} : frame.base? = some base → Within inner base →
    Within inner frame
  | parameter {inner other frame : Frame} : other ∈ frame.parameters → Within inner other →
    Within inner frame

/-- Whether a frame is a join with the closest row, whoever executes it. -/
def isAsOfJoin : Frame → Bool
  | asOfJoined _ _ _ _ => true
  | served frame _ => frame.isAsOfJoin
  | _ => false

/-- Something holds in the whole graph of a frame exactly when it holds of the frame and in the
graphs of the frames it was made of. -/
theorem forall_within {P : Frame → Prop} {frame : Frame} :
    (∀ g, Within g frame → P g) ↔
      P frame ∧ (∀ base, frame.base? = some base → ∀ g, Within g base → P g) ∧
        ∀ other ∈ frame.parameters, ∀ g, Within g other → P g := by
  constructor
  · intro h
    exact ⟨h frame (.self frame), fun _ hb g hg ↦ h g (.base hb hg),
      fun _ ho g hg ↦ h g (.parameter ho hg)⟩
  · rintro ⟨hf, hb, hp⟩ g hg
    cases hg with
    | self => exact hf
    | base he hg => exact hb _ he g hg
    | parameter hm hg => exact hp _ hm g hg

/-- Something holds in the whole graph of a frame that reads one frame exactly when it holds of the
frame and in the graph of that one. -/
theorem forall_within_base {P : Frame → Prop} {base frame : Frame} (he : frame.base? = some base)
    (hp : frame.parameters = []) :
    (∀ g, Within g frame → P g) ↔ P frame ∧ ∀ g, Within g base → P g := by
  rw [forall_within, he, hp]
  simp

/-- Something holds in the whole graph of a frame that reads no other exactly when it holds of the
frame. -/
theorem forall_within_source {P : Frame → Prop} {frame : Frame} (he : frame.base? = none)
    (hp : frame.parameters = []) : (∀ g, Within g frame → P g) ↔ P frame := by
  rw [forall_within, he, hp]
  simp

/-- The graph of a frame holds the graphs of the frames that occur in it. -/
theorem Within.trans {inner middle outer : Frame} (h : Within inner middle)
    (hm : Within middle outer) : Within inner outer := by
  induction hm with
  | self => exact h
  | base he _ ih => exact .base he ih
  | parameter ho _ ih => exact .parameter ho ih

/-- A frame is larger than the one it was derived from. -/
theorem sizeOf_base_lt {base frame : Frame} (h : frame.base? = some base) :
    sizeOf base < sizeOf frame := by
  induction frame with
  | table => cases h
  | served frame service ih =>
    have := ih h
    simp
    omega
  | _ =>
    cases h
    simp
    omega

/-- A frame is larger than those it reads besides. -/
theorem sizeOf_parameter_lt {other frame : Frame} (h : other ∈ frame.parameters) :
    sizeOf other < sizeOf frame := by
  induction frame with
  | served frame service ih =>
    have := ih h
    simp
    omega
  | joined | asOfJoined | concatenated =>
    rw [List.mem_singleton.mp h]
    simp only [joined.sizeOf_spec, asOfJoined.sizeOf_spec, concatenated.sizeOf_spec]
    omega
  | _ => cases h

/-- Induction along the graph of a frame, from the frames that a frame was made of to the frame. -/
theorem induct_graph {motive : Frame → Prop}
    (step : ∀ frame, (∀ base, frame.base? = some base → motive base) →
      (∀ other ∈ frame.parameters, motive other) → motive frame) (frame : Frame) :
    motive frame :=
  step frame (fun base _ ↦ induct_graph step base) fun other _ ↦ induct_graph step other
termination_by sizeOf frame
decreasing_by
  · exact sizeOf_base_lt ‹_›
  · exact sizeOf_parameter_lt ‹_›

/-- Two properties hold in the whole graph of a frame together if they are the same for each frame
there that was made of frames with the first one. -/
theorem forall_within_congr {P Q : Frame → Prop} {frame : Frame}
    (step : ∀ g, Within g frame → (∀ base, g.base? = some base → P base) →
      (∀ other ∈ g.parameters, P other) → (P g ↔ Q g)) :
    (∀ g, Within g frame → P g) ↔ ∀ g, Within g frame → Q g := by
  constructor
  · intro h g hg
    refine (step g hg (fun base he ↦ ?_) fun other hm ↦ ?_).mp (h g hg)
    · exact h base (.trans (.base he (.self base)) hg)
    · exact h other (.trans (.parameter hm (.self other)) hg)
  · intro h g
    induction g using induct_graph with
    | step g ihb ihp =>
      intro hg
      refine (step g hg (fun base he ↦ ?_) fun other hm ↦ ?_).mpr (h g hg)
      · exact ihb base he (.trans (.base he (.self base)) hg)
      · exact ihp other hm (.trans (.parameter hm (.self other)) hg)

/-- Whether a join with the closest row occurs in the graph of a frame. -/
def joinsAsOf : Frame → Bool
  | table _ _ => false
  | filtered base _ | selected base _ | distinct base _ | extended base _
  | windowExtended base _ _ | projected base _ | renamed base _ | grouped base _ _
  | sorted base _ | sliced base _ _ | limited base _ | dropped base _ | served base _ =>
    base.joinsAsOf
  | joined base other _ _ | concatenated base other => base.joinsAsOf || other.joinsAsOf
  | asOfJoined _ _ _ _ => true

/-- No join with the closest row occurs in a frame exactly when none of the frames is one. -/
theorem joinsAsOf_eq_false {frame : Frame} :
    frame.joinsAsOf = false ↔ ∀ g, Within g frame → g.isAsOfJoin = false := by
  induction frame with
  | served frame service ih =>
    rw [forall_within] at ih ⊢
    exact ih
  | _ =>
    rw [forall_within]
    simp_all [joinsAsOf, isAsOfJoin, base?, parameters]

end FrameQuery.Frame
