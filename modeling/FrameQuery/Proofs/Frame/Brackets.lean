import FrameQuery.Frame.Pure
import FrameQuery.Proofs.Expr.Brackets
import FrameQuery.Proofs.Frame.Assembly
import FrameQuery.Proofs.Frame.Reachable

/-!
# Brackets of frames in PURE

A lambda puts its body between braces. If the body loses two parentheses that do not belong
together, the second half of each is left over there. Nothing else in the text of a frame tears
brackets.
-/

namespace FrameQuery

open Doc (Pairs Enclosable)

/-! ### What is in a frame -/

namespace ComputedColumn

/-- The bodies of the lambdas of a column. -/
def bodies (c : ComputedColumn) : List Expr := c.map.expr :: (c.aggregate.map (·.expr)).toList

/-- The names and texts of a column that are written between quotes, or may be. -/
def texts (c : ComputedColumn) : List String := c.name :: c.bodies.flatMap (·.texts)

end ComputedColumn

namespace Frame

/-- What belongs to a frame and to the frames it was made of. -/
def gather {α : Type} (own : Frame → List α) (frame : Frame) : List α :=
  match frame with
  | table _ _ => own frame
  | filtered base _ | selected base _ | distinct base _ | extended base _
  | windowExtended base _ _ | projected base _ | renamed base _ | grouped base _ _
  | sorted base _ | sliced base _ _ | limited base _ | dropped base _ =>
    base.gather own ++ own frame
  | joined base other _ _ | asOfJoined base other _ _ | concatenated base other =>
    base.gather own ++ (other.gather own ++ own frame)
  | served inner _ => inner.gather own

/-- The bodies of the lambdas of a step. -/
def ownBodies : Frame → List Expr
  | filtered _ condition | joined _ _ condition _ => [condition.expr]
  | extended _ new | windowExtended _ _ new | projected _ new | grouped _ _ new =>
    new.flatMap (·.bodies)
  | asOfJoined _ _ matching condition => matching.expr :: (condition.map (·.expr)).toList
  | _ => []

/-- The names and texts of a step that are written between quotes, or may be. -/
def ownTexts : Frame → List String
  | filtered _ condition | joined _ _ condition _ => condition.expr.texts
  | selected _ names | distinct _ (some names) => names
  | extended _ new | projected _ new => new.flatMap (·.texts)
  | windowExtended _ window new => window.columns ++ new.flatMap (·.texts)
  | renamed _ pairs => pairs.flatMap fun (old, new) ↦ [old, new]
  | grouped _ grouping aggregates => grouping ++ aggregates.flatMap (·.texts)
  | sorted _ keys => keys.map (·.column)
  | asOfJoined _ _ matching condition =>
    matching.expr.texts ++ condition.toList.flatMap (·.expr.texts)
  | _ => []

/-- The bodies of all lambdas of a frame. -/
def bodies (frame : Frame) : List Expr := frame.gather ownBodies

/-- The names and texts of a frame that are written between quotes, or may be. -/
def texts (frame : Frame) : List String := frame.gather ownTexts

end Frame

/-! ### Parts of steps -/

section Parts

variable {layout : Layout} {strict : Bool}

/-- A lambda tears brackets exactly if its body loses parentheses that do not belong together. -/
theorem pairs_lambda {parameters : String} (hp : Unmarked parameters) {e : Expr}
    (h : ∀ t ∈ e.texts, Quotable strict t) :
    (PureText.lambda parameters e.toPure).Pairs layout strict e.mispaired := by
  intro due
  have head : (Bracketing.outside due).run strict (layout.chars (Doc.text "\x7b" ++
      Doc.text parameters ++ Doc.text " | ")) = .outside ('\x7d' :: due) := by
    have words : (Doc.text parameters ++ Doc.text " | ").Pairs layout strict false :=
      (Pairs.text hp).before (.text (by decide))
    rw [List.append_assoc, Layout.chars_append, Layout.chars_text, Bracketing.run_append]
    exact words ('\x7d' :: due)
  have body : (Bracketing.outside ('\x7d' :: due)).run strict
      (layout.chars (PureText.strip e.toPure)) = if e.mispaired then .torn else _ :=
    Expr.run_strip h (by simp)
  rw [PureText.lambda, Layout.chars_append, Layout.chars_append, Bracketing.run_append,
    Bracketing.run_append, head, body]
  cases e.mispaired with
  | true => exact Bracketing.run_torn _
  | false =>
    rw [Layout.chars_text]
    rfl

/-- A computed column tears brackets if one of its lambdas does. -/
theorem ComputedColumn.pairs_toPure {c : ComputedColumn} {parameters : String}
    (hp : Unmarked parameters) (h : ∀ t ∈ c.texts, Quotable strict t) :
    (c.toPure parameters).Pairs layout strict (c.bodies.any (·.mispaired)) := by
  obtain ⟨name, map, aggregate⟩ := c
  obtain ⟨hn, hb⟩ := List.forall_mem_cons.mp h
  have each : ∀ e ∈ ComputedColumn.bodies ⟨name, map, aggregate⟩, ∀ t ∈ e.texts,
      Quotable strict t := fun e he t ht ↦ hb t (List.mem_flatMap.mpr ⟨e, he, ht⟩)
  obtain ⟨hm, ha⟩ := List.forall_mem_cons.mp each
  have first : (Doc.text (PureText.columnName name) ++ Doc.text ":" ++
      PureText.lambda parameters map.toPure).Pairs layout strict map.expr.mispaired :=
    ((pairs_columnName hn).before (.text (by decide))).before (pairs_lambda hp hm)
  cases aggregate with
  | none => exact first.of_eq (by simp [bodies])
  | some aggregate =>
    have second : (PureText.lambda "c" aggregate.toPure).Pairs layout strict
        aggregate.expr.mispaired :=
      pairs_lambda (by decide) (ha _ (List.mem_singleton_self _))
    exact ((first.behind (.text (by decide))).append second).of_eq (by simp [bodies])

/-- Names of columns between brackets tear none. -/
theorem pairs_names {columns : List String} (h : ∀ c ∈ columns, Quotable strict c) :
    (PureText.names columns).Pairs layout strict false :=
  .between [']'] (fun _ ↦ rfl) (fun _ ↦ rfl)
    (.commaSep (List.forall_mem_map.mpr fun c hc ↦ pairs_columnName (h c hc)))

/-- Sort keys tear no brackets. -/
theorem SortKey.pairs_toPure {key : SortKey} (h : Quotable strict key.column) :
    key.toPure.Pairs layout strict false := by
  have call (function : String) (hf : Unmarked function) : (Doc.text function ++ Doc.text "(~" ++
      Doc.text (PureText.columnName key.column) ++ Doc.text ")").Pairs layout strict false := by
    rw [List.append_assoc, List.append_assoc, ← List.append_assoc (Doc.text "(~")]
    exact (Pairs.text hf).before
      (.between [')'] (fun _ ↦ rfl) (fun _ ↦ rfl) (pairs_columnName h))
  rw [SortKey.toPure]
  split <;> exact call _ (by decide)

/-- An end of a window frame tears no brackets. -/
theorem Bound.pairs_toPure (bound : Bound) : bound.toPure.Pairs layout strict false := by
  cases bound with
  | unbounded => exact .of_steady fun _ ↦ rfl
  | offset value unit =>
    cases unit with
    | none => exact pairs_intText value
    | some unit =>
      refine ((pairs_intText value).before (.text (by decide))).before (.text ?_)
      cases unit <;> decide

/-- A window frame tears no brackets. -/
theorem FrameSpec.pairs_toPure (frame : FrameSpec) : frame.toPure.Pairs layout strict false := by
  have call (function : String) (hf : Unmarked function) : (Doc.text function ++ Doc.text "(" ++
      frame.start.toPure ++ Doc.text ", " ++ frame.stop.toPure ++
      Doc.text ")").Pairs layout strict false := by
    have ends : (frame.start.toPure ++ Doc.text ", " ++ frame.stop.toPure).Pairs layout strict
        false :=
      (frame.start.pairs_toPure.before (.text (by decide))).before frame.stop.pairs_toPure
    have all := (Pairs.text hf).before
      (.between [')'] (fun _ ↦ rfl) (fun _ ↦ rfl) ends : Pairs layout strict
        (Doc.text "(" ++ _ ++ Doc.text ")") false)
    simp only [List.append_assoc] at all ⊢
    exact all
  rw [FrameSpec.toPure]
  split <;> exact call _ (by decide)

/-- A window tears no brackets. -/
theorem WindowSpec.pairs_toPure {window : WindowSpec}
    (h : ∀ c ∈ window.columns, Quotable strict c) :
    window.toPure.Pairs layout strict false := by
  obtain ⟨hp, ho⟩ := List.forall_mem_append.mp h
  refine .between [')'] (fun _ ↦ rfl) (fun _ ↦ rfl) (.commaSep ?_)
  rw [List.forall_mem_append, List.forall_mem_cons, List.forall_mem_singleton]
  refine ⟨⟨?_, ?_⟩, ?_⟩
  · split
    · exact .of_steady fun _ ↦ rfl
    · exact pairs_names hp
  · exact .between [']'] (fun _ ↦ rfl) (fun _ ↦ rfl) (.commaSep (List.forall_mem_map.mpr
      fun key hk ↦ key.pairs_toPure (ho _ (List.mem_map_of_mem hk))))
  · cases window.frame with
    | none => exact nofun
    | some frame => exact List.forall_mem_singleton.mpr frame.pairs_toPure

section Lists

variable {α : Type} {torn : α → Bool} {parts : List α} {docs : List Doc}

/-- Documents on lines of their own tear brackets if one of them does. -/
private theorem pairs_lines (depth : Nat)
    (h : List.Forall₂ (fun a doc ↦ Doc.Pairs layout strict doc (torn a)) parts docs) :
    Pairs layout strict (Doc.seam (depth + 2) ++
      Doc.sepBy (Doc.text "," ++ Doc.gap (depth + 2)) docs ++ Doc.seam (depth + 1))
      (parts.any torn) :=
  ((Pairs.seam _).before (.sepBy (.before (.text (by decide)) (.gap _)) h)).behind (.seam _)

/-- Columns on lines of their own tear brackets if one of them does. -/
theorem pairs_columnList (depth : Nat)
    (h : List.Forall₂ (fun a doc ↦ Doc.Pairs layout strict doc (torn a)) parts docs) :
    (PureText.columnList depth docs).Pairs layout strict (parts.any torn) := by
  have all : Pairs layout strict (Doc.text "~[" ++ _ ++ Doc.text "]") _ :=
    .between [']'] (fun _ ↦ rfl) (fun _ ↦ rfl) (pairs_lines depth h)
  rw [PureText.columnList]
  simp only [List.append_assoc] at all ⊢
  exact all

/-- Columns tear brackets if one of them does. -/
theorem pairs_columns (depth : Nat)
    (h : List.Forall₂ (fun a doc ↦ Doc.Pairs layout strict doc (torn a)) parts docs) :
    (PureText.columns depth docs).Pairs layout strict (parts.any torn) := by
  have list := pairs_columnList depth h
  cases h with
  | nil => exact list
  | cons ha rest =>
    cases rest with
    | nil => exact ((Pairs.text (by decide)).before ha).of_eq (by simp)
    | cons => exact list

/-- A step whose arguments stand on lines of their own tears brackets if one of them does. -/
theorem pairs_tallStep (depth : Nat) {function : String} (hf : Unmarked function)
    (h : List.Forall₂ (fun a doc ↦ Doc.Pairs layout strict doc (torn a)) parts docs) :
    (PureText.tallStep depth function docs).Pairs layout strict (parts.any torn) := by
  have all := (Pairs.text hf).before
    (.between [')'] (fun _ ↦ rfl) (fun _ ↦ rfl) (pairs_lines depth h) : Pairs layout strict
      (Doc.text "(" ++ _ ++ Doc.text ")") _)
  rw [PureText.tallStep]
  simp only [List.append_assoc] at all ⊢
  exact all

/-- A frame followed by steps tears brackets if it does or one of the steps does. -/
theorem pairs_steps (depth : Nat) {base : Doc} {p : Bool} (hb : base.Pairs layout strict p)
    (h : List.Forall₂ (fun a doc ↦ Doc.Pairs layout strict doc (torn a)) parts docs) :
    (PureText.steps depth base docs).Pairs layout strict (p || parts.any torn) := by
  refine hb.append ?_
  induction h with
  | nil => exact .nil
  | cons ha _ ih =>
    rw [List.flatMap_cons, List.any_cons]
    exact ((Pairs.seam _).before ha).append ih

end Lists

/-- A frame followed by one step tears brackets if one of the two does. -/
theorem pairs_step (depth : Nat) {base step : Doc} {p q : Bool} (hb : base.Pairs layout strict p)
    (hs : step.Pairs layout strict q) :
    (PureText.steps depth base [step]).Pairs layout strict (p || q) := by
  have one : List.Forall₂ (fun (torn : Bool) doc ↦ Doc.Pairs layout strict doc (id torn))
      [q] [step] := .cons hs .nil
  exact (pairs_steps depth hb one).of_eq (by simp)

/-- Computed columns, one by one. -/
theorem pairs_items (layout : Layout) {parameters : String} (hp : Unmarked parameters)
    {new : List ComputedColumn} (h : ∀ t ∈ new.flatMap (·.texts), Quotable strict t) :
    List.Forall₂ (fun (c : ComputedColumn) doc ↦
      Doc.Pairs layout strict doc (c.bodies.any (·.mispaired)))
      new (new.map (·.toPure parameters)) := by
  rw [List.forall₂_map_right_iff, List.forall₂_same]
  exact fun c hc ↦ c.pairs_toPure hp fun t ht ↦ h t (List.mem_flatMap.mpr ⟨c, hc, ht⟩)

/-- Steps that extend a frame. -/
theorem pairs_extension (depth : Nat) {base window : Doc} {p : Bool} {parameters : String}
    (hb : base.Pairs layout strict p) (hw : window.Pairs layout strict false)
    (hp : Unmarked parameters) {new : List ComputedColumn}
    (h : ∀ t ∈ new.flatMap (·.texts), Quotable strict t) :
    (PureText.steps depth base (PureText.extension depth window parameters new)).Pairs layout strict
      (p || (new.flatMap (·.bodies)).any (·.mispaired)) := by
  have items := pairs_items layout hp h
  have extend {doc : Doc} {q : Bool} (hd : doc.Pairs layout strict q) :
      (Doc.text "->extend(" ++ window ++ doc ++ Doc.text ")").Pairs layout strict q := by
    rw [List.append_assoc (Doc.text "->extend(")]
    exact .between [')'] (fun _ ↦ rfl) (fun _ ↦ rfl) (hw.before hd)
  rw [PureText.extension, List.any_flatMap]
  split
  · exact pairs_step depth hb (extend (pairs_columns depth items))
  · refine pairs_steps depth hb ?_
    rw [List.forall₂_map_right_iff]
    refine items.imp fun c doc hd ↦ ?_
    rw [List.append_assoc (Doc.text "->extend(" ++ window)]
    exact extend (.before (.text (by decide)) hd)

end Parts

/-! ### Frames -/

namespace Frame

variable {layout : Layout} {strict : Bool}

/-- A step tears brackets if the frame it is applied to does, or one of its own lambdas. -/
private theorem pairs_derived {base : Frame} {own : List Expr} {step : Doc} (depth : Nat)
    (hb : (base.toPure depth).Pairs layout strict (base.bodies.any (·.mispaired)))
    (hs : step.Pairs layout strict (own.any (·.mispaired))) :
    (PureText.steps depth (base.toPure depth) [step]).Pairs layout strict
      ((base.bodies ++ own).any (·.mispaired)) :=
  (pairs_step depth hb hs).of_eq List.any_append.symm

/-- A step with a single argument between parentheses. -/
private theorem pairs_argument {before : String} {doc : Doc} {p : Bool}
    (hb : ∀ due, (Bracketing.outside due).run strict before.toList = .outside (')' :: due))
    (h : doc.Pairs layout strict p) :
    (Doc.text before ++ doc ++ Doc.text ")").Pairs layout strict p :=
  .between [')'] hb (fun _ ↦ rfl) h

/-- New names of columns tear no brackets. -/
private theorem pairs_renames {pairs : List (String × String)}
    (h : ∀ t ∈ pairs.flatMap fun (old, new) ↦ [old, new], Quotable strict t) :
    List.Forall₂ (fun (_ : String × String) doc ↦ Doc.Pairs layout strict doc false) pairs
      (pairs.map fun (old, new) ↦ Doc.text "->rename(~" ++ Doc.text (PureText.columnName old) ++
        Doc.text ", ~" ++ Doc.text (PureText.columnName new) ++ Doc.text ")") := by
  rw [List.forall₂_map_right_iff, List.forall₂_same]
  intro (old, new) hm
  have quotable {name : String} (hn : name ∈ [old, new]) : Quotable strict name :=
    h name (List.mem_flatMap.mpr ⟨(old, new), hm, hn⟩)
  have both : (Doc.text (PureText.columnName old) ++ Doc.text ", ~" ++
      Doc.text (PureText.columnName new)).Pairs layout strict false :=
    ((pairs_columnName (quotable (by simp))).before (.text (by decide))).before
      (pairs_columnName (quotable (by simp)))
  have step : (Doc.text "->rename(~" ++ _ ++ Doc.text ")").Pairs layout strict false :=
    pairs_argument (fun _ ↦ rfl) both
  rwa [← List.append_assoc, ← List.append_assoc] at step

/-- The only lambda of a step. -/
private theorem pairs_condition {parameters : String} (hp : Unmarked parameters) {e : Expr}
    (h : ∀ t ∈ e.texts, Quotable strict t) :
    (PureText.lambda parameters e.toPure).Pairs layout strict ([e].any (·.mispaired)) :=
  (pairs_lambda hp h).of_eq (by simp)

/-- A step whose arguments stand on lines of their own, with what each of them tears. -/
private theorem pairs_arguments (depth : Nat) {function : String} (hf : Unmarked function)
    {torn : List Bool} {docs : List Doc}
    (h : List.Forall₂ (fun p doc ↦ Doc.Pairs layout strict doc p) torn docs) :
    (PureText.tallStep depth function docs).Pairs layout strict (torn.any id) :=
  pairs_tallStep depth hf h

/-- A frame tears brackets exactly if the body of one of its lambdas loses parentheses that do not
belong together. -/
theorem pairs_toPure {frame : Frame}
    (names : ∀ table ∈ frame.tables, ∀ part ∈ table.1, Identifier.isIdentifier part = true)
    (h : ∀ t ∈ frame.texts, Quotable strict t) (depth : Nat) :
    (frame.toPure depth).Pairs layout strict (frame.bodies.any (·.mispaired)) := by
  induction frame generalizing depth with
  | table parts columns =>
    have plain : Unmarked (".".intercalate parts) :=
      .intercalate (by decide) fun part hp ↦
        Identifier.unmarked (names _ (List.mem_singleton_self _) part hp)
    exact .between [')'] (fun _ ↦ rfl) (fun _ ↦ rfl) (.text plain)
  | filtered base condition ih =>
    obtain ⟨hb, ho⟩ := List.forall_mem_append.mp h
    exact pairs_derived depth (ih names hb depth)
      (pairs_argument (fun _ ↦ rfl) (pairs_condition (by decide) ho))
  | selected base columns ih =>
    obtain ⟨hb, ho⟩ := List.forall_mem_append.mp h
    exact pairs_derived depth (ih names hb depth) (pairs_argument (fun _ ↦ rfl) (pairs_names ho))
  | distinct base columns ih =>
    obtain ⟨hb, ho⟩ := List.forall_mem_append.mp h
    cases columns with
    | none => exact pairs_derived depth (ih names hb depth) (.of_steady fun _ ↦ rfl)
    | some columns =>
      exact pairs_derived depth (ih names hb depth) (pairs_argument (fun _ ↦ rfl) (pairs_names ho))
  | extended base new ih =>
    obtain ⟨hb, ho⟩ := List.forall_mem_append.mp h
    exact (pairs_extension depth (ih names hb depth) .nil (by decide) ho).of_eq
      List.any_append.symm
  | windowExtended base window new ih =>
    obtain ⟨hb, ho⟩ := List.forall_mem_append.mp h
    obtain ⟨hw, hn⟩ := List.forall_mem_append.mp ho
    exact (pairs_extension depth (ih names hb depth)
      (.before (window.pairs_toPure hw) (.text (by decide))) (by decide) hn).of_eq
      List.any_append.symm
  | projected base new ih =>
    obtain ⟨hb, ho⟩ := List.forall_mem_append.mp h
    have columns := pairs_columnList depth (pairs_items layout (by decide : Unmarked "r") ho)
    exact pairs_derived depth (ih names hb depth)
      (pairs_argument (fun _ ↦ rfl) (columns.of_eq List.any_flatMap.symm))
  | renamed base pairs ih =>
    obtain ⟨hb, ho⟩ := List.forall_mem_append.mp h
    refine (pairs_steps depth (ih names hb depth) (pairs_renames ho)).of_eq ?_
    simp [bodies, gather, ownBodies]
  | grouped base grouping aggregates ih =>
    obtain ⟨hb, ho⟩ := List.forall_mem_append.mp h
    obtain ⟨hg, ha⟩ := List.forall_mem_append.mp ho
    have columns : Pairs layout strict (Doc.text "~[" ++ Doc.commaSep _ ++ Doc.text "]") _ :=
      .between [']'] (fun _ ↦ rfl) (fun _ ↦ rfl)
        (.sepBy (.text (by decide)) (pairs_items layout (by decide : Unmarked "r") ha))
    refine pairs_derived depth (ih names hb depth) ((pairs_arguments depth (by decide)
      (.cons (pairs_names hg) (.cons columns .nil))).of_eq ?_)
    simp [ownBodies, List.any_flatMap]
  | sorted base keys ih =>
    obtain ⟨hb, ho⟩ := List.forall_mem_append.mp h
    refine pairs_derived depth (ih names hb depth)
      (.between [']', ')'] (fun _ ↦ rfl) (fun _ ↦ rfl) (.commaSep (List.forall_mem_map.mpr ?_)))
    exact fun key hk ↦ key.pairs_toPure (ho _ (List.mem_map_of_mem hk))
  | sliced base start stop ih =>
    obtain ⟨hb, -⟩ := List.forall_mem_append.mp h
    have bounds : (Doc.text (PureText.intText start) ++ Doc.text ", " ++
        Doc.text (PureText.intText stop)).Pairs layout strict false :=
      ((pairs_intText start).before (.text (by decide))).before (pairs_intText stop)
    have step : (Doc.text "->slice(" ++ _ ++ Doc.text ")").Pairs layout strict false :=
      pairs_argument (fun _ ↦ rfl) bounds
    rw [← List.append_assoc, ← List.append_assoc] at step
    exact pairs_derived depth (ih names hb depth) step
  | limited base count ih | dropped base count ih =>
    obtain ⟨hb, -⟩ := List.forall_mem_append.mp h
    exact pairs_derived depth (ih names hb depth)
      (pairs_argument (fun _ ↦ rfl) (pairs_intText count))
  | joined base other condition kind ihb iho =>
    obtain ⟨hb, hp⟩ := List.forall_mem_append.mp h
    obtain ⟨ho, hc⟩ := List.forall_mem_append.mp hp
    obtain ⟨nb, no⟩ := List.forall_mem_append.mp names
    have word : (Doc.text (PureText.joinKind kind)).Pairs layout strict false := by
      cases kind <;> exact .text (by decide)
    refine pairs_derived depth (ihb nb hb depth) ((pairs_arguments depth (by decide)
      (.cons (iho no ho (depth + 2)) (.cons word
        (.cons (pairs_condition (by decide) hc) .nil)))).of_eq ?_)
    simp [bodies, ownBodies]
  | asOfJoined base other matching condition ihb iho =>
    obtain ⟨hb, hp⟩ := List.forall_mem_append.mp h
    obtain ⟨ho, hc⟩ := List.forall_mem_append.mp hp
    obtain ⟨hm, hc⟩ := List.forall_mem_append.mp hc
    obtain ⟨nb, no⟩ := List.forall_mem_append.mp names
    have first {torn : List Bool} {docs : List Doc}
        (hd : List.Forall₂ (fun p doc ↦ Doc.Pairs layout strict doc p) torn docs) :=
      pairs_arguments depth (by decide : Unmarked "->asOfJoin")
        (.cons (iho no ho (depth + 2))
          (.cons (pairs_condition (by decide : Unmarked "l, r") hm) hd))
    cases condition with
    | none =>
      refine pairs_derived depth (ihb nb hb depth) ((first .nil).of_eq ?_)
      simp [bodies, ownBodies]
    | some condition =>
      have second : (PureText.joinCondition condition).Pairs layout strict _ :=
        pairs_condition (by decide) fun t ht ↦
          hc t (List.mem_flatMap.mpr ⟨condition, List.mem_singleton_self _, ht⟩)
      refine pairs_derived depth (ihb nb hb depth) ((first (.cons second .nil)).of_eq ?_)
      simp [bodies, ownBodies]
  | concatenated base other ihb iho =>
    obtain ⟨hb, hp⟩ := List.forall_mem_append.mp h
    obtain ⟨ho, -⟩ := List.forall_mem_append.mp hp
    obtain ⟨nb, no⟩ := List.forall_mem_append.mp names
    refine pairs_derived depth (ihb nb hb depth) ((pairs_arguments depth (by decide)
      (.cons (iho no ho (depth + 2)) .nil)).of_eq ?_)
    simp [bodies, ownBodies]
  | served frame service ih => exact ih names h depth

/-- A reader ends where it started unless brackets were torn. -/
private theorem settled_iff {torn : Bool} :
    (if torn then .torn else .outside [] : Bracketing) = .outside [] ↔ torn = false := by
  cases torn <;> simp

/-- The text of a frame is balanced exactly if no body of a lambda loses parentheses that do not
belong together. -/
theorem balanced_pureText_iff {frame : Frame}
    (names : ∀ table ∈ frame.tables, ∀ part ∈ table.1, Identifier.isIdentifier part = true)
    (h : ∀ t ∈ frame.texts, Quotable false t) (format : PureFormat) :
    Balanced (frame.pureText format).toList ↔ ∀ body ∈ frame.bodies, body.mispaired = false := by
  have whole : (frame.toPure 0).Pairs format.layout false (frame.bodies.any (·.mispaired)) :=
    pairs_toPure names h 0
  rw [Balanced, pureText, Layout.render, String.toList_ofList, whole [], settled_iff,
    List.any_eq_false]
  simp only [Bool.not_eq_true]

/-- What belongs to a part of a frame belongs to the frame. -/
private theorem gather_subset {α β : Type} {own : Frame → List α} {others : Frame → List β}
    {parts : α → List β} (h : ∀ frame, ∀ a ∈ own frame, parts a ⊆ others frame) {frame : Frame}
    {a : α} (ha : a ∈ frame.gather own) : parts a ⊆ frame.gather others := by
  induction frame with
  | table names columns => exact h _ a ha
  | served frame service ih => exact ih ha
  | joined base other condition kind ihb iho | asOfJoined base other matching condition ihb iho
  | concatenated base other ihb iho =>
    rcases List.mem_append.mp ha with ha | ha
    · exact List.subset_append_of_subset_left _ (ihb ha)
    · refine List.subset_append_of_subset_right _ ?_
      rcases List.mem_append.mp ha with ha | ha
      · exact List.subset_append_of_subset_left _ (iho ha)
      · exact List.subset_append_of_subset_right _ (h _ a ha)
  | _ =>
    rename_i ih
    rcases List.mem_append.mp ha with ha | ha
    · exact List.subset_append_of_subset_left _ (ih ha)
    · exact List.subset_append_of_subset_right _ (h _ a ha)

/-- What is written between quotes in the body of a lambda is so in the frame. -/
theorem texts_body_subset {frame : Frame} {body : Expr} (h : body ∈ frame.bodies) :
    body.texts ⊆ frame.texts := by
  refine gather_subset (fun frame body hb ↦ ?_) h
  have columns {new : List ComputedColumn} (hb : body ∈ new.flatMap (·.bodies)) :
      body.texts ⊆ new.flatMap (·.texts) := by
    intro t ht
    obtain ⟨c, hc, hb⟩ := List.mem_flatMap.mp hb
    exact List.mem_flatMap.mpr
      ⟨c, hc, List.mem_cons_of_mem _ (List.mem_flatMap.mpr ⟨body, hb, ht⟩)⟩
  cases frame with
  | filtered base condition | joined base other condition kind =>
    rw [List.mem_singleton.mp hb]
    exact List.Subset.refl _
  | extended base new | projected base new => exact columns hb
  | windowExtended base window new | grouped base grouping new =>
    exact List.subset_append_of_subset_right _ (columns hb)
  | asOfJoined base other matching condition =>
    rcases List.mem_cons.mp hb with rfl | hb
    · exact List.subset_append_left _ _
    · obtain ⟨c, hc, rfl⟩ := Option.map_eq_some_iff.mp (Option.mem_toList.mp hb)
      refine List.subset_append_of_subset_right _ fun t ht ↦ ?_
      exact List.mem_flatMap.mpr ⟨c, Option.mem_toList.mpr hc, ht⟩
  | _ => cases hb

/-- The text of a frame is balanced, in every layout, if no parentheses stand between quotes. -/
theorem balanced_of_no_parens {frame : Frame}
    (names : ∀ table ∈ frame.tables, ∀ part ∈ table.1, Identifier.isIdentifier part = true)
    (h : ∀ t ∈ frame.texts, Quotable true t) (format : PureFormat) :
    Balanced (frame.pureText format).toList := by
  have unescaped : ∀ t ∈ frame.texts, Quotable false t := fun t ht ↦ ⟨(h t ht).1, nofun⟩
  refine (balanced_pureText_iff names unescaped format).mpr fun body hb ↦ ?_
  exact Expr.mispaired_eq_false fun t ht ↦ h t (texts_body_subset hb ht)

/-- The brackets of a frame's text are balanced, in every layout, exactly if no body of a lambda
loses parentheses that do not belong together; and what is left of an expression that loses its
outer parentheses, wherever it stands, is balanced exactly if they belong together. Where no
parentheses stand between quotes, the text is balanced. -/
theorem balanced_iff {frame : Frame}
    (names : ∀ table ∈ frame.tables, ∀ part ∈ table.1, Identifier.isIdentifier part = true)
    (unescaped : ∀ t ∈ frame.texts, '\\' ∉ t.toList) (format : PureFormat) :
    (Balanced (frame.pureText format).toList ↔ ∀ body ∈ frame.bodies, body.mispaired = false) ∧
      (∀ e : Expr, (∀ t ∈ e.texts, '\\' ∉ t.toList) →
        (Balanced (format.layout.chars (PureText.strip e.toPure)) ↔ e.mispaired = false)) ∧
      ((∀ t ∈ frame.texts, '(' ∉ t.toList ∧ ')' ∉ t.toList) →
        Balanced (frame.pureText format).toList) := by
  have quotable {texts : List String} (h : ∀ t ∈ texts, '\\' ∉ t.toList) :
      ∀ t ∈ texts, Quotable false t := fun t ht ↦ ⟨h t ht, nofun⟩
  refine ⟨balanced_pureText_iff names (quotable unescaped) format, fun e h ↦ ?_, fun none ↦ ?_⟩
  · rw [Balanced, Expr.run_strip (quotable h) (by simp), settled_iff]
  · exact balanced_of_no_parens names (fun t ht ↦ ⟨unescaped t ht, fun _ ↦ none t ht⟩) format

/-- A table with a column of texts. -/
private theorem texts_made : Frame.ofTable ["t"] [⟨"s", .string, none, none⟩] =
    .ok (.table ["t"] [⟨"s", .string, none, none⟩]) := rfl

/-- An opening parenthesis before the texts of a column. -/
theorem balanced_iff_of_concatenation :
    ∃ frame, Reachable frame ∧ (∀ t ∈ frame.texts, '\\' ∉ t.toList) ∧
      (Balanced (frame.pureText {}).toList ↔ ∀ body ∈ frame.bodies, body.mispaired = false) := by
  have made : Frame.project (.table ["t"] [⟨"s", .string, none, none⟩])
      [⟨"x", fun row ↦ do (TypedExpr.string "(").concat (← row.get "s"), none⟩] =
        .ok (.projected _ _) := rfl
  refine ⟨_, .project (.table texts_made) made, by decide, ?_⟩
  exact (balanced_iff (by decide) (by decide) {}).1

/-- The place of a closing parenthesis in such texts. -/
theorem exists_torn_brackets :
    ∃ frame, Reachable frame ∧ frame.tables.map (·.1) = [["t"]] ∧
      (∀ t ∈ frame.texts, '\\' ∉ t.toList) ∧
      frame.pureText .compact =
        "#Table(t)#->project(~[x:\x7br | '(' + toOne($r.s))->indexOf(')'\x7d])" ∧
      ∀ format, ¬Balanced (frame.pureText format).toList := by
  have made : Frame.project (.table ["t"] [⟨"s", .string, none, none⟩])
      [⟨"x", fun row ↦ do
        (← (TypedExpr.string "(").concat (← row.get "s")).indexOf (.string ")"), none⟩] =
        .ok (.projected _ _) := rfl
  refine ⟨_, .project (.table texts_made) made, rfl, by decide, rfl, fun format balanced ↦ ?_⟩
  have sound := (balanced_pureText_iff (by decide) (by decide) format).mp balanced
  exact absurd (sound _ List.mem_cons_self) (by decide)

end Frame

end FrameQuery
