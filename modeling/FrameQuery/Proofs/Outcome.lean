import FrameQuery.Error
import Mathlib.Data.List.Forall2

/-!
# When operations succeed

Operations that may fail are run one after the other. Each lemma says exactly when such a sequence
succeeds, and with which result, so that later proofs take a sequence apart without unfolding it.
-/

namespace FrameQuery.Outcome

variable {α β : Type}

/-- A sequence succeeds exactly when both of its parts do. -/
theorem bind_eq_ok {x : Outcome α} {f : α → Outcome β} {b : β} :
    x >>= f = .ok b ↔ ∃ a, x = .ok a ∧ f a = .ok b := by
  cases x with
  | error e => simp [bind, Except.bind]
  | ok a => simp [bind, Except.bind]

/-- A result that is passed on comes from a success. -/
theorem map_eq_ok {x : Outcome α} {f : α → β} {b : β} :
    f <$> x = .ok b ↔ ∃ a, x = .ok a ∧ f a = b := by
  cases x with
  | error e => simp [Functor.map, Except.map]
  | ok a => simp [Functor.map, Except.map]

/-- Going on after a success is going on with its result. -/
theorem ok_bind (a : α) (f : α → Outcome β) : (Except.ok a : Outcome α) >>= f = f a := rfl

/-- A sequence goes on alike with results that correspond to each other, failures included. -/
theorem map_bind_eq {γ δ : Type} {x : Outcome α} {f : α → γ} {g : α → Outcome β}
    {g' : γ → Outcome δ} {h : β → δ} (each : ∀ a, x = .ok a → g' (f a) = (g a).map h) :
    x.map f >>= g' = (x >>= g).map h := by
  cases x with
  | error e => rfl
  | ok a => exact each a rfl

/-- A pure step succeeds with its value. -/
theorem pure_eq_ok {a b : α} : (pure a : Outcome α) = .ok b ↔ a = b := by
  simp [pure, Except.pure]

/-- A failure is no success. -/
theorem fail_ne_ok {cause : Cause} {a : α} : (fail cause : Outcome α) ≠ .ok a := by
  simp [fail]

/-- A check succeeds exactly when its condition holds. -/
theorem require_eq_ok {condition : Bool} {cause : Cause} {u : Unit} :
    require condition cause = .ok u ↔ condition = true := by
  cases condition <;> simp [require, fail]

/-- A list is worked off successfully exactly when each of its entries is. -/
theorem mapM_eq_ok {f : α → Outcome β} {as : List α} {bs : List β} :
    as.mapM f = .ok bs ↔ List.Forall₂ (fun a b ↦ f a = .ok b) as bs := by
  induction as generalizing bs with
  | nil => simp [pure, Except.pure, eq_comm]
  | cons a as ih =>
    rw [List.mapM_cons, bind_eq_ok, List.forall₂_cons_left_iff]
    refine exists_congr fun b ↦ ?_
    simp only [bind_eq_ok, pure_eq_ok, ih, eq_comm (b := bs)]
    constructor
    · rintro ⟨hb, rest, hr, he⟩
      exact ⟨rest, hb, hr, he⟩
    · rintro ⟨rest, hb, hr, he⟩
      exact ⟨hb, rest, hr, he⟩

/-- Every entry of the second of two lists is related to one of the first. -/
theorem exists_of_mem_right {R : α → β → Prop} {as : List α} {bs : List β}
    (h : List.Forall₂ R as bs) {b : β} (hb : b ∈ bs) : ∃ a ∈ as, R a b := by
  induction h with
  | nil => cases hb
  | cons hr _ ih =>
    rcases List.mem_cons.mp hb with rfl | hb
    · exact ⟨_, List.mem_cons_self, hr⟩
    · obtain ⟨a, ha, hr⟩ := ih hb
      exact ⟨a, List.mem_cons_of_mem _ ha, hr⟩

/-- Something holds of all entries of a list exactly if what corresponds to it, for each of them,
holds of the related entries. -/
theorem forall_iff_of_mem {R : α → β → Prop} {P : α → Prop} {Q : β → Prop} {as : List α}
    {bs : List β} (h : List.Forall₂ R as bs) (each : ∀ a ∈ as, ∀ b, R a b → (P a ↔ Q b)) :
    (∀ a ∈ as, P a) ↔ ∀ b ∈ bs, Q b := by
  induction h with
  | nil => simp
  | cons hr _ ih =>
    rw [List.forall_mem_cons] at each
    rw [List.forall_mem_cons, List.forall_mem_cons, each.1 _ hr, ih each.2]

/-- Something holds of all entries of a list exactly if what corresponds to it holds of the related
entries. -/
theorem forall_mem_iff {R : α → β → Prop} {P : α → Prop} {Q : β → Prop} {as : List α} {bs : List β}
    (h : List.Forall₂ R as bs) (each : ∀ a b, R a b → (P a ↔ Q b)) :
    (∀ a ∈ as, P a) ↔ ∀ b ∈ bs, Q b :=
  forall_iff_of_mem h fun a _ ↦ each a

/-! ### Operations that succeed -/

/-- An operation that does not fail. -/
def Succeeds (x : Outcome α) : Prop := ∃ a, x = .ok a

/-- A result succeeds. -/
theorem succeeds_ok (a : α) : Succeeds (.ok a : Outcome α) := ⟨a, rfl⟩

/-- A sequence succeeds if its parts do. -/
theorem Succeeds.bind {x : Outcome α} {f : α → Outcome β} (hx : Succeeds x)
    (hf : ∀ a, Succeeds (f a)) : Succeeds (x >>= f) := by
  obtain ⟨a, ha⟩ := hx
  obtain ⟨b, hb⟩ := hf a
  exact ⟨b, bind_eq_ok.mpr ⟨a, ha, hb⟩⟩

/-- What is made of a success is a success. -/
theorem Succeeds.bind_ok {x : Outcome α} (hx : Succeeds x) (f : α → β) :
    Succeeds (x >>= fun a ↦ .ok (f a)) := hx.bind fun _ ↦ succeeds_ok _

/-- What is made of a success is a success. -/
theorem Succeeds.map {x : Outcome α} (hx : Succeeds x) (f : α → β) :
    Succeeds (Except.map f x) := by
  obtain ⟨a, rfl⟩ := hx
  exact ⟨f a, rfl⟩

/-! ### What operations give -/

/-- If an operation succeeds, its result has a property. -/
def Gives (x : Outcome α) (P : α → Prop) : Prop := ∀ a, x = .ok a → P a

/-- A result with a property. -/
theorem Gives.ok {a : α} {P : α → Prop} (h : P a) : Gives (.ok a : Outcome α) P := by
  intro b hb
  rwa [← Except.ok.inj hb]

/-- A sequence gives what its second part gives of what its first part gives. -/
theorem Gives.bind {x : Outcome α} {f : α → Outcome β} {P : α → Prop} {Q : β → Prop}
    (hx : Gives x P) (hf : ∀ a, P a → Gives (f a) Q) : Gives (x >>= f) Q := by
  intro b hb
  obtain ⟨a, ha, hb⟩ := bind_eq_ok.mp hb
  exact hf a (hx a ha) b hb

/-- What is made of a result. -/
theorem Gives.map {x : Outcome α} {f : α → β} {P : α → Prop} {Q : β → Prop} (hx : Gives x P)
    (hf : ∀ a, P a → Q (f a)) : Gives (Except.map f x) Q := by
  intro b hb
  obtain ⟨a, ha, rfl⟩ := map_eq_ok.mp hb
  exact hf a (hx a ha)

/-- Operations that succeed on all entries of a list have a list of results. -/
theorem exists_forall₂ {f : α → Outcome β} {as : List α} (h : ∀ a ∈ as, Succeeds (f a)) :
    ∃ bs, List.Forall₂ (fun a b ↦ f a = .ok b) as bs := by
  induction as with
  | nil => exact ⟨[], .nil⟩
  | cons a rest ih =>
    obtain ⟨⟨b, hb⟩, others⟩ := List.forall_mem_cons.mp h
    obtain ⟨bs, hbs⟩ := ih others
    exact ⟨b :: bs, .cons hb hbs⟩

end FrameQuery.Outcome

/-- A list is read exactly when each of its entries is. -/
theorem FrameQuery.mapM_eq_some {α β : Type} {f : α → Option β} {as : List α} {bs : List β} :
    as.mapM f = some bs ↔ List.Forall₂ (fun a b ↦ f a = some b) as bs := by
  induction as generalizing bs with
  | nil => simp [eq_comm]
  | cons a as ih =>
    rw [List.mapM_cons, List.forall₂_cons_left_iff]
    simp only [Option.bind_eq_bind, Option.bind_eq_some_iff, Option.pure_def, Option.some.injEq, ih,
      eq_comm (b := bs)]
    constructor
    · rintro ⟨b, hb, rest, hr, he⟩
      exact ⟨b, rest, hb, hr, he⟩
    · rintro ⟨b, rest, hb, hr, he⟩
      exact ⟨b, hb, rest, hr, he⟩
