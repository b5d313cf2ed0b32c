import FrameQuery.Proofs.Outcome
import FrameQuery.Sql.Generator
import Mathlib.Data.List.Induction
import Mathlib.Data.List.Nodup

/-!
# Runs of a registry

A registry is asked to register providers and to find generators, in any order and on any tags. One
invariant ties the generators it keeps to the providers of their tags and to the providers that have
created generators: a kept generator was created by the only provider of its tag, and a provider that
has created a generator no longer kept has a rival. Every call keeps the invariant, so that it holds
after every run, and what a look-up answers follows from it.
-/

namespace FrameQuery.Sql

/-- A call of a registry. -/
inductive Request where
  | register (tag : String) (generator : Generator)
  | find (tag : String)

/-- The tag that a call adds a provider for. -/
def Request.registered? : Request → Option String
  | .register tag _ => some tag
  | .find _ => none

namespace Registry

/-- The registry after a call. -/
def after (registry : Registry) : Request → Registry
  | .register tag generator => registry.register tag generator
  | .find tag => (registry.find tag).2

/-- A fresh registry after calls. -/
def run (requests : List Request) : Registry := requests.foldl after initial

/-- The tags for which there are providers after calls: those of the known databases, and one for
each registration. -/
def offered (requests : List Request) : List String :=
  (Named.values : List Database).map Named.name ++ requests.filterMap (·.registered?)

/-- What a look-up in a run of calls found under a tag. -/
def FoundIn (requests : List Request) (tag : String) (found : Instance) : Prop :=
  ∃ earlier later, requests = earlier ++ .find tag :: later ∧
    ((run earlier).find tag).1 = .ok found

variable {registry : Registry} {tag : String} {generator : Generator} {found : Instance}
  {requests : List Request}

/-! ### What a call does -/

/-- A generator that is kept is handed out again. -/
theorem find_of_kept (kept : registry.kept.lookup tag = some found) :
    registry.find tag = (.ok found, registry) := by
  rw [find, kept]

/-- If none is kept, the only provider of the tag creates a generator. -/
theorem find_of_single {provider : Provider} (kept : registry.kept.lookup tag = none)
    (single : registry.providersOf tag = [provider]) :
    registry.find tag = (.ok ⟨registry.created.length, provider.generator⟩, { registry with
      kept := (tag, ⟨registry.created.length, provider.generator⟩) :: registry.kept
      created := provider :: registry.created }) := by
  rw [find, kept, single]

/-- If none is kept, and there is no provider or more than one, nothing is found and nothing
changes. -/
theorem find_of_length_ne_one (kept : registry.kept.lookup tag = none)
    (several : (registry.providersOf tag).length ≠ 1) :
    registry.find tag =
      (fail (.generatorCount tag ((registry.providersOf tag).map (·.tag))), registry) := by
  rw [find, kept]
  cases hp : registry.providersOf tag with
  | nil => rfl
  | cons first rest =>
    cases rest with
    | nil => exact absurd (by rw [hp]; rfl) several
    | cons second rest => rfl

/-- What a look-up finds is kept. -/
theorem kept_of_found (h : (registry.find tag).1 = .ok found) :
    (registry.find tag).2.kept.lookup tag = some found := by
  cases kept : registry.kept.lookup tag with
  | some earlier =>
    rw [find_of_kept kept] at h ⊢
    rw [← Except.ok.inj h]
    exact kept
  | none =>
    by_cases length : (registry.providersOf tag).length = 1
    · obtain ⟨provider, single⟩ := List.length_eq_one_iff.mp length
      rw [find_of_single kept single] at h ⊢
      rw [← Except.ok.inj h]
      exact List.lookup_cons_self
    · rw [find_of_length_ne_one kept length] at h
      exact absurd h Outcome.fail_ne_ok

/-- Registering forgets what is kept for the tag and nothing else. -/
theorem lookup_kept_register (other : String) :
    (registry.register tag generator).kept.lookup other =
      if other = tag then none else registry.kept.lookup other := by
  change (registry.kept.filter (·.1 != tag)).lookup other = _
  induction registry.kept with
  | nil => simp
  | cons entry rest ih =>
    obtain ⟨key, value⟩ := entry
    by_cases hk : key = tag
    · rw [List.filter_cons_of_neg (by simpa using hk), ih]
      by_cases ho : other = tag
      · rw [if_pos ho, if_pos ho]
      · rw [if_neg ho, if_neg ho, List.lookup_cons, beq_false_of_ne (hk ▸ ho)]
    · rw [List.filter_cons_of_pos (by simpa using hk), List.lookup_cons, List.lookup_cons, ih]
      by_cases he : other = key
      · subst he
        simp [hk]
      · rw [beq_false_of_ne he]

/-- Registering adds a provider to those of its tag and to no others. -/
theorem providersOf_register (other : String) :
    (registry.register tag generator).providersOf other = registry.providersOf other ++
      if tag = other then [⟨registry.providers.length, tag, generator, false⟩] else [] := by
  simp only [providersOf, register, List.filter_append]
  by_cases ht : tag = other
  · simp [ht]
  · simp [ht]

/-- A look-up changes no provider. -/
theorem providers_find : (registry.find tag).2.providers = registry.providers := by
  rw [find]
  split
  · rfl
  · split <;> rfl

/-- A call adds the provider it registers, if it registers one. -/
theorem tags_after (request : Request) :
    (registry.after request).providers.map (·.tag) =
      registry.providers.map (·.tag) ++ request.registered?.toList := by
  cases request with
  | register tag generator => simp [after, register, Request.registered?]
  | find tag => simp [after, providers_find, Request.registered?]

/-- The providers of a tag are as many as their tags. -/
theorem length_providersOf (registry : Registry) (tag : String) :
    (registry.providersOf tag).length = (registry.providers.map (·.tag)).count tag := by
  rw [providersOf, ← List.countP_eq_length_filter, List.count, List.countP_map]
  rfl

/-- After calls there are the providers that were offered. -/
theorem tags_run (requests : List Request) :
    (run requests).providers.map (·.tag) = offered requests := by
  induction requests using List.reverseRecOn with
  | nil => rfl
  | append_singleton earlier request ih =>
    rw [run, List.foldl_append, List.foldl_cons, List.foldl_nil, tags_after]
    change (run earlier).providers.map (·.tag) ++ _ = _
    rw [ih, offered, offered, List.filterMap_append, List.append_assoc]
    cases hr : request.registered? <;> simp [hr]

/-- The providers of a tag after calls are as many as were offered. -/
theorem length_providersOf_run (requests : List Request) (tag : String) :
    ((run requests).providersOf tag).length = (offered requests).count tag := by
  rw [length_providersOf, tags_run]

/-! ### The invariant -/

/-- Kept generators, providers and created generators belong together. -/
structure Sound (registry : Registry) : Prop where
  /-- The number of a provider is its place. -/
  numbered : registry.providers.map (·.number) = List.range registry.providers.length
  created_known : registry.created ⊆ registry.providers
  created_nodup : registry.created.Nodup
  /-- What is kept for a tag was created by its only provider. -/
  kept_single : ∀ tag found, registry.kept.lookup tag = some found →
    ∃ provider ∈ registry.created, registry.providersOf tag = [provider] ∧
      registry.created.reverse[found.number]? = some provider ∧
        found.generator = provider.generator
  /-- A provider whose generator is no longer kept has a rival. -/
  created_rival : ∀ provider ∈ registry.created, registry.kept.lookup provider.tag = none →
    registry.providersOf provider.tag ≠ [provider]

/-- A provider is one of those of its tag. -/
theorem mem_providersOf {provider : Provider} :
    provider ∈ registry.providersOf tag ↔ provider ∈ registry.providers ∧ provider.tag = tag := by
  rw [providersOf, List.mem_filter, beq_iff_eq]

namespace Sound

/-- A fresh registry is sound. -/
theorem initial : Sound Registry.initial where
  numbered := rfl
  created_known := List.nil_subset _
  created_nodup := List.nodup_nil
  kept_single _ _ h := nomatch h
  created_rival _ h := nomatch h

/-- Registering keeps a registry sound. -/
theorem register (sound : Sound registry) (tag : String) (generator : Generator) :
    Sound (registry.register tag generator) where
  numbered := by
    simp only [Registry.register, List.map_append, sound.numbered, List.length_append,
      List.length_singleton, List.range_succ, List.map_singleton]
  created_known := List.subset_append_of_subset_left _ sound.created_known
  created_nodup := sound.created_nodup
  kept_single other found kept := by
    rw [lookup_kept_register] at kept
    split at kept
    · cases kept
    · next ho =>
      rw [providersOf_register, if_neg (Ne.symm ho), List.append_nil]
      exact sound.kept_single other found kept
  created_rival provider created kept := by
    rw [lookup_kept_register] at kept
    rw [providersOf_register]
    split at kept
    · next ht =>
      -- The provider itself is one of the tag, so that with the new one there are two.
      have known := mem_providersOf.mpr ⟨sound.created_known created, rfl⟩
      have before := List.length_pos_of_mem known
      rw [if_pos ht.symm]
      intro he
      have length := congrArg List.length he
      rw [List.length_append, List.length_singleton, List.length_singleton] at length
      omega
    · next ht =>
      rw [if_neg (Ne.symm ht), List.append_nil]
      exact sound.created_rival provider created kept

/-- A look-up keeps a registry sound. -/
theorem find (sound : Sound registry) (tag : String) : Sound (registry.find tag).2 := by
  cases kept : registry.kept.lookup tag with
  | some found => rwa [find_of_kept kept]
  | none =>
    by_cases length : (registry.providersOf tag).length = 1
    · obtain ⟨provider, single⟩ := List.length_eq_one_iff.mp length
      obtain ⟨known, tagged⟩ := mem_providersOf.mp (single ▸ List.mem_singleton_self provider)
      -- A provider that had created a generator before would have a rival.
      have new : provider ∉ registry.created := fun created ↦
        sound.created_rival provider created (tagged ▸ kept) (tagged ▸ single)
      rw [find_of_single kept single]
      refine ⟨sound.numbered, List.cons_subset.mpr ⟨known, sound.created_known⟩,
        List.nodup_cons.mpr ⟨new, sound.created_nodup⟩, fun other found looked ↦ ?_,
        fun earlier created looked ↦ ?_⟩
      · rw [List.lookup_cons] at looked
        by_cases ho : other = tag
        · rw [beq_iff_eq.mpr ho, Option.some.injEq] at looked
          refine ⟨provider, List.mem_cons_self, ho ▸ single, ?_, looked ▸ rfl⟩
          rw [← looked, List.reverse_cons, List.getElem?_append_right (by simp)]
          simp
        · rw [beq_false_of_ne ho] at looked
          obtain ⟨p, created, only, place, made⟩ := sound.kept_single other found looked
          refine ⟨p, List.mem_cons_of_mem _ created, only, ?_, made⟩
          rw [List.reverse_cons]
          exact List.getElem?_append_left (List.getElem?_eq_some_iff.mp place).1 ▸ place
      · rw [List.lookup_cons] at looked
        split at looked
        · cases looked
        · next ho =>
          rcases List.mem_cons.mp created with rfl | created
          · exact absurd (beq_iff_eq.mpr tagged) (by simp [ho])
          · exact sound.created_rival earlier created looked
    · rwa [find_of_length_ne_one kept length]

/-- Every call keeps a registry sound. -/
theorem after (sound : Sound registry) (request : Request) : Sound (registry.after request) := by
  cases request with
  | register tag generator => exact sound.register tag generator
  | find tag => exact sound.find tag

/-- A registry is sound after every run of calls. -/
theorem run (requests : List Request) : Sound (Registry.run requests) := by
  induction requests using List.reverseRecOn with
  | nil => exact initial
  | append_singleton earlier request ih =>
    rw [Registry.run, List.foldl_append]
    exact ih.after request

/-! ### What a look-up answers -/

/-- A look-up succeeds exactly if its tag has exactly one provider. -/
theorem find_succeeds_iff (sound : Sound registry) :
    (∃ found, (registry.find tag).1 = .ok found) ↔ (registry.providersOf tag).length = 1 := by
  cases kept : registry.kept.lookup tag with
  | some found =>
    obtain ⟨provider, -, single, -⟩ := sound.kept_single tag found kept
    rw [find_of_kept kept, single]
    exact iff_of_true ⟨found, rfl⟩ rfl
  | none =>
    by_cases length : (registry.providersOf tag).length = 1
    · obtain ⟨provider, single⟩ := List.length_eq_one_iff.mp length
      rw [find_of_single kept single]
      exact iff_of_true ⟨_, rfl⟩ length
    · rw [find_of_length_ne_one kept length]
      exact iff_of_false (fun ⟨_, h⟩ ↦ Outcome.fail_ne_ok h) length

/-- A look-up of a tag that does not have exactly one provider fails for that reason. -/
theorem find_fails (sound : Sound registry) (several : (registry.providersOf tag).length ≠ 1) :
    (registry.find tag).1 =
      fail (.generatorCount tag (List.replicate (registry.providersOf tag).length tag)) := by
  cases kept : registry.kept.lookup tag with
  | some found =>
    obtain ⟨provider, -, single, -⟩ := sound.kept_single tag found kept
    exact absurd (by rw [single]; rfl) several
  | none =>
    have tags : (registry.providersOf tag).map (·.tag) =
        List.replicate (registry.providersOf tag).length tag := by
      refine List.eq_replicate_iff.mpr ⟨List.length_map .., fun t ht ↦ ?_⟩
      obtain ⟨provider, hp, rfl⟩ := List.mem_map.mp ht
      exact (mem_providersOf.mp hp).2
    rw [find_of_length_ne_one kept several, tags]

end Sound

/-! ### Whole runs -/

/-- The generator found for a tag is settled: it is kept, or the tag has rival providers. -/
def Settled (registry : Registry) (tag : String) (found : Instance) : Prop :=
  registry.kept.lookup tag = some found ∨ 2 ≤ (registry.providersOf tag).length

namespace Settled

/-- Every call leaves a settled generator settled. -/
theorem after (sound : Sound registry) (settled : registry.Settled tag found)
    (request : Request) : (registry.after request).Settled tag found := by
  cases request with
  | register other generator =>
    unfold Settled
    rw [Registry.after, lookup_kept_register, providersOf_register, List.length_append]
    rcases settled with kept | rivals
    · by_cases ht : tag = other
      · -- The provider that created the generator now has a rival.
        obtain ⟨provider, -, single, -⟩ := sound.kept_single tag found kept
        rw [single, if_pos ht.symm]
        exact .inr (Nat.le_refl 2)
      · rw [if_neg ht]
        exact .inl kept
    · exact .inr (Nat.le_add_right_of_le rivals)
  | find other =>
    unfold Settled providersOf
    rw [Registry.after, providers_find]
    refine settled.imp_left fun kept ↦ ?_
    cases looked : registry.kept.lookup other with
    | some earlier => rwa [find_of_kept looked]
    | none =>
      by_cases length : (registry.providersOf other).length = 1
      · obtain ⟨provider, single⟩ := List.length_eq_one_iff.mp length
        have ht : tag ≠ other := fun he ↦ by rw [← he, kept] at looked; cases looked
        rwa [find_of_single looked single, List.lookup_cons, beq_false_of_ne ht]
      · rwa [find_of_length_ne_one looked length]

/-- A generator stays settled for the rest of a run. -/
theorem foldl_after (sound : Sound registry) (settled : registry.Settled tag found)
    (later : List Request) : (later.foldl Registry.after registry).Settled tag found := by
  induction later generalizing registry with
  | nil => exact settled
  | cons request rest ih => exact ih (sound.after request) (settled.after sound request)

/-- Only the settled generator of a tag can be found. -/
theorem find_eq (sound : Sound registry) (settled : registry.Settled tag found)
    {again : Instance} (h : (registry.find tag).1 = .ok again) : again = found := by
  rcases settled with kept | rivals
  · rw [find_of_kept kept] at h
    exact (Except.ok.inj h).symm
  · have single := sound.find_succeeds_iff.mp ⟨again, h⟩
    omega

end Settled

/-- A run goes on from where it was. -/
theorem run_append (earlier later : List Request) :
    run (earlier ++ later) = later.foldl after (run earlier) :=
  List.foldl_append

/-- What was found for a tag is what is found for it later. -/
theorem found_again {earlier later : List Request} {again : Instance}
    (first : ((run earlier).find tag).1 = .ok found)
    (second : ((run (earlier ++ .find tag :: later)).find tag).1 = .ok again) : again = found := by
  rw [run_append] at second
  have sound := (Sound.run earlier).find tag
  have settled : ((run earlier).find tag).2.Settled tag found := .inl (kept_of_found first)
  have later_sound : Sound (later.foldl after ((run earlier).find tag).2) := by
    have := Sound.run (earlier ++ .find tag :: later)
    rwa [run_append] at this
  exact (settled.foldl_after sound later).find_eq later_sound second

/-- All look-ups of one tag that succeed in a run find the same generator. -/
theorem FoundIn.eq {requests : List Request} {again : Instance}
    (first : FoundIn requests tag found) (second : FoundIn requests tag again) :
    again = found := by
  obtain ⟨e₁, l₁, rfl, h₁⟩ := first
  obtain ⟨e₂, l₂, he, h₂⟩ := second
  rcases List.append_eq_append_iff.mp he with ⟨c, rfl, hc⟩ | ⟨c, rfl, hc⟩
  · cases c with
    | nil =>
      rw [List.append_nil] at h₂
      exact Except.ok.inj (h₂.symm.trans h₁)
    | cons request rest =>
      rw [List.cons_append, List.cons.injEq] at hc
      exact found_again h₁ (hc.1 ▸ h₂)
  · cases c with
    | nil =>
      rw [List.append_nil] at h₁
      exact Except.ok.inj (h₂.symm.trans h₁)
    | cons request rest =>
      rw [List.cons_append, List.cons.injEq] at hc
      exact (found_again h₂ (hc.1 ▸ h₁)).symm

/-- A call has no provider create a generator, except that a look-up that succeeds may have one of
its tag create what it finds. -/
theorem created_after (request : Request) :
    (registry.after request).created = registry.created ∨
      ∃ provider found, request = .find provider.tag ∧
        (registry.find provider.tag).1 = .ok found ∧ found.generator = provider.generator ∧
        (registry.after request).created = provider :: registry.created := by
  cases request with
  | register tag generator => exact .inl rfl
  | find tag =>
    rw [Registry.after]
    cases kept : registry.kept.lookup tag with
    | some found => exact .inl (by rw [find_of_kept kept])
    | none =>
      by_cases length : (registry.providersOf tag).length = 1
      · obtain ⟨provider, single⟩ := List.length_eq_one_iff.mp length
        obtain ⟨-, rfl⟩ := mem_providersOf.mp (single ▸ List.mem_singleton_self provider)
        exact .inr ⟨provider, _, rfl, by rw [find_of_single kept single], rfl,
          by rw [find_of_single kept single]⟩
      · exact .inl (by rw [find_of_length_ne_one kept length])

/-- Providers are never withdrawn. -/
theorem count_offered_le (requests later : List Request) (tag : String) :
    (offered requests).count tag ≤ (offered (requests ++ later)).count tag := by
  rw [offered, offered, List.filterMap_append, ← List.append_assoc]
  exact (List.sublist_append_left _ _).count_le tag

/-- After a run of calls a tag is found exactly if it was offered once. -/
theorem find_run_succeeds_iff (requests : List Request) (tag : String) :
    (∃ found, ((run requests).find tag).1 = .ok found) ↔ (offered requests).count tag = 1 := by
  rw [(Sound.run requests).find_succeeds_iff, length_providersOf_run]

/-- After any run of calls, finding a tag succeeds exactly if it has one provider, and fails as an
unknown dialect otherwise; all generators found for a tag in the run are the same; every provider
has created at most one generator, and only in a look-up of its tag that succeeded; and no tag with
two providers is ever found again. -/
theorem run_safe (requests : List Request) :
    (∀ tag, ((∃ found, ((run requests).find tag).1 = .ok found) ↔
        (offered requests).count tag = 1) ∧
      ((offered requests).count tag ≠ 1 →
        ∃ error, ((run requests).find tag).1 = .error error ∧ error.kind = .unknownDialect)) ∧
    (∀ tag found again, FoundIn requests tag found → FoundIn requests tag again →
      again = found) ∧
    ((run requests).created.Nodup ∧ (run requests).created ⊆ (run requests).providers ∧
      ∀ request, (run (requests ++ [request])).created = (run requests).created ∨
        ∃ provider found, request = .find provider.tag ∧
          ((run requests).find provider.tag).1 = .ok found ∧
          found.generator = provider.generator ∧
          (run (requests ++ [request])).created = provider :: (run requests).created) ∧
    ∀ tag, 2 ≤ (offered requests).count tag →
      ∀ later found, ((run (requests ++ later)).find tag).1 ≠ .ok found := by
  have sound := Sound.run requests
  refine ⟨fun tag ↦ ⟨find_run_succeeds_iff requests tag, fun several ↦ ?_⟩,
    fun tag found again ↦ FoundIn.eq,
    ⟨sound.created_nodup, sound.created_known, fun request ↦ ?_⟩, fun tag rivals later found h ↦ ?_⟩
  · rw [← length_providersOf_run] at several
    exact ⟨_, sound.find_fails several, rfl⟩
  · rw [run_append]
    exact created_after request
  · have single := (find_run_succeeds_iff (requests ++ later) tag).mp ⟨found, h⟩
    have more := count_offered_le requests later tag
    omega

/-- A known database is found once more after another tag was registered, but not after its own
was. -/
theorem run_safe_postgres :
    (∃ found, FoundIn [.find "Postgres", .register "Other" (.ofDatabase .generic),
        .find "Postgres"] "Postgres" found) ∧
      ∀ later found, ((run ([.find "Postgres", .register "Postgres" (.ofDatabase .generic)] ++
        later)).find "Postgres").1 ≠ .ok found :=
  ⟨⟨⟨0, .ofDatabase .postgres⟩, [.find "Postgres", .register "Other" (.ofDatabase .generic)], [],
    rfl, rfl⟩,
   (run_safe [.find "Postgres", .register "Postgres" (.ofDatabase .generic)]).2.2.2 "Postgres"
    (by decide)⟩

end Registry

end FrameQuery.Sql
