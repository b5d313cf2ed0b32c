import FrameQuery.Sql.Rendering

/-!
# Generators of SQL text

A generator writes queries for one type of database. A registry lists who provides generators under
which tag, the known databases first. A look-up has to find exactly one provider; the generator it
creates is kept and handed out again, until another provider is registered under the same tag.
-/

namespace FrameQuery.Sql

/-- What writes queries for a type of database. -/
structure Generator where
  databaseType : String
  dialect : Dialect
  deriving DecidableEq, Repr

namespace Generator

/-- The generator of a known database. -/
def ofDatabase (database : Database) : Generator := ⟨Named.name database, database.dialect⟩

/-- The text of a query. -/
def render (generator : Generator) (query : QuerySpecification) (format : Format) :
    Outcome String :=
  query.render generator.dialect format

end Generator

/-- Who creates generators for a tag. -/
structure Provider where
  /-- How many providers were registered before it. -/
  number : Nat
  tag : String
  /-- What every generator it creates is like. -/
  generator : Generator
  /-- Whether it comes with the registry. -/
  builtin : Bool
  deriving DecidableEq, Repr

/-- A generator that was created, with the number that tells it from all others. -/
structure Instance where
  number : Nat
  generator : Generator
  deriving DecidableEq, Repr

/-- Providers, and the generators created so far. -/
structure Registry where
  /-- Providers in the order they were registered. -/
  providers : List Provider
  /-- Generators that are handed out again, by tag. -/
  kept : List (String × Instance)
  /-- The providers that created generators so far, the last one first. -/
  created : List Provider
  deriving DecidableEq, Repr

namespace Registry

/-- The registry of the known databases. -/
def initial : Registry where
  providers := (Named.values : List Database).mapIdx fun number database ↦
    ⟨number, Named.name database, .ofDatabase database, true⟩
  kept := []
  created := []

/-- Registers a provider. A generator kept for its tag is forgotten, so that the next look-up takes
the new provider into account. -/
def register (registry : Registry) (tag : String) (generator : Generator) : Registry :=
  { registry with
    providers := registry.providers ++ [⟨registry.providers.length, tag, generator, false⟩]
    kept := registry.kept.filter (·.1 != tag) }

/-- The providers of a tag. -/
def providersOf (registry : Registry) (tag : String) : List Provider :=
  registry.providers.filter (·.tag == tag)

/-- Finds the generator of a tag, creating it if none is kept. -/
def find (registry : Registry) (tag : String) : Outcome Instance × Registry :=
  match registry.kept.lookup tag with
  | some found => (.ok found, registry)
  | none =>
    match registry.providersOf tag with
    | [provider] =>
      let new : Instance := ⟨registry.created.length, provider.generator⟩
      (.ok new, { registry with
        kept := (tag, new) :: registry.kept
        created := provider :: registry.created })
    | found => (fail (.generatorCount tag (found.map (·.tag))), registry)

/-- How many generators were created by providers that did not come with the registry. -/
def customCreations (registry : Registry) : Nat :=
  (registry.created.filter fun provider ↦ !provider.builtin).length

end Registry

end FrameQuery.Sql
