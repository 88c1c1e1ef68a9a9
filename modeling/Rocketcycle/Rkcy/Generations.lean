import Rocketcycle.Rkcy.WellFormed
import Rocketcycle.Rkcy.Kafka

/-!
# Generations of topics that are migrated

A topic that is migrated has a current generation and a future one. The future one is meant to be
the next, whose offsets come after those of the current one; the check compares them the other way.
-/

namespace Rocketcycle.Definition

/-- The current generation and the future one of all topics that are migrated. -/
def PlatformDef.migrations (platDef : PlatformDef) : List (Int × Int) :=
  platDef.concerns.flatMap fun c => c.topics.flatMap fun topics => topics.current.toList.flatMap fun current =>
    topics.future.toList.map fun future => (current.generation, future.generation)

/-- The check: the current generation follows the future one. -/
def FollowsFuture (g : Int × Int) : Prop := g.1 = addInt32 g.2 1

/-- The future generation is the next one. -/
def FutureNext (g : Int × Int) : Prop := g.2 = g.1 + 1

/-- All offsets of the future generation come after those of the current one. -/
def OffsetsAfter (g : Int × Int) : Prop :=
  ∀ partition offset partition' offset' : Int, offsetGT ⟨g.2, partition, offset⟩ ⟨g.1, partition', offset'⟩ = true

/-- Whether the future topics of a definition are the next generation: they are if it is accepted,
and it is accepted if they are and it passes all other checks. -/
structure NextGeneration (render : Render) (platDef : PlatformDef) (platformName environment : String) : Prop where
  accepted : ∀ rtPlatDef, newRtPlatformDef render platDef platformName environment = .ok rtPlatDef →
    ∀ g ∈ rtPlatDef.platformDef.migrations, FutureNext g ∧ OffsetsAfter g
  complete : ValidDef platDef platformName environment → (∀ g ∈ platDef.completed.migrations, FutureNext g) →
    ∃ rtPlatDef, newRtPlatformDef render platDef platformName environment = .ok rtPlatDef

theorem mem_migrations {platDef : PlatformDef} {g : Int × Int} :
    g ∈ platDef.migrations ↔ ∃ c ∈ platDef.concerns, ∃ topics ∈ c.topics, ∃ current ∈ topics.current,
      ∃ future ∈ topics.future, g = (current.generation, future.generation) := by
  simp only [PlatformDef.migrations, List.mem_flatMap, Option.mem_toList, List.mem_map, Option.mem_def, eq_comm]

theorem generationsChecked_iff {platDef : PlatformDef} :
    platDef.GenerationsChecked ↔ ∀ g ∈ platDef.completed.migrations, FollowsFuture g := by
  constructor
  · intro checked g hg
    obtain ⟨c, hc, topics, ht, current, hcur, future, hfut, rfl⟩ := mem_migrations.1 hg
    exact checked c hc topics ht current hcur future hfut
  · intro follows c hc topics ht current hcur future hfut
    exact follows _ (mem_migrations.2 ⟨c, hc, topics, ht, current, hcur, future, hfut, rfl⟩)

/-- The check is passed by no future generation that is the next one. -/
theorem not_followsFuture {g : Int × Int} (next : FutureNext g) : ¬FollowsFuture g := by
  intro follows
  have sum : addInt32 g.2 1 % ((2 ^ 32 : Nat) : Int) = (g.2 + 1) % ((2 ^ 32 : Nat) : Int) := Int.bmod_emod
  unfold FollowsFuture at follows
  unfold FutureNext at next
  rw [← follows] at sum
  omega

/-- A future topic is the next generation where it makes no difference: in a definition that is not
valid, that migrates nothing, or that fails the check as it is and the check as it is meant. -/
theorem nextGeneration_iff (render : Render) (platDef : PlatformDef) (platformName environment : String) :
    NextGeneration render platDef platformName environment ↔
      ¬ValidDef platDef platformName environment ∨ platDef.completed.migrations = [] ∨
        ((∃ g ∈ platDef.completed.migrations, ¬FollowsFuture g) ∧ ∃ g ∈ platDef.completed.migrations, ¬FutureNext g) := by
  constructor
  · intro h
    by_contra hne
    simp only [not_or, not_not, not_and_or, not_exists] at hne
    obtain ⟨valid, some, all⟩ := hne
    obtain ⟨g, hg⟩ := List.exists_mem_of_ne_nil _ some
    rcases all with follows | next
    · have follows : ∀ g ∈ platDef.completed.migrations, FollowsFuture g := fun g hg => by simpa [hg] using follows g
      have isAccepted : ∃ rt, newRtPlatformDef render platDef platformName environment = .ok rt :=
        newRtPlatformDef_of valid (generationsChecked_iff.2 follows)
      obtain ⟨rt, hrt⟩ := isAccepted
      obtain ⟨-, -, idx⟩ := newRtPlatformDef_ok hrt
      exact not_followsFuture (h.accepted rt hrt g (idx.platformDef ▸ hg)).1 (follows g hg)
    · have next : ∀ g ∈ platDef.completed.migrations, FutureNext g := fun g hg => by simpa [hg] using next g
      obtain ⟨rt, hrt⟩ := h.complete valid next
      obtain ⟨-, checked, -⟩ := newRtPlatformDef_ok hrt
      exact not_followsFuture (next g hg) (generationsChecked_iff.1 checked g hg)
  · intro cond
    constructor
    · intro rt hrt g hg
      obtain ⟨valid, checked, idx⟩ := newRtPlatformDef_ok hrt
      rw [idx.platformDef] at hg
      rcases cond with invalid | none | ⟨⟨g', hg', fails⟩, -⟩
      · exact absurd valid invalid
      · rw [none] at hg
        cases hg
      · exact absurd (generationsChecked_iff.1 checked g' hg') fails
    · intro valid next
      rcases cond with invalid | none | ⟨-, g, hg, fails⟩
      · exact absurd valid invalid
      · refine newRtPlatformDef_of valid (generationsChecked_iff.2 ?_)
        rw [none]
        simp
      · exact absurd (next g hg) fails

/-- The process topic goes back from the second generation to the first, and this is accepted; the
migration from the first to the second is refused. -/
theorem migration_reversed :
    newRtPlatformDef sampleRender (samplePlatform ⟨1, "", 16⟩ (some ⟨2, "scnd", 32⟩)) "rpg" "dev" =
      .error (.err (.other "Concern 'Player' has invalid 'process' Topics: Future generation not Current + 1")) ∧
    ¬NextGeneration sampleRender (samplePlatform ⟨2, "", 16⟩ (some ⟨1, "scnd", 32⟩)) "rpg" "dev" := by
  constructor
  · decide +kernel
  · intro h
    have accepted : (newRtPlatformDef sampleRender (samplePlatform ⟨2, "", 16⟩ (some ⟨1, "scnd", 32⟩)) "rpg"
      "dev").toOption.isSome = true := by decide +kernel
    have next := h.accepted _ (eq_ok_get accepted)
    obtain ⟨-, -, idx⟩ := newRtPlatformDef_ok (eq_ok_get accepted)
    rw [idx.platformDef] at next
    have backwards : (2, 1) ∈ (samplePlatform ⟨2, "", 16⟩ (some ⟨1, "scnd", 32⟩)).completed.migrations := by decide +kernel
    exact absurd (next _ backwards).1 (by unfold FutureNext; decide)

end Rocketcycle.Definition
