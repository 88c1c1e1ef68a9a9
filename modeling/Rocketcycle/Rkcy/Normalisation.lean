import Rocketcycle.Rkcy.WellFormed

/-!
# Definitions that are normalised again

`NewRtPlatformDef` completes the definition it is given, and what is published is the completed one. Every
consumer hands it to `NewRtPlatformDef` once more, and an admin that republishes what it consumed sends it
to the next ones. The first hash is that of the definition as it was given; from then on nothing changes.
-/

namespace Rocketcycle.Definition
open Early

/-! ## Topics -/

section
variable {admin : Cluster} {targets : List StorageTarget}

theorem initTopic_initialised_eq {t : Topic} (init : t.Initialised) : initTopic (some t) admin = t := by
  have generation := init.generation
  have atLeast := init.atLeast
  have atMost := init.atMost
  unfold initTopic
  dsimp only
  rw [Option.getD_some, if_neg (by omega), if_neg init.cluster, if_neg (by omega), if_neg (by omega)]

theorem initTopics_again (named : admin.name ≠ "") (topics : Topics) (type : ConcernType) :
    initTopics (initTopics topics admin type targets) admin type targets = initTopics topics admin type targets := by
  have again : ∀ topic, initTopic (some (initTopic topic admin)) admin = initTopic topic admin :=
    fun topic => initTopic_initialised_eq (initTopic_initialised named topic)
  obtain ⟨name, current, future, progs⟩ := topics
  unfold initTopics
  dsimp only
  rw [again, Option.map_map]
  have futures : future.map ((fun t => initTopic (some t) admin) ∘ fun t => initTopic (some t) admin) =
      future.map fun t => initTopic (some t) admin := by
    cases future with
    | none => rfl
    | some t => exact congrArg some (again (some t))
  rw [futures]
  by_cases apecs : type = .apecs
  · rw [if_pos apecs, if_pos apecs]
  · rw [if_neg apecs]

/-- The required topics are among those of a completed concern. -/
theorem addRequired_completed (concern : Concern) : addRequired (concern.completed admin targets) = (concern.completed admin targets).topics := by
  have names : (concern.completed admin targets).topics.map (·.name) = (addRequired concern).map (·.name) := by
    unfold Concern.completed
    rw [List.map_map]
    rfl
  have none : ((requiredTopics concern.type).filter fun req => req ∉ (addRequired concern).map (·.name)) = [] := by
    rw [List.filter_eq_nil_iff]
    intro req hreq
    rw [decide_eq_true_eq, not_not]
    unfold addRequired
    by_cases present : req ∈ concern.topics.map (·.name)
    · rw [List.map_append]
      exact List.mem_append_left _ present
    · rw [List.map_append]
      refine List.mem_append_right _ (List.mem_map.2 ⟨{ name := req }, List.mem_map_of_mem ?_, rfl⟩)
      exact List.mem_filter.2 ⟨hreq, decide_eq_true present⟩
  unfold addRequired
  dsimp only
  rw [names]
  show (concern.completed admin targets).topics ++ List.map _ ((requiredTopics concern.type).filter _) = _
  rw [none]
  exact List.append_nil _

theorem Concern.completed_again (named : admin.name ≠ "") (concern : Concern) :
    (concern.completed admin targets).completed admin targets = concern.completed admin targets := by
  have same : (addRequired (concern.completed admin targets)).map (fun topics => initTopics topics admin concern.type targets) =
      (concern.completed admin targets).topics := by
    rw [addRequired_completed]
    unfold Concern.completed
    rw [List.map_map]
    apply List.map_congr_left
    intro topics _
    exact initTopics_again named topics concern.type
  exact congrArg (fun topics => ({ concern with topics := topics } : Concern)) same

end

/-! ## Concerns -/

section
variable {render : Render} {admin : Cluster} {rtPlatDef rtPlatDef' : RtPlatformDef} {concern : Concern} {idx : Nat}

/-- The run time form of a concern does not depend on the hash. -/
theorem addTopics_hash (hash : String) (rtConc : RtConcern) (ts : List Topics) :
    addTopics { rtPlatDef with hash := hash } rtConc ts = addTopics rtPlatDef rtConc ts := by
  induction ts generalizing rtConc with
  | nil => rfl
  | cons topics ts ih =>
    have first : newRtTopics { rtPlatDef with hash := hash } rtConc topics = newRtTopics rtPlatDef rtConc topics := rfl
    unfold addTopics
    rw [first]
    simp only [ih]

/-- A completed concern is entered as the one that it was made of. -/
theorem addConcern_again (named : admin.name ≠ "") (hash : String) (h : addConcern render admin rtPlatDef idx concern = .ok rtPlatDef') :
    addConcern render admin { rtPlatDef with hash := hash } idx (concern.completed admin rtPlatDef.platformDef.storageTargets) =
      .ok { rtPlatDef' with hash := hash } := by
  unfold addConcern errorf at h
  rw [ite_error_eq_ok, ite_error_eq_ok, bind_eq_ok] at h
  obtain ⟨hname, hlen, topics, hprep, h⟩ := h
  obtain ⟨valid, rfl⟩ := (mapM_eq_ok (prepareTopics_ok named)).1 hprep
  rw [ite_error_eq_ok, bind_eq_ok] at h
  obtain ⟨fresh, rc, hrc, h⟩ := h
  cases h
  have again := @Concern.completed_again admin rtPlatDef.platformDef.storageTargets named concern
  have prepared : (addRequired (concern.completed admin rtPlatDef.platformDef.storageTargets)).mapM
      (prepareTopics admin { rtPlatDef with hash := hash } (concern.completed admin rtPlatDef.platformDef.storageTargets)) =
      .ok (concern.completed admin rtPlatDef.platformDef.storageTargets).topics := by
    refine (mapM_eq_ok (prepareTopics_ok named)).2 ⟨?_, ?_⟩
    · intro topics mem
      rw [addRequired_completed] at mem
      obtain ⟨start, hstart, rfl⟩ := List.mem_map.1 mem
      have same := @initTopics_again admin rtPlatDef.platformDef.storageTargets named start concern.type
      have passes := valid start hstart
      rw [← same] at passes
      exact passes
    · exact (congrArg Concern.topics again).symm
  have made : newRtConcern { rtPlatDef with hash := hash } (concern.completed admin rtPlatDef.platformDef.storageTargets) = .ok rc :=
    (addTopics_hash hash _ _).trans hrc
  unfold addConcern errorf
  rw [ite_error_eq_ok, ite_error_eq_ok, bind_eq_ok]
  refine ⟨hname, ?_, _, prepared, ?_⟩
  · intro both
    apply hlen
    refine ⟨both.1, fun same => both.2 ?_⟩
    rw [addRequired_completed, Concern.completed, List.length_map]
    exact same
  · rw [ite_error_eq_ok, bind_eq_ok]
    exact ⟨fresh, rc, made, rfl⟩

theorem addConcerns_again (named : admin.name ≠ "") (hash : String) {cs : List Concern} (h : addConcerns render admin rtPlatDef idx cs = .ok rtPlatDef') :
    addConcerns render admin { rtPlatDef with hash := hash } idx (cs.map fun c => c.completed admin rtPlatDef.platformDef.storageTargets) =
      .ok { rtPlatDef' with hash := hash } := by
  induction cs generalizing rtPlatDef idx with
  | nil =>
    cases h
    rfl
  | cons c cs ih =>
    obtain ⟨rt, hrt, h⟩ := bind_eq_ok.1 h
    obtain ⟨_, _, rfl, -, -, -, -, entered⟩ := addConcern_ok named hrt
    have same : rt.platformDef.storageTargets = rtPlatDef.platformDef.storageTargets := by rw [entered.platformDef]
    have rest := ih h
    rw [same] at rest
    exact bind_eq_ok.2 ⟨_, addConcern_again named hash hrt, rest⟩

end

/-! ## The whole definition -/

/-- Normalised by one party after another, each of which was handed the definition of the one before. -/
inductive Republished (render : Render) (platformName environment : String) : PlatformDef → RtPlatformDef → Prop where
  | consumed {platDef : PlatformDef} {rtPlatDef : RtPlatformDef} (h : newRtPlatformDef render platDef platformName environment = .ok rtPlatDef) :
      Republished render platformName environment platDef rtPlatDef
  | again {platDef : PlatformDef} {rtPlatDef rtPlatDef' : RtPlatformDef} (before : Republished render platformName environment platDef rtPlatDef)
      (h : newRtPlatformDef render rtPlatDef.platformDef platformName environment = .ok rtPlatDef') :
      Republished render platformName environment platDef rtPlatDef'

section
variable {render : Render} {platDef : PlatformDef} {platformName environment : String} {rtPlatDef rtPlatDef' : RtPlatformDef}

/-- The completed definition is accepted, with no difference but the hash. -/
theorem newRtPlatformDef_completed (h : newRtPlatformDef render platDef platformName environment = .ok rtPlatDef) :
    newRtPlatformDef render platDef.completed platformName environment = .ok { rtPlatDef with hash := render.hash platDef.completed } := by
  obtain ⟨valid, -, -⟩ := newRtPlatformDef_ok h
  have named := valid.admin_named
  obtain ⟨c, hc⟩ := valid.clusters.marked
  have admin := PlatformDef.admin_eq hc
  unfold newRtPlatformDef errorf at h ⊢
  simp only [ite_error_eq_ok, bind_eq_ok] at h
  obtain ⟨hname, henv, htime, someCluster, ⟨marked, clusters⟩, hclusters, h⟩ := h
  cases marked with
  | none => cases h
  | some a =>
    simp only [ite_error_eq_ok, bind_eq_ok] at h
    obtain ⟨someTarget, ⟨primary, entries⟩, htargets, hprimary, h⟩ := h
    obtain ⟨-, ⟨c', hc', marked⟩, -⟩ := (enterAll_marked clusterKind_set).1 ⟨hclusters, by simp [clusterKind]⟩
    have one : [c'] = [c] := hc'.symm.trans hc
    obtain rfl : c' = c := List.head_eq_of_cons_eq one
    obtain rfl : a = platDef.admin := (Option.some.inj marked).trans admin.symm
    rw [ite_error_eq_ok, ite_error_eq_ok, ite_error_eq_ok, ite_error_eq_ok, bind_eq_ok]
    refine ⟨hname, henv, htime, someCluster, _, hclusters, ?_⟩
    show (if platDef.storageTargets = [] then _ else _) = _
    rw [ite_error_eq_ok, bind_eq_ok]
    refine ⟨someTarget, _, htargets, ?_⟩
    show (if primary = "" then _ else _) = _
    rw [ite_error_eq_ok]
    exact ⟨hprimary, addConcerns_again named (render.hash platDef.completed) h⟩

/-- A definition that was accepted is accepted again as it was left, which the second call leaves unchanged
and makes the same maps of; and all who normalise it after one another compute the same hash. -/
theorem newRtPlatformDef_idempotent (h : newRtPlatformDef render platDef platformName environment = .ok rtPlatDef) :
    newRtPlatformDef render rtPlatDef.platformDef platformName environment = .ok { rtPlatDef with hash := render.hash rtPlatDef.platformDef } ∧
      ∀ rtPlatDef', Republished render platformName environment rtPlatDef.platformDef rtPlatDef' →
        rtPlatDef' = { rtPlatDef with hash := render.hash rtPlatDef.platformDef } := by
  obtain ⟨-, -, idx⟩ := newRtPlatformDef_ok h
  have second := newRtPlatformDef_completed h
  rw [← idx.platformDef] at second
  refine ⟨second, ?_⟩
  intro rtPlatDef' republished
  -- the definition that is handed on is the same each time
  generalize start : rtPlatDef.platformDef = published at republished
  induction republished with
  | consumed h' =>
    subst start
    rw [second] at h'
    exact (Except.ok.inj h').symm
  | again before h' ih =>
    subst start
    rw [ih] at h'
    have third := second.symm.trans h'
    exact (Except.ok.inj third).symm

end

theorem newRtPlatformDef_idempotent_migrating : ∃ rtPlatDef,
    newRtPlatformDef sampleRender (samplePlatform ⟨2, "", 16⟩ (some ⟨1, "scnd", 2000⟩)) "rpg" "dev" = .ok rtPlatDef ∧
      newRtPlatformDef sampleRender rtPlatDef.platformDef "rpg" "dev" = .ok { rtPlatDef with hash := "" } :=
  have accepted := eq_ok_get (by decide +kernel)
  ⟨_, accepted, (newRtPlatformDef_idempotent accepted).1⟩

end Rocketcycle.Definition
