import Rocketcycle.Rkcy.AllPrograms

/-!
# Running programs

`updateRunning` of `pkg/runner/manager.go` on the directives that `updateRunner` of `pkg/admin/admin.go` makes
of a difference of definitions. A running program is known by its key only.
-/

namespace Rocketcycle.Definition.Runner

/-- `program.Details`, without its colors. -/
structure Details where
  program : Program
  key : String

/-- What makes a runnable of its details, and starts it. -/
structure Runnables (ρ : Type) where
  newRunnableFunc : Details → Except GoError ρ
  start : ρ → Except GoError Unit

inductive Directive where
  | consumerStart
  | consumerStop
  | other

section
variable {ρ : Type} (lib : Runnables ρ)

def updateRunning (running : GoMap String ρ) (directive : Directive) (program : Option Program) : Reply (GoMap String ρ) :=
  let key := progKey program
  match directive with
  | .consumerStart =>
    if (running.get key).isSome then .ok running
    else
      match program with
      | none => .error (.panic .nilDeref)
      | some program =>
        match lib.newRunnableFunc ⟨program, key⟩ with
        -- the error is logged, and the nil runnable is started
        | .error _ => .error (.panic .nilDeref)
        | .ok rnbl =>
          match lib.start rnbl with
          | .error _ => .ok running
          | .ok () => .ok (running.assign key rnbl)
  | .consumerStop => if (running.get key).isNone then .ok running else .ok (running.erase key)
  | .other => .ok running

/-- Directives are taken one after the other. -/
def updateAll (running : GoMap String ρ) (msgs : List (Directive × Option Program)) : Reply (GoMap String ρ) :=
  msgs.foldlM (fun running msg => updateRunning lib running msg.1 msg.2) running

end

/-- The directives of `updateRunner`. -/
def directives (platDiff : PlatformDiff) : List (Directive × Option Program) :=
  platDiff.progsToStop.map (fun p => (.consumerStop, some p)) ++ platDiff.progsToStart.map fun p => (.consumerStart, some p)

/-- Every program is made and started. -/
def Runnables.Succeed {ρ : Type} (lib : Runnables ρ) : Prop := ∀ details, ∃ rnbl, lib.newRunnableFunc details = .ok rnbl ∧ lib.start rnbl = .ok ()

section
variable {ρ : Type} {lib : Runnables ρ} {running running' : GoMap String ρ}

theorem updateRunning_stop (lib : Runnables ρ) (running : GoMap String ρ) (p : Program) : ∃ running', updateRunning lib running .consumerStop (some p) = .ok running' ∧
    ∀ k, (running'.get k).isSome = ((running.get k).isSome && decide (k ≠ progKey (some p))) := by
  unfold updateRunning
  dsimp only
  cases found : running.get (progKey (some p)) with
  | none =>
    refine ⟨running, rfl, ?_⟩
    intro k
    by_cases same : k = progKey (some p)
    · rw [same, found]
      rfl
    · simp [same]
  | some rnbl =>
    refine ⟨running.erase (progKey (some p)), rfl, ?_⟩
    intro k
    rw [GoMap.get_erase]
    by_cases same : k = progKey (some p)
    · simp [same]
    · simp [same]

theorem updateRunning_start (succeed : lib.Succeed) (running : GoMap String ρ) (p : Program) : ∃ running', updateRunning lib running .consumerStart (some p) = .ok running' ∧
    ∀ k, (running'.get k).isSome = ((running.get k).isSome || decide (k = progKey (some p))) := by
  unfold updateRunning
  dsimp only
  cases found : running.get (progKey (some p)) with
  | some rnbl =>
    refine ⟨running, rfl, ?_⟩
    intro k
    by_cases same : k = progKey (some p)
    · rw [same, found]
      rfl
    · simp [same]
  | none =>
    obtain ⟨rnbl, made, started⟩ := succeed ⟨p, progKey (some p)⟩
    refine ⟨running.assign (progKey (some p)) rnbl, ?_, ?_⟩
    · rw [made]
      dsimp only
      rw [started]
      rfl
    · intro k
      rw [GoMap.get_assign]
      by_cases same : k = progKey (some p)
      · simp [same]
      · simp [same]

theorem updateAll_stops (lib : Runnables ρ) (progs : List Program) (running : GoMap String ρ) :
    ∃ running', updateAll lib running (progs.map fun p => (.consumerStop, some p)) = .ok running' ∧
      ∀ k, (running'.get k).isSome = ((running.get k).isSome && decide (∀ p ∈ progs, k ≠ progKey (some p))) := by
  induction progs generalizing running with
  | nil =>
    refine ⟨running, rfl, ?_⟩
    simp
  | cons p progs ih =>
    obtain ⟨running1, first, keys1⟩ := updateRunning_stop lib running p
    obtain ⟨running', rest, keys⟩ := ih running1
    refine ⟨running', ?_, ?_⟩
    · unfold updateAll at rest ⊢
      rw [List.map_cons, List.foldlM_cons, first]
      exact rest
    · intro k
      rw [keys, keys1]
      simp [Bool.and_assoc]

theorem updateAll_starts (succeed : lib.Succeed) (progs : List Program) (running : GoMap String ρ) :
    ∃ running', updateAll lib running (progs.map fun p => (.consumerStart, some p)) = .ok running' ∧
      ∀ k, (running'.get k).isSome = ((running.get k).isSome || decide (∃ p ∈ progs, k = progKey (some p))) := by
  induction progs generalizing running with
  | nil =>
    refine ⟨running, rfl, ?_⟩
    simp
  | cons p progs ih =>
    obtain ⟨running1, first, keys1⟩ := updateRunning_start succeed running p
    obtain ⟨running', rest, keys⟩ := ih running1
    refine ⟨running', ?_, ?_⟩
    · unfold updateAll at rest ⊢
      rw [List.map_cons, List.foldlM_cons, first]
      exact rest
    · intro k
      rw [keys, keys1]
      simp [Bool.or_assoc]

/-- In both maps of a difference a program stands under its key. -/
theorem getAllProgs_key {order : SubstCall → MapOrder String String} {args : AdminArgs} {rtPlatDef : Option RtPlatformDef} {progs : GoMap String Program}
    (h : getAllProgs order args rtPlatDef = .ok progs) {k : String} {p : Program} (found : progs.get k = some p) : progKey (some p) = k := by
  cases rtPlatDef with
  | none =>
    cases h
    cases found
  | some rtPlatDef =>
    obtain ⟨all, -, h⟩ := Early.bind_eq_ok.1 h
    obtain rfl := Except.ok.inj h
    exact ((keyed_get all k).1 p found).2

/-- The keys of the programs that are only in the first of two maps. -/
theorem mem_missing {progs others : GoMap String Program} (order : MapOrder String Program)
    (keys : ∀ k p, progs.get k = some p → progKey (some p) = k) (k : String) :
    (∃ p ∈ (order.run progs).entries.filterMap fun e => if (others.get e.1).isNone then some e.2 else none, k = progKey (some p)) ↔
      (progs.get k).isSome ∧ (others.get k).isNone := by
  constructor
  · intro h
    obtain ⟨p, mem, rfl⟩ := h
    obtain ⟨⟨k, p'⟩, entry, here⟩ := List.mem_filterMap.1 mem
    have found : progs.get k = some p' := ((order.same progs) k).symm.trans (GoMap.get_eq_some.2 entry)
    dsimp only at here
    by_cases missing : (others.get k).isNone
    · rw [if_pos missing] at here
      obtain rfl := Option.some.inj here
      rw [keys k p' found, found]
      exact ⟨rfl, missing⟩
    · rw [if_neg missing] at here
      cases here
  · intro h
    obtain ⟨some, missing⟩ := h
    obtain ⟨p, found⟩ := Option.isSome_iff_exists.1 some
    refine ⟨p, List.mem_filterMap.2 ⟨(k, p), GoMap.get_eq_some.1 (((order.same progs) k).trans found), if_pos missing⟩, ?_⟩
    exact (keys k p found).symm

/-- What is stopped and started of a difference leaves the programs of the new definition running. -/
theorem updateAll_directives (succeed : lib.Succeed) (startOrder stopOrder : MapOrder String Program) {newProgs oldProgs : GoMap String Program}
    (newKeys : ∀ k p, newProgs.get k = some p → progKey (some p) = k) (oldKeys : ∀ k p, oldProgs.get k = some p → progKey (some p) = k)
    (before : ∀ k, (running.get k).isSome = (oldProgs.get k).isSome) :
    ∃ running', updateAll lib running (directives (diffProgs startOrder stopOrder newProgs oldProgs)) = .ok running' ∧
      ∀ k, (running'.get k).isSome = (newProgs.get k).isSome := by
  obtain ⟨running1, stopped, keys1⟩ := updateAll_stops lib (diffProgs startOrder stopOrder newProgs oldProgs).progsToStop running
  obtain ⟨running', started, keys'⟩ := updateAll_starts succeed (diffProgs startOrder stopOrder newProgs oldProgs).progsToStart running1
  refine ⟨running', ?_, ?_⟩
  · unfold updateAll directives at *
    rw [List.foldlM_append, stopped]
    exact started
  · intro k
    have stops : (∀ p ∈ (diffProgs startOrder stopOrder newProgs oldProgs).progsToStop, k ≠ progKey (some p)) ↔
        ¬((oldProgs.get k).isSome ∧ (newProgs.get k).isNone) := by
      rw [← mem_missing stopOrder oldKeys k]
      exact ⟨fun all h => h.elim fun p hp => all p hp.1 hp.2, fun none p mem same => none ⟨p, mem, same⟩⟩
    have starts : (∃ p ∈ (diffProgs startOrder stopOrder newProgs oldProgs).progsToStart, k = progKey (some p)) ↔
        ((newProgs.get k).isSome ∧ (oldProgs.get k).isNone) := mem_missing startOrder newKeys k
    rw [keys', keys1, before, Bool.eq_iff_iff, Bool.or_eq_true, Bool.and_eq_true, decide_eq_true_eq, decide_eq_true_eq, stops, starts]
    cases oldProgs.get k <;> cases newProgs.get k <;> simp

end

/-- In every accepted definition whose lists have no nil program and whose brokers, storage targets and endpoints
have no marker, the programs are those of its slots and of its other concerns, and they are the same in any order
where no tag is left in those of the other concerns. For any two definitions, the directives of their difference
turn the programs of the old one into those of the new one. -/
theorem programs_follow_definitions :
    (∀ (render : Render) (platDef : PlatformDef) (platformName environment : String) (rtPlatDef : RtPlatformDef) (args : AdminArgs),
      newRtPlatformDef render platDef platformName environment = .ok rtPlatDef → PlainDef rtPlatDef args → NoNil rtPlatDef →
        (∀ order, ∃ progs, getAllProgs order args (some rtPlatDef) = .ok progs ∧ OnePerSlot rtPlatDef args progs) ∧
        (OthersSettle rtPlatDef args → ∀ order order', getAllProgs order args (some rtPlatDef) = getAllProgs order' args (some rtPlatDef))) ∧
    (∀ (ρ : Type) (lib : Runnables ρ) (args : AdminArgs) (order order' : SubstCall → MapOrder String String) (startOrder stopOrder : MapOrder String Program)
      (lhs rhs : Option RtPlatformDef) (newProgs oldProgs : GoMap String Program) (running : GoMap String ρ), lib.Succeed →
        getAllProgs order args lhs = .ok newProgs → getAllProgs order' args rhs = .ok oldProgs →
        (∀ k, (running.get k).isSome = (oldProgs.get k).isSome) →
        ∃ platDiff running', diff order order' startOrder stopOrder args lhs rhs = .ok platDiff ∧
          updateAll lib running (directives platDiff) = .ok running' ∧ ∀ k, (running'.get k).isSome = (newProgs.get k).isSome) := by
  constructor
  · intro render platDef platformName environment rtPlatDef args accepted plain noNil
    have definite := accepted_definite accepted
    exact ⟨getAllProgs_onePerSlot plain definite noNil, getAllProgs_eq plain definite noNil⟩
  · intro ρ lib args order order' startOrder stopOrder lhs rhs newProgs oldProgs running succeed new old before
    obtain ⟨running', updated, after⟩ := updateAll_directives succeed startOrder stopOrder (fun k p => getAllProgs_key new) (fun k p => getAllProgs_key old) before
    refine ⟨_, running', ?_, updated, after⟩
    unfold diff
    rw [new, old]
    rfl

/-! ## A platform whose edge has a program -/

/-- The program of the edge. -/
def edgeProgram : Program := { name := "./edge", args := ["-t", "@topic", "-p", "@partition"], abbreviation := "edge" }

/-- The edge of the platform has a program of its own, beside those of the concern `Player`. -/
def edgePlatform : PlatformDef :=
  { samplePlatform ⟨2, "", 2⟩ none with
    concerns := [⟨.general, "edge", [⟨"response", some { partitionCount := 2 }, none, [some edgeProgram]⟩]⟩,
      ⟨.apecs, "Player", [{ name := "process", current := some ⟨2, "", 2⟩ }, { name := "storage" }]⟩] }

def sampleArgs : AdminArgs := ⟨"kafka", "localhost:9092", "localhost:4317"⟩

/-- From the first entry to the last one, and back. -/
def forwards : MapOrder String String := ⟨fun m => m, GoMap.Same.refl⟩

def backwards : MapOrder String String where
  run m := ⟨m.entries.reverse, by
    rw [List.map_reverse, List.nodup_reverse]
    exact m.distinct⟩
  same m := GoMap.same_iff_perm.2 (List.reverse_perm m.entries)

/-- A runnable is the key of its program. -/
def sampleRunnables : Runnables String := ⟨fun details => .ok details.key, fun _ => .ok ()⟩

def entries : MapOrder String Program := ⟨fun m => m, GoMap.Same.refl⟩

def edgeDef : RtPlatformDef := (newRtPlatformDef sampleRender edgePlatform "rpg" "dev").toOption.get (by decide +kernel)

theorem edgeDef_plain : PlainDef edgeDef sampleArgs := by
  constructor <;> decide +kernel

theorem edgeDef_noNil : NoNil edgeDef := by
  unfold NoNil
  decide +kernel

theorem edgeDef_settles : OthersSettle edgeDef sampleArgs := by
  have settles : ∀ concern ∈ edgeDef.platformDef.concerns, concern.type ≠ .apecs → ∀ topics ∈ concern.topics,
      ∀ current ∈ topics.current, ∀ cluster ∈ edgeDef.clusters.lookup current.cluster, ∀ p ∈ topics.consumerPrograms, ∀ consProg ∈ p,
        ∀ i < current.partitionCount.toNat, SettledProgram (topicsSubsts edgeDef sampleArgs concern topics current cluster i) consProg := by
    decide +kernel
  intro concern hc other topics ht current cluster e consProg mem i below
  exact settles concern hc other topics ht current e.present cluster e.defined _ mem consProg rfl i (by omega)

/-- The platform comes up from nothing. -/
theorem programs_follow_definitions_sample :
    (∀ order, ∃ progs, getAllProgs order sampleArgs (some edgeDef) = .ok progs ∧ OnePerSlot edgeDef sampleArgs progs) ∧
      (∀ order order', getAllProgs order sampleArgs (some edgeDef) = getAllProgs order' sampleArgs (some edgeDef)) ∧
      ∃ platDiff running', diff (fun _ => forwards) (fun _ => backwards) entries entries sampleArgs (some edgeDef) none = .ok platDiff ∧
        updateAll sampleRunnables .empty (directives platDiff) = .ok running' ∧
        (running'.get "./edge -t rkcy.rpg.dev.edge.GENERAL.response.0001 -p 1").isSome = true := by
  have accepted : newRtPlatformDef sampleRender edgePlatform "rpg" "dev" = .ok edgeDef := eq_ok_get _
  obtain ⟨slots, alike⟩ := programs_follow_definitions.1 sampleRender edgePlatform "rpg" "dev" edgeDef sampleArgs accepted edgeDef_plain edgeDef_noNil
  refine ⟨slots, alike edgeDef_settles, ?_⟩
  obtain ⟨progs, made, -⟩ := slots fun _ => forwards
  have succeed : sampleRunnables.Succeed := fun details => ⟨details.key, rfl, rfl⟩
  obtain ⟨platDiff, running', differ, updated, after⟩ := programs_follow_definitions.2 String sampleRunnables sampleArgs (fun _ => forwards)
    (fun _ => backwards) entries entries (some edgeDef) none progs .empty .empty succeed made rfl fun _ => rfl
  refine ⟨platDiff, running', differ, updated, ?_⟩
  rw [after]
  have there : ((getAllProgs (fun _ => forwards) sampleArgs (some edgeDef)).toOption.any fun progs =>
      (progs.get "./edge -t rkcy.rpg.dev.edge.GENERAL.response.0001 -p 1").isSome) = true := by decide +kernel
  rw [made] at there
  exact there

/-! ## A marker that becomes a tag -/

/-- A general concern `topic` whose program has the argument `@@concern`. -/
def markedPlatform : PlatformDef where
  name := "rpg"
  environment := "dev"
  updateTime := some ⟨1700000000, 0⟩
  concerns := [⟨.general, "topic", [{ name := "work", consumerPrograms := [some { name := "./run", args := ["@@concern"], abbreviation := "run" }] }]⟩]
  clusters := [⟨"prim", "localhost:9092", true⟩]
  storageTargets := [⟨"ram", "ramdb", true⟩]

/-- The keys of the programs of the definition, all of its maps gone through in the same order. -/
def keysOf (order : MapOrder String String) : Reply (List String) := do
  let rtPlatDef ← newRtPlatformDef sampleRender markedPlatform "rpg" "dev"
  let progs ← getAllProgs (fun _ => order) sampleArgs (some rtPlatDef)
  .ok (progs.entries.map Prod.fst)

theorem keysOf_forwards : keysOf forwards = .ok ["./run rkcy.rpg.dev.topic.GENERAL.work.0001"] := by decide +kernel

theorem keysOf_backwards : keysOf backwards = .ok ["./run @topic"] := by decide +kernel

theorem keysOf_ok {order : MapOrder String String} {keys : List String} (h : keysOf order = .ok keys) {rtPlatDef : RtPlatformDef}
    (accepted : newRtPlatformDef sampleRender markedPlatform "rpg" "dev" = .ok rtPlatDef) :
    ∃ progs, getAllProgs (fun _ => order) sampleArgs (some rtPlatDef) = .ok progs ∧ ∀ k, (progs.get k).isSome ↔ k ∈ keys := by
  obtain ⟨rt, same, h⟩ := Early.bind_eq_ok.1 h
  rw [accepted] at same
  obtain rfl := Except.ok.inj same
  obtain ⟨progs, made, h⟩ := Early.bind_eq_ok.1 h
  refine ⟨progs, made, ?_⟩
  intro k
  unfold GoMap.get
  rw [Entries.lookup_isSome, Except.ok.inj h]

/-- The argument becomes the topic's full name where the concern is replaced before the topic, and else `@topic`. -/
theorem getAllProgs_order_matters :
    ∃ rtPlatDef, newRtPlatformDef sampleRender markedPlatform "rpg" "dev" = .ok rtPlatDef ∧ PlainDef rtPlatDef sampleArgs ∧ NoNil rtPlatDef ∧
      ∃ progs progs', getAllProgs (fun _ => forwards) sampleArgs (some rtPlatDef) = .ok progs ∧
        getAllProgs (fun _ => backwards) sampleArgs (some rtPlatDef) = .ok progs' ∧ ¬progs.Same progs' := by
  have isSome : (newRtPlatformDef sampleRender markedPlatform "rpg" "dev").toOption.isSome = true := by decide +kernel
  have accepted := eq_ok_get isSome
  obtain ⟨-, -, idx⟩ := newRtPlatformDef_ok accepted
  refine ⟨_, accepted, ?_, ?_, ?_⟩
  · constructor
    · decide
    · decide
    · decide
    · rw [idx.platformDef]
      show ∀ cluster ∈ markedPlatform.clusters, Plain cluster.brokers
      decide
    · rw [idx.platformDef]
      show ∀ t ∈ markedPlatform.storageTargets, Plain t.name
      decide
  · unfold NoNil
    rw [idx.platformDef]
    decide +kernel
  · obtain ⟨progs, made, keys⟩ := keysOf_ok keysOf_forwards accepted
    obtain ⟨progs', made', keys'⟩ := keysOf_ok keysOf_backwards accepted
    refine ⟨progs, progs', made, made', ?_⟩
    intro same
    have there : (progs'.get "./run @topic").isSome := (keys' _).2 (List.mem_singleton_self _)
    rw [← same "./run @topic"] at there
    exact absurd ((keys _).1 there) (by decide)

end Rocketcycle.Definition.Runner
