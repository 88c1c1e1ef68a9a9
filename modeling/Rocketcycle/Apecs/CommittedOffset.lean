import Rocketcycle.Apecs.Runner
import Rocketcycle.Lib.Runs

/-!
# The committed offset of one consumer

The loop of `consumeApecsTopic` statement by statement, for the only consumer of its group: a crash
may come between any two of them. What `Commit` commits is what `StoreOffsets` has stored; the
initial commit and the commit of a bailout name their offset. A commit that fails either ends the
process, which is a crash, or is only logged.
-/

namespace Rocketcycle

open Runs

/-- A message of a topic: whether its directive is `APECS_TXN`, and what `proto.Unmarshal` makes of
its value. -/
structure TopicMessage where
  isApecsTxn : Bool
  txn : Except GoError ApecsTxn
  traceParent : String
  deriving DecidableEq

/-- The transaction that is advanced or cancelled. There is none in a message that is only logged. -/
def TopicMessage.accepted (m : TopicMessage) : Option ApecsTxn :=
  if m.isApecsTxn then
    match m.txn with
    | .error _ => none
    | .ok txn =>
      match newRtApecsTxn txn m.traceParent with
      | some (.ok rtxn) => some rtxn.txn
      | _ => none
  else none

/-- Whether `NewRtApecsTxn` panics. -/
def TopicMessage.panics (m : TopicMessage) : Bool :=
  m.isApecsTxn && m.txn.toBool && !traceParentIsValid m.traceParent

/-- Where the loop stands. -/
inductive Phase where
  /-- At the `select`. -/
  | ready
  /-- A message has been read. -/
  | read
  /-- The initial commit is behind it. -/
  | opened
  /-- The message has been handled, its offset is not stored yet. -/
  | handled
  | bailing
  /-- Returning, with the deferred commit ahead. -/
  | closing
  deriving DecidableEq, Repr

structure GroupConsumer where
  position : Nat
  stored : Nat
  firstMessage : Bool
  shouldCommit : Bool
  txnsToCancel : List String
  phase : Phase
  deriving DecidableEq, Repr

/-- The partition, its group and the consumer. Only what follows the consumer is not state of the
program: the first offset that was committed, and of every message whether its handling has ended
with a code that does not bail out, or was cancelled. -/
structure GroupState where
  log : List TopicMessage
  committed : Option Nat
  consumer : Option GroupConsumer
  firstCommit : Option Nat
  ended : Nat → Bool
  cancelled : Nat → Bool

inductive GroupAction where
  | publish (m : TopicMessage)
  /-- The consumer is started, or restarted. -/
  | assign
  | cancelTxn (txnId : String)
  | commitTick
  /-- `ctx.Done`. -/
  | stop
  | read
  | initialCommit
  /-- The message is handled; `code` is what `advanceApecsTxn` returns, if it comes to that. -/
  | handle (code : Code)
  | bailoutCommit (succeeds : Bool)
  | storeOffset
  | close (succeeds : Bool)
  | crash

/-- The map with the value at one place set. -/
def mark (m : Nat → Bool) (o : Nat) : Nat → Bool := fun i => if i = o then true else m i

namespace GroupState

variable (st : GroupState)

def commitAt (o : Nat) : GroupState :=
  { st with committed := some o, firstCommit := st.firstCommit <|> some o }

def setConsumer (c : GroupConsumer) : GroupState := { st with consumer := some c }

/-- `cons.Commit`. -/
def commit (c : GroupConsumer) : GroupState := if c.shouldCommit then st.commitAt c.stored else st

def handle (c : GroupConsumer) (m : TopicMessage) (code : Code) : Option GroupState :=
  match m.accepted with
  | none => if m.panics then none else some (st.setConsumer { c with phase := .handled })
  | some txn =>
    if c.txnsToCancel.contains txn.id then
      some { st.setConsumer { c with phase := .handled, txnsToCancel := c.txnsToCancel.filter (· ≠ txn.id) } with
             cancelled := mark st.cancelled c.position }
    else if txn.uponError = .bailout && isBailoutableCode code then
      some (st.setConsumer { c with phase := .bailing })
    else
      some { st.setConsumer { c with phase := .handled } with
             ended := if isBailoutableCode code then st.ended else mark st.ended c.position }

/-- What the consumer does where it stands. -/
def inPhase (phase : Phase) (f : GroupConsumer → Option GroupState) : Option GroupState :=
  match st.consumer with
  | none => none
  | some c => if c.phase = phase then f c else none

def step : GroupAction → Option GroupState
  | .publish m => some { st with log := st.log ++ [m] }
  | .assign =>
    match st.consumer with
    | some _ => none
    | none =>
      -- without a committed offset the consumer starts at the end of the log
      some (st.setConsumer ⟨st.committed.getD st.log.length, 0, true, false, [], .ready⟩)
  | .cancelTxn txnId =>
    st.inPhase .ready fun c => some (st.setConsumer { c with txnsToCancel := txnId :: c.txnsToCancel })
  | .commitTick => st.inPhase .ready fun c => some ((st.commit c).setConsumer { c with shouldCommit := false })
  | .stop => st.inPhase .ready fun c => some (st.setConsumer { c with phase := .closing })
  | .read => st.inPhase .ready fun c =>
    if c.position < st.log.length then some (st.setConsumer { c with phase := .read }) else none
  | .initialCommit => st.inPhase .read fun c =>
    let st := if c.firstMessage then st.commitAt c.position else st
    some (st.setConsumer { c with firstMessage := false, phase := .opened })
  | .handle code => st.inPhase .opened fun c =>
    match st.log[c.position]? with
    | none => none
    | some m => st.handle c m code
  | .bailoutCommit succeeds => st.inPhase .bailing fun c =>
    let st := if succeeds then st.commitAt c.position else st
    some (st.setConsumer { c with phase := .closing })
  | .storeOffset => st.inPhase .handled fun c =>
    some (st.setConsumer
      { c with position := c.position + 1, stored := c.position + 1, shouldCommit := true, phase := .ready })
  | .close succeeds => st.inPhase .closing fun c =>
    some { (if succeeds then st.commit c else st) with consumer := none }
  | .crash =>
    match st.consumer with
    | none => none
    | some _ => some { st with consumer := none }

end GroupState

/-! ## What is committed has been handled -/

/-- The message at `o`, if it is one that is to be retried, has been handled to an end or cancelled. -/
def Settled (st : GroupState) (o : Nat) : Prop :=
  ∀ m txn, st.log[o]? = some m → m.accepted = some txn → txn.uponError = .bailout →
    st.ended o = true ∨ st.cancelled o = true

/-- All messages from `first` up to `o` are settled. -/
structure Passed (st : GroupState) (first o : Nat) : Prop where
  published : o ≤ st.log.length
  settled : ∀ i, first ≤ i → i < o → Settled st i

/-- What the consumer maintains: it stands, and has stored, behind settled messages only. -/
structure ConsumerKept (st : GroupState) (first : Nat) (c : GroupConsumer) : Prop where
  position : Passed st first c.position
  stored : c.shouldCommit = true → Passed st first c.stored
  handled : c.phase = .handled → Passed st first (c.position + 1)

/-- Before the first commit the consumer has not gone past the initial one. -/
structure ConsumerFresh (st : GroupState) (c : GroupConsumer) : Prop where
  position : c.position ≤ st.log.length
  initial : c.firstMessage = true ∧ c.shouldCommit = false
  phase : c.phase = .ready ∨ c.phase = .read ∨ c.phase = .closing

inductive Kept (st : GroupState) : Prop
  | fresh (first : st.firstCommit = none) (committed : st.committed = none)
      (consumer : ∀ c, st.consumer = some c → ConsumerFresh st c)
  | kept (c0 o : Nat) (first : st.firstCommit = some c0) (committed : st.committed = some o)
      (passed : Passed st c0 o) (consumer : ∀ c, st.consumer = some c → ConsumerKept st c0 c)

section
variable {st st' : GroupState} {c : GroupConsumer} {c0 o : Nat}

/-- The log and what has been settled in it only grow. -/
structure Grows (st st' : GroupState) : Prop where
  log : ∃ more, st'.log = st.log ++ more
  ended : ∀ i, st.ended i = true → st'.ended i = true
  cancelled : ∀ i, st.cancelled i = true → st'.cancelled i = true

theorem Grows.same (log : st'.log = st.log) (ended : st'.ended = st.ended) (cancelled : st'.cancelled = st.cancelled) :
    Grows st st' :=
  ⟨⟨[], by simp [log]⟩, by simp [ended], by simp [cancelled]⟩

theorem Passed.grow (h : Passed st c0 o) (grows : Grows st st') : Passed st' c0 o := by
  obtain ⟨more, hlog⟩ := grows.log
  constructor
  · have := h.published
    rw [hlog, List.length_append]
    omega
  · intro i hi hio m txn hm accepted bailout
    have inside : i < st.log.length := Nat.lt_of_lt_of_le hio h.published
    rw [hlog, List.getElem?_append_left inside] at hm
    exact (h.settled i hi hio m txn hm accepted bailout).imp (grows.ended i) (grows.cancelled i)

theorem Passed.start (h : o ≤ st.log.length) : Passed st o o :=
  ⟨h, fun i hi hio => absurd hio (by omega)⟩

theorem Passed.next (h : Passed st c0 o) (inside : o < st.log.length) (settled : Settled st o) :
    Passed st c0 (o + 1) := by
  refine ⟨inside, fun i hi hio => ?_⟩
  by_cases e : i = o
  · rw [e]
    exact settled
  · exact h.settled i hi (by omega)

theorem ConsumerKept.grow (h : ConsumerKept st c0 c) (grows : Grows st st') : ConsumerKept st' c0 c :=
  ⟨h.position.grow grows, fun hs => (h.stored hs).grow grows, fun hp => (h.handled hp).grow grows⟩

/-- A consumer that stays at its message, and is not done with it. -/
theorem ConsumerKept.stay (h : ConsumerKept st c0 c) {c' : GroupConsumer} (position : c'.position = c.position)
    (stored : c'.shouldCommit = true → c.shouldCommit = true ∧ c'.stored = c.stored) (phase : c'.phase ≠ .handled) :
    ConsumerKept st c0 c' := by
  refine ⟨position ▸ h.position, fun hs => ?_, fun hp => absurd hp phase⟩
  obtain ⟨hc, same⟩ := stored hs
  rw [same]
  exact h.stored hc

theorem Kept.setConsumer (h : Kept st) {c' : GroupConsumer}
    (fresh : st.firstCommit = none → ConsumerFresh st c') (kept : ∀ c0, st.firstCommit = some c0 → ConsumerKept st c0 c') :
    Kept (st.setConsumer c') := by
  cases h with
  | fresh first committed consumer =>
    refine .fresh first committed ?_
    rintro c ⟨⟩
    exact ⟨(fresh first).position, (fresh first).initial, (fresh first).phase⟩
  | kept c0 o first committed passed consumer =>
    have same : Grows st (st.setConsumer c') := .same rfl rfl rfl
    refine .kept c0 o first committed (passed.grow same) ?_
    rintro c ⟨⟩
    exact (kept c0 first).grow same

/-- An offset that has been passed may be committed, once there is a first commit. -/
theorem Kept.commitAt (h : Kept st) (first : st.firstCommit = some c0) (passed : Passed st c0 o) :
    Kept (st.commitAt o) := by
  cases h with
  | fresh none => rw [none] at first; cases first
  | kept c0' o' first' committed passed' consumer =>
    obtain rfl : c0 = c0' := Option.some.inj (first.symm.trans first')
    have same : Grows st (st.commitAt o) := .same rfl rfl rfl
    refine .kept c0 o ?_ rfl (passed.grow same) fun c hc => (consumer c hc).grow same
    show (st.firstCommit <|> some o) = some c0
    rw [first]
    rfl

/-- `Commit` commits what was stored. -/
theorem Kept.commit (h : Kept st) (running : st.consumer = some c) : Kept (st.commit c) := by
  unfold GroupState.commit
  split
  · rename_i hs
    cases h with
    | fresh first committed consumer =>
      rw [(consumer c running).initial.2] at hs
      cases hs
    | kept c0 o first committed passed consumer =>
      exact (Kept.kept c0 o first committed passed consumer).commitAt first ((consumer c running).stored hs)
  · exact h

theorem Kept.dropConsumer (h : Kept st) : Kept { st with consumer := none } := by
  have same : Grows st { st with consumer := none } := .same rfl rfl rfl
  cases h with
  | fresh first committed consumer => exact .fresh first committed (by simp)
  | kept c0 o first committed passed consumer => exact .kept c0 o first committed (passed.grow same) (by simp)

/-- The consumer goes on at its message, before that is handled. -/
theorem Kept.stay (h : Kept st) (running : st.consumer = some c) {c' : GroupConsumer}
    (position : c'.position = c.position) (stored : c'.shouldCommit = c.shouldCommit ∧ c'.stored = c.stored)
    (initial : c'.firstMessage = c.firstMessage)
    (phase : c'.phase = .ready ∨ c'.phase = .read ∨ c'.phase = .closing) : Kept (st.setConsumer c') := by
  apply h.setConsumer
  · intro none
    cases h with
    | fresh first committed consumer =>
      have before := consumer c running
      exact ⟨position ▸ before.position, by rw [initial, stored.1]; exact before.initial, phase⟩
    | kept c0 o first => rw [first] at none; cases none
  · intro c0 first
    cases h with
    | fresh none => rw [none] at first; cases first
    | kept c0' o first' committed passed consumer =>
      obtain rfl : c0 = c0' := Option.some.inj (first.symm.trans first')
      refine (consumer c running).stay position ?_ (by rcases phase with h | h | h <;> simp [h])
      exact fun hs => ⟨stored.1 ▸ hs, stored.2⟩

/-- Past the initial commit there has been a first commit. -/
theorem Kept.running (h : Kept st) (running : st.consumer = some c)
    (phase : c.phase = .opened ∨ c.phase = .handled ∨ c.phase = .bailing) :
    ∃ c0, st.firstCommit = some c0 ∧ ConsumerKept st c0 c := by
  cases h with
  | fresh first committed consumer =>
    have := (consumer c running).phase
    rcases phase with h | h | h <;> simp [h] at this
  | kept c0 o first committed passed consumer => exact ⟨c0, first, consumer c running⟩

theorem Kept.setRunning (h : Kept st) (first : st.firstCommit = some c0) {c' : GroupConsumer}
    (kept : ConsumerKept st c0 c') : Kept (st.setConsumer c') := by
  apply h.setConsumer
  · intro none
    rw [first] at none
    cases none
  · intro c1 first'
    obtain rfl : c0 = c1 := Option.some.inj (first.symm.trans first')
    exact kept

/-- More may be marked as ended or cancelled. -/
theorem Kept.grow (h : Kept st) (grows : Grows st st') (first : st'.firstCommit = st.firstCommit)
    (committed : st'.committed = st.committed) (consumer : st'.consumer = st.consumer) : Kept st' := by
  cases h with
  | fresh none nothing running =>
    refine .fresh (first.trans none) (committed.trans nothing) fun c hc => ?_
    have before := running c (consumer ▸ hc)
    obtain ⟨more, hlog⟩ := grows.log
    refine ⟨?_, before.initial, before.phase⟩
    have := before.position
    rw [hlog, List.length_append]
    omega
  | kept c0 o some' just passed running =>
    exact .kept c0 o (first.trans some') (committed.trans just) (passed.grow grows) fun c hc =>
      (running c (consumer ▸ hc)).grow grows

theorem mark_self (m : Nat → Bool) (o : Nat) : mark m o o = true := by simp [mark]

theorem mark_grows {m : Nat → Bool} {o i : Nat} (h : m i = true) : mark m o i = true := by
  unfold mark
  split
  · rfl
  · exact h

/-- Handling a message settles it, unless the consumer bails out. -/
theorem Kept.handle (h : Kept st) (running : st.consumer = some c) (opened : c.phase = .opened) {m : TopicMessage}
    (read : st.log[c.position]? = some m) {code : Code} (hs : st.handle c m code = some st') : Kept st' := by
  obtain ⟨c0, first, kept⟩ := h.running running (.inl opened)
  have inside : c.position < st.log.length := (List.getElem?_eq_some_iff.1 read).1
  -- the consumer behind a message that is settled
  have behind : ∀ {st1 : GroupState} {c' : GroupConsumer}, Kept st1 → Grows st st1 → st1.firstCommit = some c0 →
      st1.log = st.log → Settled st1 c.position → c'.position = c.position → c'.shouldCommit = c.shouldCommit →
      c'.stored = c.stored → Kept (st1.setConsumer c') := by
    intro st1 c' h1 grows first1 log settled position should stored
    have kept1 := kept.grow grows
    refine h1.setRunning first1 ⟨position ▸ kept1.position, fun hc => ?_, fun _ => ?_⟩
    · rw [stored]
      exact kept1.stored (should ▸ hc)
    · rw [position]
      exact kept1.position.next (log ▸ inside) settled
  unfold GroupState.handle at hs
  split at hs
  · rename_i none
    split at hs
    · cases hs
    cases hs
    refine behind h (.same rfl rfl rfl) first rfl ?_ rfl rfl rfl
    intro m' txn hm accepted
    rw [read] at hm
    cases hm
    rw [none] at accepted
    cases accepted
  rename_i txn accepted
  split at hs
  · -- cancelled
    cases hs
    let st1 : GroupState := { st with cancelled := mark st.cancelled c.position }
    have grows : Grows st st1 := ⟨⟨[], by simp [st1]⟩, fun _ hi => hi, fun i hi => mark_grows hi⟩
    refine behind (h.grow grows rfl rfl rfl) grows first rfl ?_ rfl rfl rfl
    exact fun _ _ _ _ _ => .inr (mark_self _ _)
  split at hs
  · -- bailing out
    cases hs
    exact h.setRunning first (kept.stay rfl (fun hc => ⟨hc, rfl⟩) (by simp))
  rename_i goesOn
  cases hs
  let st1 : GroupState :=
    { st with ended := if isBailoutableCode code then st.ended else mark st.ended c.position }
  have grows : Grows st st1 := by
    refine ⟨⟨[], by simp [st1]⟩, fun i hi => ?_, fun _ hi => hi⟩
    show (if isBailoutableCode code then st.ended else mark st.ended c.position) i = true
    split
    · exact hi
    · exact mark_grows hi
  refine behind (h.grow grows rfl rfl rfl) grows first rfl ?_ rfl rfl rfl
  intro m' txn' hm accepted' bailout
  rw [read] at hm
  cases hm
  rw [accepted] at accepted'
  cases accepted'
  have final : isBailoutableCode code = false := by simpa [bailout] using goesOn
  left
  show (if isBailoutableCode code then st.ended else mark st.ended c.position) c.position = true
  rw [final, if_neg (by simp)]
  exact mark_self _ _

theorem Kept.publish (h : Kept st) (m : TopicMessage) : Kept { st with log := st.log ++ [m] } :=
  h.grow ⟨⟨[m], rfl⟩, fun _ hi => hi, fun _ hi => hi⟩ rfl rfl rfl

/-- A consumer resumes at what is committed. -/
theorem Kept.assign (h : Kept st) :
    Kept (st.setConsumer ⟨st.committed.getD st.log.length, 0, true, false, [], .ready⟩) := by
  cases h with
  | fresh first committed consumer =>
    apply (Kept.fresh first committed consumer).setConsumer
    · intro _
      rw [committed]
      exact ⟨le_refl _, ⟨rfl, rfl⟩, .inl rfl⟩
    · intro c0 some'
      rw [first] at some'
      cases some'
  | kept c0 o first committed passed consumer =>
    apply (Kept.kept c0 o first committed passed consumer).setRunning first
    refine ⟨?_, by simp, by simp⟩
    rw [committed]
    exact passed

/-- The first commit of the group is that of the first message read. -/
theorem Kept.initialCommit (h : Kept st) (running : st.consumer = some c) :
    Kept ((if c.firstMessage then st.commitAt c.position else st).setConsumer
      { c with firstMessage := false, phase := .opened }) := by
  cases h with
  | fresh first committed consumer =>
    have before := consumer c running
    rw [before.initial.1, if_pos rfl]
    have start : ∀ {st1 : GroupState}, st1.log = st.log → Passed st1 c.position c.position :=
      fun log => Passed.start (log ▸ before.position)
    refine .kept c.position c.position (by simp [GroupState.commitAt, GroupState.setConsumer, first]) rfl (start rfl) ?_
    rintro c' ⟨⟩
    refine ⟨start rfl, fun hs => ?_, by simp⟩
    rw [before.initial.2] at hs
    cases hs
  | kept c0 o first committed passed consumer =>
    have kept := consumer c running
    have again : Kept (if c.firstMessage then st.commitAt c.position else st) ∧
        Grows st (if c.firstMessage then st.commitAt c.position else st) ∧
        (if c.firstMessage then st.commitAt c.position else st).firstCommit = some c0 := by
      split
      · exact ⟨(Kept.kept c0 o first committed passed consumer).commitAt first kept.position, .same rfl rfl rfl,
          by simp [GroupState.commitAt, first]⟩
      · exact ⟨.kept c0 o first committed passed consumer, .same rfl rfl rfl, first⟩
    obtain ⟨h1, grows, first1⟩ := again
    exact h1.setRunning first1 ((kept.grow grows).stay rfl (fun hs => ⟨hs, rfl⟩) (by simp))

/-- After the periodic commit nothing is left to be committed. -/
theorem Kept.commitTick (h : Kept st) (running : st.consumer = some c) (ready : c.phase = .ready) :
    Kept ((st.commit c).setConsumer { c with shouldCommit := false }) := by
  have committed := h.commit running
  have same : Grows st (st.commit c) := by
    unfold GroupState.commit
    split <;> exact .same rfl rfl rfl
  apply committed.setConsumer
  · intro none
    cases h with
    | fresh first nothing consumer =>
      have before := consumer c running
      have idle : st.commit c = st := by simp [GroupState.commit, before.initial.2]
      rw [idle]
      exact ⟨before.position, ⟨before.initial.1, rfl⟩, .inl ready⟩
    | kept c0 o first =>
      have : (st.commit c).firstCommit = some c0 := by
        unfold GroupState.commit
        split
        · simp [GroupState.commitAt, first]
        · exact first
      rw [this] at none
      cases none
  · intro c0 first
    cases h with
    | fresh none nothing consumer =>
      have idle : st.commit c = st := by simp [GroupState.commit, (consumer c running).initial.2]
      rw [idle, none] at first
      cases first
    | kept c0' o first' _ _ consumer =>
      have : (st.commit c).firstCommit = some c0' := by
        unfold GroupState.commit
        split
        · simp [GroupState.commitAt, first']
        · exact first'
      obtain rfl : c0' = c0 := Option.some.inj (this.symm.trans first)
      exact ((consumer c running).grow same).stay rfl (by simp) (by simp [ready])

theorem inPhase_some {phase : Phase} {f : GroupConsumer → Option GroupState} (h : st.inPhase phase f = some st') :
    ∃ c, st.consumer = some c ∧ c.phase = phase ∧ f c = some st' := by
  unfold GroupState.inPhase at h
  split at h
  · cases h
  split at h
  · exact ⟨_, ‹_›, ‹_›, h⟩
  · cases h

theorem Kept.step {a : GroupAction} (h : Kept st) (hs : st.step a = some st') : Kept st' := by
  cases a with
  | publish m =>
    cases hs
    exact h.publish m
  | assign =>
    simp only [GroupState.step] at hs
    split at hs
    · cases hs
    · cases hs
      exact h.assign
  | crash =>
    simp only [GroupState.step] at hs
    split at hs
    · cases hs
    · cases hs
      exact h.dropConsumer
  | cancelTxn txnId =>
    obtain ⟨c, running, phase, hs⟩ := inPhase_some hs
    cases hs
    exact h.stay running rfl ⟨rfl, rfl⟩ rfl (.inl phase)
  | commitTick =>
    obtain ⟨c, running, phase, hs⟩ := inPhase_some hs
    cases hs
    exact h.commitTick running phase
  | stop =>
    obtain ⟨c, running, phase, hs⟩ := inPhase_some hs
    cases hs
    exact h.stay running rfl ⟨rfl, rfl⟩ rfl (.inr (.inr rfl))
  | read =>
    obtain ⟨c, running, phase, hs⟩ := inPhase_some hs
    split at hs
    · cases hs
      exact h.stay running rfl ⟨rfl, rfl⟩ rfl (.inr (.inl rfl))
    · cases hs
  | initialCommit =>
    obtain ⟨c, running, phase, hs⟩ := inPhase_some hs
    cases hs
    exact h.initialCommit running
  | handle code =>
    obtain ⟨c, running, phase, hs⟩ := inPhase_some hs
    split at hs
    · cases hs
    · exact h.handle running phase ‹_› hs
  | bailoutCommit succeeds =>
    obtain ⟨c, running, phase, hs⟩ := inPhase_some hs
    cases hs
    obtain ⟨c0, first, kept⟩ := h.running running (.inr (.inr phase))
    have gone : ConsumerKept st c0 { c with phase := .closing } := kept.stay rfl (fun hs => ⟨hs, rfl⟩) (by simp)
    cases succeeds with
    | false => exact h.setRunning first gone
    | true =>
      have same : Grows st (st.commitAt c.position) := .same rfl rfl rfl
      exact (h.commitAt first kept.position).setRunning (by simp [GroupState.commitAt, first]) (gone.grow same)
  | storeOffset =>
    obtain ⟨c, running, phase, hs⟩ := inPhase_some hs
    cases hs
    obtain ⟨c0, first, kept⟩ := h.running running (.inr (.inl phase))
    have passed := kept.handled phase
    exact h.setRunning first ⟨passed, fun _ => passed, by simp⟩
  | close succeeds =>
    obtain ⟨c, running, phase, hs⟩ := inPhase_some hs
    cases hs
    cases succeeds with
    | false => exact h.dropConsumer
    | true => exact (h.commit running).dropConsumer

end

/-! ## Runs -/

/-- A group that has committed nothing yet, on a topic with any messages. -/
def GroupState.new (log : List TopicMessage) : GroupState where
  log := log
  committed := none
  consumer := none
  firstCommit := none
  ended _ := false
  cancelled _ := false

/-- A message that the consumer has to retry until it gets through: a transaction that it accepts, to
be bailed out upon an error, not cancelled, and not handled to a code that does not bail out. -/
def Unfinished (st : GroupState) (o : Nat) : Prop :=
  ∃ m txn, st.log[o]? = some m ∧ m.accepted = some txn ∧ txn.uponError = .bailout ∧
    st.ended o = false ∧ st.cancelled o = false

/-- From the first commit of the group on, whatever crashes and commits come in between, the
committed offset never exceeds that of a message that is unfinished. -/
theorem committed_never_exceeds_unfinished {log : List TopicMessage} {tr : List (GroupState × GroupAction)}
    {st : GroupState} (path : Path GroupState.step (.new log) tr st) {first committed o : Nat}
    (hfirst : st.firstCommit = some first) (hcommitted : st.committed = some committed) (behind : first ≤ o)
    (unfinished : Unfinished st o) : committed ≤ o := by
  have kept : Kept st := by
    apply path.invariant Kept (fun _ _ => True) (.fresh rfl rfl (by simp [GroupState.new])) _ (fun _ _ => trivial)
    intro s a s' _ h hs
    exact h.step hs
  obtain ⟨m, txn, hm, accepted, bailout, ended, cancelled⟩ := unfinished
  cases kept with
  | fresh none => rw [none] at hfirst; cases hfirst
  | kept c0 c first' committed' passed =>
    obtain rfl : first = c0 := Option.some.inj (hfirst.symm.trans first')
    obtain rfl : committed = c := Option.some.inj (hcommitted.symm.trans committed')
    by_contra exceeds
    rcases passed.settled o behind (by omega) m txn hm accepted bailout with h | h
    · rw [ended] at h
      cases h
    · rw [cancelled] at h
      cases h

/-! ## Small runs -/

/-- A transaction of one generated storage step. -/
def sampleStorageTxn (currentStepIdx : Int) : ApecsTxn :=
  { id := "child0", uponError := .bailout, currentStepIdx := currentStepIdx,
    forwardSteps := [{ system := .storage, concern := "Player", command := Command.updateAsync, key := "k",
                       cmpdOffset := some ⟨1, 0, 7⟩ }] }

def sampleMessageOf (currentStepIdx : Int) : TopicMessage :=
  ⟨true, .ok (sampleStorageTxn currentStepIdx), sampleTraceParent⟩

/-- A write goes through, and the next one fails and is read again. -/
def bailingRun : List GroupAction :=
  [.assign, .publish (sampleMessageOf 0), .publish (sampleMessageOf 0), .read, .initialCommit, .handle .ok, .storeOffset,
   .read, .initialCommit, .handle .connection, .bailoutCommit true, .close true, .assign, .read]

theorem committed_never_exceeds_unfinished_bailingRun :
    (after GroupState.step (.new []) bailingRun).committed = some 1 ∧ 1 ≤ 1 := by
  have path : Path GroupState.step (.new []) (trace GroupState.step (.new []) bailingRun)
      (after GroupState.step (.new []) bailingRun) := path_after (by decide +kernel)
  have first : (after GroupState.step (.new []) bailingRun).firstCommit = some 0 := by decide +kernel
  have committed : (after GroupState.step (.new []) bailingRun).committed = some 1 := by decide +kernel
  refine ⟨committed, committed_never_exceeds_unfinished path first committed (by omega) ?_⟩
  exact ⟨sampleMessageOf 0, sampleStorageTxn 0, by decide +kernel, by decide +kernel, rfl, by decide +kernel,
    by decide +kernel⟩

/-- The message of a transaction that is past its steps is logged and skipped. -/
def refusedRun : List GroupAction :=
  [.assign, .publish (sampleMessageOf 1), .read, .initialCommit, .handle .ok, .storeOffset, .commitTick]

/-- The first consumer of a group starts at the end of the log. -/
def lateRun : List GroupAction := [.assign, .publish (sampleMessageOf 0), .read, .initialCommit]

/-- A transaction that is refused is not retried, and a write that is older than the first commit of the
group is never read. -/
theorem refused_and_older_writes_are_skipped :
    (∃ tr st, Path GroupState.step (.new []) tr st ∧ st.committed = some 1 ∧ st.log[0]? = some (sampleMessageOf 1) ∧
      (sampleStorageTxn 1).uponError = .bailout ∧ st.ended 0 = false ∧ st.cancelled 0 = false) ∧
    ∃ tr st, Path GroupState.step (.new [sampleMessageOf 0]) tr st ∧ st.committed = some 1 ∧ Unfinished st 0 := by
  constructor
  · have path : Path GroupState.step (.new []) (trace GroupState.step (.new []) refusedRun)
        (after GroupState.step (.new []) refusedRun) := path_after (by decide +kernel)
    exact ⟨_, _, path, by decide +kernel⟩
  · have path : Path GroupState.step (.new [sampleMessageOf 0]) (trace GroupState.step (.new [sampleMessageOf 0]) lateRun)
        (after GroupState.step (.new [sampleMessageOf 0]) lateRun) := path_after (by decide +kernel)
    refine ⟨_, _, path, by decide +kernel, ?_⟩
    exact ⟨sampleMessageOf 0, sampleStorageTxn 0, by decide +kernel, by decide +kernel, rfl, by decide +kernel,
      by decide +kernel⟩

end Rocketcycle
