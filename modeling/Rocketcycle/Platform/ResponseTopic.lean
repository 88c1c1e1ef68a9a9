import Rocketcycle.Lib.Runs
import Rocketcycle.Rkcy.Trace
import Rocketcycle.Rkcypb
import Mathlib.Logic.Function.Basic

/-!
# Waiting for responses

`ExecuteTxnSync` of `pkg/apecs/apecs.go` and `ConsumeResponseTopic` of `pkg/platform/platform.go`, for
any number of calls on one platform. A call registers a channel under the trace id of its context,
publishes its transaction and waits at the channel; the consumer of the response topic hands each
response to the channel that is registered under its trace id. Every send on these channels is a
rendezvous. How long a call waits, and when an entry is old enough to be cleaned up, is left open.
-/

namespace Rocketcycle

open Runs

/-- Where a call of `ExecuteTxnSync` stands. -/
inductive CallPhase where
  | new
  | registering
  /-- In `executeTxn`. -/
  | producing
  | waiting
  /-- `executeTxn` has failed. -/
  | unpublished
  /-- Timed out, or its context was closed. -/
  | gaveUp
  /-- It has been handed the response at an offset, or `nil` from the cleanup. -/
  | returned (response : Option Nat)
  deriving DecidableEq, Repr

/-- `cleanedUp` only follows the call: its entry has been cleaned up. -/
structure SyncCall where
  traceParent : String
  phase : CallPhase
  cleanedUp : Bool
  deriving DecidableEq, Repr

/-- `TxnId`. -/
def SyncCall.txnId (call : SyncCall) : String := traceIdFromTraceParent call.traceParent

def SyncCall.outstanding (call : SyncCall) : Bool := call.phase = .producing || call.phase = .waiting

/-- The channel of a call that has returned is closed. -/
def SyncCall.closed (call : SyncCall) : Bool :=
  match call.phase with
  | .unpublished | .gaveUp | .returned _ => true
  | _ => false

def SyncCall.published (call : SyncCall) : Bool :=
  match call.phase with
  | .waiting | .gaveUp | .returned _ => true
  | _ => false

/-- A message of the response topic; `call` is the one whose transaction it is. -/
structure ResponseMessage where
  isApecsTxn : Bool
  traceParent : String
  txn : Except GoError ApecsTxn
  call : Nat
  deriving DecidableEq

/-- Where `ConsumeResponseTopic` stands. -/
inductive ResponsePhase where
  /-- At the `select`. -/
  | select
  /-- Taking the registrations, after a read that may have timed out. -/
  | draining (msg : Option Nat)
  | handling (msg : Nat)
  /-- In `respondThroughChannel`, with a response or with `nil`. -/
  | sending (response : Option Nat) (call : Nat)
  | stopped
  deriving DecidableEq, Repr

structure ResponseState where
  started : Nat
  call : Nat → SyncCall
  respRegisterCh : List Nat
  reqMap : String → Option Nat
  topic : List ResponseMessage
  position : Nat
  consumer : ResponsePhase

inductive ResponseAction where
  /-- A call is made under a trace context, and its steps are prepared. -/
  | start (traceParent : String)
  | register (c : Nat)
  | produce (c : Nat) (succeeds : Bool)
  | giveUp (c : Nat)
  /-- A response to the transaction of a call is published, as it may be more than once. -/
  | respond (c : Nat) (txn : ApecsTxn)
  | read
  | readTimeout
  | drain
  | drained
  | handle
  | cleanup (txnId : String)
  | receive
  /-- The send on a closed channel panics, and is recovered. -/
  | recover
  | stop

namespace ResponseState

variable (st : ResponseState)

def setPhase (c : Nat) (phase : CallPhase) : ResponseState :=
  { st with call := Function.update st.call c { st.call c with phase := phase } }

def startCall (traceParent : String) : ResponseState :=
  { st with started := st.started + 1,
            call := Function.update st.call st.started ⟨traceParent, .registering, false⟩ }

def register (c : Nat) : ResponseState :=
  { st.setPhase c .producing with respRegisterCh := st.respRegisterCh ++ [c] }

/-- The entry of a call that has waited too long is deleted, and the call is to be handed `nil`. -/
def cleanup (txnId : String) (c : Nat) : ResponseState :=
  { st with call := Function.update st.call c { st.call c with cleanedUp := true },
            reqMap := Function.update st.reqMap txnId none, consumer := .sending none c }

/-- What is done with a message, once all registrations have been taken. -/
def handle (o : Nat) (msg : ResponseMessage) : ResponseState :=
  if msg.isApecsTxn then
    let txnId := traceIdFromTraceParent msg.traceParent
    match st.reqMap txnId with
    | none => { st with consumer := .select }
    | some c =>
      match msg.txn with
      | .error _ => { st with reqMap := Function.update st.reqMap txnId none, consumer := .select }
      | .ok _ => { st with reqMap := Function.update st.reqMap txnId none, consumer := .sending (some o) c }
  else { st with consumer := .select }

def step : ResponseAction → Option ResponseState
  | .start traceParent =>
    if traceParent = "" then none else some (st.startCall traceParent)
  | .register c =>
    -- the channel holds ten registrations
    if (st.call c).phase = .registering ∧ st.respRegisterCh.length < 10 then some (st.register c) else none
  | .produce c succeeds =>
    if (st.call c).phase = .producing then some (st.setPhase c (if succeeds then .waiting else .unpublished)) else none
  | .giveUp c => if (st.call c).phase = .waiting then some (st.setPhase c .gaveUp) else none
  | .respond c txn =>
    if (st.call c).published then
      some { st with topic := st.topic ++ [⟨true, (st.call c).traceParent, .ok txn, c⟩] }
    else none
  | .read =>
    if st.consumer = .select ∧ st.position < st.topic.length then
      some { st with consumer := .draining (some st.position), position := st.position + 1 }
    else none
  | .readTimeout => if st.consumer = .select then some { st with consumer := .draining none } else none
  | .drain =>
    match st.consumer, st.respRegisterCh with
    | .draining _, c :: rest =>
      some { st with reqMap := Function.update st.reqMap (st.call c).txnId (some c), respRegisterCh := rest }
    | _, _ => none
  | .drained =>
    match st.consumer, st.respRegisterCh with
    | .draining none, [] => some { st with consumer := .select }
    | .draining (some o), [] => some { st with consumer := .handling o }
    | _, _ => none
  | .handle =>
    match st.consumer with
    | .handling o =>
      match st.topic[o]? with
      | none => none
      | some msg => some (st.handle o msg)
    | _ => none
  | .cleanup txnId =>
    if st.consumer = .select then
      match st.reqMap txnId with
      | none => none
      | some c => some (st.cleanup txnId c)
    else none
  | .receive =>
    match st.consumer with
    | .sending response c =>
      if (st.call c).phase = .waiting then some { st.setPhase c (.returned response) with consumer := .select } else none
    | _ => none
  | .recover =>
    match st.consumer with
    | .sending _ c => if (st.call c).closed then some { st with consumer := .select } else none
    | _ => none
  | .stop => if st.consumer = .select then some { st with consumer := .stopped } else none

end ResponseState

/-- A platform on which no call has been made. -/
def ResponseState.new : ResponseState where
  started := 0
  call _ := ⟨"", .new, false⟩
  respRegisterCh := []
  reqMap _ := none
  topic := []
  position := 0
  consumer := .select

/-! ## What the platform maintains -/

/-- `register` is behind the call. -/
def SyncCall.registered (call : SyncCall) : Bool := call.phase ≠ .new && call.phase ≠ .registering

theorem SyncCall.outstanding_iff {call : SyncCall} :
    call.outstanding = true ↔ call.phase = .producing ∨ call.phase = .waiting := by
  simp [SyncCall.outstanding]

theorem SyncCall.registered_of_outstanding {call : SyncCall} (h : call.outstanding = true) : call.registered = true := by
  rcases SyncCall.outstanding_iff.1 h with h | h <;> simp [SyncCall.registered, h]

theorem SyncCall.registered_of_published {call : SyncCall} (h : call.published = true) : call.registered = true := by
  unfold SyncCall.published at h
  unfold SyncCall.registered
  cases hp : call.phase <;> simp_all

theorem SyncCall.not_outstanding_of_closed {call : SyncCall} (h : call.closed = true) : call.outstanding = false := by
  unfold SyncCall.closed at h
  unfold SyncCall.outstanding
  cases hp : call.phase <;> simp_all

/-- Of two calls under one trace id the earlier one has failed to publish. Every message of the topic
answers a call that has published, and every call that still waits can be found: among the registrations
or in the map, where a later registration stands for a later call, or else it is being handed something. -/
structure ResponseKept (st : ResponseState) : Prop where
  fresh : ∀ c, st.started ≤ c → (st.call c).phase = .new
  distinct : ∀ c c', c < c' → c' < st.started → (st.call c).txnId = (st.call c').txnId →
    (st.call c).phase = .unpublished
  topic : ∀ msg ∈ st.topic, msg.isApecsTxn = true ∧ (∃ txn, msg.txn = .ok txn) ∧
    msg.traceParent = (st.call msg.call).traceParent ∧ (st.call msg.call).published = true
  channel : ∀ c ∈ st.respRegisterCh, (st.call c).registered = true
  mapped : ∀ txnId c, st.reqMap txnId = some c → (st.call c).txnId = txnId ∧ (st.call c).registered = true
  order : st.respRegisterCh.Pairwise fun c c' => (st.call c).txnId = (st.call c').txnId → c < c'
  newer : ∀ txnId c, st.reqMap txnId = some c → ∀ c' ∈ st.respRegisterCh, (st.call c').txnId = txnId → c < c'
  found : ∀ c, (st.call c).outstanding = true → (st.call c).cleanedUp = false →
    c ∈ st.respRegisterCh ∨ st.reqMap (st.call c).txnId = some c ∨ ∃ response, st.consumer = .sending response c
  reading : ∀ o, st.consumer = .draining (some o) ∨ st.consumer = .handling o → o < st.topic.length
  handling : ∀ o msg, st.consumer = .handling o → st.topic[o]? = some msg → (st.call msg.call).outstanding = true →
    (st.call msg.call).cleanedUp = false → st.reqMap (st.call msg.call).txnId = some msg.call
  receiver : ∀ response c, st.consumer = .sending response c → (st.call c).registered = true
  sending : ∀ o c, st.consumer = .sending (some o) c → (st.call c).outstanding = true →
    ∃ msg, st.topic[o]? = some msg ∧ msg.call = c
  returned : ∀ c o, (st.call c).phase = .returned (some o) → ∃ msg, st.topic[o]? = some msg ∧ msg.call = c

section
variable {st st' : ResponseState} {c : Nat}

/-- A registered call has been started. -/
theorem ResponseKept.started (h : ResponseKept st) (registered : (st.call c).registered = true) : c < st.started := by
  by_contra beyond
  have := h.fresh c (by omega)
  simp [SyncCall.registered, this] at registered

/-- Of two registered calls under one trace id, only the later one can have published. -/
theorem ResponseKept.unique (h : ResponseKept st) {c' : Nat} (same : (st.call c).txnId = (st.call c').txnId)
    (registered : (st.call c).registered = true) (registered' : (st.call c').registered = true)
    (live : (st.call c).phase ≠ .unpublished) (live' : (st.call c').phase ≠ .unpublished) : c = c' := by
  rcases Nat.lt_trichotomy c c' with lt | eq | lt
  · exact absurd (h.distinct c c' lt (h.started registered') same) live
  · exact eq
  · exact absurd (h.distinct c' c lt (h.started registered) same.symm) live'

/-- Calls go on by themselves: neither a trace context nor a cleanup changes, and what a call has been
it stays. -/
structure CallsMove (st st' : ResponseState) : Prop where
  started : st'.started = st.started
  channel : st'.respRegisterCh = st.respRegisterCh
  map : st'.reqMap = st.reqMap
  topic : st'.topic = st.topic
  consumer : st'.consumer = st.consumer
  traceParent : ∀ c, (st'.call c).traceParent = (st.call c).traceParent
  cleanedUp : ∀ c, (st'.call c).cleanedUp = (st.call c).cleanedUp
  new : ∀ c, (st.call c).phase = .new → (st'.call c).phase = .new
  unpublished : ∀ c, (st.call c).phase = .unpublished → (st'.call c).phase = .unpublished
  registered : ∀ c, (st.call c).registered = true → (st'.call c).registered = true
  published : ∀ c, (st.call c).published = true → (st'.call c).published = true
  outstanding : ∀ c, (st'.call c).outstanding = true → (st.call c).outstanding = true
  returned : ∀ c o, (st'.call c).phase = .returned (some o) →
    (st.call c).phase = .returned (some o) ∨ ∃ msg, st.topic[o]? = some msg ∧ msg.call = c

theorem ResponseKept.move (h : ResponseKept st) (m : CallsMove st st') : ResponseKept st' := by
  have txnId : ∀ c, (st'.call c).txnId = (st.call c).txnId := fun c => by
    unfold SyncCall.txnId
    rw [m.traceParent]
  constructor
  · intro c hc
    exact m.new c (h.fresh c (m.started ▸ hc))
  · intro c c' lt hc same
    rw [txnId, txnId] at same
    exact m.unpublished c (h.distinct c c' lt (m.started ▸ hc) same)
  · intro msg hmsg
    rw [m.topic] at hmsg
    obtain ⟨apecs, txn, header, published⟩ := h.topic msg hmsg
    exact ⟨apecs, txn, by rw [m.traceParent]; exact header, m.published _ published⟩
  · intro c hc
    rw [m.channel] at hc
    exact m.registered c (h.channel c hc)
  · intro id c hc
    rw [m.map] at hc
    obtain ⟨name, registered⟩ := h.mapped id c hc
    exact ⟨(txnId c).trans name, m.registered c registered⟩
  · rw [m.channel]
    exact h.order.imp fun older same => older (by rwa [txnId, txnId] at same)
  · intro id c hc c' hc' name
    rw [m.map] at hc
    rw [m.channel] at hc'
    exact h.newer id c hc c' hc' (by rwa [txnId] at name)
  · intro c out clean
    rw [m.channel, m.map, m.consumer, txnId]
    exact h.found c (m.outstanding c out) (by rwa [m.cleanedUp] at clean)
  · rw [m.consumer, m.topic]
    exact h.reading
  · intro o msg hc hmsg out clean
    rw [m.consumer] at hc
    rw [m.topic] at hmsg
    rw [m.map, txnId]
    exact h.handling o msg hc hmsg (m.outstanding _ out) (by rwa [m.cleanedUp] at clean)
  · intro response c hc
    rw [m.consumer] at hc
    exact m.registered c (h.receiver response c hc)
  · intro o c hc out
    rw [m.consumer] at hc
    rw [m.topic]
    exact h.sending o c hc (m.outstanding c out)
  · intro c o hret
    rw [m.topic]
    rcases m.returned c o hret with before | now
    · exact h.returned c o before
    · exact now

/-- One call enters another phase. -/
theorem CallsMove.setPhase {phase : CallPhase} (registered : (st.call c).registered = true)
    (open' : (st.call c).outstanding = true) (stays : phase ≠ .new ∧ phase ≠ .registering ∧ phase ≠ .producing)
    (published : (st.call c).phase = .waiting → phase ≠ .unpublished)
    (returned : ∀ o, phase = .returned (some o) → ∃ msg, st.topic[o]? = some msg ∧ msg.call = c) :
    CallsMove st (st.setPhase c phase) := by
  have other : ∀ c', c' ≠ c → (st.setPhase c phase).call c' = st.call c' := fun c' ne => by
    simp [ResponseState.setPhase, ne]
  have here : (st.setPhase c phase).call c = { st.call c with phase := phase } := by simp [ResponseState.setPhase]
  have phases := SyncCall.outstanding_iff.1 open'
  have all : ∀ P : Nat → SyncCall → SyncCall → Prop, P c (st.call c) { st.call c with phase := phase } →
      (∀ c', P c' (st.call c') (st.call c')) → ∀ c', P c' (st.call c') ((st.setPhase c phase).call c') := by
    intro P now same c'
    by_cases e : c' = c
    · subst e
      rw [here]
      exact now
    · rw [other c' e]
      exact same c'
  refine ⟨rfl, rfl, rfl, rfl, rfl, all (fun _ old new => new.traceParent = old.traceParent) rfl fun _ => rfl,
    all (fun _ old new => new.cleanedUp = old.cleanedUp) rfl fun _ => rfl,
    all (fun _ old new => old.phase = .new → new.phase = .new) ?_ fun _ => id,
    all (fun _ old new => old.phase = .unpublished → new.phase = .unpublished) ?_ fun _ => id,
    all (fun _ old new => old.registered = true → new.registered = true) ?_ fun _ => id,
    all (fun _ old new => old.published = true → new.published = true) ?_ fun _ => id,
    all (fun _ old new => new.outstanding = true → old.outstanding = true) (fun _ => open') fun _ => id,
    all (fun c' old new => ∀ o, new.phase = .returned (some o) → old.phase = .returned (some o) ∨
      ∃ msg, st.topic[o]? = some msg ∧ msg.call = c') (fun o ho => .inr (returned o ho)) fun _ _ => .inl⟩
  · intro new
    rcases phases with h | h <;> rw [h] at new <;> cases new
  · intro gone
    rcases phases with h | h <;> rw [h] at gone <;> cases gone
  · intro _
    simp [SyncCall.registered, stays]
  · intro old
    rcases phases with h | h
    · simp [SyncCall.published, h] at old
    · have := published h
      unfold SyncCall.published
      cases phase <;> simp_all

/-- The consumer turns to something else, when the call it was sending to is through with it. -/
theorem ResponseKept.setConsumer (h : ResponseKept st) {phase : ResponsePhase}
    (done : ∀ response c, st.consumer = .sending response c → (st.call c).outstanding = false)
    (reading : ∀ o, phase = .draining (some o) ∨ phase = .handling o → o < st.topic.length)
    (handling : ∀ o msg, phase = .handling o → st.topic[o]? = some msg → (st.call msg.call).outstanding = true →
      (st.call msg.call).cleanedUp = false → st.reqMap (st.call msg.call).txnId = some msg.call)
    (idle : ∀ response c, phase ≠ .sending response c) : ResponseKept { st with consumer := phase } := by
  refine ⟨h.fresh, h.distinct, h.topic, h.channel, h.mapped, h.order, h.newer, fun c out clean => ?_, reading, handling,
    fun _ _ e => absurd e (idle _ _), fun _ _ e => absurd e (idle _ _), h.returned⟩
  rcases h.found c out clean with found | found | ⟨response, busy⟩
  · exact .inl found
  · exact .inr (.inl found)
  · rw [done response c busy] at out
    cases out

theorem ResponseKept.toSelect (h : ResponseKept st)
    (done : ∀ response c, st.consumer = .sending response c → (st.call c).outstanding = false) :
    ResponseKept { st with consumer := .select } :=
  h.setConsumer done (by simp) (by simp) (by simp)

theorem ResponseKept.published (h : ResponseKept st) {o : Nat} {msg : ResponseMessage} (at' : st.topic[o]? = some msg) :
    (st.call msg.call).published = true :=
  (h.topic msg (List.mem_of_getElem? at')).2.2.2

/-- A call under a trace id that no other one has published under, or is still to. -/
def FreshTraceId (st : ResponseState) : ResponseAction → Prop
  | .start traceParent => ∀ c < st.started, (st.call c).txnId = traceIdFromTraceParent traceParent →
      (st.call c).phase = .unpublished
  | _ => True

@[simp] theorem startCall_self (st : ResponseState) (traceParent : String) :
    (st.startCall traceParent).call st.started = ⟨traceParent, .registering, false⟩ := by
  simp [ResponseState.startCall]

theorem startCall_other {traceParent : String} (ne : c ≠ st.started) : (st.startCall traceParent).call c = st.call c := by
  simp [ResponseState.startCall, ne]

theorem ResponseKept.start (h : ResponseKept st) {traceParent : String} (fresh : FreshTraceId st (.start traceParent)) :
    ResponseKept (st.startCall traceParent) := by
  have other : ∀ c, (st.call c).registered = true → (st.startCall traceParent).call c = st.call c :=
    fun c registered => startCall_other (Nat.ne_of_lt (h.started registered))
  constructor
  · intro c hc
    change st.started + 1 ≤ c at hc
    rw [startCall_other (by omega)]
    exact h.fresh c (by omega)
  · intro c c' lt hc same
    change c' < st.started + 1 at hc
    rw [startCall_other (c := c) (by omega)] at same ⊢
    by_cases e : c' = st.started
    · subst e
      rw [startCall_self] at same
      exact fresh c lt same
    · rw [startCall_other e] at same
      exact h.distinct c c' lt (by omega) same
  · intro msg hmsg
    obtain ⟨apecs, txn, header, published⟩ := h.topic msg hmsg
    rw [other _ (SyncCall.registered_of_published published)]
    exact ⟨apecs, txn, header, published⟩
  · intro c hc
    have registered := h.channel c hc
    rw [other c registered]
    exact registered
  · intro id c hc
    obtain ⟨name, registered⟩ := h.mapped id c hc
    rw [other c registered]
    exact ⟨name, registered⟩
  · refine h.order.imp_of_mem fun {c c'} hc hc' older same => older ?_
    rwa [other c (h.channel c hc), other c' (h.channel c' hc')] at same
  · intro id c hc c' hc' name
    rw [other c' (h.channel c' hc')] at name
    exact h.newer id c hc c' hc' name
  · intro c out clean
    by_cases e : c = st.started
    · subst e
      rw [startCall_self] at out
      cases out
    · rw [startCall_other e] at out clean ⊢
      exact h.found c out clean
  · exact h.reading
  · intro o msg hc hmsg out clean
    rw [other _ (SyncCall.registered_of_published (h.published hmsg))] at out clean ⊢
    exact h.handling o msg hc hmsg out clean
  · intro response c hc
    have registered := h.receiver response c hc
    rw [other c registered]
    exact registered
  · intro o c hc out
    rw [other c (h.receiver _ c hc)] at out
    exact h.sending o c hc out
  · intro c o hret
    by_cases e : c = st.started
    · subst e
      rw [startCall_self] at hret
      cases hret
    · rw [startCall_other e] at hret
      exact h.returned c o hret

theorem register_self (st : ResponseState) (c : Nat) : (st.register c).call c = { st.call c with phase := .producing } := by
  simp [ResponseState.register, ResponseState.setPhase]

theorem register_other {c' : Nat} (ne : c' ≠ c) : (st.register c).call c' = st.call c' := by
  simp [ResponseState.register, ResponseState.setPhase, ne]

theorem register_txnId (st : ResponseState) (c c' : Nat) : ((st.register c).call c').txnId = (st.call c').txnId := by
  by_cases e : c' = c
  · subst e
    rw [register_self]
    rfl
  · rw [register_other e]

theorem ResponseKept.register (h : ResponseKept st) (registering : (st.call c).phase = .registering) :
    ResponseKept (st.register c) := by
  have ne : ∀ c', (st.call c').registered = true → c' ≠ c := by
    rintro c' registered rfl
    simp [SyncCall.registered, registering] at registered
  have other : ∀ c', (st.call c').registered = true → (st.register c).call c' = st.call c' :=
    fun c' registered => register_other (ne c' registered)
  have begun : c < st.started := by
    by_contra beyond
    have := h.fresh c (by omega)
    rw [registering] at this
    cases this
  -- the new registration is of the latest call under its trace id
  have latest : ∀ c', (st.call c').registered = true → (st.call c').txnId = (st.call c).txnId → c' < c := by
    intro c' registered same
    rcases Nat.lt_trichotomy c' c with lt | eq | lt
    · exact lt
    · exact absurd eq (ne c' registered)
    · have := h.distinct c c' lt (h.started registered) same.symm
      rw [registering] at this
      cases this
  constructor
  · intro c' hc
    change st.started ≤ c' at hc
    rw [register_other (by omega)]
    exact h.fresh c' hc
  · intro c1 c2 lt hc same
    rw [register_txnId, register_txnId] at same
    have gone := h.distinct c1 c2 lt hc same
    have : c1 ≠ c := by
      rintro rfl
      rw [registering] at gone
      cases gone
    rw [register_other this]
    exact gone
  · intro msg hmsg
    obtain ⟨apecs, txn, header, published⟩ := h.topic msg hmsg
    rw [other _ (SyncCall.registered_of_published published)]
    exact ⟨apecs, txn, header, published⟩
  · intro c' hc
    rcases List.mem_append.1 hc with hc | hc
    · have registered := h.channel c' hc
      rw [other c' registered]
      exact registered
    · obtain rfl := List.mem_singleton.1 hc
      rw [register_self]
      rfl
  · intro id c' hc
    obtain ⟨name, registered⟩ := h.mapped id c' hc
    rw [other c' registered]
    exact ⟨name, registered⟩
  · show (st.respRegisterCh ++ [c]).Pairwise _
    rw [List.pairwise_append]
    refine ⟨h.order.imp fun older same => older (by rwa [register_txnId, register_txnId] at same),
      List.pairwise_singleton _ _, ?_⟩
    intro c' hc last hlast same
    obtain rfl := List.mem_singleton.1 hlast
    rw [register_txnId, register_txnId] at same
    exact latest c' (h.channel c' hc) same
  · intro id c' hc c1 hc1 name
    rw [register_txnId] at name
    rcases List.mem_append.1 hc1 with hc1 | hc1
    · exact h.newer id c' hc c1 hc1 name
    · obtain rfl := List.mem_singleton.1 hc1
      obtain ⟨name', registered⟩ := h.mapped id c' hc
      exact latest c' registered (name'.trans name.symm)
  · intro c' out clean
    by_cases e : c' = c
    · exact .inl (List.mem_append_right _ (List.mem_singleton.2 e))
    · rw [register_other e] at out clean ⊢
      rcases h.found c' out clean with found | found
      · exact .inl (List.mem_append_left _ found)
      · exact .inr found
  · exact h.reading
  · intro o msg hc hmsg out clean
    rw [other _ (SyncCall.registered_of_published (h.published hmsg))] at out clean ⊢
    exact h.handling o msg hc hmsg out clean
  · intro response c' hc
    have registered := h.receiver response c' hc
    rw [other c' registered]
    exact registered
  · intro o c' hc out
    rw [other c' (h.receiver _ c' hc)] at out
    exact h.sending o c' hc out
  · intro c' o hret
    by_cases e : c' = c
    · subst e
      rw [register_self] at hret
      cases hret
    · rw [register_other e] at hret
      exact h.returned c' o hret

/-- A registration is taken, and stands for the later one of two calls. -/
theorem ResponseKept.drain (h : ResponseKept st) {msg : Option Nat} {rest : List Nat} (draining : st.consumer = .draining msg)
    (channel : st.respRegisterCh = c :: rest) :
    ResponseKept { st with reqMap := Function.update st.reqMap (st.call c).txnId (some c), respRegisterCh := rest } := by
  have hc : c ∈ st.respRegisterCh := by
    rw [channel]
    exact List.mem_cons_self
  have inside : ∀ c' ∈ rest, c' ∈ st.respRegisterCh := fun c' hmem => by
    rw [channel]
    exact List.mem_cons_of_mem _ hmem
  have order := h.order
  rw [channel, List.pairwise_cons] at order
  refine ⟨h.fresh, h.distinct, h.topic, fun c' hmem => h.channel c' (inside c' hmem), ?_, order.2, ?_, ?_, h.reading, ?_,
    h.receiver, h.sending, h.returned⟩
  · intro id c' hmap
    change Function.update st.reqMap (st.call c).txnId (some c) id = some c' at hmap
    by_cases e : id = (st.call c).txnId
    · subst e
      rw [Function.update_self] at hmap
      cases hmap
      exact ⟨rfl, h.channel c hc⟩
    · rw [Function.update_of_ne e] at hmap
      exact h.mapped id c' hmap
  · intro id c' hmap c1 hc1 name
    change Function.update st.reqMap (st.call c).txnId (some c) id = some c' at hmap
    by_cases e : id = (st.call c).txnId
    · subst e
      rw [Function.update_self] at hmap
      cases hmap
      exact order.1 c1 hc1 name.symm
    · rw [Function.update_of_ne e] at hmap
      exact h.newer id c' hmap c1 (inside c1 hc1) name
  · intro c' out clean
    show c' ∈ rest ∨ Function.update st.reqMap (st.call c).txnId (some c) (st.call c').txnId = some c' ∨ _
    rcases h.found c' out clean with found | found | found
    · rw [channel] at found
      rcases List.mem_cons.1 found with rfl | found
      · exact .inr (.inl (Function.update_self ..))
      · exact .inl found
    · by_cases same : (st.call c').txnId = (st.call c).txnId
      · -- an older call under the trace id would have failed
        have older : c' < c := h.newer _ c' found c hc same.symm
        have := h.distinct c' c older (h.started (h.channel c hc)) same
        simp [SyncCall.outstanding, this] at out
      · rw [Function.update_of_ne same]
        exact .inr (.inl found)
    · exact .inr (.inr found)
  · intro o m hhandling
    rw [draining] at hhandling
    cases hhandling

/-- A message is handled: it is handed to the call that it answers, if that still waits. -/
theorem ResponseKept.handle (h : ResponseKept st) {o : Nat} {msg : ResponseMessage} (handling : st.consumer = .handling o)
    (at' : st.topic[o]? = some msg) :
    ResponseKept (st.handle o msg) ∧
      ((st.call msg.call).outstanding = true → (st.call msg.call).cleanedUp = false →
        (st.handle o msg).consumer = .sending (some o) msg.call) := by
  obtain ⟨apecs, ⟨txn, unmarshalled⟩, header, published⟩ := h.topic msg (List.mem_of_getElem? at')
  have id : traceIdFromTraceParent msg.traceParent = (st.call msg.call).txnId := by
    rw [header]
    rfl
  have busy : ∀ response c, st.consumer ≠ .sending response c := by
    intro response c e
    rw [handling] at e
    cases e
  cases found : st.reqMap (st.call msg.call).txnId with
  | none =>
    have handled : st.handle o msg = { st with consumer := .select } := by
      unfold ResponseState.handle
      simp only [apecs, if_true, id, found]
    rw [handled]
    refine ⟨h.toSelect fun _ _ e => absurd e (busy _ _), fun out clean => ?_⟩
    have := h.handling o msg handling at' out clean
    rw [found] at this
    cases this
  | some c =>
    have handled : st.handle o msg =
        { st with reqMap := Function.update st.reqMap (st.call msg.call).txnId none, consumer := .sending (some o) c } := by
      unfold ResponseState.handle
      simp only [apecs, if_true, id, found, unmarshalled]
    obtain ⟨name, registered⟩ := h.mapped _ c found
    have kept : ∀ id' c', Function.update st.reqMap (st.call msg.call).txnId none id' = some c' → st.reqMap id' = some c' := by
      intro id' c' hmap
      by_cases e : id' = (st.call msg.call).txnId
      · subst e
        rw [Function.update_self] at hmap
        cases hmap
      · rwa [Function.update_of_ne e] at hmap
    rw [handled]
    refine ⟨⟨h.fresh, h.distinct, h.topic, h.channel, fun id' c' hmap => h.mapped id' c' (kept id' c' hmap), h.order,
      fun id' c' hmap => h.newer id' c' (kept id' c' hmap), ?_, ?_, ?_, ?_, ?_, h.returned⟩, fun out clean => ?_⟩
    · intro c' out clean
      show _ ∨ Function.update st.reqMap (st.call msg.call).txnId none (st.call c').txnId = some c' ∨ _
      rcases h.found c' out clean with hc | hc | ⟨response, hc⟩
      · exact .inl hc
      · by_cases e : (st.call c').txnId = (st.call msg.call).txnId
        · rw [e, found] at hc
          cases hc
          exact .inr (.inr ⟨some o, rfl⟩)
        · rw [Function.update_of_ne e]
          exact .inr (.inl hc)
      · exact absurd hc (busy _ _)
    · rintro o' (e | e) <;> cases e
    · rintro o' m e
      cases e
    · rintro response c' e
      cases e
      exact registered
    · rintro o' c' e out
      cases e
      refine ⟨msg, at', ?_⟩
      apply h.unique name.symm (SyncCall.registered_of_published published) registered
      · intro gone
        simp [SyncCall.published, gone] at published
      · intro gone
        simp [SyncCall.outstanding, gone] at out
    · have := h.handling o msg handling at' out clean
      rw [found] at this
      cases this
      rfl

theorem ResponseKept.cleanup (h : ResponseKept st) {txnId : String} (selecting : st.consumer = .select)
    (found : st.reqMap txnId = some c) : ResponseKept (st.cleanup txnId c) := by
  obtain ⟨name, registered⟩ := h.mapped txnId c found
  have phase : ∀ c', ((st.cleanup txnId c).call c').phase = (st.call c').phase := fun c' => by
    by_cases e : c' = c <;> simp [ResponseState.cleanup, e]
  have header : ∀ c', ((st.cleanup txnId c).call c').traceParent = (st.call c').traceParent := fun c' => by
    by_cases e : c' = c <;> simp [ResponseState.cleanup, e]
  have id : ∀ c', ((st.cleanup txnId c).call c').txnId = (st.call c').txnId := fun c' => by
    unfold SyncCall.txnId
    rw [header]
  have reg : ∀ c', ((st.cleanup txnId c).call c').registered = (st.call c').registered := fun c' => by
    simp only [SyncCall.registered, phase]
  have kept : ∀ id' c', Function.update st.reqMap txnId none id' = some c' → st.reqMap id' = some c' := by
    intro id' c' hmap
    by_cases e : id' = txnId
    · subst e
      rw [Function.update_self] at hmap
      cases hmap
    · rwa [Function.update_of_ne e] at hmap
  constructor
  · intro c' hc
    rw [phase]
    exact h.fresh c' hc
  · intro c1 c2 lt hc same
    rw [id, id] at same
    rw [phase]
    exact h.distinct c1 c2 lt hc same
  · intro msg hmsg
    obtain ⟨apecs, txn, from', published⟩ := h.topic msg hmsg
    exact ⟨apecs, txn, by rw [header]; exact from', by simpa only [SyncCall.published, phase] using published⟩
  · intro c' hc
    rw [reg]
    exact h.channel c' hc
  · intro id' c' hmap
    rw [id, reg]
    exact h.mapped id' c' (kept id' c' hmap)
  · exact h.order.imp fun older same => older (by rwa [id, id] at same)
  · intro id' c' hmap c1 hc1 name'
    rw [id] at name'
    exact h.newer id' c' (kept id' c' hmap) c1 hc1 name'
  · intro c' out clean
    have other : c' ≠ c := by
      rintro rfl
      simp [ResponseState.cleanup] at clean
    have same : (st.cleanup txnId c).call c' = st.call c' := by simp [ResponseState.cleanup, other]
    rw [same] at out clean ⊢
    rcases h.found c' out clean with hc | hc | ⟨response, hc⟩
    · exact .inl hc
    · right
      left
      have : (st.call c').txnId ≠ txnId := by
        intro e
        rw [e, found] at hc
        cases hc
        exact other rfl
      show Function.update st.reqMap txnId none _ = some c'
      rwa [Function.update_of_ne this]
    · rw [selecting] at hc
      cases hc
  · rintro o (e | e) <;> cases e
  · rintro o msg e
    cases e
  · rintro response c' e
    cases e
    rw [reg]
    exact registered
  · rintro o c' e
    cases e
  · intro c' o hret
    rw [phase] at hret
    exact h.returned c' o hret

theorem ResponseKept.respond (h : ResponseKept st) (txn : ApecsTxn) (published : (st.call c).published = true) :
    ResponseKept { st with topic := st.topic ++ [⟨true, (st.call c).traceParent, .ok txn, c⟩] } := by
  have grows : ∀ {o : Nat} {msg : ResponseMessage}, st.topic[o]? = some msg →
      (st.topic ++ [⟨true, (st.call c).traceParent, .ok txn, c⟩])[o]? = some msg := by
    intro o msg hmsg
    rw [List.getElem?_append_left (List.getElem?_eq_some_iff.1 hmsg).1]
    exact hmsg
  refine ⟨h.fresh, h.distinct, ?_, h.channel, h.mapped, h.order, h.newer, h.found, ?_, ?_, h.receiver, ?_, ?_⟩
  · intro msg hmsg
    rcases List.mem_append.1 hmsg with hmsg | hmsg
    · exact h.topic msg hmsg
    · rw [List.mem_singleton.1 hmsg]
      exact ⟨rfl, ⟨txn, rfl⟩, rfl, published⟩
  · intro o ho
    have := h.reading o ho
    show o < (st.topic ++ _).length
    rw [List.length_append]
    omega
  · intro o msg hc hmsg
    have inside := h.reading o (.inr hc)
    change (st.topic ++ _)[o]? = some msg at hmsg
    rw [List.getElem?_append_left inside] at hmsg
    exact h.handling o msg hc hmsg
  · intro o c' hc out
    obtain ⟨msg, hmsg, own⟩ := h.sending o c' hc out
    exact ⟨msg, grows hmsg, own⟩
  · intro c' o hret
    obtain ⟨msg, hmsg, own⟩ := h.returned c' o hret
    exact ⟨msg, grows hmsg, own⟩

theorem ResponseKept.produce (h : ResponseKept st) (producing : (st.call c).phase = .producing) (succeeds : Bool) :
    ResponseKept (st.setPhase c (if succeeds then .waiting else .unpublished)) := by
  have open' : (st.call c).outstanding = true := SyncCall.outstanding_iff.2 (.inl producing)
  apply h.move
  apply CallsMove.setPhase (SyncCall.registered_of_outstanding open') open'
  · cases succeeds <;> simp
  · intro waiting
    rw [producing] at waiting
    cases waiting
  · intro o e
    cases succeeds <;> cases e

theorem ResponseKept.giveUp (h : ResponseKept st) (waiting : (st.call c).phase = .waiting) :
    ResponseKept (st.setPhase c .gaveUp) := by
  have open' : (st.call c).outstanding = true := SyncCall.outstanding_iff.2 (.inr waiting)
  apply h.move
  apply CallsMove.setPhase (SyncCall.registered_of_outstanding open') open'
  · simp
  · simp
  · rintro o ⟨⟩

theorem ResponseKept.receive (h : ResponseKept st) {response : Option Nat} (sending : st.consumer = .sending response c)
    (waiting : (st.call c).phase = .waiting) :
    ResponseKept { st.setPhase c (.returned response) with consumer := .select } := by
  have open' : (st.call c).outstanding = true := SyncCall.outstanding_iff.2 (.inr waiting)
  have moved : ResponseKept (st.setPhase c (.returned response)) := by
    apply h.move
    apply CallsMove.setPhase (SyncCall.registered_of_outstanding open') open'
    · simp
    · simp
    · intro o e
      cases e
      exact h.sending o c sending open'
  apply moved.toSelect
  intro response' c' e
  have same : st.consumer = .sending response' c' := e
  rw [sending] at same
  cases same
  simp [ResponseState.setPhase, SyncCall.outstanding]

theorem ResponseKept.drained (h : ResponseKept st) {o : Nat} (draining : st.consumer = .draining (some o))
    (empty : st.respRegisterCh = []) : ResponseKept { st with consumer := .handling o } := by
  have busy : ∀ response c, st.consumer ≠ .sending response c := by
    intro response c e
    rw [draining] at e
    cases e
  refine h.setConsumer (fun _ _ e => absurd e (busy _ _)) ?_ ?_ (by simp)
  · intro o' e
    rcases e with e | e <;> cases e
    exact h.reading o (.inl draining)
  · intro o' msg e hmsg out clean
    rcases h.found msg.call out clean with found | found | ⟨response, found⟩
    · rw [empty] at found
      cases found
    · exact found
    · exact absurd found (busy _ _)

/-- The consumer has read a response, and goes on with the registrations. -/
theorem ResponseKept.read (h : ResponseKept st) (selecting : st.consumer = .select) (below : st.position < st.topic.length) :
    ResponseKept { st with consumer := .draining (some st.position), position := st.position + 1 } := by
  have reads : ResponseKept { st with consumer := .draining (some st.position) } := by
    refine h.setConsumer (by simp [selecting]) (fun o e => ?_) (by simp) (by simp)
    rcases e with e | e <;> cases e
    exact below
  exact ⟨reads.fresh, reads.distinct, reads.topic, reads.channel, reads.mapped, reads.order, reads.newer, reads.found,
    reads.reading, reads.handling, reads.receiver, reads.sending, reads.returned⟩

/-- The consumer goes on without a response, or stops. -/
theorem ResponseKept.unselect (h : ResponseKept st) (selecting : st.consumer = .select) {phase : ResponsePhase}
    (idle : phase = .draining none ∨ phase = .stopped) : ResponseKept { st with consumer := phase } := by
  rcases idle with rfl | rfl <;> exact h.setConsumer (by simp [selecting]) (by simp) (by simp) (by simp)

/-- The panic of a send on a closed channel is recovered from: its call has returned. -/
theorem ResponseKept.recover (h : ResponseKept st) {response : Option Nat} {c : Nat} (sending : st.consumer = .sending response c)
    (closed : (st.call c).closed = true) : ResponseKept { st with consumer := .select } := by
  apply h.toSelect
  intro response' c' e
  rw [sending] at e
  cases e
  exact SyncCall.not_outstanding_of_closed closed

theorem ResponseKept.step {a : ResponseAction} (h : ResponseKept st) (fresh : FreshTraceId st a)
    (hs : st.step a = some st') : ResponseKept st' := by
  cases a with
  | start traceParent =>
    simp only [ResponseState.step] at hs
    split at hs
    · cases hs
    · cases hs
      exact h.start fresh
  | register c =>
    simp only [ResponseState.step] at hs
    split at hs
    · rename_i guard
      cases hs
      exact h.register guard.1
    · cases hs
  | produce c succeeds =>
    simp only [ResponseState.step] at hs
    split at hs
    · cases hs
      exact h.produce ‹_› succeeds
    · cases hs
  | giveUp c =>
    simp only [ResponseState.step] at hs
    split at hs
    · cases hs
      exact h.giveUp ‹_›
    · cases hs
  | respond c txn =>
    simp only [ResponseState.step] at hs
    split at hs
    · cases hs
      exact h.respond txn ‹_›
    · cases hs
  | read =>
    simp only [ResponseState.step] at hs
    split at hs
    · rename_i guard
      cases hs
      exact h.read guard.1 guard.2
    · cases hs
  | readTimeout =>
    simp only [ResponseState.step] at hs
    split at hs
    · cases hs
      exact h.unselect ‹_› (.inl rfl)
    · cases hs
  | drain =>
    simp only [ResponseState.step] at hs
    split at hs
    · cases hs
      exact h.drain ‹_› ‹_›
    · cases hs
  | drained =>
    simp only [ResponseState.step] at hs
    split at hs
    · rename_i draining _
      cases hs
      exact h.toSelect (by simp [draining])
    · cases hs
      exact h.drained ‹_› ‹_›
    · cases hs
  | handle =>
    simp only [ResponseState.step] at hs
    split at hs
    · split at hs
      · cases hs
      · cases hs
        exact (h.handle ‹_› ‹_›).1
    · cases hs
  | cleanup txnId =>
    simp only [ResponseState.step] at hs
    split at hs
    · split at hs
      · cases hs
      · cases hs
        exact h.cleanup ‹_› ‹_›
    · cases hs
  | receive =>
    simp only [ResponseState.step] at hs
    split at hs
    · split at hs
      · cases hs
        exact h.receive ‹_› ‹_›
      · cases hs
    · cases hs
  | recover =>
    simp only [ResponseState.step] at hs
    split at hs
    · split at hs
      · cases hs
        exact h.recover ‹_› ‹_›
      · cases hs
    · cases hs
  | stop =>
    simp only [ResponseState.step] at hs
    split at hs
    · cases hs
      exact h.unselect ‹_› (.inr rfl)
    · cases hs

theorem ResponseKept.init : ResponseKept .new := by
  constructor <;> simp [ResponseState.new, SyncCall.outstanding]

end

/-! ## Responses and calls -/

/-- While a response is handed to a call that waits, nothing else happens to either, but that the call
returns with it or gives up. -/
theorem sending_until_received {st st' : ResponseState} {o c : Nat} {a : ResponseAction}
    (sending : st.consumer = .sending (some o) c) (waits : (st.call c).outstanding = true) (hs : st.step a = some st') :
    st'.consumer = .sending (some o) c ∨ (st'.call c).phase = .returned (some o) := by
  cases a <;> simp only [ResponseState.step, sending] at hs
  case start => split at hs <;> cases hs; exact .inl sending
  case register => split at hs <;> cases hs; exact .inl sending
  case produce => split at hs <;> cases hs; exact .inl sending
  case giveUp => split at hs <;> cases hs; exact .inl sending
  case respond => split at hs <;> cases hs; exact .inl rfl
  case read => simp at hs
  case readTimeout => simp at hs
  case drain => cases hs
  case drained => cases hs
  case handle => cases hs
  case cleanup => simp at hs
  case receive =>
    split at hs
    · cases hs
      right
      simp [ResponseState.setPhase]
    · cases hs
  case recover =>
    split at hs
    · rename_i closed
      rw [SyncCall.not_outstanding_of_closed closed] at waits
      cases waits
    · cases hs
  case stop => simp at hs

/-- Responses reach the call that asked. -/
structure Answered (st : ResponseState) : Prop where
  /-- A call returns its own transaction. -/
  own : ∀ c o, (st.call c).phase = .returned (some o) → ∃ msg, st.topic[o]? = some msg ∧ msg.call = c
  /-- No response is handed to a call when another one has returned with it. -/
  once : ∀ c c' o, (st.call c).phase = .returned (some o) →
    (st.call c').phase = .returned (some o) ∨ st.consumer = .sending (some o) c' ∧ (st.call c').outstanding = true → c = c'
  /-- A response that is handled while its call waits is handed to it. -/
  delivered : ∀ o msg, st.consumer = .handling o → st.topic[o]? = some msg → (st.call msg.call).outstanding = true →
    (st.call msg.call).cleanedUp = false → ∀ st', st.step .handle = some st' → st'.consumer = .sending (some o) msg.call
  /-- And stays handed to it until it returns with it or gives up. -/
  received : ∀ o c, st.consumer = .sending (some o) c → (st.call c).outstanding = true → ∀ a st', st.step a = some st' →
    st'.consumer = .sending (some o) c ∨ (st'.call c).phase = .returned (some o)

/-- Responses reach their calls in every run in which no call is made under a trace id that another one
has published under. -/
theorem responses_reach_their_calls {tr : List (ResponseState × ResponseAction)} {st : ResponseState}
    (path : Path ResponseState.step .new tr st) (fresh : ∀ e ∈ tr, FreshTraceId e.1 e.2) : Answered st := by
  have kept : ResponseKept st :=
    path.invariant ResponseKept FreshTraceId .init (fun _ _ _ ok h hs => h.step ok hs) fresh
  constructor
  · exact kept.returned
  · intro c c' o hret other
    obtain ⟨msg, hmsg, own⟩ := kept.returned c o hret
    have own' : ∃ msg', st.topic[o]? = some msg' ∧ msg'.call = c' := by
      rcases other with hret' | ⟨sending, waits⟩
      · exact kept.returned c' o hret'
      · exact kept.sending o c' sending waits
    obtain ⟨msg', hmsg', own'⟩ := own'
    rw [hmsg] at hmsg'
    cases hmsg'
    exact own.symm.trans own'
  · intro o msg handling at' waits clean st' hs
    simp only [ResponseState.step, handling, at'] at hs
    cases hs
    exact (kept.handle handling at').2 waits clean
  · intro o c sending waits a st' hs
    exact sending_until_received sending waits hs

instance (st : ResponseState) (a : ResponseAction) : Decidable (FreshTraceId st a) :=
  match a with
  | .start traceParent => inferInstanceAs (Decidable (∀ c < st.started,
      (st.call c).txnId = traceIdFromTraceParent traceParent → (st.call c).phase = .unpublished))
  | .register _ | .produce _ _ | .giveUp _ | .respond _ _ | .read | .readTimeout | .drain | .drained | .handle
  | .cleanup _ | .receive | .recover | .stop => isTrue trivial

/-- Two calls under the given trace contexts. The response to the first comes when both wait. -/
def twoCalls (traceParent traceParent' : String) : List ResponseAction :=
  [.start traceParent, .register 0, .produce 0 true, .start traceParent', .register 1, .produce 1 true,
    .respond 0 { id := traceIdFromTraceParent traceParent, uponError := .report, forwardSteps := [] },
    .read, .drain, .drain, .drained, .handle, .receive]

def firstTraceParent : String := "00-00000000000000000000000000000001-0000000000000001-01"

def secondTraceParent : String := "00-00000000000000000000000000000002-0000000000000001-01"

theorem responses_reach_their_calls_twoCalls :
    Answered (after ResponseState.step .new (twoCalls firstTraceParent secondTraceParent)) :=
  responses_reach_their_calls (path_after (by decide +kernel)) (by decide +kernel)

/-- Under one trace context the second call returns with the transaction of the first. -/
theorem response_reaches_other_call :
    ∃ tr st, Path ResponseState.step .new tr st ∧ (st.call 1).phase = .returned (some 0) ∧
      (st.call 0).phase = .waiting ∧ ∃ msg, st.topic[0]? = some msg ∧ msg.call = 0 := by
  let calls := twoCalls firstTraceParent firstTraceParent
  have ends : (runs ResponseState.step .new calls).any (fun st =>
      decide ((st.call 1).phase = .returned (some 0)) && decide ((st.call 0).phase = .waiting) &&
        st.topic[0]?.any fun msg => decide (msg.call = 0)) = true := by decide +kernel
  obtain ⟨path, ends⟩ := path_of_any ends
  simp only [Bool.and_eq_true, decide_eq_true_eq, Option.any_eq_true] at ends
  obtain ⟨⟨other, first⟩, message⟩ := ends
  exact ⟨_, _, path, other, first, message⟩

end Rocketcycle
