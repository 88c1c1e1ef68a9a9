import Rocketcycle.Apecs.Sending
import Rocketcycle.Stream.Submitting

/-!
# Producing

What the producers of a process make of what is asked of them over one message: each is found or
made, and is handed what is sent. One that is made without its topics ends the process.
-/

namespace Rocketcycle.Stream

/-- The messages that are handed to a producer. A response goes to the brokers. -/
def handOn (mprod : ManagedProducer) : List Publication → Except Fault Unit
  | [] => .ok ()
  | msg :: rest =>
    match msg.dest with
    | .response _ => handOn mprod rest
    | .topic _ _ =>
      match handleMessage mprod msg with
      | .error f => .error f
      | .ok _ => handOn mprod rest

/-- `GetManagedProducer`, a new producer being told of `told`, and then `Produce`. -/
def produce (told : Key → AcceptedDef) (s : State) (a : Asked) : Except Fault State :=
  match getManagedProducer s a.key (told a.key).toRtPlatformDef with
  | .error f => .error f
  | .ok s =>
    match s.producers a.key with
    | none => .ok s
    | some mprod => (handOn mprod a.sent).map fun _ => s

def produceAll (told : Key → AcceptedDef) : State → List Asked → Except Fault State
  | s, [] => .ok s
  | s, a :: rest =>
    match produce told s a with
    | .error f => .error f
    | .ok s => produceAll told s rest

/-- The producer has topics to write to. -/
def ManagedProducer.HasTopics (mprod : ManagedProducer) : Prop :=
  ∃ topics current, mprod.topics = some topics ∧ topics.topics.current = some current

/-- The producers that have been made have their topics. -/
def State.Ready (s : State) : Prop := ∀ key mprod, s.producers key = some mprod → mprod.HasTopics

section
variable {told : Key → AcceptedDef} {s s' : State} {a : Asked} {key : Key} {first : AcceptedDef} {mprod : ManagedProducer}

theorem ManagedProducer.HasTopics.handOn (h : mprod.HasTopics) (msgs : List Publication) :
    Stream.handOn mprod msgs = .ok () := by
  obtain ⟨topics, current, found, here⟩ := h
  induction msgs with
  | nil => rfl
  | cons msg rest ih =>
    have handled : ∃ sent, handleMessage mprod msg = .ok sent := by
      unfold handleMessage
      split
      · exact ⟨_, rfl⟩
      · simp [prepKafkaMessage, found, here, Except.map]
    obtain ⟨sent, handled⟩ := handled
    unfold Stream.handOn
    split
    · exact ih
    · rw [handled]
      exact ih

end

end Rocketcycle.Stream
