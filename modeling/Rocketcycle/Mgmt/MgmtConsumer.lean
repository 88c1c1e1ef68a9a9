import Rocketcycle.Net.ConsumeTopic

/-!
# Finding the last match

`pkg/mgmt/mgmt_consumer.go`: before a management topic is consumed, its last message that contains a
directive is looked for. The search reads the last message of the topic, then the last ten and so on.
A larger window has all of a smaller one, so that the first window with a match has the last one. The
largest window that is read has 10000 messages.
-/

namespace Rocketcycle.Mgmt

inductive MatchLoc where
  | pastLastMatch
  | atLastMatch
  deriving DecidableEq, Repr

inductive FindResult where
  | continueSearch
  | found
  | stop
  deriving DecidableEq, Repr

/-- `Directive_ALL`. -/
def directiveAll : Int := -1

/-- `(directive & match) == match`, on numbers of 32 bits. -/
def contains (directive m : Int) : Bool := BitVec.ofInt 32 directive &&& BitVec.ofInt 32 m = BitVec.ofInt 32 m

/-- A message contains the directive. It has no answer where `GetDirective` panics. -/
def isMatch (m : Int) (msg : KafkaMessage) : Bool :=
  match getDirective msg with
  | none => false
  | some directive => contains directive m

/-- A consumer of the topic as the search uses it: the error of its making, what
`QueryWatermarkOffsets` answers, and, assigned to an offset, what `ReadMessage` answers from there on
until it times out. -/
structure MgmtConsumer where
  newConsumer : Option GoError
  watermarks : Except GoError (Int × Int)
  reads : Int → List (Except GoError KafkaMessage)

def errTimedOut : GoError := .other "kafka.ErrTimedOut"

/-- The loop over `ReadMessage`, up to the last message below `high`. -/
def scan (m high : Int) : List (Except GoError KafkaMessage) → Int → Reply Int
  | [], _ => .error (.err errTimedOut)
  | .error e :: _, _ => .error (.err e)
  | .ok msg :: rest, matchingOffset =>
    match getDirective msg with
    | none => .error (.panic .indexOutOfRange)
    | some directive =>
      let matchingOffset := if contains directive m then msg.offset else matchingOffset
      if msg.offset ≥ high - 1 then .ok matchingOffset else scan m high rest matchingOffset

/-- `findMostRecentMatching`, of the last `delta` offsets. -/
def findWithin (cons : MgmtConsumer) (m : Int) (matchLoc : MatchLoc) (delta : Nat) : Reply (FindResult × Int) :=
  match cons.newConsumer with
  | some e => .error (.err e)
  | none =>
    match cons.watermarks with
    | .error e => .error (.err e)
    | .ok (low, high) =>
      if matchLoc = .pastLastMatch then .ok (.found, high)
      else if m = directiveAll then .ok (.found, if matchLoc = .atLastMatch then max 0 (high - 1) else high)
      else
        let startOffset := max low (high - delta)
        match scan m high (cons.reads startOffset) (-1) with
        | .error e => .error e
        | .ok matchingOffset =>
          if matchingOffset ≠ -1 then
            .ok (.found, if matchLoc = .pastLastMatch then matchingOffset + 1 else matchingOffset)
          else if delta < high then .ok (.continueSearch, high)
          else .ok (.stop, high)

/-- `MAX_DELTA`. -/
def maxDelta : Nat := 100000

/-- The loop of `FindMostRecentMatching`, which ends because `delta` grows. -/
def findLoop (cons : MgmtConsumer) (m : Int) (matchLoc : MatchLoc) (delta : Nat) (pos : 0 < delta) (res : FindResult) (mro : Int) :
    Reply (Bool × Int × Option GoError) :=
  if delta < maxDelta then
    match findWithin cons m matchLoc delta with
    | .error (.panic f) => .error (.panic f)
    | .error (.err e) => .ok (false, 0, some e)
    | .ok (res, mro) =>
      if res ≠ .continueSearch then .ok (res = .found, mro, none)
      else findLoop cons m matchLoc (delta * 10) (by omega) res mro
  else .ok (res = .found, mro, none)
termination_by maxDelta - delta

/-- `FindMostRecentMatching`: whether a match was found, its offset, and the error. -/
def findMostRecentMatching (cons : MgmtConsumer) (m : Int) (matchLoc : MatchLoc) : Reply (Bool × Int × Option GoError) :=
  findLoop cons m matchLoc 1 (by decide) .continueSearch 0

/-! ## A log -/

/-- What a topic of one partition holds from its low watermark on. -/
structure MgmtLog where
  low : Nat
  messages : List KafkaMessage
  contiguous : ∀ (i : Nat) (msg : KafkaMessage), messages[i]? = some msg → msg.offset = low + i

namespace MgmtLog

def high (log : MgmtLog) : Nat := log.low + log.messages.length

/-- The consumer of a log that nothing is added to. -/
def consumer (log : MgmtLog) : MgmtConsumer where
  newConsumer := none
  watermarks := .ok (log.low, log.high)
  reads start := (log.messages.drop (start - log.low).toNat).map .ok

/-- The messages at the last `n` offsets. -/
def lastMessages (log : MgmtLog) (n : Nat) : List KafkaMessage := log.messages.drop (log.messages.length - n)

end MgmtLog

/-- Some message has the directive. -/
def Matches (m : Int) (msgs : List KafkaMessage) : Prop := ∃ msg ∈ msgs, isMatch m msg = true

/-- The directives of all messages can be read. -/
def Readable (msgs : List KafkaMessage) : Prop := ∀ msg ∈ msgs, (getDirective msg).isSome

/-- The search returns. It finds the last match if there is one among the last 100000 offsets, and none
if there is none. -/
def FindsLast (log : MgmtLog) (m : Int) : Prop :=
  ∃ found mro err, findMostRecentMatching log.consumer m .atLastMatch = .ok (found, mro, err) ∧
    (Matches m (log.lastMessages maxDelta) →
      found = true ∧ ∃ msg ∈ log.messages, msg.offset = mro ∧ isMatch m msg ∧ ∀ msg' ∈ log.messages, isMatch m msg' → msg'.offset ≤ mro) ∧
    (¬Matches m log.messages → found = false)

/-- The directives of the windows that are read can be read themselves: those of a window that comes
after one with a match do not matter. -/
def Clear (log : MgmtLog) (m : Int) (deltas : List Nat) : Prop :=
  ∀ delta ∈ deltas, (∀ smaller ∈ deltas, smaller < delta → ¬Matches m (log.lastMessages smaller)) → Readable (log.lastMessages delta)

/-! ## Reading a window -/

/-- The offset of the last message with the directive, or the one given. -/
def lastMatch (m : Int) (msgs : List KafkaMessage) (matchingOffset : Int) : Int :=
  msgs.foldl (fun k msg => if isMatch m msg then msg.offset else k) matchingOffset

section
variable {m : Int} {msgs : List KafkaMessage} {start k : Int}

/-- Offsets that follow each other. -/
def From (start : Int) (msgs : List KafkaMessage) : Prop := ∀ (i : Nat) (msg : KafkaMessage), msgs[i]? = some msg → msg.offset = start + i

theorem From.tail {msg : KafkaMessage} (h : From start (msg :: msgs)) : From (start + 1) msgs := by
  intro i msg' hi
  have next := h (i + 1) msg' hi
  omega

theorem From.le {msg : KafkaMessage} (h : From start msgs) (mem : msg ∈ msgs) : start ≤ msg.offset ∧ msg.offset < start + msgs.length := by
  obtain ⟨i, inside, rfl⟩ := List.getElem_of_mem mem
  have here := h i msgs[i] (List.getElem?_eq_getElem inside)
  omega

theorem isMatch_of_getDirective {msg : KafkaMessage} {directive : Int} (h : getDirective msg = some directive) :
    isMatch m msg = contains directive m := by
  unfold isMatch
  rw [h]

/-- The loop ends at the last message with the last match, unless a directive cannot be read. -/
theorem scan_window {high : Int} (offsets : From start msgs) (last : high = start + msgs.length) (some : msgs ≠ []) :
    (Readable msgs → scan m high (msgs.map .ok) k = .ok (lastMatch m msgs k)) ∧
      (¬Readable msgs → ∃ f, scan m high (msgs.map .ok) k = .error (.panic f)) := by
  induction msgs generalizing start k with
  | nil => exact absurd rfl some
  | cons msg rest ih =>
    have first : msg.offset = start := by
      have here := offsets 0 msg rfl
      omega
    rw [List.length_cons] at last
    rw [List.map_cons, scan]
    cases read : getDirective msg with
    | none =>
      refine ⟨fun readable => ?_, fun _ => ⟨_, rfl⟩⟩
      have here := readable msg List.mem_cons_self
      rw [read] at here
      cases here
    | some directive =>
      have tail : Readable (msg :: rest) ↔ Readable rest := by
        constructor
        · intro h msg' h'
          exact h msg' (List.mem_cons_of_mem _ h')
        · intro h msg' h'
          obtain rfl | h' := List.mem_cons.1 h'
          · rw [read]
            rfl
          · exact h msg' h'
      dsimp only
      rw [← isMatch_of_getDirective (m := m) read]
      by_cases done : rest = []
      · subst done
        have at_end : msg.offset ≥ high - 1 := by
          rw [last, first, List.length_nil]
          omega
        rw [if_pos at_end, tail]
        exact ⟨fun _ => rfl, fun h => absurd (fun msg' h' => absurd h' List.not_mem_nil) h⟩
      · have more : 0 < rest.length := List.length_pos_iff.2 done
        rw [if_neg (by omega), tail]
        exact ih offsets.tail (by omega) done

theorem lastMatch_cons (msg : KafkaMessage) :
    lastMatch m (msg :: msgs) k = lastMatch m msgs (if isMatch m msg then msg.offset else k) := rfl

theorem lastMatch_of_none (h : ¬Matches m msgs) : lastMatch m msgs k = k := by
  induction msgs generalizing k with
  | nil => rfl
  | cons msg rest ih =>
    have first : ¬isMatch m msg = true := fun hm => h ⟨msg, List.mem_cons_self, hm⟩
    rw [lastMatch_cons, if_neg first]
    apply ih
    intro later
    obtain ⟨msg', mem, hm⟩ := later
    exact h ⟨msg', List.mem_cons_of_mem _ mem, hm⟩

theorem lastMatch_of_some (offsets : From start msgs) (h : Matches m msgs) :
    ∃ msg ∈ msgs, msg.offset = lastMatch m msgs k ∧ isMatch m msg ∧ ∀ msg' ∈ msgs, isMatch m msg' → msg'.offset ≤ msg.offset := by
  induction msgs generalizing start k with
  | nil =>
    obtain ⟨msg, mem, -⟩ := h
    cases mem
  | cons first rest ih =>
    have here : first.offset = start := by
      have at_front := offsets 0 first rfl
      omega
    rw [lastMatch_cons]
    by_cases later : Matches m rest
    · obtain ⟨msg, mem, eq, hm, greatest⟩ := ih (k := if isMatch m first then first.offset else k) offsets.tail later
      refine ⟨msg, List.mem_cons_of_mem _ mem, eq, hm, ?_⟩
      intro msg' mem' hm'
      obtain rfl | mem' := List.mem_cons.1 mem'
      · have bound := (offsets.tail.le mem).1
        omega
      · exact greatest msg' mem' hm'
    · have hm : isMatch m first = true := by
        obtain ⟨msg, mem, hm⟩ := h
        obtain rfl | mem := List.mem_cons.1 mem
        · exact hm
        · exact absurd ⟨msg, mem, hm⟩ later
      refine ⟨first, List.mem_cons_self, ?_, hm, ?_⟩
      · rw [if_pos hm, lastMatch_of_none later]
      · intro msg' mem' hm'
        obtain rfl | mem' := List.mem_cons.1 mem'
        · exact Int.le_refl _
        · exact absurd ⟨msg', mem', hm'⟩ later

end

/-! ## One window -/

section
variable {log : MgmtLog} {m : Int} {delta delta' : Nat}

theorem lastMessages_subset {msg : KafkaMessage} (h : msg ∈ log.lastMessages delta) : msg ∈ log.messages := List.mem_of_mem_drop h

/-- A larger window has the messages of a smaller one. -/
theorem lastMessages_mono (le : delta ≤ delta') {msg : KafkaMessage} (h : msg ∈ log.lastMessages delta) : msg ∈ log.lastMessages delta' := by
  unfold MgmtLog.lastMessages at h ⊢
  have split : log.messages.length - delta = (log.messages.length - delta') + (log.messages.length - delta - (log.messages.length - delta')) := by
    omega
  rw [split, ← List.drop_drop] at h
  exact List.mem_of_mem_drop h

theorem Matches.mono (le : delta ≤ delta') (h : Matches m (log.lastMessages delta)) : Matches m (log.lastMessages delta') := by
  obtain ⟨msg, mem, hm⟩ := h
  exact ⟨msg, lastMessages_mono le mem, hm⟩

theorem lastMessages_all (h : log.messages.length ≤ delta) : log.lastMessages delta = log.messages := by
  unfold MgmtLog.lastMessages
  rw [Nat.sub_eq_zero_of_le h]
  rfl

theorem from_messages : From log.low log.messages := log.contiguous

theorem from_lastMessages : From (log.low + (log.messages.length - delta : Nat)) (log.lastMessages delta) := by
  intro i msg h
  unfold MgmtLog.lastMessages at h
  rw [List.getElem?_drop] at h
  have here := log.contiguous _ _ h
  omega

/-- Of the matches in a window the last one is the last of the log. -/
theorem greatest_of_window {msg : KafkaMessage} (mem : msg ∈ log.lastMessages delta)
    (greatest : ∀ msg' ∈ log.lastMessages delta, isMatch m msg' → msg'.offset ≤ msg.offset) :
    ∀ msg' ∈ log.messages, isMatch m msg' → msg'.offset ≤ msg.offset := by
  intro msg' mem' hm'
  have bound := (from_lastMessages.le mem).1
  have whole : log.messages = log.messages.take (log.messages.length - delta) ++ log.lastMessages delta := (List.take_append_drop _ _).symm
  rw [whole, List.mem_append] at mem'
  obtain front | back := mem'
  · obtain ⟨i, inside, rfl⟩ := List.getElem_of_mem front
    rw [List.length_take] at inside
    have there : log.messages[i]? = some (log.messages.take (log.messages.length - delta))[i] := by
      rw [List.getElem_take, List.getElem?_eq_getElem]
    have offset := log.contiguous i _ there
    omega
  · exact greatest msg' back hm'

/-- What a round makes of its window. -/
theorem findWithin_log (other : m ≠ directiveAll) (some : log.messages ≠ []) (pos : 0 < delta) :
    (¬Readable (log.lastMessages delta) → ∃ f, findWithin log.consumer m .atLastMatch delta = .error (.panic f)) ∧
    (Readable (log.lastMessages delta) →
      (¬Matches m (log.lastMessages delta) → findWithin log.consumer m .atLastMatch delta =
        .ok (if delta < log.high then .continueSearch else .stop, log.high)) ∧
      (Matches m (log.lastMessages delta) → ∃ msg ∈ log.messages, findWithin log.consumer m .atLastMatch delta = .ok (.found, msg.offset) ∧
        isMatch m msg ∧ ∀ msg' ∈ log.messages, isMatch m msg' → msg'.offset ≤ msg.offset)) := by
  have more : 0 < log.messages.length := List.length_pos_iff.2 some
  have window : log.consumer.reads (max (log.low : Int) (log.high - delta)) = (log.lastMessages delta).map .ok := by
    have start : (max (log.low : Int) (log.high - delta) - log.low).toNat = log.messages.length - delta := by
      unfold MgmtLog.high
      omega
    unfold MgmtLog.consumer MgmtLog.lastMessages
    dsimp only
    rw [start]
  have nonempty : log.lastMessages delta ≠ [] := by
    apply List.length_pos_iff.1
    rw [MgmtLog.lastMessages, List.length_drop]
    omega
  have last : (log.high : Int) = log.low + (log.messages.length - delta : Nat) + (log.lastMessages delta).length := by
    unfold MgmtLog.high MgmtLog.lastMessages
    rw [List.length_drop]
    omega
  obtain ⟨reads, panics⟩ := scan_window (m := m) (k := -1) from_lastMessages last nonempty
  have run : findWithin log.consumer m .atLastMatch delta =
      match scan m log.high ((log.lastMessages delta).map .ok) (-1) with
      | .error e => .error e
      | .ok matchingOffset =>
        if matchingOffset ≠ -1 then .ok (.found, matchingOffset)
        else if (delta : Int) < log.high then .ok (.continueSearch, log.high)
        else .ok (.stop, log.high) := by
    rw [← window]
    unfold findWithin
    simp [MgmtLog.consumer, other]
  rw [run]
  constructor
  · intro unreadable
    obtain ⟨f, hf⟩ := panics unreadable
    rw [hf]
    exact ⟨f, rfl⟩
  · intro readable
    rw [reads readable]
    dsimp only
    constructor
    · intro none
      rw [lastMatch_of_none none]
      by_cases small : delta < log.high
      · have small' : (delta : Int) < log.high := by omega
        simp [small, small']
      · have small' : ¬(delta : Int) < log.high := by omega
        simp [small, small']
    · intro found
      obtain ⟨msg, mem, eq, hm, greatest⟩ := lastMatch_of_some (k := -1) from_lastMessages found
      have bound := (from_messages.le (lastMessages_subset mem)).1
      refine ⟨msg, lastMessages_subset mem, ?_, hm, greatest_of_window mem greatest⟩
      rw [← eq, if_pos (by omega)]

end

/-! ## The rounds -/

/-- The loop over a list of windows. -/
def rounds (cons : MgmtConsumer) (m : Int) (matchLoc : MatchLoc) : List Nat → FindResult → Int → Reply (Bool × Int × Option GoError)
  | [], res, mro => .ok (res = .found, mro, none)
  | delta :: deltas, _, _ =>
    match findWithin cons m matchLoc delta with
    | .error (.panic f) => .error (.panic f)
    | .error (.err e) => .ok (false, 0, some e)
    | .ok (res, mro) =>
      if res ≠ .continueSearch then .ok (res = .found, mro, none)
      else rounds cons m matchLoc deltas res mro

/-- The windows that are read before `delta` reaches `MAX_DELTA`. -/
def searched : List Nat := [1, 10, 100, 1000, 10000]

section
variable {cons : MgmtConsumer} {m : Int} {matchLoc : MatchLoc}

theorem findLoop_rounds {delta : Nat} {deltas : List Nat} (pos : 0 < delta) (small : delta < maxDelta)
    (next : ∀ res mro, findLoop cons m matchLoc (delta * 10) (by omega) res mro = rounds cons m matchLoc deltas res mro) (res : FindResult) (mro : Int) :
    findLoop cons m matchLoc delta pos res mro = rounds cons m matchLoc (delta :: deltas) res mro := by
  rw [findLoop, if_pos small, rounds]
  simp only [next]

theorem findMostRecentMatching_rounds : findMostRecentMatching cons m matchLoc = rounds cons m matchLoc searched .continueSearch 0 := by
  have last : ∀ res mro, findLoop cons m matchLoc 100000 (by decide) res mro = rounds cons m matchLoc [] res mro := by
    intro res mro
    rw [findLoop, if_neg (by decide), rounds]
  have fifth : ∀ res mro, findLoop cons m matchLoc 10000 (by decide) res mro = rounds cons m matchLoc [10000] res mro :=
    findLoop_rounds (by decide) (by decide) last
  have fourth : ∀ res mro, findLoop cons m matchLoc 1000 (by decide) res mro = rounds cons m matchLoc [1000, 10000] res mro :=
    findLoop_rounds (by decide) (by decide) fifth
  have third : ∀ res mro, findLoop cons m matchLoc 100 (by decide) res mro = rounds cons m matchLoc [100, 1000, 10000] res mro :=
    findLoop_rounds (by decide) (by decide) fourth
  have second : ∀ res mro, findLoop cons m matchLoc 10 (by decide) res mro = rounds cons m matchLoc [10, 100, 1000, 10000] res mro :=
    findLoop_rounds (by decide) (by decide) third
  exact findLoop_rounds (by decide) (by decide) second .continueSearch 0

end

section
variable {log : MgmtLog} {m : Int} {delta : Nat} {deltas : List Nat}

theorem readable_of_clear (increasing : ∀ d ∈ deltas, delta < d) (clear : Clear log m (delta :: deltas)) : Readable (log.lastMessages delta) := by
  apply clear delta List.mem_cons_self
  intro smaller mem less
  obtain rfl | mem := List.mem_cons.1 mem
  · omega
  · have above := increasing smaller mem
    omega

theorem clear_cons_of_match (increasing : ∀ d ∈ deltas, delta < d) (h : Matches m (log.lastMessages delta)) :
    Clear log m (delta :: deltas) ↔ Readable (log.lastMessages delta) := by
  refine ⟨readable_of_clear increasing, ?_⟩
  intro readable d mem before
  obtain rfl | mem := List.mem_cons.1 mem
  · exact readable
  · exact absurd h (before delta List.mem_cons_self (increasing d mem))

theorem clear_cons_of_none (increasing : ∀ d ∈ deltas, delta < d) (h : ¬Matches m (log.lastMessages delta)) :
    Clear log m (delta :: deltas) ↔ Readable (log.lastMessages delta) ∧ Clear log m deltas := by
  constructor
  · intro clear
    refine ⟨readable_of_clear increasing clear, ?_⟩
    intro d mem before
    apply clear d (List.mem_cons_of_mem _ mem)
    intro smaller mem' less
    obtain rfl | mem' := List.mem_cons.1 mem'
    · exact h
    · exact before smaller mem' less
  · intro both d mem before
    obtain rfl | mem := List.mem_cons.1 mem
    · exact both.1
    · exact both.2 d mem fun smaller mem' less => before smaller (List.mem_cons_of_mem _ mem') less

/-- The rounds panic where a directive cannot be read, and else find the last match of the log if one of
the windows has a match. -/
theorem rounds_log (other : m ≠ directiveAll) (some : log.messages ≠ []) (increasing : deltas.Pairwise (· < ·)) (pos : ∀ d ∈ deltas, 0 < d) (mro : Int) :
    (¬Clear log m deltas → ∃ f, rounds log.consumer m .atLastMatch deltas .continueSearch mro = .error (.panic f)) ∧
    (Clear log m deltas →
      ((∀ d ∈ deltas, ¬Matches m (log.lastMessages d)) → ∃ mro', rounds log.consumer m .atLastMatch deltas .continueSearch mro = .ok (false, mro', none)) ∧
      ((∃ d ∈ deltas, Matches m (log.lastMessages d)) → ∃ msg ∈ log.messages,
        rounds log.consumer m .atLastMatch deltas .continueSearch mro = .ok (true, msg.offset, none) ∧ isMatch m msg ∧
          ∀ msg' ∈ log.messages, isMatch m msg' → msg'.offset ≤ msg.offset)) := by
  induction deltas generalizing mro with
  | nil =>
    constructor
    · intro unclear
      exact absurd (fun d mem => absurd mem List.not_mem_nil) unclear
    · intro _
      refine ⟨fun _ => ⟨mro, rfl⟩, ?_⟩
      intro h
      obtain ⟨d, mem, -⟩ := h
      cases mem
  | cons delta deltas ih =>
    obtain ⟨above, increasing⟩ := List.pairwise_cons.1 increasing
    have round := @findWithin_log log m delta other some (pos delta List.mem_cons_self)
    obtain ⟨unreadable, windows⟩ := round
    rw [rounds]
    by_cases readable : Readable (log.lastMessages delta)
    · obtain ⟨without, withMatch⟩ := windows readable
      by_cases found : Matches m (log.lastMessages delta)
      · obtain ⟨msg, mem, run, hm, greatest⟩ := withMatch found
        rw [clear_cons_of_match above found, run]
        refine ⟨fun h => absurd readable h, fun _ => ⟨fun none => absurd found (none delta List.mem_cons_self), fun _ => ?_⟩⟩
        exact ⟨msg, mem, rfl, hm, greatest⟩
      · rw [clear_cons_of_none above found, without found]
        have heads : ∀ P : Prop, (P ↔ ∃ d ∈ deltas, Matches m (log.lastMessages d)) → (P ↔ ∃ d ∈ delta :: deltas, Matches m (log.lastMessages d)) := by
          intro P hP
          rw [hP]
          simp [found]
        by_cases small : delta < log.high
        · -- the next round
          obtain ⟨panics, returns⟩ := ih increasing (fun d mem => pos d (List.mem_cons_of_mem _ mem)) log.high
          rw [if_pos small]
          constructor
          · intro unclear
            exact panics fun clear => unclear ⟨readable, clear⟩
          · intro clear
            obtain ⟨none, some⟩ := returns clear.2
            refine ⟨fun h => none fun d mem => h d (List.mem_cons_of_mem _ mem), ?_⟩
            intro h
            exact some ((heads _ Iff.rfl).2 h)
        · -- the window was the whole log already
          have whole : ∀ d, delta ≤ d → log.lastMessages d = log.messages := by
            intro d le
            apply lastMessages_all
            have high : log.high = log.low + log.messages.length := rfl
            omega
          have later : ∀ d ∈ deltas, log.lastMessages d = log.lastMessages delta := by
            intro d mem
            have less := above d mem
            rw [whole d (by omega), whole delta (by omega)]
          have clear : Clear log m deltas := by
            intro d mem _
            rw [later d mem]
            exact readable
          rw [if_neg small]
          refine ⟨fun unclear => absurd ⟨readable, clear⟩ unclear, fun _ => ⟨fun _ => ⟨log.high, rfl⟩, ?_⟩⟩
          intro h
          obtain ⟨d, mem, hm⟩ := (heads _ Iff.rfl).2 h
          rw [later d mem] at hm
          exact absurd hm found
    · obtain ⟨f, hf⟩ := unreadable readable
      rw [hf]
      refine ⟨fun _ => ⟨f, rfl⟩, fun clear => absurd (readable_of_clear above clear) readable⟩

end

/-! ## The search -/

section
variable {log : MgmtLog} {m : Int}

/-- On an empty log the first read times out. -/
theorem find_empty (other : m ≠ directiveAll) (empty : log.messages = []) :
    findMostRecentMatching log.consumer m .atLastMatch = .ok (false, 0, some errTimedOut) := by
  have window : findWithin log.consumer m .atLastMatch 1 = .error (.err errTimedOut) := by
    unfold findWithin
    simp [MgmtLog.consumer, other, empty, scan]
  rw [findMostRecentMatching_rounds, searched, rounds, window]

theorem le_of_searched {d : Nat} (h : d ∈ searched) : d ≤ 10000 := by
  unfold searched at h
  simp only [List.mem_cons, List.not_mem_nil, or_false] at h
  omega

theorem searched_increasing : searched.Pairwise (· < ·) := by decide

theorem searched_pos : ∀ d ∈ searched, 0 < d := by decide

/-- What the search makes of a log that is not empty and whose directives can be read. -/
theorem find_log (other : m ≠ directiveAll) (some : log.messages ≠ []) (clear : Clear log m searched) :
    (¬Matches m (log.lastMessages 10000) → ∃ mro, findMostRecentMatching log.consumer m .atLastMatch = .ok (false, mro, none)) ∧
    (Matches m (log.lastMessages 10000) → ∃ msg ∈ log.messages,
      findMostRecentMatching log.consumer m .atLastMatch = .ok (true, msg.offset, none) ∧ isMatch m msg ∧
        ∀ msg' ∈ log.messages, isMatch m msg' → msg'.offset ≤ msg.offset) := by
  obtain ⟨without, withMatch⟩ := (rounds_log other some searched_increasing searched_pos 0).2 clear
  rw [findMostRecentMatching_rounds]
  constructor
  · intro none
    apply without
    intro d hd found
    exact none (found.mono (le_of_searched hd))
  · intro found
    exact withMatch ⟨10000, by decide, found⟩

end

/-- The last match is found exactly where the messages that are read have directives, and where a match
among the last 100000 messages means one among the last 10000. -/
theorem findMostRecentMatching_iff {log : MgmtLog} {m : Int} (other : m ≠ directiveAll) :
    FindsLast log m ↔
      Clear log m searched ∧ (Matches m (log.lastMessages maxDelta) → Matches m (log.lastMessages 10000)) := by
  by_cases empty : log.messages = []
  · have noMatch : ∀ d, ¬Matches m (log.lastMessages d) := by
      intro d h
      obtain ⟨msg, mem, -⟩ := h
      have whole := lastMessages_subset mem
      rw [empty] at whole
      cases whole
    have clear : Clear log m searched := by
      intro d _ _ msg mem
      have whole := lastMessages_subset mem
      rw [empty] at whole
      cases whole
    refine iff_of_true ?_ ⟨clear, fun h => absurd h (noMatch _)⟩
    exact ⟨false, 0, some errTimedOut, find_empty other empty, fun h => absurd h (noMatch _), fun _ => rfl⟩
  · constructor
    · intro finds
      obtain ⟨found, mro, err, run, late, -⟩ := finds
      have clear : Clear log m searched := by
        by_contra unclear
        obtain ⟨f, panics⟩ := (rounds_log other empty searched_increasing searched_pos 0).1 unclear
        rw [findMostRecentMatching_rounds, panics] at run
        cases run
      refine ⟨clear, ?_⟩
      intro some
      by_contra none
      obtain ⟨mro', missed⟩ := (find_log other empty clear).1 none
      rw [missed] at run
      cases run
      exact absurd (late some).1 (by decide)
    · intro both
      obtain ⟨clear, near⟩ := both
      by_cases found : Matches m (log.lastMessages 10000)
      · obtain ⟨msg, mem, run, hm, greatest⟩ := (find_log other empty clear).2 found
        refine ⟨true, msg.offset, none, run, fun _ => ⟨rfl, msg, mem, rfl, hm, greatest⟩, ?_⟩
        intro h
        exact absurd ⟨msg, mem, hm⟩ h
      · obtain ⟨mro, run⟩ := (find_log other empty clear).1 found
        exact ⟨false, mro, none, run, fun h => absurd (near h) found, fun _ => rfl⟩

/-- A definition of the platform, behind which `n` messages without a directive were published. -/
def buriedLog (n : Nat) : MgmtLog where
  low := 0
  messages := ⟨[(directiveHeader, some [0, 0, 1, 0])], [], 0⟩ :: (List.range n).map fun i : Nat => ⟨[], [], i + 1⟩
  contiguous := by
    intro i msg h
    cases i with
    | zero =>
      obtain rfl := Option.some.inj h
      rfl
    | succ i =>
      obtain ⟨j, hj, rfl⟩ := Option.map_eq_some_iff.1 (List.getElem?_map.symm.trans h)
      obtain ⟨-, rfl⟩ := List.getElem?_eq_some_iff.1 hj
      rw [List.getElem_range]
      show (i : Int) + 1 = ((0 : Nat) : Int) + ((i + 1 : Nat) : Int)
      omega

theorem findMostRecentMatching_iff_platform :
    FindsLast (buriedLog 3) 65536 ↔
      Clear (buriedLog 3) 65536 searched ∧
        (Matches 65536 ((buriedLog 3).lastMessages maxDelta) → Matches 65536 ((buriedLog 3).lastMessages 10000)) :=
  findMostRecentMatching_iff (by decide)

section
variable {n : Nat}

theorem clear_buriedLog : Clear (buriedLog n) 65536 searched := by
  intro d _ _ msg mem
  obtain rfl | mem := List.mem_cons.1 (lastMessages_subset mem)
  · decide
  · obtain ⟨i, -, rfl⟩ := List.mem_map.1 mem
    rfl

theorem length_buriedLog : (buriedLog n).messages.length = n + 1 := by
  unfold buriedLog
  rw [List.length_cons, List.length_map, List.length_range]

theorem not_matches_buriedLog : ¬Matches 65536 ((buriedLog n).lastMessages n) := by
  intro h
  obtain ⟨msg, mem, hm⟩ := h
  have others : (buriedLog n).lastMessages n = (List.range n).map fun i : Nat => ⟨[], [], i + 1⟩ := by
    rw [MgmtLog.lastMessages, length_buriedLog, Nat.add_sub_cancel_left]
    rfl
  rw [others] at mem
  obtain ⟨i, -, rfl⟩ := List.mem_map.1 mem
  have unlike : contains 0 65536 = true := hm
  exact absurd unlike (by decide)

theorem matches_buriedLog {delta : Nat} (h : n < delta) : Matches 65536 ((buriedLog n).lastMessages delta) := by
  rw [lastMessages_all (by rw [length_buriedLog]; exact h)]
  exact ⟨_, List.mem_cons_self, by decide⟩

end

/-- The definition is not found, although it is the only one of 10001 messages. -/
theorem findMostRecentMatching_misses : ¬FindsLast (buriedLog 10000) 65536 := by
  intro finds
  obtain ⟨found, mro, err, run, late, -⟩ := finds
  have some : (buriedLog 10000).messages ≠ [] := List.length_pos_iff.1 (by rw [length_buriedLog]; decide)
  obtain ⟨mro', missed⟩ := (find_log (by decide) some clear_buriedLog).1 not_matches_buriedLog
  rw [missed] at run
  obtain ⟨rfl, -⟩ := Prod.mk.inj (Except.ok.inj run)
  exact absurd (late (matches_buriedLog (by decide))).1 (by decide)

end Rocketcycle.Mgmt
