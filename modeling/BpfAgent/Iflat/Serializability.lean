import BpfAgent.Iflat.Concurrency
import BpfAgent.Lib.SharedCounter
import Mathlib.Data.List.Permutation
import Mathlib.Tactic.FinCases

/-!
# IFLAT: a serial order

After clean turns the invocations might as well have run one after another, in
the order of their first requests.  An egress takes effect there as soon as it
has found its timestamp: the map then still holds the timestamp and the
accumulators still miss the sample, until the egress has made its other
requests.
-/

namespace BpfAgent.Iflat.Concurrency

open Function

variable {n : Nat}

/-- The invocations of `order` run one after another, each with what the kernel
drops if it stores a timestamp. -/
def serial (invocations : Fin n → Invocation) (maps : Maps) (order : List (Turn n)) : Maps :=
  order.foldl (fun maps turn => (invocations turn.index).run maps turn.victims) maps

structure SameContents (maps others : Maps) : Prop where
  timestampMap : ∀ tag, maps.timestampMap.get tag = others.timestampMap.get tag
  latencySum : ∀ key, maps.latency.latencySum.get key = others.latency.latencySum.get key
  latencyCount : ∀ key, maps.latency.latencyCount.get key = others.latency.latencyCount.get key

/-- The invocations that have run could have run one after another. -/
def Serializable (invocations : Fin n → Invocation) (initial : Maps) (state : State n) : Prop :=
  ∃ order : List (Turn n), (order.map Turn.index).Nodup ∧
    (∀ index, index ∈ order.map Turn.index ↔ state.phase index ≠ .start) ∧
    SameContents state.maps (serial invocations initial order)

structure Serialized (invocations : Fin n → Invocation) (initial : Maps) (state : State n) :
    Prop where
  serializable : Serializable invocations initial state
  /-- Every matched egress counts, once. -/
  counted : state.maps.latency.count =
    initial.latency.count + UInt64.ofNat state.matched.length
  egresses : (state.matched.map Match.egress).Nodup
  /-- No timestamp is consumed twice. -/
  consumed : (state.matched.map fun found => (found.tag, found.source)).Nodup

/-- `order` names the invocations that have begun, each once. -/
structure Begun (order : List (Turn n)) (phases : Fin n → Phase) : Prop where
  distinct : (order.map Turn.index).Nodup
  mem : ∀ index, index ∈ order.map Turn.index ↔ phases index ≠ .start

theorem Begun.proceed {order : List (Turn n)} {phases : Fin n → Phase}
    (begun : Begun order phases) {index : Fin n} (running : phases index ≠ .start)
    {phase : Phase} (begins : phase ≠ .start) : Begun order (update phases index phase) := by
  refine ⟨begun.distinct, ?_⟩
  intro other
  rw [begun.mem]
  by_cases same : other = index
  · rw [same, update_self]
    exact iff_of_true running begins
  · rw [update_of_ne same]

theorem Begun.begin {order : List (Turn n)} {phases : Fin n → Phase}
    (begun : Begun order phases) (turn : Turn n) (start : phases turn.index = .start)
    {phase : Phase} (begins : phase ≠ .start) :
    Begun (order ++ [turn]) (update phases turn.index phase) := by
  constructor
  · rw [List.map_append, List.map_singleton]
    refine begun.distinct.append (List.nodup_singleton _) ?_
    rw [List.disjoint_singleton, begun.mem, start]
    exact not_not.mpr rfl
  · intro other
    rw [List.map_append, List.mem_append, List.map_singleton, List.mem_singleton, begun.mem]
    by_cases same : other = turn.index
    · rw [same, update_self]
      exact iff_of_true (.inr rfl) begins
    · rw [update_of_ne same]
      exact or_iff_left same

/-- The maps stand for those of the serial order: timestamps about to be removed
are gone already, and the accumulators lag behind by what the running
invocations owe. -/
structure Follows (invocations : Fin n → Invocation) (initial : Maps) (order : List (Turn n))
    (state : State n) : Prop where
  begun : Begun order state.phase
  timestamps : ∀ tag, (serial invocations initial order).timestampMap.get tag =
    if tag ∈ state.pending then none else state.maps.timestampMap.get tag
  sum : SharedCounter.Sound
    ((serial invocations initial order).latency.latencySum.get accumKey)
    (state.maps.latency.latencySum.get accumKey)
    (Phase.owesSum ∘ state.phase) (Phase.holdsSum ∘ state.phase)
  count : SharedCounter.Sound
    ((serial invocations initial order).latency.latencyCount.get accumKey)
    (state.maps.latency.latencyCount.get accumKey)
    (Phase.owesCount ∘ state.phase) (Phase.holdsCount ∘ state.phase)
  counted : (serial invocations initial order).latency.count =
    initial.latency.count + UInt64.ofNat state.matched.length

theorem serial_append (invocations : Fin n → Invocation) (maps : Maps) (order : List (Turn n))
    (turn : Turn n) : serial invocations maps (order ++ [turn]) =
      (invocations turn.index).run (serial invocations maps order) turn.victims := by
  rw [serial, List.foldl_append]
  rfl

theorem Follows.initial (invocations : Fin n → Invocation) (maps : Maps) :
    Follows invocations maps [] (.initial maps) where
  begun := ⟨List.nodup_nil, by simp [State.initial]⟩
  timestamps tag := by
    have free : tag ∉ (State.initial maps : State n).pending := by
      rw [State.mem_pending]
      rintro ⟨index, impossible⟩
      cases impossible
    rw [if_neg free]
    rfl
  sum := .initial _
  count := .initial _
  counted := (add_zero _).symm

section Turns

variable {invocations : Fin n → Invocation} {initial : Maps} {order : List (Turn n)}
  {state : State n} {turn : Turn n}

/-- An invocation that finds nothing to do. -/
theorem Follows.pass (follows : Follows invocations initial order state)
    (start : state.phase turn.index = .start)
    (idle : (invocations turn.index).run (serial invocations initial order) turn.victims =
      serial invocations initial order) :
    Follows invocations initial (order ++ [turn]) (state.pass turn.index) := by
  have same : ∀ {Value : Type} (view : Phase → Value), view .done = view .start →
      view ∘ (state.pass turn.index).phase = view ∘ state.phase := by
    intro Value view looks
    exact comp_update_of_same view state.phase (by rw [looks, start])
  constructor
  · exact follows.begun.begin turn start (by decide)
  · intro tag
    rw [serial_append, idle, pending_congr (same Phase.removes rfl)]
    exact follows.timestamps tag
  · rw [serial_append, idle, same Phase.owesSum rfl, same Phase.holdsSum rfl]
    exact follows.sum
  · rw [serial_append, idle, same Phase.owesCount rfl, same Phase.holdsCount rfl]
    exact follows.count
  · rw [serial_append, idle]
    exact follows.counted

/-- An invocation that stores a timestamp.  In the serial order the map has lost
the pending tags already, so that it may have to drop other entries to
end up with the same ones. -/
theorem Follows.store (follows : Follows invocations initial order state)
    (start : state.phase turn.index = .start) {frame : List UInt8} {now : UInt64}
    (called : invocations turn.index = .xdpRx frame now) {tag : UInt32}
    (parsed : rxTag frame = some tag) (free : tag ∉ state.pending) :
    ∃ victims, Follows invocations initial (order ++ [⟨turn.index, victims⟩])
      (state.storeTimestamp turn tag now) := by
  let stored := state.maps.timestampMap.insertEvicting tag now turn.victims
  let target := stored.removeAll state.pending
  have agrees : ∀ other, target.get other ≠ none → target.get other =
      if other = tag then some now
      else (serial invocations initial order).timestampMap.get other := by
    intro other kept
    rw [BoundedMap.get_removeAll] at kept ⊢
    by_cases pending : other ∈ state.pending
    · exact absurd (if_pos pending) kept
    · rw [if_neg pending] at kept ⊢
      rw [BoundedMap.get_insertEvicting kept, follows.timestamps, if_neg pending]
  have room : target.get tag = none → target.size < 1024 := by
    intro lost
    rw [BoundedMap.get_removeAll, if_neg free] at lost
    exact (BoundedMap.size_removeAll_le stored state.pending).trans_lt
      (BoundedMap.size_insertEvicting_lt (by decide) lost)
  obtain ⟨victims, reached⟩ := BoundedMap.exists_victims agrees room
  have same : ∀ {Value : Type} (view : Phase → Value), view .done = view .start →
      view ∘ (state.storeTimestamp turn tag now).phase = view ∘ state.phase := by
    intro Value view looks
    exact comp_update_of_same view state.phase (by rw [looks, start])
  have ran : serial invocations initial (order ++ [⟨turn.index, victims⟩]) =
      { serial invocations initial order with
        timestampMap := (serial invocations initial order).timestampMap.insertEvicting tag now
          victims } := by
    rw [serial_append]
    simp only [called, Invocation.run, xdpRxHandler, parsed]
  have done : Phase.done ≠ .start := by decide
  refine ⟨victims, ?_, ?_, ?_, ?_, ?_⟩
  · exact follows.begun.begin ⟨turn.index, victims⟩ start done
  · intro other
    rw [ran, pending_storeTimestamp start, reached other]
    exact BoundedMap.get_removeAll stored state.pending other
  · rw [ran, same Phase.owesSum rfl, same Phase.holdsSum rfl]
    exact follows.sum
  · rw [ran, same Phase.owesCount rfl, same Phase.holdsCount rfl]
    exact follows.count
  · rw [ran]
    exact follows.counted

/-- An egress that finds its timestamp takes effect at once in the serial order. -/
theorem Follows.find (follows : Follows invocations initial order state)
    (start : state.phase turn.index = .start) {packet : List UInt8} {now : UInt64}
    (called : invocations turn.index = .tcTx packet now) {tag : UInt32}
    (parsed : txTag packet = some tag) {rxTimestamp : UInt64}
    (lookup : state.maps.timestampMap.get tag = some rxTimestamp)
    (free : tag ∉ state.pending) :
    Follows invocations initial (order ++ [turn])
      (state.findTimestamp turn.index tag rxTimestamp now) := by
  let before := serial invocations initial order
  let sample := Word.saturatingSub now rxTimestamp
  have found : before.timestampMap.get tag = some rxTimestamp := by
    rw [follows.timestamps, if_neg free, lookup]
  have ran : serial invocations initial (order ++ [turn]) =
      ⟨before.timestampMap.remove tag, before.latency.accumulateLatency sample⟩ := by
    rw [serial_append]
    simp only [called, Invocation.run, tcTxHandler, parsed, found, before, sample]
  have same : ∀ {Value : Type} (view : Phase → Value),
      view (.found tag rxTimestamp now) = view .start →
      view ∘ (state.findTimestamp turn.index tag rxTimestamp now).phase = view ∘ state.phase := by
    intro Value view looks
    exact comp_update_of_same view state.phase (by rw [looks, start])
  constructor
  · exact follows.begun.begin turn start (by simp)
  · intro other
    rw [ran, BoundedMap.get_remove, follows.timestamps]
    simp only [mem_pending_findTimestamp start, State.findTimestamp_maps]
    by_cases same : other = tag
    · simp [same]
    · simp [same]
  · have owes := follows.sum.owe (congrArg Phase.owesSum start) sample
    have moved : Phase.owesSum ∘ (state.findTimestamp turn.index tag rxTimestamp now).phase =
        update (Phase.owesSum ∘ state.phase) turn.index (some sample) := comp_update ..
    rw [ran, Accumulator.accumulateLatency, Accumulator.get_insert_accumKey before.latency.sumKeys,
      same Phase.holdsSum rfl, moved]
    exact owes
  · have owes := follows.count.owe (congrArg Phase.owesCount start) 1
    have moved : Phase.owesCount ∘ (state.findTimestamp turn.index tag rxTimestamp now).phase =
        update (Phase.owesCount ∘ state.phase) turn.index (some 1) := comp_update ..
    rw [ran, Accumulator.accumulateLatency,
      Accumulator.get_insert_accumKey before.latency.countKeys, same Phase.holdsCount rfl, moved]
    exact owes
  · rw [ran, Accumulator.count_accumulateLatency, follows.counted, State.findTimestamp_matched,
      List.length_append, List.length_singleton, UInt64.ofNat_add, add_assoc]
    rfl

theorem Follows.remove (follows : Follows invocations initial order state) {index : Fin n}
    {tag : UInt32} {rxTimestamp now : UInt64}
    (found : state.phase index = .found tag rxTimestamp now) :
    Follows invocations initial order
      (state.removeTimestamp index tag (Word.saturatingSub now rxTimestamp)) := by
  have same : ∀ {Value : Type} (view : Phase → Value),
      view (.removed (Word.saturatingSub now rxTimestamp)) = view (.found tag rxTimestamp now) →
      view ∘ (state.removeTimestamp index tag (Word.saturatingSub now rxTimestamp)).phase =
        view ∘ state.phase := by
    intro Value view looks
    exact comp_update_of_same view state.phase (by rw [looks, found])
  constructor
  · exact follows.begun.proceed (by rw [found]; simp) (by simp)
  · intro other
    rw [follows.timestamps, State.removeTimestamp_maps_timestampMap, BoundedMap.get_remove]
    by_cases different : other = tag
    · have pending : other ∈ state.pending :=
        State.mem_pending.mpr ⟨index, by rw [found, different]; rfl⟩
      rw [if_pos pending, if_pos different, ite_self]
    · simp only [mem_pending_removeTimestamp found different, if_neg different]
  · rw [same Phase.owesSum rfl, same Phase.holdsSum rfl]
    exact follows.sum
  · rw [same Phase.owesCount rfl, same Phase.holdsCount rfl]
    exact follows.count
  · exact follows.counted

theorem Follows.accumulate (follows : Follows invocations initial order state) {index : Fin n}
    (running : state.phase index ≠ .start) {phase : Phase} (begins : phase ≠ .start)
    (removes : phase.removes = (state.phase index).removes) {latency : Accumulator}
    (sum : SharedCounter.Sound
      ((serial invocations initial order).latency.latencySum.get accumKey)
      (latency.latencySum.get accumKey)
      (update (Phase.owesSum ∘ state.phase) index phase.owesSum)
      (update (Phase.holdsSum ∘ state.phase) index phase.holdsSum))
    (count : SharedCounter.Sound
      ((serial invocations initial order).latency.latencyCount.get accumKey)
      (latency.latencyCount.get accumKey)
      (update (Phase.owesCount ∘ state.phase) index phase.owesCount)
      (update (Phase.holdsCount ∘ state.phase) index phase.holdsCount)) :
    Follows invocations initial order (state.accumulate index phase latency) where
  begun := follows.begun.proceed running begins
  timestamps tag := by
    rw [pending_accumulate removes]
    exact follows.timestamps tag
  sum := by
    rw [← comp_update, ← comp_update] at sum
    exact sum
  count := by
    rw [← comp_update, ← comp_update] at count
    exact count
  counted := follows.counted

theorem Follows.readSum (follows : Follows invocations initial order state) {index : Fin n}
    {sample : UInt64} (removed : state.phase index = .removed sample)
    (unheld : ∀ other, (state.phase other).holdsSum = none) :
    Follows invocations initial order
      (state.accumulate index (.gotSum sample state.maps.latency.sum) state.maps.latency) := by
  refine follows.accumulate (by rw [removed]; simp) (by simp) (by rw [removed]; rfl) ?_ ?_
  · rw [update_comp_of_same (by rw [removed]; rfl)]
    exact follows.sum.read unheld index
  · rw [update_comp_of_same (by rw [removed]; rfl), update_comp_of_same (by rw [removed]; rfl)]
    exact follows.count

theorem Follows.readCount (follows : Follows invocations initial order state) {index : Fin n}
    {sample sum : UInt64} (gotSum : state.phase index = .gotSum sample sum)
    (unheld : ∀ other, (state.phase other).holdsCount = none) :
    Follows invocations initial order
      (state.accumulate index (.gotCount sample sum state.maps.latency.count)
        state.maps.latency) := by
  refine follows.accumulate (by rw [gotSum]; simp) (by simp) (by rw [gotSum]; rfl) ?_ ?_
  · rw [update_comp_of_same (by rw [gotSum]; rfl), update_comp_of_same (by rw [gotSum]; rfl)]
    exact follows.sum
  · rw [update_comp_of_same (by rw [gotSum]; rfl)]
    exact follows.count.read unheld index

theorem Follows.writeSum (follows : Follows invocations initial order state) {index : Fin n}
    {sample sum count : UInt64} (gotCount : state.phase index = .gotCount sample sum count) :
    Follows invocations initial order
      (state.accumulate index (.storedSum count)
        (state.maps.latency.storeSum (sum + sample))) := by
  refine follows.accumulate (by rw [gotCount]; simp) (by simp) (by rw [gotCount]; rfl) ?_ ?_
  · rw [Accumulator.storeSum, Accumulator.get_insert_accumKey state.maps.latency.sumKeys]
    exact follows.sum.write (congrArg Phase.owesSum gotCount) (congrArg Phase.holdsSum gotCount)
  · rw [update_comp_of_same (by rw [gotCount]; rfl), update_comp_of_same (by rw [gotCount]; rfl)]
    exact follows.count

theorem Follows.writeCount (follows : Follows invocations initial order state) {index : Fin n}
    {count : UInt64} (storedSum : state.phase index = .storedSum count) :
    Follows invocations initial order
      (state.accumulate index .done (state.maps.latency.storeCount (count + 1))) := by
  refine follows.accumulate (by rw [storedSum]; simp) (by simp) (by rw [storedSum]; rfl) ?_ ?_
  · rw [update_comp_of_same (by rw [storedSum]; rfl), update_comp_of_same (by rw [storedSum]; rfl)]
    exact follows.sum
  · rw [Accumulator.storeCount, Accumulator.get_insert_accumKey state.maps.latency.countKeys]
    exact follows.count.write (congrArg Phase.owesCount storedSum)
      (congrArg Phase.holdsCount storedSum)

theorem Follows.begin (follows : Follows invocations initial order state)
    (start : state.phase turn.index = .start)
    (clear : (invocations turn.index).Clear state) :
    ∃ order, Follows invocations initial order (state.begin turn (invocations turn.index)) := by
  cases called : invocations turn.index with
  | xdpRx frame now =>
      rw [called] at clear
      simp only [State.begin]
      cases parsed : rxTag frame with
      | none =>
          refine ⟨order ++ [turn], follows.pass start ?_⟩
          simp only [called, Invocation.run, xdpRxHandler, parsed]
      | some tag =>
          obtain ⟨victims, next⟩ := follows.store start called parsed (clear tag parsed)
          exact ⟨_, next⟩
  | tcTx packet now =>
      rw [called] at clear
      simp only [State.begin]
      cases parsed : txTag packet with
      | none =>
          refine ⟨order ++ [turn], follows.pass start ?_⟩
          simp only [called, Invocation.run, tcTxHandler, parsed]
      | some tag =>
          cases lookup : state.maps.timestampMap.get tag with
          | none =>
              have missing : (serial invocations initial order).timestampMap.get tag = none := by
                rw [follows.timestamps, lookup, ite_self]
              simp only [lookup]
              refine ⟨order ++ [turn], follows.pass start ?_⟩
              simp only [called, Invocation.run, tcTxHandler, parsed, missing]
          | some rxTimestamp =>
              have present := BoundedMap.mem_iff_get.mpr ⟨_, lookup⟩
              simp only [lookup]
              exact ⟨order ++ [turn],
                follows.find start called parsed lookup (clear tag parsed present)⟩

theorem Follows.step (follows : ∃ order, Follows invocations initial order state)
    (clean : Clean invocations state turn) :
    ∃ order, Follows invocations initial order (state.step invocations turn) := by
  obtain ⟨order, follows⟩ := follows
  unfold Clean at clean
  unfold State.step
  cases phase : state.phase turn.index with
  | start =>
      rw [phase] at clean
      exact follows.begin phase clean
  | found tag rxTimestamp now => exact ⟨order, follows.remove phase⟩
  | removed sample =>
      rw [phase] at clean
      exact ⟨order, follows.readSum phase clean⟩
  | gotSum sample sum =>
      rw [phase] at clean
      exact ⟨order, follows.readCount phase clean⟩
  | gotCount sample sum count => exact ⟨order, follows.writeSum phase⟩
  | storedSum count => exact ⟨order, follows.writeCount phase⟩
  | done => exact ⟨order, follows⟩

theorem Follows.sameContents (follows : Follows invocations initial order state)
    (rest : ∀ index, state.phase index = .start ∨ state.phase index = .done) :
    SameContents state.maps (serial invocations initial order) := by
  have quiet : ∀ {Value : Type} (view : Phase → Option Value), view .start = none →
      view .done = none → ∀ index, view (state.phase index) = none := by
    intro Value view atStart atDone index
    rcases rest index with start | done
    · rw [start, atStart]
    · rw [done, atDone]
  have otherKey : ∀ {map : BoundedMap UInt32 UInt64 1} {key : UInt32},
      (∀ other ∈ map, other = accumKey) → key ≠ accumKey → map.get key = none := by
    intro map key keys different
    exact BoundedMap.notMem_iff_get.mp fun present => different (keys key present)
  constructor
  · intro tag
    have free : tag ∉ state.pending := by
      rw [State.mem_pending]
      rintro ⟨index, removes⟩
      rw [quiet Phase.removes rfl rfl] at removes
      cases removes
    rw [follows.timestamps, if_neg free]
  · intro key
    by_cases same : key = accumKey
    · rw [same]
      exact (follows.sum.settled (quiet Phase.owesSum rfl rfl)).symm
    · rw [otherKey state.maps.latency.sumKeys same, otherKey (Accumulator.sumKeys _) same]
  · intro key
    by_cases same : key = accumKey
    · rw [same]
      exact (follows.count.settled (quiet Phase.owesCount rfl rfl)).symm
    · rw [otherKey state.maps.latency.countKeys same, otherKey (Accumulator.countKeys _) same]

end Turns

/-- Whatever the invocations, the maps they start on and their schedule: as long
as every turn is clean, whenever no invocation is under way those that have
run might as well have run one after another. -/
theorem serialized_of_clean (invocations : Fin n → Invocation) (initial : Maps)
    (turns : List (Turn n))
    (clean : Run.Along (State.step invocations) (Clean invocations) (.initial initial) turns)
    (rest : ∀ index,
      (turns.foldl (State.step invocations) (.initial initial)).phase index = .start ∨
        (turns.foldl (State.step invocations) (.initial initial)).phase index = .done) :
    Serialized invocations initial
      (turns.foldl (State.step invocations) (.initial initial)) := by
  have provenance : Provenance (turns.foldl (State.step invocations) (.initial initial)) :=
    clean.invariant Provenance (fun _ _ met provenance => provenance.step met) (.initial initial)
  have follows := clean.invariant
    (fun state => ∃ order, Follows invocations initial order state)
    (fun _ _ met follows => Follows.step follows met) ⟨[], .initial invocations initial⟩
  obtain ⟨order, follows⟩ := follows
  have contents := follows.sameContents rest
  refine ⟨⟨order, follows.begun.distinct, follows.begun.mem, contents⟩, ?_,
    provenance.egresses, provenance.consumed⟩
  rw [← follows.counted, Accumulator.count, contents.latencyCount]
  rfl

def datagram (mark : UInt8) : List UInt8 :=
  [0x45, 0, 0, 32, 0, 0, 0, 0, 64, 17, 0, 0, 10, 0, 0, 1, 10, 0, 0, 2,
    0x03, 0xe8, 0x13, 0x9c, 0, 12, 0, 0] ++ List.replicate 4 mark

def receipt (mark : UInt8) (now : UInt64) : Invocation :=
  .xdpRx (List.replicate 12 0xaa ++ [0x08, 0x00] ++ datagram mark) now

def forward (mark : UInt8) (now : UInt64) : Invocation := .tcTx (datagram mark) now

def schedule (indices : List (Fin n)) : List (Turn n) := indices.map fun index => ⟨index, []⟩

def twoForwards : Fin 4 → Invocation
  | 0 => receipt 1 1000
  | 1 => receipt 2 2000
  | 2 => forward 1 4000
  | 3 => forward 2 6000

/-- The egresses overlap, but the second reads each accumulator only when the
first has written it. -/
def cleanIndices : List (Fin 4) := [0, 2, 1, 3, 2, 3, 2, 2, 2, 3, 2, 3, 3, 3]

theorem serialized_two_forwards :
    Serialized twoForwards .empty
        ((schedule cleanIndices).foldl (State.step twoForwards) (.initial .empty)) ∧
      ((schedule cleanIndices).foldl (State.step twoForwards)
        (.initial .empty)).maps.latency.count = 2 :=
  ⟨serialized_of_clean twoForwards .empty (schedule cleanIndices) (by decide +kernel)
    (by decide +kernel), by decide +kernel⟩

def twoReceived : Maps :=
  (receipt 2 2000).run ((receipt 1 1000).run .empty []) []

def twoEgresses : Fin 2 → Invocation
  | 0 => forward 1 4000
  | 1 => forward 2 6000

def overlapping : List (Turn 2) := schedule [0, 0, 1, 1, 0, 1, 0, 1, 0, 0, 1, 1]

/-- Both egresses read the accumulators before either writes them back: one
sample is lost, as in no serial order. -/
theorem not_serializable_overlapping :
    (∀ index, (overlapping.foldl (State.step twoEgresses)
        (.initial twoReceived)).phase index = .done) ∧
      ¬Serializable twoEgresses twoReceived
        (overlapping.foldl (State.step twoEgresses) (.initial twoReceived)) ∧
      (overlapping.foldl (State.step twoEgresses) (.initial twoReceived)).matched.length = 2 ∧
      (overlapping.foldl (State.step twoEgresses)
        (.initial twoReceived)).maps.latency.count = 1 := by
  have done : ∀ index, (overlapping.foldl (State.step twoEgresses)
      (.initial twoReceived)).phase index = .done := by decide +kernel
  refine ⟨done, ?_, by decide +kernel, by decide +kernel⟩
  rintro ⟨order, distinct, begun, contents⟩
  have complete : (order.map Turn.index).Perm [0, 1] := by
    apply (List.perm_ext_iff_of_nodup distinct (by decide)).mpr
    intro index
    rw [begun, done]
    revert index
    decide
  have victimless : serial twoEgresses twoReceived order =
      serial twoEgresses twoReceived (schedule (order.map Turn.index)) := by
    rw [serial, serial, schedule, List.map_map, List.foldl_map]
    congr
    funext maps turn
    rcases turn with ⟨index, victims⟩
    fin_cases index <;> rfl
  have counts : ∀ indices ∈ [0, 1].permutations',
      (serial twoEgresses twoReceived (schedule indices)).latency.latencyCount.get accumKey =
        some 2 := by decide +kernel
  have lost : (overlapping.foldl (State.step twoEgresses)
      (.initial twoReceived)).maps.latency.latencyCount.get accumKey = some 1 := by
    decide +kernel
  have same := contents.latencyCount accumKey
  rw [victimless, counts _ (List.mem_permutations'.mpr complete), lost] at same
  exact absurd same (by decide)

end BpfAgent.Iflat.Concurrency
