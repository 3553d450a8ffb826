import BpfAgent.Accumulator

/-!
# IRSS: ticks between the stores of a sample

The kernel side stores a sample in two steps, the sum and then the count, and a
tick reads in two steps, the sum and then the count.  Nothing keeps the four
from interleaving, so that a tick can see the sum of one set of samples and the
number of another.
-/

namespace BpfAgent.Irss.Snapshots

/-- Where the running `accumulate_latency` is: the map requests it has made and
what they returned. -/
inductive Writer where
  | idle
  | gotSum (latency sum : UInt64)
  | gotCount (latency sum count : UInt64)
  | storedSum (count : UInt64)

/-- Where the running tick is.  `awaits` says that the sum it read contains a
sample whose count was not stored at that time and has not been since. -/
inductive Reader where
  | idle
  | gotSum (sum : UInt64) (awaits : Bool)

structure State where
  accumulator : Accumulator
  /-- The latencies still to be accumulated, one invocation after another. -/
  queue : List UInt64
  writer : Writer
  reader : Reader
  baseline : Baseline
  samples : List UInt64
  ticks : List (UInt64 × UInt64)

def State.loaded (queue : List UInt64) : State where
  accumulator := .empty
  queue := queue
  writer := .idle
  reader := .idle
  baseline := ⟨0, 0⟩
  samples := []
  ticks := []

inductive Turn where
  | ebpf
  | userspace
  deriving DecidableEq

def Reader.countStored : Reader → Reader
  | .idle => .idle
  | .gotSum sum _ => .gotSum sum false

def Writer.isBetweenStores : Writer → Bool
  | .storedSum _ => true
  | _ => false

def State.ebpf (state : State) : State :=
  match state.writer with
  | .idle =>
      match state.queue with
      | [] => state
      | latency :: queue =>
          { state with
            queue
            writer := .gotSum latency state.accumulator.sum
            samples := state.samples ++ [latency] }
  | .gotSum latency sum =>
      { state with writer := .gotCount latency sum state.accumulator.count }
  | .gotCount latency sum count =>
      { state with
        accumulator := state.accumulator.storeSum (sum + latency)
        writer := .storedSum count }
  | .storedSum count =>
      { state with
        accumulator := state.accumulator.storeCount (count + 1)
        writer := .idle
        reader := state.reader.countStored }

def State.userspace (state : State) : State :=
  match state.reader with
  | .idle =>
      { state with
        reader := .gotSum state.accumulator.sum state.writer.isBetweenStores }
  | .gotSum sum _ =>
      let (deltas, baseline) := latencyDeltas state.baseline sum state.accumulator.count
      { state with reader := .idle, baseline, ticks := state.ticks ++ [deltas] }

def State.step (state : State) : Turn → State
  | .ebpf => state.ebpf
  | .userspace => state.userspace

/-- Undisturbed, the four requests are `accumulate_latency`. -/
theorem ebpf_undisturbed (state : State) (latency : UInt64) (queue : List UInt64)
    (waiting : state.queue = latency :: queue) (idle : state.writer = .idle) :
    ((List.replicate 4 Turn.ebpf).foldl State.step state).accumulator =
      state.accumulator.accumulateLatency latency := by
  rw [Accumulator.accumulateLatency_eq_stores]
  simp [State.step, State.ebpf, waiting, idle]

/-- Undisturbed, the two requests of a tick read one state of the accumulators. -/
theorem userspace_undisturbed (state : State) (idle : state.reader = .idle) :
    ((List.replicate 2 Turn.userspace).foldl State.step state).ticks =
      state.ticks ++ [(latencyDeltas state.baseline state.accumulator.sum
        state.accumulator.count).1] := by
  simp [State.step, State.userspace, idle]

def total (samples : List UInt64) : Nat := (samples.map UInt64.toNat).sum

def measured (samples : List UInt64) : Nat × Nat := (total samples, samples.length)

/-- Every tick has seen total and number of one set of samples, and the sets
are disjoint: one after the other they make up the samples read so far. -/
def Consistent (state : State) : Prop :=
  ∃ (sets : List (List UInt64)) (unread : List UInt64),
    state.samples = sets.flatten ++ unread ∧
    state.ticks.map (fun deltas => (deltas.1.toNat, deltas.2.toNat)) = sets.map measured

/-- A turn that neither tears a tick apart nor overflows an accumulator: no count
is stored between the two reads of a tick but the one it awaits, and a tick
that awaits one does not read the count before. -/
def Clean (state : State) : Turn → Prop
  | .ebpf =>
      match state.writer with
      | .gotCount latency sum _ => sum.toNat + latency.toNat < 2 ^ 64
      | .storedSum count => count.toNat + 1 < 2 ^ 64 ∧ ∀ sum, state.reader ≠ .gotSum sum false
      | _ => True
  | .userspace => ∀ sum, state.reader ≠ .gotSum sum true

/-- The running invocation has made its requests with the values that belong to
`counted`, the samples whose count is stored. -/
def Writer.Agrees (accumulator : Accumulator) (samples counted : List UInt64) :
    Writer → Prop
  | .idle => samples = counted ∧ accumulator.sum.toNat = total counted
  | .gotSum latency sum =>
      samples = counted ++ [latency] ∧ accumulator.sum.toNat = total counted ∧
        sum = accumulator.sum
  | .gotCount latency sum count =>
      samples = counted ++ [latency] ∧ accumulator.sum.toNat = total counted ∧
        sum = accumulator.sum ∧ count = accumulator.count
  | .storedSum count =>
      (∃ latency, samples = counted ++ [latency]) ∧ accumulator.sum.toNat = total samples ∧
        count = accumulator.count

def Reader.Agrees (writer : Writer) (samples counted : List UInt64) : Reader → Prop
  | .idle => True
  | .gotSum sum false => sum.toNat = total counted
  | .gotSum sum true => writer.isBetweenStores = true ∧ sum.toNat = total samples

/-- The ticks so far have seen the sets, and the baseline is what they make up. -/
structure Seen (baseline : Baseline) (ticks : List (UInt64 × UInt64))
    (sets : List (List UInt64)) : Prop where
  ticks : ticks.map (fun deltas => (deltas.1.toNat, deltas.2.toNat)) = sets.map measured
  sum : baseline.lastSum.toNat = total sets.flatten
  count : baseline.lastCount.toNat = sets.flatten.length

structure Invariant (state : State) (counted : List UInt64) : Prop where
  count : state.accumulator.count.toNat = counted.length
  writer : state.writer.Agrees state.accumulator state.samples counted
  reader : state.reader.Agrees state.writer state.samples counted
  seen : ∃ sets rest, counted = sets.flatten ++ rest ∧ Seen state.baseline state.ticks sets

theorem total_append (first second : List UInt64) :
    total (first ++ second) = total first + total second := by
  rw [total, List.map_append, List.sum_append]
  rfl

theorem total_singleton (latency : UInt64) : total [latency] = latency.toNat := by
  simp [total]

theorem Seen.tick {baseline : Baseline} {ticks : List (UInt64 × UInt64)}
    {sets : List (List UInt64)} (seen : Seen baseline ticks sets) {rest : List UInt64}
    {sum count : UInt64} (sumRead : sum.toNat = total (sets.flatten ++ rest))
    (countRead : count.toNat = (sets.flatten ++ rest).length) :
    Seen (latencyDeltas baseline sum count).2 (ticks ++ [(latencyDeltas baseline sum count).1])
      (sets ++ [rest]) := by
  have flattened : (sets ++ [rest]).flatten = sets.flatten ++ rest := by simp
  have sumBefore := seen.sum
  have countBefore := seen.count
  refine ⟨?_, by rw [flattened]; exact sumRead, by rw [flattened]; exact countRead⟩
  rw [List.map_append, List.map_append, seen.ticks]
  congr 1
  rw [total_append] at sumRead
  rw [List.length_append] at countRead
  simp only [List.map_singleton, latencyDeltas, Word.toNat_saturatingSub, measured]
  congr 2
  · omega
  · omega

theorem Reader.Agrees.of_not_between {writer : Writer} {samples counted : List UInt64}
    {reader : Reader} (agrees : reader.Agrees writer samples counted)
    (outside : writer.isBetweenStores = false) (next : Writer) (later : List UInt64) :
    reader.Agrees next later counted := by
  cases reader with
  | idle => trivial
  | gotSum sum awaits =>
      cases awaits with
      | false => exact agrees
      | true =>
          rw [agrees.1] at outside
          cases outside

theorem Reader.Agrees.countStored {writer : Writer} {samples counted : List UInt64}
    {reader : Reader} (agrees : reader.Agrees writer samples counted)
    (alone : ∀ sum, reader ≠ .gotSum sum false) (next : Writer) :
    reader.countStored.Agrees next samples samples := by
  cases reader with
  | idle => trivial
  | gotSum sum awaits =>
      cases awaits with
      | false => exact absurd rfl (alone sum)
      | true => exact agrees.2

theorem Invariant.ebpf {state : State} {counted : List UInt64}
    (invariant : Invariant state counted) (clean : Clean state .ebpf) :
    ∃ counted, Invariant state.ebpf counted := by
  obtain ⟨count, writes, reads, seen⟩ := invariant
  have one : (1 : UInt64).toNat = 1 := rfl
  simp only [Clean] at clean
  unfold State.ebpf
  cases writing : state.writer with
  | idle =>
      rw [writing] at writes reads
      cases waiting : state.queue with
      | nil => exact ⟨counted, count, by rwa [writing], by rwa [writing], seen⟩
      | cons latency queue =>
          obtain ⟨same, sum⟩ := writes
          exact ⟨counted, count, ⟨congrArg (· ++ [latency]) same, sum, rfl⟩,
            reads.of_not_between rfl _ _, seen⟩
  | gotSum latency sum =>
      rw [writing] at writes reads
      obtain ⟨same, stored, read⟩ := writes
      exact ⟨counted, count, ⟨same, stored, read, rfl⟩, reads.of_not_between rfl _ _, seen⟩
  | gotCount latency sum counts =>
      rw [writing] at writes reads clean
      obtain ⟨same, stored, rfl, rfl⟩ := writes
      refine ⟨counted, count, ⟨⟨latency, same⟩, ?_, rfl⟩, reads.of_not_between rfl _ _, seen⟩
      rw [Accumulator.sum_storeSum, UInt64.toNat_add, Nat.mod_eq_of_lt clean, same,
        total_append, total_singleton, stored]
  | storedSum counts =>
      rw [writing] at writes reads clean
      obtain ⟨⟨latency, same⟩, stored, rfl⟩ := writes
      obtain ⟨fits, alone⟩ := clean
      obtain ⟨sets, rest, split, sees⟩ := seen
      refine ⟨state.samples, ?_, ⟨rfl, stored⟩, reads.countStored alone _, sets,
        rest ++ [latency], ?_, sees⟩
      · rw [Accumulator.count_storeCount, UInt64.toNat_add, one, Nat.mod_eq_of_lt fits, same,
          List.length_append, count]
        rfl
      · rw [same, split, List.append_assoc]

theorem Invariant.userspace {state : State} {counted : List UInt64}
    (invariant : Invariant state counted) (clean : Clean state .userspace) :
    Invariant state.userspace counted := by
  obtain ⟨count, writes, reads, seen⟩ := invariant
  simp only [Clean] at clean
  unfold State.userspace
  cases reading : state.reader with
  | idle =>
      refine ⟨count, writes, ?_, seen⟩
      -- What the sum contains depends on where the running invocation is.
      cases writing : state.writer with
      | idle =>
          rw [writing] at writes
          exact writes.2
      | gotSum latency sum =>
          rw [writing] at writes
          exact writes.2.1
      | gotCount latency sum counts =>
          rw [writing] at writes
          exact writes.2.1
      | storedSum counts =>
          rw [writing] at writes
          exact ⟨rfl, writes.2.1⟩
  | gotSum sum awaits =>
      rw [reading] at reads clean
      cases awaits with
      | true => exact absurd rfl (clean sum)
      | false =>
          have sumRead : sum.toNat = total counted := reads
          obtain ⟨sets, rest, split, sees⟩ := seen
          rw [split] at sumRead count
          refine ⟨by rw [split]; exact count, writes, trivial, sets ++ [rest], [], ?_,
            sees.tick sumRead count⟩
          rw [split]
          simp

theorem Invariant.step {state : State} (invariant : ∃ counted, Invariant state counted)
    {turn : Turn} (clean : Clean state turn) : ∃ counted, Invariant (state.step turn) counted := by
  obtain ⟨counted, invariant⟩ := invariant
  cases turn with
  | ebpf => exact invariant.ebpf clean
  | userspace => exact ⟨counted, invariant.userspace clean⟩

theorem Invariant.loaded (queue : List UInt64) : Invariant (.loaded queue) [] where
  count := rfl
  writer := ⟨rfl, rfl⟩
  reader := trivial
  seen := ⟨[], [], rfl, rfl, rfl, rfl⟩

theorem Writer.Agrees.extends {writer : Writer} {accumulator : Accumulator}
    {samples counted : List UInt64} (agrees : writer.Agrees accumulator samples counted) :
    ∃ running, samples = counted ++ running := by
  cases writer with
  | idle => exact ⟨[], by rw [agrees.1, List.append_nil]⟩
  | gotSum latency sum => exact ⟨[latency], agrees.1⟩
  | gotCount latency sum count => exact ⟨[latency], agrees.1⟩
  | storedSum count =>
      obtain ⟨⟨latency, same⟩, -⟩ := agrees
      exact ⟨[latency], same⟩

theorem Invariant.consistent {state : State} {counted : List UInt64}
    (invariant : Invariant state counted) : Consistent state := by
  obtain ⟨running, samples⟩ := invariant.writer.extends
  obtain ⟨sets, rest, split, sees⟩ := invariant.seen
  refine ⟨sets, rest ++ running, ?_, sees.ticks⟩
  rw [samples, split, List.append_assoc]

/-- Whatever is accumulated and however the two sides interleave: as long as
every turn is clean, the ticks are consistent. -/
theorem consistent_of_clean (queue : List UInt64) (turns : List Turn)
    (clean : Run.Along State.step Clean (.loaded queue) turns) :
    Consistent (turns.foldl State.step (.loaded queue)) := by
  have reached := clean.invariant (fun state => ∃ counted, Invariant state counted)
    (fun state turn met invariant => Invariant.step invariant met)
    ⟨[], Invariant.loaded queue⟩
  obtain ⟨counted, invariant⟩ := reached
  exact invariant.consistent

/-- A tick that reads the sum between the two stores of a sample and the count
after them, and one in the quiet after the second sample. -/
def cleanTurns : List Turn :=
  [.ebpf, .ebpf, .ebpf, .userspace, .ebpf, .userspace, .ebpf, .ebpf, .ebpf, .ebpf, .userspace,
    .userspace]

theorem consistent_clean_turns :
    Consistent (cleanTurns.foldl State.step (.loaded [5, 7])) ∧
      (cleanTurns.foldl State.step (.loaded [5, 7])).ticks = [(5, 1), (7, 1)] := by
  refine ⟨consistent_of_clean [5, 7] cleanTurns ?_, by decide⟩
  simp [cleanTurns, Run.Along, Clean, State.step, State.ebpf, State.userspace, State.loaded,
    Reader.countStored, Writer.isBetweenStores]
  decide

/-- A sample that is stored between the two reads of a tick: its count is in the
tick, its latency is not. -/
theorem not_consistent_torn :
    ¬Consistent ([.userspace, .ebpf, .ebpf, .ebpf, .ebpf, .userspace].foldl State.step
      (.loaded [5])) := by
  rintro ⟨sets, unread, samples, ticks⟩
  have torn : sets.map measured = [(0, 1)] := ticks.symm.trans (by decide)
  obtain ⟨set, rfl, seen⟩ := List.map_eq_singleton_iff.mp torn
  have started : [5] = [set].flatten ++ unread := (show _ = _ by decide).trans samples
  obtain ⟨latency, rfl⟩ := List.length_eq_one_iff.mp (congrArg Prod.snd seen)
  obtain rfl : 5 = latency := (List.cons.inj started).1
  exact absurd seen (by decide)

end BpfAgent.Irss.Snapshots
