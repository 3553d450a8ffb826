import BpfAgent.Lib.BoundedMap
import BpfAgent.Lib.Run
import BpfAgent.Lib.Word
import Mathlib.Algebra.BigOperators.Group.List.Basic

/-!
# Latency accumulators

The kernel side of every latency program adds its samples to a sum and a count
that only grow.  Userspace remembers the values of its last tick and reports
the average of what has been added since.
-/

namespace BpfAgent

def accumKey : UInt32 := 0

def nsPerUs : UInt64 := 1000

/-- LATENCY_SUM and LATENCY_COUNT.  Only `accumKey` is ever stored. -/
structure Accumulator where
  latencySum : BoundedMap UInt32 UInt64 1
  latencyCount : BoundedMap UInt32 UInt64 1
  sumKeys : ∀ key ∈ latencySum, key = accumKey
  countKeys : ∀ key ∈ latencyCount, key = accumKey

namespace Accumulator

def empty : Accumulator where
  latencySum := .empty
  latencyCount := .empty
  sumKeys key present := absurd present (BoundedMap.notMem_empty key)
  countKeys key present := absurd present (BoundedMap.notMem_empty key)

def sum (accumulator : Accumulator) : UInt64 :=
  (accumulator.latencySum.get accumKey).getD 0

def count (accumulator : Accumulator) : UInt64 :=
  (accumulator.latencyCount.get accumKey).getD 0

theorem insert_keys {map : BoundedMap UInt32 UInt64 1} (keys : ∀ key ∈ map, key = accumKey)
    (value : UInt64) : ∀ key ∈ map.insert accumKey value, key = accumKey := by
  intro key present
  rcases BoundedMap.mem_of_mem_insert present with same | old
  · exact same
  · exact keys key old

def accumulateLatency (accumulator : Accumulator) (latency : UInt64) : Accumulator where
  latencySum := accumulator.latencySum.insert accumKey (accumulator.sum + latency)
  latencyCount := accumulator.latencyCount.insert accumKey (accumulator.count + 1)
  sumKeys := insert_keys accumulator.sumKeys _
  countKeys := insert_keys accumulator.countKeys _

theorem get_insert_accumKey {map : BoundedMap UInt32 UInt64 1}
    (keys : ∀ key ∈ map, key = accumKey) (value : UInt64) :
    (map.insert accumKey value).get accumKey = some value := by
  have room : map.Room accumKey := by
    apply BoundedMap.room_of_keys_subset {accumKey}
    · simp
    · intro key present
      exact Finset.mem_singleton.mpr (keys key present)
    · exact Finset.mem_singleton_self _
  rw [BoundedMap.get_insert_of_room room, if_pos rfl]

@[simp]
theorem sum_accumulateLatency (accumulator : Accumulator) (latency : UInt64) :
    (accumulator.accumulateLatency latency).sum = accumulator.sum + latency := by
  rw [sum, accumulateLatency, get_insert_accumKey accumulator.sumKeys, Option.getD_some]

@[simp]
theorem count_accumulateLatency (accumulator : Accumulator) (latency : UInt64) :
    (accumulator.accumulateLatency latency).count = accumulator.count + 1 := by
  rw [count, accumulateLatency, get_insert_accumKey accumulator.countKeys, Option.getD_some]

-- The two stores of `accumulateLatency`, one at a time.
def storeSum (accumulator : Accumulator) (value : UInt64) : Accumulator :=
  { accumulator with
    latencySum := accumulator.latencySum.insert accumKey value
    sumKeys := insert_keys accumulator.sumKeys value }

def storeCount (accumulator : Accumulator) (value : UInt64) : Accumulator :=
  { accumulator with
    latencyCount := accumulator.latencyCount.insert accumKey value
    countKeys := insert_keys accumulator.countKeys value }

theorem accumulateLatency_eq_stores (accumulator : Accumulator) (latency : UInt64) :
    accumulator.accumulateLatency latency =
      (accumulator.storeSum (accumulator.sum + latency)).storeCount (accumulator.count + 1) :=
  rfl

@[simp]
theorem sum_storeSum (accumulator : Accumulator) (value : UInt64) :
    (accumulator.storeSum value).sum = value := by
  rw [sum, storeSum, get_insert_accumKey accumulator.sumKeys, Option.getD_some]

@[simp]
theorem count_storeCount (accumulator : Accumulator) (value : UInt64) :
    (accumulator.storeCount value).count = value := by
  rw [count, storeCount, get_insert_accumKey accumulator.countKeys, Option.getD_some]

def add (accumulator : Accumulator) (sample : Option UInt64) : Accumulator :=
  match sample with
  | none => accumulator
  | some latency => accumulator.accumulateLatency latency

end Accumulator

/-- The values seen at the last tick. -/
structure Baseline where
  lastSum : UInt64
  lastCount : UInt64
  deriving DecidableEq

/-- What has been added since the last tick, and the new baseline. -/
def latencyDeltas (baseline : Baseline) (sum count : UInt64) :
    (UInt64 × UInt64) × Baseline :=
  ((Word.saturatingSub sum baseline.lastSum, Word.saturatingSub count baseline.lastCount),
    ⟨sum, count⟩)

/-- Average latency in microseconds, if there was any sample. -/
def avgLatencyUs (sumDelta countDelta : UInt64) : Option UInt64 :=
  if countDelta = 0 then none else some (sumDelta / countDelta / nsPerUs)

def report (baseline : Baseline) (accumulator : Accumulator) : UInt64 × Baseline :=
  let ((sumDelta, countDelta), next) :=
    latencyDeltas baseline accumulator.sum accumulator.count
  ((avgLatencyUs sumDelta countDelta).getD 0, next)

/-- Average of latencies in microseconds, rounded down; 0 if there are none. -/
def averageUs (latencies : List UInt64) : Nat :=
  (latencies.map UInt64.toNat).sum / (1000 * latencies.length)

/-- Between two ticks the accumulators have grown by `latencies`. -/
structure Grown (baseline : Baseline) (accumulator : Accumulator)
    (latencies : List UInt64) : Prop where
  sum : accumulator.sum.toNat =
    baseline.lastSum.toNat + (latencies.map UInt64.toNat).sum
  count : accumulator.count.toNat = baseline.lastCount.toNat + latencies.length

/-- Dividing twice rounds like dividing once, and no samples count as zero. -/
theorem toNat_avgLatencyUs (sumDelta countDelta : UInt64) :
    ((avgLatencyUs sumDelta countDelta).getD 0).toNat =
      sumDelta.toNat / (1000 * countDelta.toNat) := by
  unfold avgLatencyUs
  by_cases quiet : countDelta = 0
  · simp [quiet]
  · rw [if_neg quiet, Option.getD_some, UInt64.toNat_div, UInt64.toNat_div,
      Nat.div_div_eq_div_mul, Nat.mul_comm]
    rfl

theorem toNat_report (baseline : Baseline) (accumulator : Accumulator) :
    (report baseline accumulator).1.toNat =
      (accumulator.sum.toNat - baseline.lastSum.toNat) /
        (1000 * (accumulator.count.toNat - baseline.lastCount.toNat)) := by
  rw [← Word.toNat_saturatingSub, ← Word.toNat_saturatingSub]
  exact toNat_avgLatencyUs _ _

theorem Grown.report {baseline : Baseline} {accumulator : Accumulator}
    {latencies : List UInt64} (grown : Grown baseline accumulator latencies) :
    (report baseline accumulator).1.toNat = averageUs latencies := by
  rw [toNat_report, grown.sum, grown.count, Nat.add_sub_cancel_left, Nat.add_sub_cancel_left]
  rfl

theorem Grown.reset (baseline : Baseline) (accumulator : Accumulator) :
    Grown (BpfAgent.report baseline accumulator).2 accumulator [] :=
  ⟨rfl, rfl⟩

theorem Grown.add {baseline : Baseline} {accumulator : Accumulator}
    {latencies : List UInt64} (grown : Grown baseline accumulator latencies)
    (sample : Option UInt64)
    (sumFits : accumulator.sum.toNat + (sample.map UInt64.toNat).getD 0 < 2 ^ 64)
    (countFits : accumulator.count.toNat + sample.toList.length < 2 ^ 64) :
    Grown baseline (accumulator.add sample) (latencies ++ sample.toList) := by
  cases sample with
  | none => simpa [Accumulator.add] using grown
  | some latency =>
      simp only [Option.map_some, Option.getD_some] at sumFits
      simp only [Option.toList_some, List.length_singleton] at countFits
      constructor
      · rw [Accumulator.add, Accumulator.sum_accumulateLatency, UInt64.toNat_add,
          Nat.mod_eq_of_lt sumFits, grown.sum]
        simp [Nat.add_assoc]
      · rw [Accumulator.add, Accumulator.count_accumulateLatency, UInt64.toNat_add]
        have one : (1 : UInt64).toNat = 1 := rfl
        rw [one, Nat.mod_eq_of_lt countFits, grown.count]
        simp [Nat.add_assoc]

section Run

variable {State Event : Type} {step : State → Event → State}
  {sample : State → Event → Option UInt64} {accumulator : State → Accumulator}
  {baseline : Baseline}

theorem Grown.run
    (adds : ∀ state event, accumulator (step state event) =
      (accumulator state).add (sample state event))
    {state : State} {latencies : List UInt64}
    (grown : Grown baseline (accumulator state) latencies) (events : List Event)
    (sumFits : (accumulator state).sum.toNat +
      ((Run.outputs step sample state events).map UInt64.toNat).sum < 2 ^ 64)
    (countFits : (accumulator state).count.toNat +
      (Run.outputs step sample state events).length < 2 ^ 64) :
    Grown baseline (accumulator (events.foldl step state))
      (latencies ++ Run.outputs step sample state events) := by
  induction events generalizing state latencies with
  | nil => simpa [Run.outputs] using grown
  | cons event events inductionHypothesis =>
      simp only [Run.outputs, List.map_append, List.sum_append, List.length_append]
        at sumFits countFits
      have sampleSum : ((sample state event).map UInt64.toNat).getD 0 =
          ((sample state event).toList.map UInt64.toNat).sum := by
        cases sample state event <;> simp
      have sumStep : (accumulator state).sum.toNat +
          ((sample state event).map UInt64.toNat).getD 0 < 2 ^ 64 := by omega
      have countStep : (accumulator state).count.toNat +
          (sample state event).toList.length < 2 ^ 64 := by omega
      have next := grown.add (sample state event) sumStep countStep
      have fresh := (Grown.reset baseline (accumulator state)).add
        (sample state event) sumStep countStep
      rw [← adds] at next fresh
      have sumNext : (accumulator (step state event)).sum.toNat =
          (accumulator state).sum.toNat +
            (([] ++ (sample state event).toList).map UInt64.toNat).sum := fresh.sum
      have countNext : (accumulator (step state event)).count.toNat =
          (accumulator state).count.toNat +
            ([] ++ (sample state event).toList).length := fresh.count
      rw [List.nil_append] at sumNext countNext
      have rest := inductionHypothesis next (by omega) (by omega)
      rw [List.append_assoc] at rest
      exact rest

end Run

end BpfAgent
