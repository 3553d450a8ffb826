import BpfAgent.Sca.Display
import Mathlib.Algebra.BigOperators.Group.List.Basic

/-!
# SCA: when the fresh list is right

A tick calls a process fresh when its sum or its count differ from those of the
tick before.  The kernel side restarts both whenever a window expires, so new
samples can go unnoticed: a window opened since the last tick may add up to what
the old one did.  That is the only way.

`Window` is the abstract model: the samples a window holds rather than their
sum and count.  It follows the run of the program step by step.
-/

namespace BpfAgent.Sca

/-- The latencies that count towards the average of a process, and when the
window they fell into was opened. -/
structure Window where
  opened : UInt64
  latencies : List UInt64

namespace Window

def empty : Window := ⟨0, []⟩

def total (window : Window) : UInt64 := window.latencies.sum

def number (window : Window) : UInt64 := UInt64.ofNat window.latencies.length

/-- What is left of a window at `time`. -/
def unexpired (window : Window) (time : UInt64) : List UInt64 :=
  if windowSizeNs < time - window.opened then [] else window.latencies

/-- Record a sample.  The count is a machine word: a window is also timed anew
when its count has come round to zero. -/
def add (window : Window) (latency time : UInt64) : Window where
  opened :=
    if UInt64.ofNat (window.unexpired time).length = 0 then time else window.opened
  latencies := window.unexpired time ++ [latency]

/-- The two windows look the same to a tick. -/
def Coincides (window other : Window) : Prop :=
  window.total = other.total ∧ window.number = other.number

theorem total_add (window : Window) (latency time : UInt64) :
    (window.add latency time).total =
      (if windowSizeNs < time - window.opened then 0 else window.total) + latency := by
  unfold total add unexpired
  split <;> simp

theorem number_unexpired (window : Window) (time : UInt64) :
    UInt64.ofNat (window.unexpired time).length =
      if windowSizeNs < time - window.opened then 0 else window.number := by
  unfold number unexpired
  split <;> rfl

theorem number_add (window : Window) (latency time : UInt64) :
    (window.add latency time).number =
      (if windowSizeNs < time - window.opened then 0 else window.number) + 1 := by
  rw [← number_unexpired, number, add, List.length_append, UInt64.ofNat_add]
  rfl

theorem opened_add (window : Window) (latency time : UInt64) :
    (window.add latency time).opened =
      if (if windowSizeNs < time - window.opened then 0 else window.number) = 0 then time
      else window.opened := by
  rw [← number_unexpired, add]

end Window

/-- The maps hold the window of the process. -/
structure Holds (maps : Maps) (pid : UInt32) (window : Window) : Prop where
  sum : maps.latencyPidSum.get pid = some window.total
  count : maps.latencyPidCount.get pid = some window.number
  start : maps.latencyWindowStart.get pid = some window.opened

structure Lacks (maps : Maps) (pid : UInt32) : Prop where
  sum : maps.latencyPidSum.get pid = none
  count : maps.latencyPidCount.get pid = none
  start : maps.latencyWindowStart.get pid = none

/-- The maps hold the window of every process they know. -/
def Refines (maps : Maps) (windows : UInt32 → Window) : Prop :=
  ∀ pid, Holds maps pid (windows pid) ∨ Lacks maps pid ∧ windows pid = Window.empty

theorem Holds.present {maps : Maps} {pid : UInt32} {window : Window}
    (holds : Holds maps pid window) : Present maps pid :=
  .inl (BoundedMap.mem_iff_get.mpr ⟨_, holds.sum⟩)

theorem Lacks.not_present {maps : Maps} {pid : UInt32} (lacks : Lacks maps pid) :
    ¬Present maps pid := by
  rintro (present | present)
  · exact BoundedMap.notMem_iff_get.mpr lacks.sum present
  · exact BoundedMap.notMem_iff_get.mpr lacks.count present

section Refines

variable {maps : Maps} {windows : UInt32 → Window}

theorem Refines.holds (refines : Refines maps windows) {pid : UInt32}
    (present : Present maps pid) : Holds maps pid (windows pid) := by
  rcases refines pid with holds | ⟨lacks, -⟩
  · exact holds
  · exact absurd present lacks.not_present

theorem Refines.aligned (refines : Refines maps windows) (pid : UInt32) :
    (pid ∈ maps.latencyPidSum ↔ pid ∈ maps.latencyPidCount) ∧
      (pid ∈ maps.latencyPidSum ↔ pid ∈ maps.latencyWindowStart) := by
  simp only [BoundedMap.mem_iff_get]
  rcases refines pid with holds | ⟨lacks, -⟩
  · simp [holds.sum, holds.count, holds.start]
  · simp [lacks.sum, lacks.count, lacks.start]

/-- A process without a window reads as one with an empty window. -/
theorem Refines.reads (refines : Refines maps windows) (pid : UInt32) :
    (maps.latencyPidSum.get pid).getD 0 = (windows pid).total ∧
      (maps.latencyPidCount.get pid).getD 0 = (windows pid).number ∧
      (maps.latencyWindowStart.get pid).getD 0 = (windows pid).opened := by
  rcases refines pid with holds | ⟨lacks, empty⟩
  · simp [holds.sum, holds.count, holds.start]
  · rw [empty]
    simp [lacks.sum, lacks.count, lacks.start, Window.empty, Window.total, Window.number]

theorem Refines.update_holds (refines : Refines maps windows) {pid : UInt32}
    (room : maps.latencyPidSum.Room pid) (latency time : UInt64) :
    Holds (updateMovingAverage maps pid latency time) pid
      ((windows pid).add latency time) := by
  have roomCount : maps.latencyPidCount.Room pid :=
    (BoundedMap.room_congr (fun pid => (refines.aligned pid).1) pid).mp room
  have roomStart : maps.latencyWindowStart.Room pid :=
    (BoundedMap.room_congr (fun pid => (refines.aligned pid).2) pid).mp room
  obtain ⟨sum, count, start⟩ := refines.reads pid
  unfold updateMovingAverage
  dsimp only
  rw [sum, count, start]
  constructor
  · simp only [BoundedMap.get_insert_of_room room, if_true, Window.total_add]
  · simp only [BoundedMap.get_insert_of_room roomCount, if_true, Window.number_add]
  · rw [Window.opened_add]
    by_cases restarted : (if windowSizeNs < time - (windows pid).opened then 0
        else (windows pid).number) = 0
    · simp only [if_pos restarted, BoundedMap.get_insert_of_room roomStart, if_true]
    · simp only [if_neg restarted]
      rcases refines pid with holds | ⟨-, empty⟩
      · exact holds.start
      · simp [empty, Window.empty, Window.number] at restarted

def Agree (maps others : Maps) (pid : UInt32) : Prop :=
  maps.latencyPidSum.get pid = others.latencyPidSum.get pid ∧
    maps.latencyPidCount.get pid = others.latencyPidCount.get pid ∧
    maps.latencyWindowStart.get pid = others.latencyWindowStart.get pid

theorem updateMovingAverage_agree (maps : Maps) {pid other : UInt32}
    (different : other ≠ pid) (latency time : UInt64) :
    Agree (updateMovingAverage maps pid latency time) maps other := by
  unfold updateMovingAverage
  dsimp only
  refine ⟨BoundedMap.get_insert_ne _ different _, BoundedMap.get_insert_ne _ different _, ?_⟩
  dsimp only
  rw [apply_ite (fun map => BoundedMap.get map other), BoundedMap.get_insert_ne _ different,
    ite_self]

theorem Refines.update_agree (refines : Refines maps windows) {pid : UInt32}
    (full : ¬maps.latencyPidSum.Room pid) (latency time : UInt64) :
    Agree (updateMovingAverage maps pid latency time) maps pid := by
  have fullCount : ¬maps.latencyPidCount.Room pid := fun room =>
    full ((BoundedMap.room_congr (fun pid => (refines.aligned pid).1) pid).mpr room)
  have fullStart : ¬maps.latencyWindowStart.Room pid := fun room =>
    full ((BoundedMap.room_congr (fun pid => (refines.aligned pid).2) pid).mpr room)
  unfold updateMovingAverage
  dsimp only
  rw [BoundedMap.insert_of_not_room full, BoundedMap.insert_of_not_room fullCount,
    BoundedMap.insert_of_not_room fullStart, ite_self]
  exact ⟨rfl, rfl, rfl⟩

theorem Agree.holds {others : Maps} {pid : UInt32} {window : Window}
    (agree : Agree others maps pid) (holds : Holds maps pid window) :
    Holds others pid window :=
  ⟨agree.1.trans holds.sum, agree.2.1.trans holds.count, agree.2.2.trans holds.start⟩

theorem Agree.lacks {others : Maps} {pid : UInt32} (agree : Agree others maps pid)
    (lacks : Lacks maps pid) : Lacks others pid :=
  ⟨agree.1.trans lacks.sum, agree.2.1.trans lacks.count, agree.2.2.trans lacks.start⟩

end Refines

/-- A rediscovery keeps the latencies of a process or drops all three. -/
theorem repopulate_agree_or_lacks (maps : Maps) (hops : List DiscoveredHop) (pid : UInt32) :
    Agree (repopulateSocketHopsMap maps hops).2 maps pid ∨
      Lacks (repopulateSocketHopsMap maps hops).2 pid := by
  by_cases alive : pid ∈ livePids hops
  · left
    refine ⟨?_, ?_, ?_⟩
    all_goals
      refine (get_evictPids _ _ _).trans ?_
      rw [if_pos alive]
  · right
    refine ⟨?_, ?_, ?_⟩
    all_goals
      refine (get_evictPids _ _ _).trans ?_
      rw [if_neg alive]

theorem displayMetrics_agree_or_lacks (program : Program) (maps : Maps)
    (reading : Reading) (pid : UInt32) :
    Agree (displayMetrics program maps reading).maps maps pid ∨
      Lacks (displayMetrics program maps reading).maps pid := by
  rcases displayMetrics_maps program maps reading with unchanged | ⟨hops, repopulated⟩
  · rw [unchanged]
    exact .inl ⟨rfl, rfl, rfl⟩
  · rw [repopulated]
    exact repopulate_agree_or_lacks maps hops pid

/-- The kernel side records a sample, or userspace runs a tick. -/
inductive Event where
  | sample (sample : Sample)
  | tick (reading : Reading)

def Outcome.step (outcome : Outcome) : Event → Outcome
  | .sample sample =>
      { outcome with
        maps := updateMovingAverage outcome.maps sample.pid sample.latency sample.currentTime }
  | .tick reading => displayMetrics outcome.program outcome.maps reading

/-- What an event does to the window of a process that keeps its entry. -/
def Window.step (window : Window) (pid : UInt32) : Event → Window
  | .sample sample =>
      if sample.pid = pid then window.add sample.latency sample.currentTime else window
  | .tick _ => window

/-- A run of the program together with the windows of all processes.  The
window of a process goes when its entries do. -/
structure Trace where
  outcome : Outcome
  windows : UInt32 → Window

def Trace.step (trace : Trace) (event : Event) : Trace where
  outcome := trace.outcome.step event
  windows pid :=
    if Present (trace.outcome.step event).maps pid then (trace.windows pid).step pid event
    else Window.empty

def traced (first : List DiscoveredHop) (events : List Event) : Trace :=
  events.foldl Trace.step ⟨loaded first, fun _ => Window.empty⟩

theorem refines_step_of_cases {trace : Trace} {event : Event}
    (cases : ∀ pid,
      Holds (trace.outcome.step event).maps pid ((trace.windows pid).step pid event) ∨
        Lacks (trace.outcome.step event).maps pid) :
    Refines (trace.step event).outcome.maps (trace.step event).windows := by
  intro pid
  rcases cases pid with holds | lacks
  · left
    rw [Trace.step]
    dsimp only
    rwa [if_pos holds.present]
  · right
    exact ⟨lacks, if_neg lacks.not_present⟩

theorem refines_step {trace : Trace} (refines : Refines trace.outcome.maps trace.windows)
    (event : Event) : Refines (trace.step event).outcome.maps (trace.step event).windows := by
  apply refines_step_of_cases
  intro pid
  -- An event that leaves the entries of the process alone leaves its window alone.
  have untouched : ∀ {maps : Maps}, Agree maps trace.outcome.maps pid →
      Holds maps pid (trace.windows pid) ∨ Lacks maps pid := by
    intro maps agree
    rcases refines pid with holds | ⟨lacks, -⟩
    · exact .inl (agree.holds holds)
    · exact .inr (agree.lacks lacks)
  cases event with
  | tick reading =>
      rcases displayMetrics_agree_or_lacks trace.outcome.program trace.outcome.maps reading
        pid with agree | lacks
      · exact untouched agree
      · exact .inr lacks
  | sample sample =>
      by_cases own : sample.pid = pid
      · subst own
        by_cases room : trace.outcome.maps.latencyPidSum.Room sample.pid
        · left
          simp only [Window.step, if_true]
          exact refines.update_holds room sample.latency sample.currentTime
        · right
          have absent : sample.pid ∉ trace.outcome.maps.latencyPidSum :=
            fun present => room (.inl present)
          have lacks : Lacks trace.outcome.maps sample.pid := by
            rcases refines sample.pid with holds | ⟨lacks, -⟩
            · exact absurd (BoundedMap.mem_iff_get.mpr ⟨_, holds.sum⟩) absent
            · exact lacks
          exact (refines.update_agree room sample.latency sample.currentTime).lacks lacks
      · simp only [Window.step, if_neg own]
        exact untouched (updateMovingAverage_agree trace.outcome.maps (Ne.symm own)
          sample.latency sample.currentTime)

theorem traced_refines (first : List DiscoveredHop) (events : List Event) :
    Refines (traced first events).outcome.maps (traced first events).windows := by
  refine List.foldlRecOn (motive := fun trace => Refines trace.outcome.maps trace.windows)
    events Trace.step ?_ fun trace refines event _ => refines_step refines event
  intro pid
  exact .inr ⟨⟨BoundedMap.get_empty _, BoundedMap.get_empty _, BoundedMap.get_empty _⟩, rfl⟩

section Samples

variable (outcome : Outcome) (between : List Sample)

theorem foldl_sample_program :
    ((between.map Event.sample).foldl Outcome.step outcome).program = outcome.program := by
  induction between generalizing outcome with
  | nil => rfl
  | cons sample between inductionHypothesis =>
      exact inductionHypothesis (outcome.step (.sample sample))

theorem foldl_sample_agree {pid : UInt32} (unsampled : ∀ sample ∈ between, sample.pid ≠ pid) :
    Agree ((between.map Event.sample).foldl Outcome.step outcome).maps outcome.maps pid := by
  induction between generalizing outcome with
  | nil => exact ⟨rfl, rfl, rfl⟩
  | cons sample between inductionHypothesis =>
      have later := inductionHypothesis (outcome.step (.sample sample))
        fun other member => unsampled other (List.mem_cons_of_mem _ member)
      have first := updateMovingAverage_agree outcome.maps
        (Ne.symm (unsampled sample List.mem_cons_self)) sample.latency sample.currentTime
      exact ⟨later.1.trans first.1, later.2.1.trans first.2.1, later.2.2.trans first.2.2⟩

end Samples

theorem traced_outcome (first : List DiscoveredHop) (events : List Event) :
    (traced first events).outcome = events.foldl Outcome.step (loaded first) := by
  have general : ∀ trace : Trace,
      (events.foldl Trace.step trace).outcome = events.foldl Outcome.step trace.outcome := by
    induction events with
    | nil => exact fun _ => rfl
    | cons event events inductionHypothesis =>
        exact fun trace => inductionHypothesis (trace.step event)
  exact general _

/-- A tick at `reading` after `before`, and then the samples `between`. -/
def tickThen (before : List Event) (reading : Reading) (between : List Sample) :
    List Event :=
  before ++ .tick reading :: between.map .sample

section Consecutive

variable {first : List DiscoveredHop} {before : List Event} {reading : Reading}
  {between : List Sample} {pid : UInt32}

theorem traced_tickThen_outcome :
    (traced first (tickThen before reading between)).outcome =
      (between.map Event.sample).foldl Outcome.step
        (displayMetrics (traced first before).outcome.program
          (traced first before).outcome.maps reading) := by
  rw [traced_outcome, traced_outcome, tickThen, List.foldl_append, List.foldl_cons]
  rfl

/-- A tick notes the sum and count of every process it sees. -/
theorem lookup_after_tick (reading : Reading) (between : List Sample)
    (present : Present (traced first before).outcome.maps pid) :
    ((traced first (tickThen before reading between)).outcome.program.lastSamples.lookup
        pid) =
      some (nextState ((traced first before).outcome.program.lastSamples.lookup pid)
        (((traced first before).windows pid).total,
          ((traced first before).windows pid).number)) := by
  have holds := (traced_refines first before).holds present
  rw [traced_tickThen_outcome, foldl_sample_program, displayMetrics_lastSamples, partitionAt,
    partitionFresh_lookup, snapshot_lookup, if_pos present, holds.sum, holds.count]
  rfl

theorem mem_fresh_iff_not_coincides (again : Reading)
    (presentFirst : Present (traced first before).outcome.maps pid)
    (presentSecond :
      Present (traced first (tickThen before reading between)).outcome.maps pid) :
    pid ∈ (traced first (tickThen before reading between ++ [.tick again])).outcome.fresh ↔
      ¬((traced first before).windows pid).Coincides
        ((traced first (tickThen before reading between)).windows pid) := by
  have holds := (traced_refines first (tickThen before reading between)).holds presentSecond
  have ledger := lookup_after_tick reading between presentFirst
  have ticked : (traced first (tickThen before reading between ++ [.tick again])).outcome =
      displayMetrics (traced first (tickThen before reading between)).outcome.program
        (traced first (tickThen before reading between)).outcome.maps again := by
    rw [traced_outcome, traced_outcome, List.foldl_append]
    rfl
  rw [ticked, displayMetrics_fresh, partitionAt, mem_partitionFresh_fresh, snapshot_lookup,
    if_pos presentSecond, holds.sum, holds.count]
  simp only [Option.getD_some, Option.some.injEq, exists_eq_left', hasNews_iff, ledger]
  unfold nextState Window.Coincides
  split <;> simp

theorem coincides_of_unsampled
    (unsampled : ∀ sample ∈ between, sample.pid ≠ pid)
    (presentFirst : Present (traced first before).outcome.maps pid)
    (presentSecond :
      Present (traced first (tickThen before reading between)).outcome.maps pid) :
    ((traced first before).windows pid).Coincides
      ((traced first (tickThen before reading between)).windows pid) := by
  have held := (traced_refines first before).holds presentFirst
  have holds := (traced_refines first (tickThen before reading between)).holds presentSecond
  have quiet := foldl_sample_agree
    (displayMetrics (traced first before).outcome.program
      (traced first before).outcome.maps reading) between unsampled
  rw [← traced_tickThen_outcome] at quiet
  rcases displayMetrics_agree_or_lacks (traced first before).outcome.program
      (traced first before).outcome.maps reading pid with agree | lacks
  · have sums := (quiet.1.trans agree.1).symm.trans holds.sum
    have counts := (quiet.2.1.trans agree.2.1).symm.trans holds.count
    rw [held.sum] at sums
    rw [held.count] at counts
    exact ⟨Option.some.inj sums, Option.some.inj counts⟩
  · exact absurd presentSecond (quiet.lacks lacks).not_present

/-- The fresh list of the second tick is right about a process exactly when its
new samples, if there are any, do not leave it with the sum and the count it
had at the first. -/
theorem fresh_exact_iff (first : List DiscoveredHop) (before : List Event)
    (reading again : Reading) (between : List Sample) (pid : UInt32)
    (presentFirst : Present (traced first before).outcome.maps pid)
    (presentSecond :
      Present (traced first (tickThen before reading between)).outcome.maps pid) :
    (pid ∈ (traced first (tickThen before reading between ++ [.tick again])).outcome.fresh ↔
        ∃ sample ∈ between, sample.pid = pid) ↔
      ((∃ sample ∈ between, sample.pid = pid) →
        ¬((traced first before).windows pid).Coincides
          ((traced first (tickThen before reading between)).windows pid)) := by
  rw [mem_fresh_iff_not_coincides again presentFirst presentSecond]
  constructor
  · exact fun exactly sampled => exactly.mpr sampled
  · intro noticed
    refine ⟨?_, noticed⟩
    intro changed
    by_contra unsampled
    apply changed
    apply coincides_of_unsampled _ presentFirst presentSecond
    intro sample member same
    exact unsampled ⟨sample, member, same⟩

end Consecutive

def oneSample : List Event := [.sample ⟨10, 1000, 10000000000⟩]

def plainReading : Reading := ⟨0, 0, none⟩

theorem fresh_exact_within_window :
    10 ∈ (traced [] (tickThen oneSample plainReading [⟨10, 500, 10500000000⟩] ++
      [.tick plainReading])).outcome.fresh := by
  have exactly := fresh_exact_iff [] oneSample plainReading plainReading
    [⟨10, 500, 10500000000⟩] 10 (by decide) (by decide)
  refine (exactly.mpr ?_).mpr ⟨_, List.mem_cons_self, rfl⟩
  intro _ coincides
  exact absurd coincides.1 (by decide)

/-- A sample after the window has expired, equal to the one before the first
tick, goes unnoticed. -/
theorem not_fresh_after_equal_window :
    ¬(10 ∈ (traced [] (tickThen oneSample plainReading [⟨10, 1000, 20000000000⟩] ++
        [.tick plainReading])).outcome.fresh ↔
      ∃ sample ∈ [(⟨10, 1000, 20000000000⟩ : Sample)], sample.pid = 10) := by
  intro exactly
  have unnoticed : 10 ∉ (traced [] (tickThen oneSample plainReading
      [⟨10, 1000, 20000000000⟩] ++ [.tick plainReading])).outcome.fresh := by decide
  exact unnoticed (exactly.mpr ⟨_, List.mem_cons_self, rfl⟩)

end BpfAgent.Sca
