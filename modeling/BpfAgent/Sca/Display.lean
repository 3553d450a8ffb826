import BpfAgent.Lib.Table
import BpfAgent.Sca.Discovery

/-!
# SCA: the display tick

Every tick reads a snapshot of the per-process sums and counts, compares it
with the ledger of the previous tick, removes the Prometheus series of
processes that have gone quiet and sets those of processes with new samples.  A
tick without any new sample rediscovers the endpoints instead, at most once per
interval.

The registry of series is a table from label values to gauges.  Log output is
left out.
-/

namespace BpfAgent.Sca

/-- At most one rediscovery in this many nanoseconds. -/
def repopulationInterval : Nat := 5000000000

/-- Freshness state of the samples of a process, with the last seen sum and
count. -/
inductive SampleState where
  | fresh (sum count : UInt64)
  | cleared (sum count : UInt64)
  deriving DecidableEq

abbrev Ledger := Table UInt32 SampleState

abbrev Samples := Table UInt32 (UInt64 × UInt64)

def collectPids (sumMap countMap : BoundedMap UInt32 UInt64 16) : List UInt32 :=
  (sumMap.keys ++ countMap.keys).dedup

def snapshot (maps : Maps) : Samples :=
  (collectPids maps.latencyPidSum maps.latencyPidCount).foldl
    (fun samples pid => samples.insert pid
      ((maps.latencyPidSum.get pid).getD 0, (maps.latencyPidCount.get pid).getD 0))
    ∅

structure Partition where
  ledger : Ledger
  fresh : List UInt32
  newlyStale : List UInt32

def Partition.markFresh (partition : Partition) (pid : UInt32) (current : UInt64 × UInt64) :
    Partition :=
  { partition with
    ledger := partition.ledger.insert pid (.fresh current.1 current.2)
    fresh := partition.fresh ++ [pid] }

def classify (partition : Partition) (sample : (_ : UInt32) × (UInt64 × UInt64)) :
    Partition :=
  let ⟨pid, current⟩ := sample
  match partition.ledger.lookup pid with
  | some (.fresh sum count) =>
      if (sum, count) = current then
        { partition with
          ledger := partition.ledger.insert pid (.cleared current.1 current.2)
          newlyStale := partition.newlyStale ++ [pid] }
      else
        partition.markFresh pid current
  | some (.cleared sum count) =>
      if (sum, count) = current then partition else partition.markFresh pid current
  | none => partition.markFresh pid current

/-- Split the samples into processes with new ones and processes that have just
gone quiet, updating the ledger. -/
def partitionFresh (ledger : Ledger) (samples : Samples) : Partition :=
  samples.entries.foldl classify ⟨Table.retain ledger fun pid => pid ∈ samples, [], []⟩

abbrev Series := Table String Int64

def latencyLabel (socketPidMap : Table UInt32 String) (pid : UInt32) : String :=
  (socketPidMap.lookup pid).getD "unknown" ++ " (PID " ++ toString pid ++ ")"

/-- One call of remove_label_values, and whether the series was there. -/
structure Removal where
  label : String
  existed : Bool
  deriving DecidableEq

def removeLabelValues (series : Series) (label : String) : Series × Removal :=
  (series.erase label, ⟨label, label ∈ series⟩)

def removeStale (socketPidMap : Table UInt32 String) (series : Series)
    (newlyStale : List UInt32) : Series × List Removal :=
  newlyStale.foldl
    (fun (series, removals) pid =>
      let (left, removal) := removeLabelValues series (latencyLabel socketPidMap pid)
      (left, removals ++ [removal]))
    (series, [])

def avgLatencyUs (sum count : UInt64) : UInt64 :=
  (if count = 0 then 0 else sum / count) / 1000

def reportPidLatency (socketPidMap : Table UInt32 String) (samples : Samples)
    (series : Series) (pid : UInt32) : Series :=
  let (sum, count) := (samples.lookup pid).getD (0, 0)
  series.insert (latencyLabel socketPidMap pid) (avgLatencyUs sum count).toInt64

structure Program where
  display : Display
  lastSamples : Ledger
  lastRepopulation : Option Nat
  series : Series

/-- The readings of one tick besides the maps: the clock when the age of the
last rediscovery is taken and when a new one is noted, and what a rediscovery
finds, if it succeeds. -/
structure Reading where
  checked : Nat
  now : Nat
  discovery : Option (List DiscoveredHop)

/-- What a tick leaves behind. -/
structure Outcome where
  program : Program
  maps : Maps
  fresh : List UInt32
  removals : List Removal

def repopulationDue (program : Program) (checked : Nat) : Bool :=
  match program.lastRepopulation with
  | none => true
  | some last => repopulationInterval ≤ checked - last

def rediscover (program : Program) (maps : Maps) (reading : Reading) : Program × Maps :=
  if repopulationDue program reading.checked then
    let program := { program with lastRepopulation := some reading.now }
    match reading.discovery with
    | none => (program, maps)
    | some hops =>
        let (display, maps) := repopulateSocketHopsMap maps hops
        ({ program with display }, maps)
  else
    (program, maps)

def displayMetrics (program : Program) (maps : Maps) (reading : Reading) : Outcome :=
  let samples := snapshot maps
  let partition := partitionFresh program.lastSamples samples
  let socketPidMap := program.display.socketPidMap
  let (series, removals) := removeStale socketPidMap program.series partition.newlyStale
  let program := { program with lastSamples := partition.ledger, series }
  if partition.fresh.isEmpty then
    let (program, maps) := rediscover program maps reading
    { program, maps, fresh := [], removals }
  else
    { program :=
        { program with
          series := partition.fresh.foldl (reportPidLatency socketPidMap samples) series }
      maps
      fresh := partition.fresh
      removals }

def loaded (first : List DiscoveredHop) : Outcome :=
  let (display, maps) := populateSocketHopsMap Display.empty Maps.empty first
  { program := ⟨display, ∅, none, ∅⟩, maps, fresh := [], removals := [] }

def Present (maps : Maps) (pid : UInt32) : Prop :=
  pid ∈ maps.latencyPidSum ∨ pid ∈ maps.latencyPidCount

instance (maps : Maps) (pid : UInt32) : Decidable (Present maps pid) :=
  inferInstanceAs (Decidable (_ ∨ _))

theorem mem_collectPids {maps : Maps} {pid : UInt32} :
    pid ∈ collectPids maps.latencyPidSum maps.latencyPidCount ↔ Present maps pid := by
  simp only [collectPids, List.mem_dedup, List.mem_append, BoundedMap.mem_keys, Present]

theorem snapshot_lookup (maps : Maps) (pid : UInt32) :
    (snapshot maps).lookup pid =
      if Present maps pid then
        some ((maps.latencyPidSum.get pid).getD 0, (maps.latencyPidCount.get pid).getD 0)
      else
        none := by
  rw [snapshot, Table.lookup_foldl_insert fun pid =>
    ((maps.latencyPidSum.get pid).getD 0, (maps.latencyPidCount.get pid).getD 0)]
  simp only [mem_collectPids, AList.lookup_empty]

/-- The ledger entry of a process after a tick that sees it. -/
def nextState (previous : Option SampleState) (current : UInt64 × UInt64) : SampleState :=
  if previous = some (.fresh current.1 current.2) ∨
      previous = some (.cleared current.1 current.2) then
    .cleared current.1 current.2
  else
    .fresh current.1 current.2

theorem classify_cases (partition : Partition) (pid : UInt32) (current : UInt64 × UInt64) :
    (partition.ledger.lookup pid = some (.fresh current.1 current.2) ∧
      classify partition ⟨pid, current⟩ =
        { partition with
          ledger := partition.ledger.insert pid (.cleared current.1 current.2)
          newlyStale := partition.newlyStale ++ [pid] }) ∨
    (partition.ledger.lookup pid = some (.cleared current.1 current.2) ∧
      classify partition ⟨pid, current⟩ = partition) ∨
    (partition.ledger.lookup pid ≠ some (.fresh current.1 current.2) ∧
      partition.ledger.lookup pid ≠ some (.cleared current.1 current.2) ∧
      classify partition ⟨pid, current⟩ = partition.markFresh pid current) := by
  obtain ⟨currentSum, currentCount⟩ := current
  unfold classify
  dsimp only
  cases found : partition.ledger.lookup pid with
  | none => simp
  | some state =>
      cases state with
      | fresh sum count =>
          by_cases same : (sum, count) = (currentSum, currentCount)
          · obtain ⟨rfl, rfl⟩ := Prod.mk.inj same
            simp
          · have different : ¬(sum = currentSum ∧ count = currentCount) := by simpa using same
            simp [same, different]
      | cleared sum count =>
          by_cases same : (sum, count) = (currentSum, currentCount)
          · obtain ⟨rfl, rfl⟩ := Prod.mk.inj same
            simp
          · have different : ¬(sum = currentSum ∧ count = currentCount) := by simpa using same
            simp [same, different]

theorem classify_lookup (partition : Partition) (pid other : UInt32)
    (current : UInt64 × UInt64) :
    (classify partition ⟨pid, current⟩).ledger.lookup other =
      if other = pid then some (nextState (partition.ledger.lookup pid) current)
      else partition.ledger.lookup other := by
  rcases classify_cases partition pid current with
    ⟨found, result⟩ | ⟨found, result⟩ | ⟨notFresh, notCleared, result⟩
  · rw [result]
    simp [Table.lookup_insert_ite, nextState, found]
  · rw [result]
    split
    next same =>
      subst same
      simp [nextState, found]
    next => rfl
  · rw [result]
    simp [Partition.markFresh, Table.lookup_insert_ite, nextState, notFresh, notCleared]

def SampleState.isFresh : SampleState → Bool
  | .fresh _ _ => true
  | .cleared _ _ => false

/-- The process has samples the ledger has not seen. -/
def hasNews (ledger : Ledger) (sample : (_ : UInt32) × (UInt64 × UInt64)) : Bool :=
  (nextState (ledger.lookup sample.1) sample.2).isFresh

theorem hasNews_iff {ledger : Ledger} {pid : UInt32} {current : UInt64 × UInt64} :
    hasNews ledger ⟨pid, current⟩ = true ↔
      ledger.lookup pid ≠ some (.fresh current.1 current.2) ∧
        ledger.lookup pid ≠ some (.cleared current.1 current.2) := by
  unfold hasNews nextState
  split
  next known =>
    simp only [SampleState.isFresh, Bool.false_eq_true, false_iff, not_and_or, not_not]
    exact known
  next unknown =>
    simp only [SampleState.isFresh, true_iff]
    exact not_or.mp unknown

/-- The process was reported last time and has had no sample since. -/
def wentQuiet (ledger : Ledger) (sample : (_ : UInt32) × (UInt64 × UInt64)) : Bool :=
  ledger.lookup sample.1 = some (.fresh sample.2.1 sample.2.2)

theorem classify_lists (partition : Partition)
    (sample : (_ : UInt32) × (UInt64 × UInt64)) :
    (classify partition sample).fresh =
        partition.fresh ++ (if hasNews partition.ledger sample then [sample.1] else []) ∧
      (classify partition sample).newlyStale =
        partition.newlyStale ++
          (if wentQuiet partition.ledger sample then [sample.1] else []) := by
  obtain ⟨pid, current⟩ := sample
  rcases classify_cases partition pid current with
    ⟨found, result⟩ | ⟨found, result⟩ | ⟨notFresh, notCleared, result⟩
  · rw [result]
    simp [hasNews, wentQuiet, nextState, found, SampleState.isFresh]
  · rw [result]
    simp [hasNews, wentQuiet, nextState, found, SampleState.isFresh]
  · rw [result]
    simp [hasNews, wentQuiet, nextState, notFresh, notCleared, SampleState.isFresh,
      Partition.markFresh]

theorem foldl_classify_lists {entries : List ((_ : UInt32) × (UInt64 × UInt64))}
    (distinct : entries.NodupKeys) (partition : Partition) :
    (entries.foldl classify partition).fresh =
        partition.fresh ++ (entries.filter (hasNews partition.ledger)).map Sigma.fst ∧
      (entries.foldl classify partition).newlyStale =
        partition.newlyStale ++
          (entries.filter (wentQuiet partition.ledger)).map Sigma.fst := by
  induction entries generalizing partition with
  | nil => simp
  | cons sample entries inductionHypothesis =>
      have unaffected : ∀ later ∈ entries,
          (classify partition sample).ledger.lookup later.1 =
            partition.ledger.lookup later.1 := by
        intro later membership
        obtain ⟨pid, current⟩ := sample
        rw [classify_lookup, if_neg]
        rintro same
        apply (List.nodupKeys_cons.mp distinct).1
        exact List.mem_map.mpr ⟨later, membership, same⟩
      have news : entries.filter (hasNews (classify partition sample).ledger) =
          entries.filter (hasNews partition.ledger) :=
        List.filter_congr fun later membership => by
          simp only [hasNews, unaffected later membership]
      have quiet : entries.filter (wentQuiet (classify partition sample).ledger) =
          entries.filter (wentQuiet partition.ledger) :=
        List.filter_congr fun later membership => by
          simp only [wentQuiet, unaffected later membership]
      obtain ⟨fresh, newlyStale⟩ := inductionHypothesis (List.nodupKeys_cons.mp distinct).2
        (classify partition sample)
      obtain ⟨sampleFresh, sampleStale⟩ := classify_lists partition sample
      rw [List.foldl_cons, fresh, newlyStale, news, quiet, sampleFresh, sampleStale]
      constructor
      · rw [List.filter_cons]
        split <;> simp
      · rw [List.filter_cons]
        split <;> simp

section Partition

variable (ledger : Ledger) (samples : Samples)

theorem retain_lookup {pid : UInt32} {current : UInt64 × UInt64}
    (seen : samples.lookup pid = some current) :
    (Table.retain ledger fun pid => pid ∈ samples).lookup pid = ledger.lookup pid := by
  have present : pid ∈ samples := Table.mem_iff_lookup.mpr ⟨current, seen⟩
  rw [Table.lookup_retain, if_pos (decide_eq_true present)]

theorem partitionFresh_lookup (pid : UInt32) :
    (partitionFresh ledger samples).ledger.lookup pid =
      (samples.lookup pid).map (nextState (ledger.lookup pid)) := by
  have looped := Table.foldl_entries
    (fun (partition : Partition) pid => partition.ledger.lookup pid)
    (fun previous current => some (nextState previous current))
    (fun partition pid current other => classify_lookup partition pid other current)
    samples.nodupKeys ⟨Table.retain ledger fun pid => pid ∈ samples, [], []⟩ pid
  rw [partitionFresh, looped]
  cases seen : samples.lookup pid with
  | none =>
      have skipped : samples.entries.dlookup pid = none := seen
      have absent : pid ∉ samples := AList.lookup_eq_none.mp seen
      rw [skipped]
      simp [Table.lookup_retain, absent]
  | some current =>
      have found : samples.entries.dlookup pid = some current := seen
      rw [found]
      simp [retain_lookup ledger samples seen]

theorem mem_filter_samples {test : Ledger → (_ : UInt32) × (UInt64 × UInt64) → Bool}
    (depends : ∀ (left right : Ledger) sample, left.lookup sample.1 = right.lookup sample.1 →
      test left sample = test right sample) {pid : UInt32} :
    pid ∈ (samples.entries.filter
        (test (Table.retain ledger fun pid => pid ∈ samples))).map Sigma.fst ↔
      ∃ current, samples.lookup pid = some current ∧ test ledger ⟨pid, current⟩ := by
  simp only [List.mem_map, List.mem_filter]
  constructor
  · rintro ⟨⟨other, current⟩, ⟨membership, passed⟩, rfl⟩
    have seen := Table.lookup_of_mem_entries membership
    refine ⟨current, seen, ?_⟩
    rwa [depends _ ledger _ (retain_lookup ledger samples seen)] at passed
  · rintro ⟨current, seen, passed⟩
    refine ⟨⟨pid, current⟩, ⟨AList.mem_lookup_iff.mp seen, ?_⟩, rfl⟩
    rwa [depends _ ledger _ (retain_lookup ledger samples seen)]

theorem mem_partitionFresh_fresh {pid : UInt32} :
    pid ∈ (partitionFresh ledger samples).fresh ↔
      ∃ current, samples.lookup pid = some current ∧ hasNews ledger ⟨pid, current⟩ := by
  rw [partitionFresh, (foldl_classify_lists samples.nodupKeys _).1, List.nil_append]
  apply mem_filter_samples
  intro left right sample agree
  simp only [hasNews, agree]

theorem mem_partitionFresh_newlyStale {pid : UInt32} :
    pid ∈ (partitionFresh ledger samples).newlyStale ↔
      ∃ current, samples.lookup pid = some current ∧ wentQuiet ledger ⟨pid, current⟩ := by
  rw [partitionFresh, (foldl_classify_lists samples.nodupKeys _).2, List.nil_append]
  apply mem_filter_samples
  intro left right sample agree
  simp only [wentQuiet, agree]

theorem partitionFresh_newlyStale_nodup :
    (partitionFresh ledger samples).newlyStale.Nodup := by
  rw [partitionFresh, (foldl_classify_lists samples.nodupKeys _).2, List.nil_append]
  exact List.Nodup.sublist (List.filter_sublist.map Sigma.fst) samples.keys_nodup

end Partition

/-- The ledger holds new samples of the process. -/
def Program.isFresh (program : Program) (pid : UInt32) : Bool :=
  (program.lastSamples.lookup pid).any SampleState.isFresh

theorem Program.isFresh_iff {program : Program} {pid : UInt32} :
    program.isFresh pid = true ↔
      ∃ sum count, program.lastSamples.lookup pid = some (.fresh sum count) := by
  unfold Program.isFresh
  cases program.lastSamples.lookup pid with
  | none => simp
  | some state => cases state <;> simp [SampleState.isFresh]

def Program.label (program : Program) (pid : UInt32) : String :=
  latencyLabel program.display.socketPidMap pid

def partitionAt (program : Program) (maps : Maps) : Partition :=
  partitionFresh program.lastSamples (snapshot maps)

section Tick

variable (program : Program) (maps : Maps) (reading : Reading)

theorem rediscover_frame :
    (rediscover program maps reading).1.lastSamples = program.lastSamples ∧
      (rediscover program maps reading).1.series = program.series := by
  unfold rediscover
  dsimp only
  split
  · split <;> exact ⟨rfl, rfl⟩
  · exact ⟨rfl, rfl⟩

theorem displayMetrics_lastSamples :
    (displayMetrics program maps reading).program.lastSamples =
      (partitionAt program maps).ledger := by
  unfold displayMetrics
  dsimp only
  split
  · exact (rediscover_frame _ _ _).1
  · rfl

theorem displayMetrics_maps :
    (displayMetrics program maps reading).maps = maps ∨
      ∃ hops, (displayMetrics program maps reading).maps =
        (repopulateSocketHopsMap maps hops).2 := by
  unfold displayMetrics
  dsimp only
  split
  · unfold rediscover
    split
    · cases reading.discovery with
      | none => exact .inl rfl
      | some hops => exact .inr ⟨hops, rfl⟩
    · exact .inl rfl
  · exact .inl rfl

theorem displayMetrics_fresh :
    (displayMetrics program maps reading).fresh = (partitionAt program maps).fresh := by
  unfold displayMetrics
  dsimp only
  split
  next quiet => exact (List.isEmpty_iff.mp quiet).symm
  next => rfl

theorem displayMetrics_removals :
    (displayMetrics program maps reading).removals =
      (removeStale program.display.socketPidMap program.series
        (partitionAt program maps).newlyStale).2 := by
  unfold displayMetrics
  dsimp only
  split <;> rfl

theorem displayMetrics_series_of_quiet (quiet : (partitionAt program maps).fresh = []) :
    (displayMetrics program maps reading).program.series =
      (removeStale program.display.socketPidMap program.series
        (partitionAt program maps).newlyStale).1 := by
  unfold displayMetrics
  unfold partitionAt at quiet ⊢
  dsimp only
  rw [if_pos (List.isEmpty_iff.mpr quiet)]
  exact (rediscover_frame _ _ _).2

theorem displayMetrics_of_fresh (news : (partitionAt program maps).fresh ≠ []) :
    (displayMetrics program maps reading).maps = maps ∧
      (displayMetrics program maps reading).program.display = program.display ∧
      (displayMetrics program maps reading).program.series =
        (partitionAt program maps).fresh.foldl
          (reportPidLatency program.display.socketPidMap (snapshot maps))
          (removeStale program.display.socketPidMap program.series
            (partitionAt program maps).newlyStale).1 := by
  unfold displayMetrics
  unfold partitionAt at news ⊢
  dsimp only
  rw [if_neg fun quiet => news (List.isEmpty_iff.mp quiet)]
  exact ⟨rfl, rfl, rfl⟩

theorem displayMetrics_isFresh (pid : UInt32) :
    (displayMetrics program maps reading).program.isFresh pid = true ↔
      pid ∈ (partitionAt program maps).fresh := by
  rw [Program.isFresh, displayMetrics_lastSamples, partitionAt, partitionFresh_lookup,
    mem_partitionFresh_fresh]
  cases snapshot maps |>.lookup pid <;> simp [hasNews]

end Tick

end BpfAgent.Sca
