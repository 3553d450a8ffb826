import BpfAgent.Lib.Run
import BpfAgent.PidLabel
import BpfAgent.Sca.Display

/-!
# SCA: the exported series

The label of a series is built from the display map, which a rediscovery
rebuilds.  It still names the process it was created for when it is removed,
because a rediscovery runs only on a tick without new samples, and on such a
tick no process is fresh.  So the exported series are always those of the fresh
processes.
-/

namespace BpfAgent.Sca

/-- Different processes have different labels, whatever their names. -/
theorem latencyLabel_inj (socketPidMap : Table UInt32 String) {pid other : UInt32}
    (same : latencyLabel socketPidMap pid = latencyLabel socketPidMap other) :
    pid = other :=
  pidLabel_inj same

section Registry

variable (socketPidMap : Table UInt32 String)

theorem removeStale_carries (newlyStale : List UInt32) (series : Series)
    (removals : List Removal) :
    newlyStale.foldl
        (fun (state : Series × List Removal) pid =>
          ((removeLabelValues state.1 (latencyLabel socketPidMap pid)).1,
            state.2 ++ [(removeLabelValues state.1 (latencyLabel socketPidMap pid)).2]))
        (series, removals) =
      ((removeStale socketPidMap series newlyStale).1,
        removals ++ (removeStale socketPidMap series newlyStale).2) := by
  induction newlyStale generalizing series removals with
  | nil => simp [removeStale]
  | cons pid newlyStale inductionHypothesis =>
      simp only [removeStale, List.foldl_cons]
      rw [inductionHypothesis, inductionHypothesis _ ([] ++ _)]
      simp

theorem removeStale_cons (series : Series) (pid : UInt32) (newlyStale : List UInt32) :
    removeStale socketPidMap series (pid :: newlyStale) =
      ((removeStale socketPidMap (series.erase (latencyLabel socketPidMap pid))
          newlyStale).1,
        ⟨latencyLabel socketPidMap pid, latencyLabel socketPidMap pid ∈ series⟩ ::
          (removeStale socketPidMap (series.erase (latencyLabel socketPidMap pid))
            newlyStale).2) := by
  rw [removeStale, List.foldl_cons]
  exact removeStale_carries socketPidMap newlyStale _ _

theorem removeStale_labels (series : Series) (newlyStale : List UInt32) :
    (removeStale socketPidMap series newlyStale).2.map Removal.label =
      newlyStale.map (latencyLabel socketPidMap) := by
  induction newlyStale generalizing series with
  | nil => rfl
  | cons pid newlyStale inductionHypothesis =>
      rw [removeStale_cons, List.map_cons, List.map_cons, inductionHypothesis]

theorem mem_removeStale (series : Series) (newlyStale : List UInt32) (label : String) :
    label ∈ (removeStale socketPidMap series newlyStale).1 ↔
      label ∈ series ∧ ∀ pid ∈ newlyStale, latencyLabel socketPidMap pid ≠ label := by
  induction newlyStale generalizing series with
  | nil => simp [removeStale]
  | cons pid newlyStale inductionHypothesis =>
      rw [removeStale_cons, inductionHypothesis, AList.mem_erase]
      constructor
      · rintro ⟨⟨different, present⟩, others⟩
        refine ⟨present, ?_⟩
        intro other membership
        rcases List.mem_cons.mp membership with rfl | later
        · exact Ne.symm different
        · exact others other later
      · rintro ⟨present, others⟩
        exact ⟨⟨Ne.symm (others pid List.mem_cons_self), present⟩,
          fun other later => others other (List.mem_cons_of_mem _ later)⟩

/-- Removing each of some existing series once never fails. -/
theorem removeStale_existed {series : Series} {newlyStale : List UInt32}
    (distinct : newlyStale.Nodup)
    (exported : ∀ pid ∈ newlyStale, latencyLabel socketPidMap pid ∈ series) :
    ∀ removal ∈ (removeStale socketPidMap series newlyStale).2, removal.existed = true := by
  induction newlyStale generalizing series with
  | nil => simp [removeStale]
  | cons pid newlyStale inductionHypothesis =>
      rw [removeStale_cons]
      intro removal membership
      rcases List.mem_cons.mp membership with rfl | later
      · exact decide_eq_true (exported pid List.mem_cons_self)
      · refine inductionHypothesis (List.nodup_cons.mp distinct).2 ?_ removal later
        intro other member
        apply AList.mem_erase.mpr
        refine ⟨?_, exported other (List.mem_cons_of_mem _ member)⟩
        intro same
        obtain rfl := latencyLabel_inj socketPidMap same
        exact (List.nodup_cons.mp distinct).1 member

theorem mem_foldl_reportPidLatency (samples : Samples) (series : Series)
    (fresh : List UInt32) (label : String) :
    label ∈ fresh.foldl (reportPidLatency socketPidMap samples) series ↔
      label ∈ series ∨ ∃ pid ∈ fresh, latencyLabel socketPidMap pid = label := by
  induction fresh generalizing series with
  | nil => simp
  | cons pid fresh inductionHypothesis =>
      rw [List.foldl_cons, inductionHypothesis, reportPidLatency, AList.mem_insert]
      simp only [List.mem_cons, exists_eq_or_imp]
      tauto

end Registry

/-- What a tick finds in the maps, and its other readings. -/
structure Tick where
  maps : Maps
  reading : Reading

/-- The next tick.  Between two ticks the kernel side may change the maps in any
way, but it never deletes a process from them. -/
def Outcome.tick (outcome : Outcome) (tick : Tick) : Option Outcome :=
  if (collectPids outcome.maps.latencyPidSum outcome.maps.latencyPidCount).all
      (fun pid => Present tick.maps pid) then
    some (displayMetrics outcome.program tick.maps tick.reading)
  else
    none

/-- Every fresh process has a series and an entry in the maps. -/
structure Consistent (outcome : Outcome) : Prop where
  exported : ∀ label, label ∈ outcome.program.series ↔
    ∃ pid, outcome.program.isFresh pid ∧ outcome.program.label pid = label
  present : ∀ pid, outcome.program.isFresh pid → Present outcome.maps pid

/-- What a tick does to the series: it exports those of the fresh processes, and
removes one existing series for each process that ceases to be fresh. -/
structure ExportsFresh (before after : Outcome) : Prop where
  exported : ∀ label, label ∈ after.program.series ↔
    ∃ pid, after.program.isFresh pid ∧ after.program.label pid = label
  existed : ∀ removal ∈ after.removals, removal.existed = true
  once : ∀ pid, (after.removals.map Removal.label).count (before.program.label pid) =
    if before.program.isFresh pid ∧ ¬after.program.isFresh pid then 1 else 0
  only : ∀ removal ∈ after.removals, ∃ pid,
    before.program.isFresh pid ∧ ¬after.program.isFresh pid ∧
      removal.label = before.program.label pid

section Tick

variable {outcome : Outcome} {maps : Maps} {reading : Reading}

/-- A fresh process is in the next snapshot, so it is fresh again or has just
gone quiet. -/
theorem Consistent.stale_iff (consistent : Consistent outcome)
    (kept : ∀ pid, Present outcome.maps pid → Present maps pid) (pid : UInt32) :
    pid ∈ (partitionAt outcome.program maps).newlyStale ↔
      outcome.program.isFresh pid ∧ pid ∉ (partitionAt outcome.program maps).fresh := by
  rw [partitionAt, mem_partitionFresh_newlyStale, mem_partitionFresh_fresh]
  constructor
  · rintro ⟨current, seen, quiet⟩
    have found := of_decide_eq_true quiet
    refine ⟨Program.isFresh_iff.mpr ⟨_, _, found⟩, ?_⟩
    rintro ⟨again, seenAgain, news⟩
    obtain rfl := Option.some.inj (seen.symm.trans seenAgain)
    exact (hasNews_iff.mp news).1 found
  · rintro ⟨wasFresh, unchanged⟩
    have seen := snapshot_lookup maps pid
    rw [if_pos (kept pid (consistent.present pid wasFresh))] at seen
    refine ⟨_, seen, ?_⟩
    obtain ⟨sum, count, found⟩ := Program.isFresh_iff.mp wasFresh
    by_contra noisy
    apply unchanged
    refine ⟨_, seen, hasNews_iff.mpr ⟨?_, ?_⟩⟩
    · intro same
      exact noisy (decide_eq_true same)
    · rw [found]
      simp

/-- The series left once the stale ones are removed belong to processes that
are fresh again. -/
theorem Consistent.mem_removeStale (consistent : Consistent outcome)
    (kept : ∀ pid, Present outcome.maps pid → Present maps pid) (label : String) :
    label ∈ (removeStale outcome.program.display.socketPidMap outcome.program.series
        (partitionAt outcome.program maps).newlyStale).1 ↔
      ∃ pid, (outcome.program.isFresh pid ∧ pid ∈ (partitionAt outcome.program maps).fresh) ∧
        outcome.program.label pid = label := by
  rw [Sca.mem_removeStale, consistent.exported]
  constructor
  · rintro ⟨⟨pid, wasFresh, rfl⟩, survives⟩
    refine ⟨pid, ⟨wasFresh, ?_⟩, rfl⟩
    by_contra quiet
    exact survives pid ((consistent.stale_iff kept pid).mpr ⟨wasFresh, quiet⟩) rfl
  · rintro ⟨pid, ⟨wasFresh, news⟩, rfl⟩
    refine ⟨⟨pid, wasFresh, rfl⟩, ?_⟩
    intro other stale same
    obtain rfl := latencyLabel_inj _ same
    exact ((consistent.stale_iff kept other).mp stale).2 news

theorem Consistent.exported_tick (consistent : Consistent outcome)
    (kept : ∀ pid, Present outcome.maps pid → Present maps pid) (label : String) :
    label ∈ (displayMetrics outcome.program maps reading).program.series ↔
      ∃ pid, (displayMetrics outcome.program maps reading).program.isFresh pid ∧
        (displayMetrics outcome.program maps reading).program.label pid = label := by
  simp only [displayMetrics_isFresh]
  by_cases quiet : (partitionAt outcome.program maps).fresh = []
  · -- No process is fresh, so every series is gone and relabelling is harmless.
    rw [displayMetrics_series_of_quiet _ _ _ quiet, consistent.mem_removeStale kept]
    simp [quiet]
  · obtain ⟨-, display, series⟩ := displayMetrics_of_fresh outcome.program maps reading quiet
    rw [series, mem_foldl_reportPidLatency, consistent.mem_removeStale kept]
    simp only [Program.label, display]
    constructor
    · rintro (⟨pid, ⟨-, news⟩, rfl⟩ | reported)
      · exact ⟨pid, news, rfl⟩
      · exact reported
    · exact .inr

theorem Consistent.tick (consistent : Consistent outcome)
    (kept : ∀ pid, Present outcome.maps pid → Present maps pid) :
    Consistent (displayMetrics outcome.program maps reading) where
  exported := consistent.exported_tick kept
  present pid isFresh := by
    rw [displayMetrics_isFresh] at isFresh
    rw [(displayMetrics_of_fresh outcome.program maps reading
      (List.ne_nil_of_mem isFresh)).1]
    obtain ⟨current, seen, -⟩ := (mem_partitionFresh_fresh _ _).mp isFresh
    by_contra absent
    rw [snapshot_lookup, if_neg absent] at seen
    cases seen

theorem displayMetrics_labels (reading : Reading) :
    (displayMetrics outcome.program maps reading).removals.map Removal.label =
      (partitionAt outcome.program maps).newlyStale.map outcome.program.label := by
  rw [displayMetrics_removals]
  exact removeStale_labels _ _ _

theorem Consistent.exportsFresh (consistent : Consistent outcome)
    (kept : ∀ pid, Present outcome.maps pid → Present maps pid) :
    ExportsFresh outcome (displayMetrics outcome.program maps reading) where
  exported := consistent.exported_tick kept
  existed := by
    rw [displayMetrics_removals]
    apply removeStale_existed _ (partitionFresh_newlyStale_nodup _ _)
    intro pid stale
    exact (consistent.exported _).mpr
      ⟨pid, ((consistent.stale_iff kept pid).mp stale).1, rfl⟩
  once pid := by
    have injective : Function.Injective outcome.program.label :=
      fun _ _ same => latencyLabel_inj _ same
    have distinct : (partitionAt outcome.program maps).newlyStale.Nodup :=
      partitionFresh_newlyStale_nodup _ _
    rw [displayMetrics_labels, List.count_map_of_injective _ _ injective, distinct.count]
    simp only [consistent.stale_iff kept pid, displayMetrics_isFresh]
  only removal membership := by
    have label : removal.label ∈
        (partitionAt outcome.program maps).newlyStale.map outcome.program.label := by
      rw [← displayMetrics_labels reading]
      exact List.mem_map_of_mem membership
    obtain ⟨pid, stale, same⟩ := List.mem_map.mp label
    obtain ⟨wasFresh, quiet⟩ := (consistent.stale_iff kept pid).mp stale
    exact ⟨pid, wasFresh, by rwa [displayMetrics_isFresh], same.symm⟩

end Tick

theorem Outcome.tick_eq {outcome next : Outcome} {tick : Tick}
    (ticked : outcome.tick tick = some next) :
    (∀ pid, Present outcome.maps pid → Present tick.maps pid) ∧
      next = displayMetrics outcome.program tick.maps tick.reading := by
  unfold Outcome.tick at ticked
  split at ticked
  next kept =>
    refine ⟨?_, (Option.some.inj ticked).symm⟩
    intro pid present
    exact of_decide_eq_true (List.all_eq_true.mp kept pid (mem_collectPids.mpr present))
  next => cases ticked

theorem loaded_consistent (first : List DiscoveredHop) : Consistent (loaded first) where
  exported label := by
    simp [loaded, Program.isFresh]
  present pid isFresh := by
    simp [loaded, Program.isFresh] at isFresh

/-- After every tick of every run the exported series are those of the fresh
processes, and the tick removed exactly the series of the processes that ceased
to be fresh. -/
theorem exported_series_are_fresh (first : List DiscoveredHop) (ticks : List Tick)
    (tick : Tick) (outcome next : Outcome)
    (ran : ticks.foldlM Outcome.tick (loaded first) = some outcome)
    (ticked : outcome.tick tick = some next) :
    ExportsFresh outcome next := by
  have consistent : Consistent outcome := by
    apply Run.foldlM_invariant Consistent _ ran (loaded_consistent first)
    intro tick _ outcome next ticked consistent
    obtain ⟨kept, rfl⟩ := Outcome.tick_eq ticked
    exact consistent.tick kept
  obtain ⟨kept, rfl⟩ := Outcome.tick_eq ticked
  exact consistent.exportsFresh kept

def sampleTick (discovery : Option (List DiscoveredHop)) : Tick where
  maps :=
    { Maps.empty with
      latencyPidSum := BoundedMap.empty.insert 10 7000
      latencyPidCount := BoundedMap.empty.insert 10 1 }
  reading := ⟨0, 0, discovery⟩

theorem exported_series_after_pause :
    ∃ outcome next, [sampleTick none].foldlM Outcome.tick (loaded [sourceAt 4]) = some outcome ∧
      outcome.tick (sampleTick (some [])) = some next ∧
      outcome.program.series.keys = ["DATA_SOURCE (PID 10)"] ∧
      next.removals = [⟨"DATA_SOURCE (PID 10)", true⟩] ∧
      ExportsFresh outcome next := by
  refine ⟨([sampleTick none].foldlM Outcome.tick (loaded [sourceAt 4])).get (by decide +kernel),
    Option.get _ (by decide +kernel), (Option.some_get _).symm, (Option.some_get _).symm,
    by decide +kernel, by decide +kernel, ?_⟩
  exact exported_series_are_fresh [sourceAt 4] [sampleTick none] (sampleTick (some [])) _ _
    (Option.some_get _).symm (Option.some_get _).symm

end BpfAgent.Sca
