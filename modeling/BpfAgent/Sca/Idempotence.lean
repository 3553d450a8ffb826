import BpfAgent.Sca.Discovery

/-!
# SCA: rediscovering the same endpoints

A rediscovery also runs when the traffic merely pauses, or right after the
agent has started.  It then finds what it found before and changes nothing,
even if the map of endpoints is full and has rejected some of them.
-/

namespace BpfAgent.Sca

structure SameDiscovery (left right : Display × Maps) : Prop where
  display : left.1 = right.1
  socketHopsMap : ∀ key, left.2.socketHopsMap.get key = right.2.socketHopsMap.get key
  latencyPidSum : ∀ pid, left.2.latencyPidSum.get pid = right.2.latencyPidSum.get pid
  latencyPidCount : ∀ pid, left.2.latencyPidCount.get pid = right.2.latencyPidCount.get pid
  latencyWindowStart : ∀ pid,
    left.2.latencyWindowStart.get pid = right.2.latencyWindowStart.get pid

theorem evictHops_of_live {hopsMap : BoundedMap UInt64 HopEndpoint socketHopsMapMaxEntries}
    {live : List UInt32} (alive : ∀ key ∈ hopsMap, Word.high key ∈ live) :
    evictHops hopsMap live = hopsMap := by
  have none : (hopsMap.keys.filter fun key => Word.high key ∉ live) = [] := by
    apply List.filter_eq_nil_iff.mpr
    intro key member
    simp [alive key (BoundedMap.mem_keys.mp member)]
  rw [evictHops, none]
  rfl

theorem evictPids_of_live {pidMap : BoundedMap UInt32 UInt64 16} {live : List UInt32}
    (alive : ∀ pid ∈ pidMap, pid ∈ live) : evictPids pidMap live = pidMap := by
  have none : (pidMap.keys.filter fun pid => pid ∉ live) = [] := by
    apply List.filter_eq_nil_iff.mpr
    intro pid member
    simp [alive pid (BoundedMap.mem_keys.mp member)]
  rw [evictPids, none]
  rfl

theorem mem_live_of_mem_evictPids {pidMap : BoundedMap UInt32 UInt64 16} {live : List UInt32}
    {pid : UInt32} (present : pid ∈ evictPids pidMap live) : pid ∈ live := by
  obtain ⟨value, found⟩ := BoundedMap.mem_iff_get.mp present
  rw [get_evictPids] at found
  split at found
  next alive => exact alive
  next => cases found

/-- Inserting discovered endpoints keeps every process of the map among theirs. -/
theorem live_foldl_insertEndpoint
    {hopsMap : BoundedMap UInt64 HopEndpoint socketHopsMapMaxEntries}
    {hops : List DiscoveredHop} (alive : ∀ key ∈ hopsMap, Word.high key ∈ livePids hops) :
    ∀ key ∈ hops.foldl insertEndpoint hopsMap, Word.high key ∈ livePids hops := by
  intro key present
  rcases mem_of_mem_foldl_insertEndpoint present with before | ⟨hop, member, rfl⟩
  · exact alive key before
  · rw [DiscoveredHop.key, Word.high_pack]
    exact List.mem_map.mpr ⟨hop, member, rfl⟩

/-- If only processes of `hops` are in the maps, a rediscovery of `hops` right
after they were inserted changes nothing. -/
theorem sameDiscovery_repopulate {maps : Maps} {hops : List DiscoveredHop}
    (hopsAlive : ∀ key ∈ maps.socketHopsMap, Word.high key ∈ livePids hops)
    (sumAlive : ∀ pid ∈ maps.latencyPidSum, pid ∈ livePids hops)
    (countAlive : ∀ pid ∈ maps.latencyPidCount, pid ∈ livePids hops)
    (startAlive : ∀ pid ∈ maps.latencyWindowStart, pid ∈ livePids hops) :
    SameDiscovery
      (repopulateSocketHopsMap (insertDiscovered Display.empty maps hops).2 hops)
      (insertDiscovered Display.empty maps hops) := by
  have noHop : evictHops (hops.foldl insertEndpoint maps.socketHopsMap) (livePids hops) =
      hops.foldl insertEndpoint maps.socketHopsMap :=
    evictHops_of_live (live_foldl_insertEndpoint hopsAlive)
  constructor
  case display => rfl
  case socketHopsMap =>
    intro key
    change (hops.foldl insertEndpoint (evictHops (hops.foldl insertEndpoint maps.socketHopsMap)
      (livePids hops))).get key = (hops.foldl insertEndpoint maps.socketHopsMap).get key
    rw [noHop, foldl_insertEndpoint_eq, foldl_insertEndpoint_eq]
    exact BoundedMap.get_insertAll_insertAll
  case latencyPidSum =>
    intro pid
    exact congrArg (BoundedMap.get · pid) (evictPids_of_live sumAlive)
  case latencyPidCount =>
    intro pid
    exact congrArg (BoundedMap.get · pid) (evictPids_of_live countAlive)
  case latencyWindowStart =>
    intro pid
    exact congrArg (BoundedMap.get · pid) (evictPids_of_live startAlive)

/-- A rediscovery that finds the same endpoints again, or those of the load,
leaves the maps and the display as they are. -/
theorem rediscovery_idempotent (hops : List DiscoveredHop) :
    (∀ maps, SameDiscovery
      (repopulateSocketHopsMap (repopulateSocketHopsMap maps hops).2 hops)
      (repopulateSocketHopsMap maps hops)) ∧
    SameDiscovery
      (repopulateSocketHopsMap
        (populateSocketHopsMap Display.empty Maps.empty hops).2 hops)
      (populateSocketHopsMap Display.empty Maps.empty hops) := by
  constructor
  · intro maps
    apply sameDiscovery_repopulate
    · intro key present
      exact (mem_evictHops.mp present).2
    · exact fun pid present => mem_live_of_mem_evictPids present
    · exact fun pid present => mem_live_of_mem_evictPids present
    · exact fun pid present => mem_live_of_mem_evictPids present
  · apply sameDiscovery_repopulate
    · exact fun key present => absurd present (BoundedMap.notMem_empty key)
    · exact fun pid present => absurd present (BoundedMap.notMem_empty pid)
    · exact fun pid present => absurd present (BoundedMap.notMem_empty pid)
    · exact fun pid present => absurd present (BoundedMap.notMem_empty pid)

end BpfAgent.Sca
