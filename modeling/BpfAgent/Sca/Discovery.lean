import BpfAgent.Sca.Ebpf
import Mathlib.Data.List.Dedup

/-!
# SCA: populating the map of tracked endpoints

Userspace discovers the endpoints of every hop and writes them into
SOCKET_HOPS_MAP, at load and again whenever the latency samples stop.  A
rediscovery first evicts what belongs to processes it no longer sees, from that
map and from the per-process latency maps, and rebuilds the display maps.

What `ss` reports and how it is matched to hops is an input here: a list of
discovered endpoints.
-/

namespace BpfAgent.Sca

structure DiscoveredHop where
  hopIndex : Nat
  hostPid : UInt32
  fd : UInt32
  isSender : UInt32
  path : String
  pname : String
  deriving DecidableEq

/-- Names and paths for display, by process id. -/
structure Display where
  socketPathMap : AList fun _ : UInt32 => String
  socketPidMap : AList fun _ : UInt32 => String

def Display.empty : Display := ⟨∅, ∅⟩

def DiscoveredHop.key (hop : DiscoveredHop) : UInt64 := Word.pack hop.hostPid hop.fd

def pathBytes (path : String) : Vector UInt8 32 :=
  Vector.ofFn fun index => path.toUTF8.data.getD index.val 0

def DiscoveredHop.endpoint (hop : DiscoveredHop) : HopEndpoint where
  hopIndex := hop.hopIndex.toUInt32
  isSender := hop.isSender
  path := pathBytes hop.path

/-- Insert one discovered endpoint; a full map is only logged. -/
def insertEndpoint (hopsMap : BoundedMap UInt64 HopEndpoint socketHopsMapMaxEntries)
    (hop : DiscoveredHop) : BoundedMap UInt64 HopEndpoint socketHopsMapMaxEntries :=
  hopsMap.insert hop.key hop.endpoint

/-- Name every process, and list the paths a receiver listens on. -/
def displayHop (display : Display) (hop : DiscoveredHop) : Display where
  socketPidMap := display.socketPidMap.insert hop.hostPid hop.pname
  socketPathMap :=
    if hop.isSender = 0 then
      display.socketPathMap.insert hop.hostPid
        (match display.socketPathMap.lookup hop.hostPid with
        | some path => if path.isEmpty then path ++ hop.path else path ++ ", " ++ hop.path
        | none => hop.path)
    else
      display.socketPathMap

def insertDiscovered (display : Display) (maps : Maps) (hops : List DiscoveredHop) :
    Display × Maps :=
  (hops.foldl displayHop display,
    { maps with socketHopsMap := hops.foldl insertEndpoint maps.socketHopsMap })

def populateSocketHopsMap (display : Display) (maps : Maps) (hops : List DiscoveredHop) :
    Display × Maps :=
  insertDiscovered display maps hops

def livePids (hops : List DiscoveredHop) : List UInt32 := hops.map DiscoveredHop.hostPid

/-- Drop the endpoints of processes that are gone. -/
def evictHops (hopsMap : BoundedMap UInt64 HopEndpoint socketHopsMapMaxEntries)
    (live : List UInt32) : BoundedMap UInt64 HopEndpoint socketHopsMapMaxEntries :=
  hopsMap.removeAll (hopsMap.keys.filter fun key => Word.high key ∉ live)

/-- Drop the latencies of processes that are gone. -/
def evictPids (pidMap : BoundedMap UInt32 UInt64 16) (live : List UInt32) :
    BoundedMap UInt32 UInt64 16 :=
  pidMap.removeAll (pidMap.keys.filter fun pid => pid ∉ live)

/-- Re-run endpoint discovery after the traced processes restarted. -/
def repopulateSocketHopsMap (maps : Maps) (hops : List DiscoveredHop) : Display × Maps :=
  let live := livePids hops
  insertDiscovered Display.empty
    { maps with
      socketHopsMap := evictHops maps.socketHopsMap live
      latencyPidSum := evictPids maps.latencyPidSum live
      latencyPidCount := evictPids maps.latencyPidCount live
      latencyWindowStart := evictPids maps.latencyWindowStart live }
    hops

section Insertion

variable {hopsMap : BoundedMap UInt64 HopEndpoint socketHopsMapMaxEntries}
  {hops : List DiscoveredHop}

theorem foldl_insertEndpoint_eq :
    hops.foldl insertEndpoint hopsMap =
      hopsMap.insertAll (hops.map fun hop => (hop.key, hop.endpoint)) := by
  rw [BoundedMap.insertAll, List.foldl_map]
  rfl

theorem mem_foldl_insertEndpoint_of_mem {key : UInt64} (present : key ∈ hopsMap) :
    key ∈ hops.foldl insertEndpoint hopsMap := by
  rw [foldl_insertEndpoint_eq]
  exact BoundedMap.mem_insertAll_of_mem present

theorem mem_of_mem_foldl_insertEndpoint {key : UInt64}
    (present : key ∈ hops.foldl insertEndpoint hopsMap) :
    key ∈ hopsMap ∨ ∃ hop ∈ hops, hop.key = key := by
  rw [foldl_insertEndpoint_eq] at present
  rcases BoundedMap.mem_of_mem_insertAll present with before | ⟨entry, member, same⟩
  · exact .inl before
  · obtain ⟨hop, discovered, rfl⟩ := List.mem_map.mp member
    exact .inr ⟨hop, discovered, same⟩

/-- With few enough keys in play every insert succeeds, and each key ends up
with the endpoint of the last hop that has it. -/
theorem get_foldl_insertEndpoint (domain : Finset UInt64)
    (small : domain.card ≤ socketHopsMapMaxEntries)
    (inside : ∀ key ∈ hopsMap, key ∈ domain) (within : ∀ hop ∈ hops, hop.key ∈ domain)
    (key : UInt64) :
    (∃ hop ∈ hops, hop.key = key ∧
        (hops.foldl insertEndpoint hopsMap).get key = some hop.endpoint) ∨
      (∀ hop ∈ hops, hop.key ≠ key) ∧
        (hops.foldl insertEndpoint hopsMap).get key = hopsMap.get key := by
  induction hops generalizing hopsMap with
  | nil => exact .inr ⟨by simp, rfl⟩
  | cons hop hops inductionHypothesis =>
      have room : hopsMap.Room hop.key :=
        BoundedMap.room_of_keys_subset domain small inside (within hop List.mem_cons_self)
      have insideNext : ∀ other ∈ insertEndpoint hopsMap hop, other ∈ domain := by
        intro other present
        rcases BoundedMap.mem_of_mem_insert present with equality | old
        · exact equality ▸ within hop List.mem_cons_self
        · exact inside other old
      rcases inductionHypothesis insideNext
          (fun other member => within other (List.mem_cons_of_mem _ member)) with
        ⟨last, member, same, found⟩ | ⟨absent, unchanged⟩
      · exact .inl ⟨last, List.mem_cons_of_mem _ member, same, found⟩
      · rw [insertEndpoint, BoundedMap.get_insert_of_room room] at unchanged
        by_cases same : key = hop.key
        · rw [if_pos same] at unchanged
          exact .inl ⟨hop, List.mem_cons_self, same.symm, unchanged⟩
        · rw [if_neg same] at unchanged
          refine .inr ⟨?_, unchanged⟩
          intro other member
          rcases List.mem_cons.mp member with rfl | later
          · exact Ne.symm same
          · exact absent other later

end Insertion

theorem mem_evictHops {hopsMap : BoundedMap UInt64 HopEndpoint socketHopsMapMaxEntries}
    {live : List UInt32} {key : UInt64} :
    key ∈ evictHops hopsMap live ↔ key ∈ hopsMap ∧ Word.high key ∈ live := by
  rw [BoundedMap.mem_iff_get, evictHops, BoundedMap.get_removeAll]
  simp only [List.mem_filter, decide_eq_true_eq, BoundedMap.mem_keys]
  constructor
  · rintro ⟨endpoint, found⟩
    split at found
    · cases found
    next kept =>
      have present : key ∈ hopsMap := BoundedMap.mem_iff_get.mpr ⟨endpoint, found⟩
      exact ⟨present, by_contra fun gone => kept ⟨present, gone⟩⟩
  · rintro ⟨present, alive⟩
    rw [if_neg fun evicted => evicted.2 alive]
    exact BoundedMap.mem_iff_get.mp present

theorem get_evictPids (pidMap : BoundedMap UInt32 UInt64 16) (live : List UInt32)
    (pid : UInt32) :
    (evictPids pidMap live).get pid = if pid ∈ live then pidMap.get pid else none := by
  rw [evictPids, BoundedMap.get_removeAll]
  simp only [List.mem_filter, BoundedMap.mem_keys, decide_eq_true_eq]
  by_cases alive : pid ∈ live
  · simp [alive]
  · by_cases present : pid ∈ pidMap
    · simp [alive, present]
    · simp [alive, BoundedMap.notMem_iff_get.mp present]

/-- The map holds the discovered endpoints and nothing else. -/
def Exact (hopsMap : BoundedMap UInt64 HopEndpoint socketHopsMapMaxEntries)
    (hops : List DiscoveredHop) : Prop :=
  (∀ hop ∈ hops, ∃ endpoint, hopsMap.get hop.key = some endpoint ∧
      endpoint.hopIndex = hop.hopIndex.toUInt32 ∧ endpoint.isSender = hop.isSender) ∧
    ∀ key ∈ hopsMap, ∃ hop ∈ hops, hop.key = key

/-- Every tracked socket of a process that is still alive is discovered again. -/
def NoneReplaced (hopsMap : BoundedMap UInt64 HopEndpoint socketHopsMapMaxEntries)
    (hops : List DiscoveredHop) : Prop :=
  ∀ key ∈ hopsMap, Word.high key ∈ livePids hops → ∃ hop ∈ hops, hop.key = key

/-- No socket is discovered as two different endpoints. -/
def Unambiguous (hops : List DiscoveredHop) : Prop :=
  ∀ hop ∈ hops, ∀ other ∈ hops, hop.key = other.key →
    hop.hopIndex.toUInt32 = other.hopIndex.toUInt32 ∧ hop.isSender = other.isSender

/-- The state after the load-time population and any number of rediscoveries. -/
def discovered (first : List DiscoveredHop) (later : List (List DiscoveredHop)) :
    Display × Maps :=
  later.foldl (fun state hops => repopulateSocketHopsMap state.2 hops)
    (populateSocketHopsMap Display.empty Maps.empty first)

theorem exact_repopulate_iff (maps : Maps) (hops : List DiscoveredHop)
    (small : (hops.map DiscoveredHop.key).toFinset.card ≤ socketHopsMapMaxEntries) :
    Exact (repopulateSocketHopsMap maps hops).2.socketHopsMap hops ↔
      NoneReplaced maps.socketHopsMap hops ∧ Unambiguous hops := by
  have result : (repopulateSocketHopsMap maps hops).2.socketHopsMap =
      hops.foldl insertEndpoint (evictHops maps.socketHopsMap (livePids hops)) := rfl
  rw [result]
  constructor
  · rintro ⟨found, only⟩
    constructor
    · intro key present alive
      exact only key (mem_foldl_insertEndpoint_of_mem (mem_evictHops.mpr ⟨present, alive⟩))
    · intro hop member other otherMember same
      obtain ⟨endpoint, lookup, hopIndex, isSender⟩ := found hop member
      obtain ⟨otherEndpoint, otherLookup, otherIndex, otherSender⟩ := found other otherMember
      rw [same, otherLookup] at lookup
      cases lookup
      exact ⟨hopIndex.symm.trans otherIndex, isSender.symm.trans otherSender⟩
  · rintro ⟨noneReplaced, unambiguous⟩
    have survivors : ∀ key ∈ evictHops maps.socketHopsMap (livePids hops),
        ∃ hop ∈ hops, hop.key = key := by
      intro key present
      obtain ⟨before, alive⟩ := mem_evictHops.mp present
      exact noneReplaced key before alive
    have inside : ∀ key ∈ evictHops maps.socketHopsMap (livePids hops),
        key ∈ (hops.map DiscoveredHop.key).toFinset := by
      intro key present
      obtain ⟨hop, member, same⟩ := survivors key present
      exact List.mem_toFinset.mpr (List.mem_map.mpr ⟨hop, member, same⟩)
    have within : ∀ hop ∈ hops, hop.key ∈ (hops.map DiscoveredHop.key).toFinset := by
      intro hop member
      exact List.mem_toFinset.mpr (List.mem_map.mpr ⟨hop, member, rfl⟩)
    constructor
    · intro hop member
      rcases get_foldl_insertEndpoint _ small inside within hop.key with
        ⟨last, lastMember, same, lookup⟩ | ⟨absent, -⟩
      · obtain ⟨hopIndex, isSender⟩ := unambiguous last lastMember hop member same
        exact ⟨last.endpoint, lookup, hopIndex, isSender⟩
      · exact absurd rfl (absent hop member)
    · intro key present
      rcases mem_of_mem_foldl_insertEndpoint present with before | inserted
      · exact survivors key before
      · exact inserted

/-- In every reachable state, a rediscovery is exact precisely when no process
that is still alive has replaced one of its tracked sockets. -/
theorem rediscovery_exact_iff (first : List DiscoveredHop)
    (later : List (List DiscoveredHop)) (hops : List DiscoveredHop)
    (small : (hops.map DiscoveredHop.key).toFinset.card ≤ socketHopsMapMaxEntries) :
    Exact (discovered first (later ++ [hops])).2.socketHopsMap hops ↔
      NoneReplaced (discovered first later).2.socketHopsMap hops ∧ Unambiguous hops := by
  rw [discovered, List.foldl_append]
  exact exact_repopulate_iff (discovered first later).2 hops small

def sourceAt (fd : UInt32) : DiscoveredHop where
  hopIndex := 0
  hostPid := 10
  fd := fd
  isSender := 1
  path := "/tmp/DATA_L3_TO_INTERNAL_ROUTER"
  pname := "DATA_SOURCE"

theorem rediscovery_exact_same_socket :
    Exact (discovered [sourceAt 4] [[sourceAt 4]]).2.socketHopsMap [sourceAt 4] := by
  refine (rediscovery_exact_iff [sourceAt 4] [] [sourceAt 4] (by decide)).mpr ⟨?_, ?_⟩
  · intro key present _
    rcases mem_of_mem_foldl_insertEndpoint present with before | inserted
    · exact absurd before (BoundedMap.notMem_empty key)
    · exact inserted
  · intro hop member other otherMember _
    rw [List.mem_singleton.mp member, List.mem_singleton.mp otherMember]
    exact ⟨rfl, rfl⟩

theorem rediscovery_keeps_replaced_socket :
    ¬Exact (discovered [sourceAt 4] [[sourceAt 5]]).2.socketHopsMap [sourceAt 5] := by
  rintro ⟨-, only⟩
  have leftover : Word.pack 10 4 ∈
      (discovered [sourceAt 4] [[sourceAt 5]]).2.socketHopsMap := by decide
  obtain ⟨hop, member, same⟩ := only _ leftover
  rw [List.mem_singleton.mp member] at same
  exact absurd same (by decide)

end BpfAgent.Sca
