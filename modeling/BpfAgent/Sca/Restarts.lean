import BpfAgent.Lib.Run
import BpfAgent.Lib.Sweep
import BpfAgent.Sca.Discovery
import BpfAgent.Sca.SendStep

/-!
# SCA: the per-process maps across restarts

A rediscovery evicts from four maps, one key at a time, while the tracepoint
goes on recording samples.  It evicts endpoints first, so that the processes
that are gone record nothing more; then their entries in the three per-process
maps; and only then does it insert the new endpoints.

Hence every process with an entry in a per-process map has, or has had until
the eviction under way, an endpoint, and the endpoints are fewer than the
entries these maps have room for.
-/

namespace BpfAgent.Sca

abbrev HopsMap := BoundedMap UInt64 HopEndpoint socketHopsMapMaxEntries

/-- The three maps keyed by process id, in the order in which they are evicted. -/
inductive PidMap where
  | sum
  | count
  | windowStart
  deriving DecidableEq

def PidMap.next : PidMap → Option PidMap
  | .sum => some .count
  | .count => some .windowStart
  | .windowStart => none

def PidMap.evicted : PidMap → List PidMap
  | .sum => []
  | .count => [.sum]
  | .windowStart => [.sum, .count]

def Maps.perPid (maps : Maps) : PidMap → BoundedMap UInt32 UInt64 16
  | .sum => maps.latencyPidSum
  | .count => maps.latencyPidCount
  | .windowStart => maps.latencyWindowStart

def Maps.setPerPid (maps : Maps) (pidMap : PidMap) (entries : BoundedMap UInt32 UInt64 16) :
    Maps :=
  match pidMap with
  | .sum => { maps with latencyPidSum := entries }
  | .count => { maps with latencyPidCount := entries }
  | .windowStart => { maps with latencyWindowStart := entries }

theorem perPid_withHops (maps : Maps) (hopsMap : HopsMap) (pidMap : PidMap) :
    { maps with socketHopsMap := hopsMap }.perPid pidMap = maps.perPid pidMap := by
  cases pidMap <;> rfl

theorem perPid_setPerPid (maps : Maps) (pidMap other : PidMap)
    (entries : BoundedMap UInt32 UInt64 16) :
    (maps.setPerPid pidMap entries).perPid other =
      if other = pidMap then entries else maps.perPid other := by
  cases pidMap <;> cases other <;> rfl

theorem setPerPid_socketHopsMap (maps : Maps) (pidMap : PidMap)
    (entries : BoundedMap UInt32 UInt64 16) :
    (maps.setPerPid pidMap entries).socketHopsMap = maps.socketHopsMap := by
  cases pidMap <;> rfl

def HasEndpoint (hopsMap : HopsMap) (pid : UInt32) : Prop :=
  ∃ key ∈ hopsMap, Word.high key = pid

theorem HasEndpoint.mono {hopsMap others : HopsMap} {pid : UInt32}
    (endpoint : HasEndpoint hopsMap pid) (inside : ∀ key ∈ hopsMap, key ∈ others) :
    HasEndpoint others pid := by
  obtain ⟨key, present, owner⟩ := endpoint
  exact ⟨key, inside key present, owner⟩

/-- The process has an entry in all three maps or in none. -/
def AlignedAt (maps : Maps) (pid : UInt32) : Prop :=
  ∀ pidMap other, pid ∈ maps.perPid pidMap ↔ pid ∈ maps.perPid other

theorem publishLatency_perPid (maps : Maps) (hopIndex protocol : UInt32) (latency : UInt64)
    (pidMap : PidMap) :
    (publishLatency maps hopIndex protocol latency).perPid pidMap = maps.perPid pidMap := by
  unfold publishLatency
  split
  · cases pidMap <;> rfl
  · rfl

theorem subtractDownstreamLatency_perPid (maps : Maps) (hopIndex protocol : UInt32)
    (latency : UInt64) (pidMap : PidMap) :
    (subtractDownstreamLatency maps hopIndex protocol latency).2.perPid pidMap =
      maps.perPid pidMap := by
  have published := publishLatency_perPid maps hopIndex protocol latency pidMap
  rw [← published]
  unfold subtractDownstreamLatency
  dsimp only
  split
  · split
    · cases pidMap <;> rfl
    · rfl
  · rfl

theorem mem_updateMovingAverage {maps : Maps} {pid : UInt32} (aligned : AlignedAt maps pid)
    (room : ∀ pidMap, (maps.perPid pidMap).Room pid) (latency currentTime : UInt64)
    (pidMap : PidMap) (other : UInt32) :
    other ∈ (updateMovingAverage maps pid latency currentTime).perPid pidMap ↔
      other = pid ∨ other ∈ maps.perPid pidMap := by
  cases pidMap with
  | sum => exact BoundedMap.mem_insert_of_room (room .sum) _
  | count => exact BoundedMap.mem_insert_of_room (room .count) _
  | windowStart =>
      simp only [updateMovingAverage, Maps.perPid]
      generalize held : (if windowSizeNs < currentTime - (maps.latencyWindowStart.get pid).getD 0
        then 0 else (maps.latencyPidCount.get pid).getD 0) = count
      split
      · exact BoundedMap.mem_insert_of_room (room .windowStart) _
      next counted =>
        -- A count that is not zero has been stored, and with it the start of the window.
        have present : pid ∈ maps.latencyPidCount := by
          by_contra absent
          rw [BoundedMap.notMem_iff_get.mp absent, Option.getD_none, ite_self] at held
          exact counted held.symm
        have started : pid ∈ maps.latencyWindowStart := (aligned .count .windowStart).mp present
        refine (or_iff_right_of_imp ?_).symm
        rintro rfl
        exact started

theorem sendEvent_endpoint {maps : Maps} {call : SendCall} {event : SendEvent}
    (seen : sendEvent maps call = some event) : HasEndpoint maps.socketHopsMap event.pid := by
  unfold sendEvent at seen
  simp only [Option.bind_eq_bind, Option.bind_eq_some_iff, Option.pure_def, Option.some_inj]
    at seen
  obtain ⟨args, -, endpoint, tracked, -, -, rfl⟩ := seen
  exact ⟨_, BoundedMap.mem_iff_get.mpr ⟨endpoint, tracked⟩, Word.high_pack _ _⟩

/-- What one send does to the per-process maps: nothing, or it adds the process
of its sample to all three. -/
structure Records (maps next : Maps) (sample : Option Sample) : Prop where
  hops : next.socketHopsMap = maps.socketHopsMap
  silent : sample = none → ∀ pidMap, next.perPid pidMap = maps.perPid pidMap
  added : ∀ recorded, sample = some recorded → HasEndpoint maps.socketHopsMap recorded.pid ∧
    ∀ pidMap pid, pid ∈ next.perPid pidMap ↔ pid = recorded.pid ∨ pid ∈ maps.perPid pidMap

theorem Records.nothing {maps next : Maps} (hops : next.socketHopsMap = maps.socketHopsMap)
    (silent : ∀ pidMap, next.perPid pidMap = maps.perPid pidMap) : Records maps next none := by
  refine ⟨hops, fun _ => silent, ?_⟩
  intro recorded impossible
  cases impossible

theorem send_records {maps : Maps}
    (aligned : ∀ pid, HasEndpoint maps.socketHopsMap pid → AlignedAt maps pid)
    (room : ∀ pidMap pid, (maps.perPid pidMap).Room pid) (call : SendCall) :
    Records maps (sysEnterSendmsgHandler maps call).1 (sysEnterSendmsgHandler maps call).2 := by
  have hops : (sysEnterSendmsgHandler maps call).1.socketHopsMap = maps.socketHopsMap :=
    send_socketHopsMap maps call
  cases seen : sendEvent maps call with
  | none =>
      have ignored : sysEnterSendmsgHandler maps call = (maps, none) := by
        simp [sysEnterSendmsgHandler, seen]
      rw [ignored]
      exact .nothing rfl fun _ => rfl
  | some event =>
      by_cases sender : event.endpoint.isSender = 1
      · rw [send_of_request seen sender]
        refine Records.nothing rfl ?_
        intro pidMap
        cases pidMap <;> rfl
      · rw [send_of_reply seen sender] at hops ⊢
        have endpoint := sendEvent_endpoint seen
        cases found : maps.timestampMap.get
            (pairKey event.endpoint.hopIndex event.protocol) with
        | none =>
            rw [handleResponse_of_missing found]
            exact .nothing rfl fun _ => rfl
        | some storedTime =>
            by_cases zero : call.now - storedTime = 0
            · rw [handleResponse_of_zero found zero]
              refine Records.nothing rfl ?_
              intro pidMap
              cases pidMap <;> rfl
            · rw [handleResponse_of_found found zero] at hops ⊢
              refine ⟨hops, ?_, ?_⟩
              · intro impossible
                cases impossible
              rintro recorded ⟨⟩
              refine ⟨endpoint, ?_⟩
              have same : ∀ pidMap, (subtractDownstreamLatency (takeTimestamp maps event)
                  event.endpoint.hopIndex event.protocol (call.now - storedTime)).2.perPid pidMap =
                    maps.perPid pidMap := by
                intro pidMap
                rw [subtractDownstreamLatency_perPid]
                cases pidMap <;> rfl
              intro pidMap pid
              rw [← same pidMap]
              apply mem_updateMovingAverage
              · intro first second
                rw [same, same]
                exact aligned event.pid endpoint first second
              · intro first
                rw [same]
                exact room first event.pid

theorem Records.alignedAt {maps next : Maps} {sample : Option Sample}
    (records : Records maps next sample) {pid : UInt32} (aligned : AlignedAt maps pid) :
    AlignedAt next pid := by
  intro pidMap other
  cases sample with
  | none =>
      rw [records.silent rfl, records.silent rfl]
      exact aligned pidMap other
  | some recorded =>
      rw [(records.added recorded rfl).2, (records.added recorded rfl).2, aligned pidMap other]

/-- An entry after a send was there before or is that of the sample. -/
theorem Records.mem {maps next : Maps} {sample : Option Sample}
    (records : Records maps next sample) {pidMap : PidMap} {pid : UInt32}
    (present : pid ∈ next.perPid pidMap) :
    HasEndpoint maps.socketHopsMap pid ∨ pid ∈ maps.perPid pidMap := by
  cases sample with
  | none =>
      rw [records.silent rfl] at present
      exact .inr present
  | some recorded =>
      obtain ⟨endpoint, added⟩ := records.added recorded rfl
      rcases (added pidMap pid).mp present with rfl | old
      · exact .inl endpoint
      · exact .inr old

namespace Restarts

/-- Where a rediscovery is.  `before` is SOCKET_HOPS_MAP as it was when the
rediscovery began, and so just before it evicts anything. -/
inductive Phase where
  | idle
  | evictingHops (hops : List DiscoveredHop) (before : HopsMap) (sweep : Sweep UInt64)
  | evictingPids (hops : List DiscoveredHop) (before : HopsMap) (pidMap : PidMap)
      (sweep : Sweep UInt32)
  | inserting (hops : List DiscoveredHop)

structure State where
  maps : Maps
  phase : Phase

/-- Load populates the map before it attaches the tracepoint. -/
def State.loaded (first : List DiscoveredHop) : State :=
  ⟨(populateSocketHopsMap Display.empty Maps.empty first).2, .idle⟩

inductive Turn where
  /-- A complete run of the send handler. -/
  | send (call : SendCall)
  /-- A rediscovery begins, with what it has discovered. -/
  | rediscover (hops : List DiscoveredHop)
  /-- The iteration over SOCKET_HOPS_MAP yields a key. -/
  | visitHop (key : UInt64)
  /-- The iteration over a per-process map yields a key. -/
  | visitPid (pid : UInt32)
  /-- The next removal or insertion, or the end of an iteration. -/
  | proceed

def Stale (hops : List DiscoveredHop) (pid : UInt32) : Prop := pid ∉ livePids hops

instance (hops : List DiscoveredHop) : DecidablePred (Stale hops) :=
  fun pid => inferInstanceAs (Decidable (pid ∉ livePids hops))

def StaleHop (hops : List DiscoveredHop) (key : UInt64) : Prop := Stale hops (Word.high key)

instance (hops : List DiscoveredHop) : DecidablePred (StaleHop hops) :=
  fun key => inferInstanceAs (Decidable (Stale hops (Word.high key)))

/-- A finished eviction is followed by the next one, the last by insertion. -/
def Phase.settle (maps : Maps) : Phase → Phase
  | .evictingHops hops before (.removing []) =>
      .evictingPids hops before .sum (.begin (maps.perPid .sum))
  | .evictingPids hops before pidMap (.removing []) =>
      match pidMap.next with
      | some next => .evictingPids hops before next (.begin (maps.perPid next))
      | none => .inserting hops
  | phase => phase

def Phase.written (sample : Option Sample) : Phase → Phase
  | .evictingPids hops before pidMap sweep =>
      match sample with
      | some sample => .evictingPids hops before pidMap (sweep.written sample.pid)
      | none => .evictingPids hops before pidMap sweep
  | phase => phase

def State.proceed (state : State) : State :=
  match state.phase with
  | .idle => state
  | .evictingHops hops before sweep =>
      let (hopsMap, swept) := sweep.proceed state.maps.socketHopsMap
      let maps := { state.maps with socketHopsMap := hopsMap }
      ⟨maps, (Phase.evictingHops hops before swept).settle maps⟩
  | .evictingPids hops before pidMap sweep =>
      let (entries, swept) := sweep.proceed (state.maps.perPid pidMap)
      let maps := state.maps.setPerPid pidMap entries
      ⟨maps, (Phase.evictingPids hops before pidMap swept).settle maps⟩
  | .inserting [] => ⟨state.maps, .idle⟩
  | .inserting (hop :: hops) =>
      ⟨{ state.maps with socketHopsMap := insertEndpoint state.maps.socketHopsMap hop },
        .inserting hops⟩

def State.step (state : State) : Turn → State
  | .send call =>
      let (maps, sample) := sysEnterSendmsgHandler state.maps call
      ⟨maps, state.phase.written sample⟩
  | .rediscover hops =>
      match state.phase with
      | .idle =>
          ⟨state.maps, .evictingHops hops state.maps.socketHopsMap
            (.begin state.maps.socketHopsMap)⟩
      | _ => state
  | .visitHop key =>
      match state.phase with
      | .evictingHops hops before sweep =>
          ⟨state.maps, .evictingHops hops before
            (sweep.visit (StaleHop hops) state.maps.socketHopsMap key)⟩
      | _ => state
  | .visitPid pid =>
      match state.phase with
      | .evictingPids hops before pidMap sweep =>
          ⟨state.maps, .evictingPids hops before pidMap
            (sweep.visit (Stale hops) (state.maps.perPid pidMap) pid)⟩
      | _ => state
  | .proceed => state.proceed

def Turn.isSend : Turn → Bool
  | .send _ => true
  | _ => false

/-- Userspace alone can get from one state to the other. -/
def Leads (state next : State) : Prop :=
  ∃ turns : List Turn, (∀ turn ∈ turns, turn.isSend = false) ∧
    turns.foldl State.step state = next

theorem Leads.refl (state : State) : Leads state state :=
  ⟨[], List.forall_mem_nil _, rfl⟩

theorem Leads.trans {first second third : State} (leads : Leads first second)
    (onward : Leads second third) : Leads first third := by
  obtain ⟨turns, quiet, rfl⟩ := leads
  obtain ⟨later, laterQuiet, rfl⟩ := onward
  refine ⟨turns ++ later, ?_, List.foldl_append⟩
  intro turn member
  exact (List.mem_append.mp member).elim (quiet turn) (laterQuiet turn)

theorem Leads.turn (state : State) (turn : Turn) (quiet : turn.isSend = false) :
    Leads state (state.step turn) := by
  refine ⟨[turn], ?_, rfl⟩
  intro other member
  rwa [List.mem_singleton.mp member]

theorem Leads.proceed (state : State) : Leads state state.proceed :=
  .turn state .proceed rfl

section Uninterrupted

variable (maps : Maps) (hops : List DiscoveredHop) (before : HopsMap)

theorem leads_visitHops (keys : List UInt64) (sweep : Sweep UInt64) :
    Leads ⟨maps, .evictingHops hops before sweep⟩
      ⟨maps, .evictingHops hops before (keys.foldl
        (fun sweep key => sweep.visit (StaleHop hops) maps.socketHopsMap key) sweep)⟩ := by
  induction keys generalizing sweep with
  | nil => exact .refl _
  | cons key keys inductionHypothesis =>
      have visits : Leads ⟨maps, .evictingHops hops before sweep⟩
          (State.step ⟨maps, .evictingHops hops before sweep⟩ (.visitHop key)) :=
        .turn _ _ rfl
      exact visits.trans (inductionHypothesis _)

theorem leads_removeHops (doomed : List UInt64) :
    Leads ⟨maps, (Phase.evictingHops hops before (.removing doomed)).settle maps⟩
      ⟨{ maps with socketHopsMap := maps.socketHopsMap.removeAll doomed },
        .evictingPids hops before .sum (.begin (maps.perPid .sum))⟩ := by
  induction doomed generalizing maps with
  | nil => exact .refl _
  | cons key doomed inductionHypothesis =>
      exact (Leads.proceed _).trans
        (inductionHypothesis { maps with socketHopsMap := maps.socketHopsMap.remove key })

theorem leads_evictHops :
    Leads ⟨maps, .idle⟩
      ⟨{ maps with socketHopsMap := evictHops maps.socketHopsMap (livePids hops) },
        .evictingPids hops maps.socketHopsMap .sum (.begin (maps.perPid .sum))⟩ := by
  have begins : Leads ⟨maps, .idle⟩ (State.step ⟨maps, .idle⟩ (.rediscover hops)) :=
    .turn _ _ rfl
  have visits := leads_visitHops maps hops maps.socketHopsMap maps.socketHopsMap.keys
    (.begin maps.socketHopsMap)
  rw [Sweep.begin, Sweep.foldl_visit fun key => BoundedMap.mem_keys.mp, List.nil_append]
    at visits
  exact begins.trans (visits.trans ((Leads.proceed _).trans (leads_removeHops _ _ _ _)))

def afterPids (maps : Maps) (pidMap : PidMap) : Phase :=
  (Phase.evictingPids hops before pidMap (.removing [])).settle maps

theorem leads_visitPids (pidMap : PidMap) (pids : List UInt32) (sweep : Sweep UInt32) :
    Leads ⟨maps, .evictingPids hops before pidMap sweep⟩
      ⟨maps, .evictingPids hops before pidMap (pids.foldl
        (fun sweep pid => sweep.visit (Stale hops) (maps.perPid pidMap) pid) sweep)⟩ := by
  induction pids generalizing sweep with
  | nil => exact .refl _
  | cons pid pids inductionHypothesis =>
      have visits : Leads ⟨maps, .evictingPids hops before pidMap sweep⟩
          (State.step ⟨maps, .evictingPids hops before pidMap sweep⟩ (.visitPid pid)) :=
        .turn _ _ rfl
      exact visits.trans (inductionHypothesis _)

theorem leads_removePids (pidMap : PidMap) (doomed : List UInt32) :
    Leads ⟨maps, (Phase.evictingPids hops before pidMap (.removing doomed)).settle maps⟩
      ⟨maps.setPerPid pidMap ((maps.perPid pidMap).removeAll doomed),
        afterPids hops before (maps.setPerPid pidMap ((maps.perPid pidMap).removeAll doomed))
          pidMap⟩ := by
  induction doomed generalizing maps with
  | nil =>
      have same : maps.setPerPid pidMap ((maps.perPid pidMap).removeAll []) = maps := by
        cases pidMap <;> rfl
      rw [same]
      exact .refl _
  | cons pid doomed inductionHypothesis =>
      have rest := inductionHypothesis
        (maps.setPerPid pidMap ((maps.perPid pidMap).remove pid))
      have same : (maps.setPerPid pidMap ((maps.perPid pidMap).remove pid)).setPerPid pidMap
          (((maps.setPerPid pidMap ((maps.perPid pidMap).remove pid)).perPid pidMap).removeAll
            doomed) = maps.setPerPid pidMap ((maps.perPid pidMap).removeAll (pid :: doomed)) := by
        cases pidMap <;> rfl
      rw [same] at rest
      exact (Leads.proceed _).trans rest

theorem leads_evictPids (pidMap : PidMap) :
    Leads ⟨maps, .evictingPids hops before pidMap (.begin (maps.perPid pidMap))⟩
      ⟨maps.setPerPid pidMap (evictPids (maps.perPid pidMap) (livePids hops)),
        afterPids hops before
          (maps.setPerPid pidMap (evictPids (maps.perPid pidMap) (livePids hops))) pidMap⟩ := by
  have visits := leads_visitPids maps hops before pidMap (maps.perPid pidMap).keys
    (.begin (maps.perPid pidMap))
  rw [Sweep.begin, Sweep.foldl_visit fun pid => BoundedMap.mem_keys.mp, List.nil_append]
    at visits
  have settles : Leads ⟨maps, .evictingPids hops before pidMap (.collecting []
        ((maps.perPid pidMap).keys.filter fun pid => decide (Stale hops pid)))⟩
      ⟨maps, (Phase.evictingPids hops before pidMap (.removing
        ((maps.perPid pidMap).keys.filter fun pid => decide (Stale hops pid)))).settle maps⟩ := by
    have same : maps.setPerPid pidMap (maps.perPid pidMap) = maps := by cases pidMap <;> rfl
    have proceeds := Leads.proceed ⟨maps, .evictingPids hops before pidMap (.collecting []
        ((maps.perPid pidMap).keys.filter fun pid => decide (Stale hops pid)))⟩
    simp only [State.proceed, Sweep.proceed, same] at proceeds
    exact proceeds
  exact visits.trans (settles.trans (leads_removePids maps hops before pidMap _))

theorem leads_inserting :
    Leads ⟨maps, .inserting hops⟩
      ⟨{ maps with socketHopsMap := hops.foldl insertEndpoint maps.socketHopsMap }, .idle⟩ := by
  induction hops generalizing maps with
  | nil => exact Leads.proceed _
  | cons hop hops inductionHypothesis =>
      exact (Leads.proceed _).trans (inductionHypothesis
        { maps with socketHopsMap := insertEndpoint maps.socketHopsMap hop })

end Uninterrupted

/-- Step by step, a rediscovery ends where the whole of it does. -/
theorem leads_repopulate (maps : Maps) (hops : List DiscoveredHop) :
    Leads ⟨maps, .idle⟩ ⟨(repopulateSocketHopsMap maps hops).2, .idle⟩ :=
  (leads_evictHops maps hops).trans <|
    (leads_evictPids _ hops _ .sum).trans <|
      (leads_evictPids _ hops _ .count).trans <|
        (leads_evictPids _ hops _ .windowStart).trans (leads_inserting _ hops)

/-- While endpoints or the entries of processes are being evicted:
SOCKET_HOPS_MAP as it was just before. -/
def Phase.evicting : Phase → Option HopsMap
  | .evictingHops _ before (.removing _) => some before
  | .evictingPids _ before _ _ => some before
  | _ => none

structure Kept (state : State) : Prop where
  /-- A process with an entry has an endpoint, or has had one until the eviction
  under way. -/
  tracked : ∀ pidMap, ∀ pid ∈ state.maps.perPid pidMap,
    HasEndpoint state.maps.socketHopsMap pid ∨
      ∃ before, state.phase.evicting = some before ∧ HasEndpoint before pid
  bounded : ∀ pidMap, (state.maps.perPid pidMap).size ≤ 14
  stores : ∀ pidMap pid value, ((state.maps.perPid pidMap).insert? pid value).isSome
  /-- With no eviction under way, the maps have the same keys. -/
  aligned : state.phase.evicting = none → ∀ pidMap other pid,
    pid ∈ state.maps.perPid pidMap ↔ pid ∈ state.maps.perPid other

/-- Endpoints have been evicted, but none of a process that is still there. -/
structure Between (hops : List DiscoveredHop) (before hopsMap : HopsMap) : Prop where
  old : ∀ key ∈ hopsMap, key ∈ before
  live : ∀ key ∈ before, ¬StaleHop hops key → key ∈ hopsMap

structure EvictsHops (maps : Maps) (hops : List DiscoveredHop) (before : HopsMap)
    (sweep : Sweep UInt64) : Prop where
  aligned : ∀ pid, AlignedAt maps pid
  between : Between hops before maps.socketHopsMap
  covers : sweep.Covers (StaleHop hops) maps.socketHopsMap
  untouched : ∀ owed doomed, sweep = .collecting owed doomed → before = maps.socketHopsMap

structure EvictsPids (maps : Maps) (hops : List DiscoveredHop) (before : HopsMap)
    (pidMap : PidMap) (sweep : Sweep UInt32) : Prop where
  aligned : ∀ pid, ¬Stale hops pid → AlignedAt maps pid
  between : Between hops before maps.socketHopsMap
  hopsLive : ∀ key ∈ maps.socketHopsMap, ¬StaleHop hops key
  pidsLive : ∀ done ∈ pidMap.evicted, ∀ pid ∈ maps.perPid done, ¬Stale hops pid
  covers : sweep.Covers (Stale hops) (maps.perPid pidMap)

def Phase.Holds (maps : Maps) : Phase → Prop
  | .idle => ∀ pid, AlignedAt maps pid
  | .evictingHops hops before sweep => EvictsHops maps hops before sweep
  | .evictingPids hops before pidMap sweep => EvictsPids maps hops before pidMap sweep
  | .inserting _ => ∀ pid, AlignedAt maps pid

/-- The endpoints that the entries of the per-process maps come from. -/
def Phase.origin (maps : Maps) : Phase → HopsMap
  | .evictingHops _ before _ => before
  | .evictingPids _ before _ _ => before
  | _ => maps.socketHopsMap

structure Invariant (state : State) : Prop where
  inside : ∀ pidMap, ∀ pid ∈ state.maps.perPid pidMap,
    HasEndpoint (state.phase.origin state.maps) pid
  holds : state.phase.Holds state.maps

/-- There are no more processes with an endpoint than endpoints. -/
theorem size_le_of_endpoints {entries : BoundedMap UInt32 UInt64 16} {hopsMap : HopsMap}
    (inside : ∀ pid ∈ entries, HasEndpoint hopsMap pid) : entries.size ≤ 14 := by
  have owners : entries.keys ⊆ hopsMap.keys.map Word.high := by
    intro pid member
    obtain ⟨key, present, owner⟩ := inside pid (BoundedMap.mem_keys.mp member)
    exact List.mem_map.mpr ⟨key, BoundedMap.mem_keys.mpr present, owner⟩
  have fewer := (List.subperm_of_subset entries.keys_nodup owners).length_le
  rw [List.length_map] at fewer
  exact fewer.trans hopsMap.bounded

section Consequences

variable {state : State}

theorem Invariant.bounded (invariant : Invariant state) (pidMap : PidMap) :
    (state.maps.perPid pidMap).size ≤ 14 :=
  size_le_of_endpoints (invariant.inside pidMap)

theorem Invariant.room (invariant : Invariant state) (pidMap : PidMap) (pid : UInt32) :
    (state.maps.perPid pidMap).Room pid :=
  .inr ((invariant.bounded pidMap).trans_lt (by decide))

theorem Invariant.endpoint_origin (invariant : Invariant state) {pid : UInt32}
    (endpoint : HasEndpoint state.maps.socketHopsMap pid) :
    HasEndpoint (state.phase.origin state.maps) pid := by
  have holds := invariant.holds
  revert holds
  cases state.phase with
  | idle => exact fun _ => endpoint
  | inserting hops => exact fun _ => endpoint
  | evictingHops hops before sweep => exact fun holds => endpoint.mono holds.between.old
  | evictingPids hops before pidMap sweep => exact fun holds => endpoint.mono holds.between.old

/-- A process that can still send has its entries in all maps or in none. -/
theorem Invariant.aligned_of_endpoint (invariant : Invariant state) {pid : UInt32}
    (endpoint : HasEndpoint state.maps.socketHopsMap pid) : AlignedAt state.maps pid := by
  have holds := invariant.holds
  revert holds
  cases state.phase with
  | idle => exact fun holds => holds pid
  | inserting hops => exact fun holds => holds pid
  | evictingHops hops before sweep => exact fun holds => holds.aligned pid
  | evictingPids hops before pidMap sweep =>
      intro holds
      obtain ⟨key, present, owner⟩ := endpoint
      have live := holds.hopsLive key present
      rw [StaleHop, owner] at live
      exact holds.aligned pid live

theorem Invariant.kept (invariant : Invariant state) : Kept state := by
  have inside := invariant.inside
  have holds := invariant.holds
  refine ⟨?_, invariant.bounded, ?_, ?_⟩
  · intro pidMap pid present
    have endpoint := inside pidMap pid present
    revert holds endpoint
    cases state.phase with
    | idle => exact fun _ endpoint => .inl endpoint
    | inserting hops => exact fun _ endpoint => .inl endpoint
    | evictingHops hops before sweep =>
        intro holds endpoint
        cases sweep with
        | collecting owed doomed =>
            rw [← holds.untouched owed doomed rfl]
            exact .inl endpoint
        | removing doomed => exact .inr ⟨before, rfl, endpoint⟩
    | evictingPids hops before pidMap sweep =>
        exact fun _ endpoint => .inr ⟨before, rfl, endpoint⟩
  · intro pidMap pid value
    rw [BoundedMap.insert?, dif_pos (invariant.room pidMap pid)]
    rfl
  · intro quiet pidMap other pid
    revert holds quiet
    cases state.phase with
    | idle => exact fun holds _ => holds pid pidMap other
    | inserting hops => exact fun holds _ => holds pid pidMap other
    | evictingHops hops before sweep => exact fun holds _ => holds.aligned pid pidMap other
    | evictingPids hops before evicts sweep =>
        intro _ impossible
        cases impossible

end Consequences

theorem mem_setPerPid_proceed {maps : Maps} {pidMap : PidMap} {sweep : Sweep UInt32}
    {other : PidMap} {pid : UInt32}
    (present : pid ∈ (maps.setPerPid pidMap (sweep.proceed (maps.perPid pidMap)).1).perPid other) :
    pid ∈ maps.perPid other := by
  rw [perPid_setPerPid] at present
  split at present
  next same =>
    rw [same]
    exact Sweep.mem_of_mem_proceed present
  · exact present

section Turns

variable {state : State}

theorem EvictsPids.send {maps next : Maps} {sample : Option Sample} {hops : List DiscoveredHop}
    {before : HopsMap} {pidMap : PidMap} {sweep : Sweep UInt32}
    (evicts : EvictsPids maps hops before pidMap sweep) (records : Records maps next sample) :
    ((Phase.evictingPids hops before pidMap sweep).written sample).Holds next := by
  have live : ∀ {pid}, HasEndpoint maps.socketHopsMap pid → ¬Stale hops pid := by
    rintro pid ⟨key, present, rfl⟩
    exact evicts.hopsLive key present
  have aligned : ∀ pid, ¬Stale hops pid → AlignedAt next pid := fun pid stays =>
    records.alignedAt (evicts.aligned pid stays)
  have between : Between hops before next.socketHopsMap := by
    rw [records.hops]
    exact evicts.between
  have hopsLive : ∀ key ∈ next.socketHopsMap, ¬StaleHop hops key := by
    rw [records.hops]
    exact evicts.hopsLive
  have pidsLive : ∀ done ∈ pidMap.evicted, ∀ pid ∈ next.perPid done, ¬Stale hops pid := by
    intro done member pid present
    rcases records.mem present with endpoint | old
    · exact live endpoint
    · exact evicts.pidsLive done member pid old
  cases sample with
  | none =>
      refine ⟨aligned, between, hopsLive, pidsLive, ?_⟩
      rw [records.silent rfl]
      exact evicts.covers
  | some recorded =>
      obtain ⟨endpoint, added⟩ := records.added recorded rfl
      refine ⟨aligned, between, hopsLive, pidsLive, ?_⟩
      exact evicts.covers.written (live endpoint) fun other => (added pidMap other).mp

theorem Invariant.send (invariant : Invariant state) (call : SendCall) :
    Invariant (state.step (.send call)) := by
  have records := send_records (fun pid => invariant.aligned_of_endpoint) invariant.room call
  have origin : (state.phase.written (sysEnterSendmsgHandler state.maps call).2).origin
      (sysEnterSendmsgHandler state.maps call).1 = state.phase.origin state.maps := by
    cases state.phase with
    | idle => exact records.hops
    | inserting hops => exact records.hops
    | evictingHops hops before sweep => rfl
    | evictingPids hops before pidMap sweep =>
        cases (sysEnterSendmsgHandler state.maps call).2 <;> rfl
  constructor
  · intro pidMap pid present
    simp only [State.step] at present ⊢
    rw [origin]
    rcases records.mem present with endpoint | old
    · exact invariant.endpoint_origin endpoint
    · exact invariant.inside pidMap pid old
  · have holds := invariant.holds
    simp only [State.step]
    revert holds
    cases state.phase with
    | idle => exact fun holds pid => records.alignedAt (holds pid)
    | inserting hops => exact fun holds pid => records.alignedAt (holds pid)
    | evictingHops hops before sweep =>
        intro holds
        refine ⟨fun pid => records.alignedAt (holds.aligned pid), ?_, ?_, ?_⟩
        · rw [records.hops]
          exact holds.between
        · rw [records.hops]
          exact holds.covers
        · rw [records.hops]
          exact holds.untouched
    | evictingPids hops before pidMap sweep => exact fun holds => holds.send records

theorem EvictsHops.proceed {maps : Maps} {hops : List DiscoveredHop} {before : HopsMap}
    {sweep : Sweep UInt64} (evicts : EvictsHops maps hops before sweep) :
    EvictsHops { maps with socketHopsMap := (sweep.proceed maps.socketHopsMap).1 } hops before
      (sweep.proceed maps.socketHopsMap).2 := by
  constructor
  · intro pid pidMap other
    rw [perPid_withHops, perPid_withHops]
    exact evicts.aligned pid pidMap other
  · constructor
    · intro key present
      exact evicts.between.old key (Sweep.mem_of_mem_proceed present)
    · intro key present stays
      exact evicts.covers.mem_proceed (evicts.between.live key present stays) stays
  · exact evicts.covers.proceed
  · -- A sweep that is still collecting has removed nothing.
    intro owed doomed collecting
    cases sweep with
    | removing left => cases left <;> cases collecting
    | collecting left noted =>
        cases left with
        | nil => cases collecting
        | cons key left => exact evicts.untouched (key :: left) noted rfl

theorem EvictsPids.proceed {maps : Maps} {hops : List DiscoveredHop} {before : HopsMap}
    {pidMap : PidMap} {sweep : Sweep UInt32}
    (evicts : EvictsPids maps hops before pidMap sweep) :
    EvictsPids (maps.setPerPid pidMap (sweep.proceed (maps.perPid pidMap)).1) hops before pidMap
      (sweep.proceed (maps.perPid pidMap)).2 := by
  have old := @mem_setPerPid_proceed maps pidMap sweep
  constructor
  · intro pid stays first second
    have kept : ∀ other, pid ∈ (maps.setPerPid pidMap
        (sweep.proceed (maps.perPid pidMap)).1).perPid other ↔ pid ∈ maps.perPid other := by
      intro other
      refine ⟨old, ?_⟩
      intro present
      rw [perPid_setPerPid]
      split
      next same =>
        subst same
        exact evicts.covers.mem_proceed present stays
      · exact present
    rw [kept, kept]
    exact evicts.aligned pid stays first second
  · rw [setPerPid_socketHopsMap]
    exact evicts.between
  · rw [setPerPid_socketHopsMap]
    exact evicts.hopsLive
  · intro done member pid present
    exact evicts.pidsLive done member pid (old present)
  · rw [perPid_setPerPid, if_pos rfl]
    exact evicts.covers.proceed

theorem EvictsHops.settle {maps : Maps} {hops : List DiscoveredHop} {before : HopsMap}
    {sweep : Sweep UInt64} (evicts : EvictsHops maps hops before sweep)
    (inside : ∀ pidMap, ∀ pid ∈ maps.perPid pidMap, HasEndpoint before pid) :
    Invariant ⟨maps, (Phase.evictingHops hops before sweep).settle maps⟩ := by
  rcases sweep with ⟨owed, doomed⟩ | ⟨doomed⟩
  · exact ⟨inside, evicts⟩
  · cases doomed with
    | cons key doomed => exact ⟨inside, evicts⟩
    | nil =>
        refine ⟨inside, fun pid _ => evicts.aligned pid, evicts.between, ?_, ?_, .begin _⟩
        · exact fun key present => evicts.covers.finished present
        · exact List.forall_mem_nil _

/-- When the last map is done, only processes with an endpoint have entries left. -/
theorem EvictsPids.insert {maps : Maps} {hops : List DiscoveredHop} {before : HopsMap}
    (evicts : EvictsPids maps hops before .windowStart (.removing []))
    (inside : ∀ pidMap, ∀ pid ∈ maps.perPid pidMap, HasEndpoint before pid) :
    Invariant ⟨maps, .inserting hops⟩ := by
  have live : ∀ pidMap, ∀ pid ∈ maps.perPid pidMap, ¬Stale hops pid := by
    intro pidMap pid present
    cases pidMap with
    | sum => exact evicts.pidsLive .sum (by decide) pid present
    | count => exact evicts.pidsLive .count (by decide) pid present
    | windowStart => exact evicts.covers.finished present
  constructor
  · intro pidMap pid present
    obtain ⟨key, tracked, owner⟩ := inside pidMap pid present
    refine ⟨key, evicts.between.live key tracked ?_, owner⟩
    rw [StaleHop, owner]
    exact live pidMap pid present
  · intro pid
    by_cases stale : Stale hops pid
    · intro pidMap other
      exact iff_of_false (fun present => live pidMap pid present stale)
        (fun present => live other pid present stale)
    · exact evicts.aligned pid stale

theorem EvictsPids.settle {maps : Maps} {hops : List DiscoveredHop} {before : HopsMap}
    {pidMap : PidMap} {sweep : Sweep UInt32}
    (evicts : EvictsPids maps hops before pidMap sweep)
    (inside : ∀ pidMap, ∀ pid ∈ maps.perPid pidMap, HasEndpoint before pid) :
    Invariant ⟨maps, (Phase.evictingPids hops before pidMap sweep).settle maps⟩ := by
  rcases sweep with ⟨owed, doomed⟩ | ⟨doomed⟩
  · exact ⟨inside, evicts⟩
  · cases doomed with
    | cons pid doomed => exact ⟨inside, evicts⟩
    | nil =>
        have live : ∀ done ∈ pidMap.evicted ++ [pidMap], ∀ pid ∈ maps.perPid done,
            ¬Stale hops pid := by
          intro done member pid present
          rcases List.mem_append.mp member with earlier | this
          · exact evicts.pidsLive done earlier pid present
          · rw [List.mem_singleton.mp this] at present
            exact evicts.covers.finished present
        cases pidMap with
        | sum =>
            exact ⟨inside, evicts.aligned, evicts.between, evicts.hopsLive, live, .begin _⟩
        | count =>
            exact ⟨inside, evicts.aligned, evicts.between, evicts.hopsLive, live, .begin _⟩
        | windowStart => exact evicts.insert inside

theorem Invariant.proceed (invariant : Invariant state) : Invariant state.proceed := by
  obtain ⟨inside, holds⟩ := invariant
  unfold State.proceed
  cases phase : state.phase with
  | idle => exact ⟨inside, holds⟩
  | evictingHops hops before sweep =>
      rw [phase] at inside holds
      apply holds.proceed.settle
      intro pidMap pid present
      rw [perPid_withHops] at present
      exact inside pidMap pid present
  | evictingPids hops before pidMap sweep =>
      rw [phase] at inside holds
      apply holds.proceed.settle
      intro other pid present
      exact inside other pid (mem_setPerPid_proceed present)
  | inserting hops =>
      rw [phase] at inside holds
      cases hops with
      | nil => exact ⟨inside, holds⟩
      | cons hop hops =>
          constructor
          · intro pidMap pid present
            simp only [perPid_withHops] at present
            exact (inside pidMap pid present).mono fun key tracked =>
              BoundedMap.mem_insert_of_mem _ tracked
          · intro pid pidMap other
            simp only [perPid_withHops]
            exact holds pid pidMap other

theorem Invariant.step (invariant : Invariant state) (turn : Turn) :
    Invariant (state.step turn) := by
  cases turn with
  | send call => exact invariant.send call
  | proceed => exact invariant.proceed
  | rediscover hops =>
      obtain ⟨inside, holds⟩ := invariant
      simp only [State.step]
      cases phase : state.phase with
      | idle =>
          rw [phase] at inside holds
          exact ⟨inside, holds, ⟨fun _ present => present, fun _ present _ => present⟩,
            .begin _, fun _ _ _ => rfl⟩
      | _ => exact ⟨inside, holds⟩
  | visitHop key =>
      obtain ⟨inside, holds⟩ := invariant
      simp only [State.step]
      cases phase : state.phase with
      | evictingHops hops before sweep =>
          rw [phase] at inside holds
          refine ⟨inside, holds.aligned, holds.between, holds.covers.visit key, ?_⟩
          intro owed doomed collecting
          cases sweep with
          | collecting left noted => exact holds.untouched left noted rfl
          | removing left => cases collecting
      | _ => exact ⟨inside, holds⟩
  | visitPid pid =>
      obtain ⟨inside, holds⟩ := invariant
      simp only [State.step]
      cases phase : state.phase with
      | evictingPids hops before pidMap sweep =>
          rw [phase] at inside holds
          exact ⟨inside, holds.aligned, holds.between, holds.hopsLive, holds.pidsLive,
            holds.covers.visit pid⟩
      | _ => exact ⟨inside, holds⟩

end Turns

theorem Invariant.loaded (first : List DiscoveredHop) : Invariant (.loaded first) := by
  have empty : ∀ pidMap pid, pid ∉ (State.loaded first).maps.perPid pidMap := by
    intro pidMap pid
    cases pidMap <;> exact BoundedMap.notMem_empty pid
  constructor
  · exact fun pidMap pid present => absurd present (empty pidMap pid)
  · exact fun pid pidMap other => iff_of_false (empty pidMap pid) (empty other pid)

end Restarts

end BpfAgent.Sca
