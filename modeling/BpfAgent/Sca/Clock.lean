import BpfAgent.Lib.Run
import BpfAgent.Sca.Discovery
import BpfAgent.Sca.SendStep

/-!
# SCA: differences of clock readings

The program subtracts times without looking which one is the larger.  Along
every run of sends and rediscoveries whose clock never goes back, what is
stored has been read before, so that no difference wraps; and no latency is
longer than the time since the first send that was tracked.
-/

namespace BpfAgent.Sca

section Send

variable {maps : Maps} {call : SendCall}

theorem send_of_untracked (untracked : sendEvent maps call = none) :
    sysEnterSendmsgHandler maps call = (maps, none) := by
  rw [sysEnterSendmsgHandler, untracked]

theorem updateMovingAverage_windowStart {pid other : UInt32} {latency time start : UInt64}
    (found : (updateMovingAverage maps pid latency time).latencyWindowStart.get other =
      some start) :
    maps.latencyWindowStart.get other = some start ∨ start = time := by
  have stored : (updateMovingAverage maps pid latency time).latencyWindowStart =
      maps.latencyWindowStart.insert pid time ∨
      (updateMovingAverage maps pid latency time).latencyWindowStart =
        maps.latencyWindowStart := ite_eq_or_eq _ _ _
  rcases stored with opened | kept
  · rw [opened] at found
    exact BoundedMap.get_insert_cases found
  · rw [kept] at found
    exact .inl found

theorem publishLatency_latencyHopMap {hopIndex protocol : UInt32} {latency published : UInt64}
    {key : UInt64}
    (found : (publishLatency maps hopIndex protocol latency).latencyHopMap.get key =
      some published) :
    maps.latencyHopMap.get key = some published ∨ published = latency := by
  unfold publishLatency at found
  split at found
  next => exact BoundedMap.get_insert_cases found
  next => exact .inl found

theorem subtractDownstreamLatency_windowStart (hopIndex protocol : UInt32) (latency : UInt64) :
    (subtractDownstreamLatency maps hopIndex protocol latency).2.latencyWindowStart =
      maps.latencyWindowStart := by
  have published : (publishLatency maps hopIndex protocol latency).latencyWindowStart =
      maps.latencyWindowStart := by
    unfold publishLatency
    split <;> rfl
  unfold subtractDownstreamLatency
  dsimp only
  split
  · split <;> exact published
  · exact published

/-- Only a tracked send writes anything; what it writes are readings of the clock
and differences of such. -/
structure Writes (maps : Maps) (call : SendCall) (after : Maps) (sample : Option Sample) :
    Prop where
  timestamps : ∀ key time, after.timestampMap.get key = some time →
    maps.timestampMap.get key = some time ∨ time = call.now
  windowStarts : ∀ pid start, after.latencyWindowStart.get pid = some start →
    maps.latencyWindowStart.get pid = some start ∨ start = call.later
  latencies : ∀ key latency, after.latencyHopMap.get key = some latency →
    maps.latencyHopMap.get key = some latency ∨
      ∃ other storedTime, maps.timestampMap.get other = some storedTime ∧
        latency = call.now - storedTime
  sampled : ∀ recorded, sample = some recorded →
    ∃ other storedTime, maps.timestampMap.get other = some storedTime ∧
      recorded.latency ≤ call.now - storedTime

theorem writes_nothing : Writes maps call maps none where
  timestamps _ _ found := .inl found
  windowStarts _ _ found := .inl found
  latencies _ _ found := .inl found
  sampled _ impossible := by cases impossible

theorem handleRequest_writes (event : SendEvent) :
    Writes maps call (handleRequest maps event call) none where
  timestamps _ _ found := BoundedMap.get_insert_cases found
  windowStarts _ _ found := .inl found
  latencies _ _ found := .inl found
  sampled _ impossible := by cases impossible

theorem handleResponse_writes (event : SendEvent) :
    Writes maps call (handleResponse maps event call).1 (handleResponse maps event call).2 := by
  have timestamps : ∀ key time,
      (handleResponse maps event call).1.timestampMap.get key = some time →
        maps.timestampMap.get key = some time ∨ time = call.now := by
    intro key time present
    rw [handleResponse_timestampMap] at present
    split at present
    next => cases present
    next => exact .inl present
  cases found : maps.timestampMap.get (pairKey event.endpoint.hopIndex event.protocol) with
  | none =>
      rw [handleResponse_of_missing found]
      exact writes_nothing
  | some storedTime =>
      by_cases zero : call.now - storedTime = 0
      · refine ⟨timestamps, ?_, ?_, ?_⟩
        · intro pid start present
          rw [handleResponse_of_zero found zero] at present
          exact .inl present
        · intro key latency present
          rw [handleResponse_of_zero found zero] at present
          exact .inl present
        · intro recorded impossible
          rw [handleResponse_of_zero found zero] at impossible
          cases impossible
      · refine ⟨timestamps, ?_, ?_, ?_⟩
        · intro pid start present
          rw [handleResponse_of_found found zero] at present
          rcases updateMovingAverage_windowStart present with before | opened
          · rw [subtractDownstreamLatency_windowStart] at before
            exact .inl before
          · exact .inr opened
        · intro key latency present
          rw [handleResponse_latencyHopMap found zero] at present
          split at present
          next => cases present
          next =>
            rcases publishLatency_latencyHopMap present with before | published
            · exact .inl before
            · exact .inr ⟨_, storedTime, found, published⟩
        · intro recorded sampled
          have latency := handleResponse_sample found zero
          rw [sampled, Option.map_some, Option.some.injEq] at latency
          refine ⟨_, storedTime, found, ?_⟩
          rw [latency]
          split
          next => exact Word.saturatingSub_le _ _
          next => exact UInt64.le_refl _

theorem send_writes :
    Writes maps call (send maps call) (sysEnterSendmsgHandler maps call).2 := by
  cases seen : sendEvent maps call with
  | none =>
      rw [send, send_of_untracked seen]
      exact writes_nothing
  | some event =>
      by_cases sender : event.endpoint.isSender = 1
      · rw [send, send_of_request seen sender]
        exact handleRequest_writes event
      · rw [send, send_of_reply seen sender]
        exact handleResponse_writes event

end Send

structure Timed where
  maps : Maps
  clock : UInt64
  firstSend : Option UInt64

inductive Activity where
  | send (call : SendCall)
  | rediscover (hops : List DiscoveredHop)

namespace Timed

def loaded (first : List DiscoveredHop) (clock : UInt64) : Timed where
  maps := (populateSocketHopsMap Display.empty Maps.empty first).2
  clock := clock
  firstSend := none

def step (timed : Timed) : Activity → Timed
  | .send call =>
      { maps := send timed.maps call
        clock := call.later
        firstSend := timed.firstSend.or ((sendEvent timed.maps call).map fun _ => call.now) }
  | .rediscover hops => { timed with maps := (repopulateSocketHopsMap timed.maps hops).2 }

/-- The clock does not go back, neither between two handlers nor inside one. -/
def InOrder (timed : Timed) : Activity → Prop
  | .send call => timed.clock ≤ call.now ∧ call.now ≤ call.later
  | .rediscover _ => True

/-- What took `duration` and ended at `now` began no earlier than the first
tracked send. -/
def Elapsed (timed : Timed) (duration now : UInt64) : Prop :=
  ∃ first, timed.firstSend = some first ∧ first.toNat + duration.toNat ≤ now.toNat

/-- Every time that is stored has been read, and every latency that is stored
lies between the first tracked send and the last reading. -/
structure Timely (timed : Timed) : Prop where
  firstSend : ∀ first, timed.firstSend = some first → first ≤ timed.clock
  timestamps : ∀ key time, timed.maps.timestampMap.get key = some time →
    time ≤ timed.clock ∧ ∃ first, timed.firstSend = some first ∧ first ≤ time
  windowStarts : ∀ pid start, timed.maps.latencyWindowStart.get pid = some start →
    start ≤ timed.clock
  latencies : ∀ key latency, timed.maps.latencyHopMap.get key = some latency →
    timed.Elapsed latency timed.clock

/-- No subtraction of the handler wraps on this call, and the latency it hands
to `updateMovingAverage` lies between the first tracked send and the call. -/
structure Subtracts (timed : Timed) (call : SendCall) : Prop where
  storedTimes : ∀ key storedTime, timed.maps.timestampMap.get key = some storedTime →
    storedTime ≤ call.now
  windowStarts : ∀ pid, (timed.maps.latencyWindowStart.get pid).getD 0 ≤ call.later
  samples : ∀ sample, (sysEnterSendmsgHandler timed.maps call).2 = some sample →
    timed.Elapsed sample.latency call.now

theorem loaded_timely (first : List DiscoveredHop) (clock : UInt64) :
    Timely (loaded first clock) where
  firstSend _ impossible := by cases impossible
  timestamps key _ found := by cases (BoundedMap.get_empty key).symm.trans found
  windowStarts pid _ found := by cases (BoundedMap.get_empty pid).symm.trans found
  latencies key _ found := by cases (BoundedMap.get_empty key).symm.trans found

section Step

variable {timed : Timed} {call : SendCall}

/-- A latency measured now from a stored time does not reach back before the
first tracked send. -/
theorem Timely.elapsed (timely : Timely timed) (later : timed.clock ≤ call.now)
    {key latency storedTime : UInt64}
    (found : timed.maps.timestampMap.get key = some storedTime)
    (bounded : latency ≤ call.now - storedTime) : timed.Elapsed latency call.now := by
  obtain ⟨stored, first, sent, since⟩ := timely.timestamps key storedTime found
  refine ⟨first, sent, ?_⟩
  have noWrap : (call.now - storedTime).toNat = call.now.toNat - storedTime.toNat :=
    UInt64.toNat_sub_of_le _ _ (UInt64.le_trans stored later)
  rw [UInt64.le_iff_toNat_le] at stored later since bounded
  omega

theorem Timely.subtracts (timely : Timely timed) (inOrder : timed.InOrder (.send call)) :
    timed.Subtracts call where
  storedTimes key storedTime found :=
    UInt64.le_trans (timely.timestamps key storedTime found).1 inOrder.1
  windowStarts pid := by
    cases found : timed.maps.latencyWindowStart.get pid with
    | none => exact UInt64.zero_le
    | some start =>
        exact UInt64.le_trans (timely.windowStarts pid start found)
          (UInt64.le_trans inOrder.1 inOrder.2)
  samples sample recorded := by
    obtain ⟨key, storedTime, found, bounded⟩ := send_writes.sampled sample recorded
    exact timely.elapsed inOrder.1 found bounded

theorem Elapsed.step_send {duration now : UInt64} (elapsed : timed.Elapsed duration now)
    (later : now ≤ call.later) :
    (timed.step (.send call)).Elapsed duration (timed.step (.send call)).clock := by
  obtain ⟨first, sent, bounded⟩ := elapsed
  refine ⟨first, ?_, ?_⟩
  · rw [step, sent, Option.some_or]
  · exact Nat.le_trans bounded (UInt64.le_iff_toNat_le.mp later)

theorem Timely.firstSend_step (timely : Timely timed) (later : timed.clock ≤ call.now)
    {event : SendEvent} (seen : sendEvent timed.maps call = some event) :
    ∃ first, (timed.step (.send call)).firstSend = some first ∧ first ≤ call.now := by
  rw [step, seen, Option.map_some]
  cases sent : timed.firstSend with
  | none => exact ⟨call.now, rfl, UInt64.le_refl _⟩
  | some first => exact ⟨first, rfl, UInt64.le_trans (timely.firstSend first sent) later⟩

theorem step_send_timely (timely : Timely timed) (inOrder : timed.InOrder (.send call)) :
    Timely (timed.step (.send call)) := by
  have later : timed.clock ≤ call.later := UInt64.le_trans inOrder.1 inOrder.2
  constructor
  case firstSend =>
    intro first sent
    rcases Option.or_eq_some_iff.mp sent with before | ⟨-, now⟩
    · exact UInt64.le_trans (timely.firstSend first before) later
    · obtain ⟨event, -, rfl⟩ := Option.map_eq_some_iff.mp now
      exact inOrder.2
  case timestamps =>
    intro key time found
    have kept : timed.maps.timestampMap.get key = some time →
        time ≤ call.later ∧
          ∃ first, (timed.step (.send call)).firstSend = some first ∧ first ≤ time := by
      intro before
      obtain ⟨stored, first, sent, since⟩ := timely.timestamps key time before
      refine ⟨UInt64.le_trans stored later, first, ?_, since⟩
      rw [step, sent, Option.some_or]
    cases seen : sendEvent timed.maps call with
    | none =>
        have unchanged : send timed.maps call = timed.maps := by rw [send, send_of_untracked seen]
        rw [step, unchanged] at found
        exact kept found
    | some event =>
        rcases send_writes.timestamps key time found with before | rfl
        · exact kept before
        · exact ⟨inOrder.2, timely.firstSend_step inOrder.1 seen⟩
  case windowStarts =>
    intro pid start found
    rcases send_writes.windowStarts pid start found with before | rfl
    · exact UInt64.le_trans (timely.windowStarts pid start before) later
    · exact UInt64.le_refl _
  case latencies =>
    intro key latency found
    rcases send_writes.latencies key latency found with
      before | ⟨other, storedTime, stored, rfl⟩
    · exact (timely.latencies key latency before).step_send later
    · exact (timely.elapsed inOrder.1 stored (UInt64.le_refl _)).step_send inOrder.2

theorem step_rediscover_timely (timely : Timely timed) (hops : List DiscoveredHop) :
    Timely (timed.step (.rediscover hops)) where
  firstSend := timely.firstSend
  timestamps := timely.timestamps
  windowStarts pid start found := by
    have evicted : (timed.step (.rediscover hops)).maps.latencyWindowStart =
        evictPids timed.maps.latencyWindowStart (livePids hops) := rfl
    rw [evicted, get_evictPids] at found
    split at found
    next => exact timely.windowStarts pid start found
    next => cases found
  latencies := timely.latencies

end Step

/-- Along every run whose clock never goes back no subtraction wraps, and no
latency is longer than the time since the first tracked send. -/
theorem run_timely (first : List DiscoveredHop) (clock : UInt64)
    (activities : List Activity)
    (inOrder : Run.Along step InOrder (loaded first clock) activities) :
    Timely (activities.foldl step (loaded first clock)) ∧
      ∀ call, (activities.foldl step (loaded first clock)).InOrder (.send call) →
        (activities.foldl step (loaded first clock)).Subtracts call := by
  have timely : Timely (activities.foldl step (loaded first clock)) := by
    refine Run.Along.invariant Timely ?_ inOrder (loaded_timely first clock)
    intro timed activity ordered before
    cases activity with
    | send call => exact step_send_timely before ordered
    | rediscover hops => exact step_rediscover_timely before hops
  exact ⟨timely, fun call next => timely.subtracts next⟩

def bothEnds : List DiscoveredHop :=
  [sourceAt 4,
    { hopIndex := 0
      hostPid := 20
      fd := 7
      isSender := 0
      path := "/tmp/DATA_L3_TO_INTERNAL_ROUTER"
      pname := "INTERNAL_ROUTER" }]

def requestThenRediscover : List Activity :=
  [.send (sendCall 10 4 7 100), .rediscover bothEnds]

theorem requestThenRediscover_timely :
    Timely (requestThenRediscover.foldl step (loaded bothEnds 60)) ∧
      (requestThenRediscover.foldl step (loaded bothEnds 60)).Subtracts (sendCall 20 7 7 350) ∧
      (sysEnterSendmsgHandler (requestThenRediscover.foldl step (loaded bothEnds 60)).maps
        (sendCall 20 7 7 350)).2 = some ⟨20, 250, 350⟩ := by
  obtain ⟨timely, subtracts⟩ :=
    run_timely bothEnds 60 requestThenRediscover ⟨⟨by decide, by decide⟩, trivial, trivial⟩
  exact ⟨timely, subtracts _ ⟨by decide, by decide⟩, by decide +kernel⟩

end Timed

end BpfAgent.Sca
