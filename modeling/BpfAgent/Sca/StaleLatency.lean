import BpfAgent.Lib.Run
import BpfAgent.Sca.SendStep

/-!
# SCA: published latencies that nobody consumes

A completed hop publishes its raw latency for the hop upstream.  The entry is
consumed only when the upstream hop completes with a non-zero latency, so it
stays behind when the upstream reply is never traced, or completes within one
tick of the clock.  Along runs in which every completing hop has its upstream
request outstanding, each entry is owed to a request that is still waiting.
-/

namespace BpfAgent.Sca

/-- Every endpoint belongs to a hop of `dataFlow`. -/
def Tracked (hops : BoundedMap UInt64 HopEndpoint socketHopsMapMaxEntries) : Prop :=
  ∀ endpoint ∈ hops.values, endpoint.hopIndex < dataFlow.length.toUInt32

instance (hops : BoundedMap UInt64 HopEndpoint socketHopsMapMaxEntries) :
    Decidable (Tracked hops) :=
  inferInstanceAs (Decidable (∀ endpoint ∈ hops.values,
    endpoint.hopIndex < dataFlow.length.toUInt32))

/-- With no request outstanding no latency is published. -/
def Settled (maps : Maps) : Prop :=
  (∀ key, key ∉ maps.timestampMap) → ∀ key, key ∉ maps.latencyHopMap

/-- A reply that takes its timestamp publishes a latency only if the upstream
request is outstanding (or there is no upstream hop, or no room), and leaves
none unconsumed by completing in no time at all. -/
def upstreamWaits (maps : Maps) (call : SendCall) : Bool :=
  match sendEvent maps call with
  | none => true
  | some event =>
      let hop := event.endpoint.hopIndex
      event.endpoint.isSender = 1 ||
        match maps.timestampMap.get (pairKey hop event.protocol) with
        | none => true
        | some storedTime =>
            if call.now - storedTime = 0 then
              pairKey (hop + 1) event.protocol ∉ maps.latencyHopMap
            else
              hop = 0 ∨ pairKey (hop - 1) event.protocol ∈ maps.timestampMap ∨
                ¬maps.latencyHopMap.Room (pairKey hop event.protocol)

/-- Every published latency is owed to an outstanding upstream request. -/
def Owed (maps : Maps) : Prop :=
  ∀ hop protocol, pairKey hop protocol ∈ maps.latencyHopMap →
    hop < dataFlow.length.toUInt32 ∧ pairKey (hop - 1) protocol ∈ maps.timestampMap

theorem Owed.settled {maps : Maps} (owed : Owed maps) : Settled maps := by
  intro quiet key published
  obtain ⟨hop, protocol, rfl⟩ := Word.exists_pack key
  exact quiet _ (owed hop protocol published).2

theorem sendEvent_hopIndex {maps : Maps} (tracked : Tracked maps.socketHopsMap)
    {call : SendCall} {event : SendEvent} (seen : sendEvent maps call = some event) :
    event.endpoint.hopIndex < dataFlow.length.toUInt32 := by
  simp only [sendEvent, Option.bind_eq_bind, Option.bind_eq_some_iff] at seen
  obtain ⟨args, -, endpoint, found, header, -, equality⟩ := seen
  cases equality
  exact tracked _ (BoundedMap.mem_values_of_get found)

theorem owed_request {maps : Maps} {event : SendEvent} {call : SendCall}
    (owed : Owed maps) : Owed (handleRequest maps event call) := by
  intro hop protocol published
  obtain ⟨inside, waiting⟩ := owed hop protocol published
  exact ⟨inside, BoundedMap.mem_insert_of_mem _ waiting⟩

theorem mem_handleResponse_timestampMap {maps : Maps} {event : SendEvent}
    {call : SendCall} {key : UInt64} (waiting : key ∈ maps.timestampMap)
    (different : key ≠ pairKey event.endpoint.hopIndex event.protocol) :
    key ∈ (handleResponse maps event call).1.timestampMap := by
  rw [BoundedMap.mem_iff_get] at waiting ⊢
  rwa [handleResponse_timestampMap, if_neg different]

theorem pairKey_pred_ne {hop other protocol otherProtocol : UInt32}
    (different : pairKey hop protocol ≠ pairKey (other + 1) otherProtocol) :
    pairKey (hop - 1) protocol ≠ pairKey other otherProtocol := by
  intro equality
  obtain ⟨hops, protocols⟩ := Word.pack_inj.mp equality
  apply different
  apply Word.pack_inj.mpr
  exact ⟨by rw [← hops]; simp, protocols⟩

theorem owed_zero {maps : Maps} {event : SendEvent} {call : SendCall}
    {storedTime : UInt64} (owed : Owed maps)
    (found : maps.timestampMap.get
      (pairKey event.endpoint.hopIndex event.protocol) = some storedTime)
    (zero : call.now - storedTime = 0)
    (consumed : pairKey (event.endpoint.hopIndex + 1) event.protocol ∉
      maps.latencyHopMap) :
    Owed (handleResponse maps event call).1 := by
  intro hop protocol published
  have before : pairKey hop protocol ∈ maps.latencyHopMap := by
    rwa [handleResponse_of_zero found zero] at published
  obtain ⟨inside, waiting⟩ := owed hop protocol before
  refine ⟨inside, mem_handleResponse_timestampMap waiting (pairKey_pred_ne ?_)⟩
  rintro equality
  exact consumed (equality ▸ before)

theorem owed_completed {maps : Maps} {event : SendEvent} {call : SendCall}
    {storedTime : UInt64} (owed : Owed maps)
    (inside : event.endpoint.hopIndex < dataFlow.length.toUInt32)
    (found : maps.timestampMap.get
      (pairKey event.endpoint.hopIndex event.protocol) = some storedTime)
    (elapsed : call.now - storedTime ≠ 0)
    (upstream : event.endpoint.hopIndex = 0 ∨
      pairKey (event.endpoint.hopIndex - 1) event.protocol ∈ maps.timestampMap ∨
      ¬maps.latencyHopMap.Room (pairKey event.endpoint.hopIndex event.protocol)) :
    Owed (handleResponse maps event call).1 := by
  intro hop protocol published
  obtain ⟨value, lookup⟩ := BoundedMap.mem_iff_get.mp published
  rw [handleResponse_latencyHopMap found elapsed] at lookup
  split at lookup
  · simp at lookup
  next unconsumed =>
    by_cases fresh : pairKey hop protocol = pairKey event.endpoint.hopIndex event.protocol ∧
        pairKey (event.endpoint.hopIndex - 1) event.protocol ∈ maps.timestampMap
    · -- The entry this reply has just published.
      obtain ⟨rfl, rfl⟩ := Word.pack_inj.mp fresh.1
      refine ⟨inside, mem_handleResponse_timestampMap fresh.2 (pairKey_pred_ne ?_)⟩
      intro equality
      simp at equality
    · have before : pairKey hop protocol ∈ maps.latencyHopMap := by
        rw [BoundedMap.mem_iff_get]
        by_cases same : pairKey hop protocol =
            pairKey event.endpoint.hopIndex event.protocol
        · rcases upstream with first | waiting | full
          · simp only [publishLatency, first] at lookup
            exact ⟨value, lookup⟩
          · exact absurd ⟨same, waiting⟩ fresh
          · refine ⟨value, ?_⟩
            unfold publishLatency at lookup
            split at lookup
            · rwa [BoundedMap.insert_of_not_room full] at lookup
            · exact lookup
        · exact ⟨value, by rwa [publishLatency_get_ne _ _ same] at lookup⟩
      obtain ⟨insideBefore, waiting⟩ := owed hop protocol before
      refine ⟨insideBefore, mem_handleResponse_timestampMap waiting (pairKey_pred_ne ?_)⟩
      intro equality
      refine unconsumed ⟨?_, equality⟩
      rwa [(Word.pack_inj.mp equality).1] at insideBefore

theorem owed_send {maps : Maps} {call : SendCall} (tracked : Tracked maps.socketHopsMap)
    (waits : upstreamWaits maps call = true) (owed : Owed maps) :
    Owed (send maps call) := by
  cases seen : sendEvent maps call with
  | none => simpa [send, sysEnterSendmsgHandler, seen] using owed
  | some event =>
      by_cases sender : event.endpoint.isSender = 1
      · rw [send, send_of_request seen sender]
        exact owed_request owed
      · rw [send, send_of_reply seen sender]
        cases found : maps.timestampMap.get
            (pairKey event.endpoint.hopIndex event.protocol) with
        | none => rwa [handleResponse_of_missing found]
        | some storedTime =>
            by_cases zero : call.now - storedTime = 0
            · apply owed_zero owed found zero
              simpa [upstreamWaits, seen, sender, found, zero] using waits
            · apply owed_completed owed (sendEvent_hopIndex tracked seen) found zero
              simpa [upstreamWaits, seen, sender, found, zero] using waits

/-- Along every run in which completing hops have their upstream request
outstanding, no latency is left behind when the last request is answered. -/
theorem settled_of_upstreamWaits
    (hops : BoundedMap UInt64 HopEndpoint socketHopsMapMaxEntries) (calls : List SendCall)
    (tracked : Tracked hops)
    (waits : Run.Along send (fun maps call => upstreamWaits maps call = true)
      (Maps.loaded hops) calls) :
    Settled (calls.foldl send (Maps.loaded hops)) := by
  have invariant := waits.invariant
    (fun maps => Tracked maps.socketHopsMap ∧ Owed maps)
    (by
      rintro maps call condition ⟨stillTracked, owed⟩
      exact ⟨by rwa [send_socketHopsMap], owed_send stillTracked condition owed⟩)
    ⟨tracked, by
      intro hop protocol published
      simp [Maps.loaded, Maps.empty] at published⟩
  exact invariant.2.settled

def twoHops : BoundedMap UInt64 HopEndpoint socketHopsMapMaxEntries :=
  endpoints [(10, 4, 0, 1), (11, 4, 0, 0), (11, 5, 1, 1), (12, 4, 1, 0)]

theorem settled_two_hop_exchange :
    Tracked twoHops ∧
      Settled ([sendCall 10 4 99 1000, sendCall 11 5 99 2000, sendCall 12 4 99 5000,
        sendCall 11 4 99 9000].foldl send (Maps.loaded twoHops)) :=
  ⟨by decide, settled_of_upstreamWaits twoHops _ (by decide) (by decide)⟩

def afterSingleHop : Maps :=
  [sendCall 10 4 99 1000, sendCall 11 4 99 8000].foldl send
    (Maps.loaded (endpoints [(10, 4, 3, 1), (11, 4, 3, 0)]))

/-- With only hop 3 discovered its one complete exchange leaves a latency
behind, and nothing will ever consume it. -/
theorem not_settled_single_hop :
    Tracked (endpoints [(10, 4, 3, 1), (11, 4, 3, 0)]) ∧ ¬Settled afterSingleHop := by
  refine ⟨by decide, ?_⟩
  intro settled
  have quiet : afterSingleHop.timestampMap.keys = [] := by decide
  have published : pairKey 3 99 ∈ afterSingleHop.latencyHopMap := by decide
  refine settled ?_ (pairKey 3 99) published
  intro key
  rw [← BoundedMap.mem_keys, quiet]
  exact List.not_mem_nil

end BpfAgent.Sca
