import BpfAgent.Sca.Ebpf
import Mathlib.Order.Basic

/-!
# SCA: what one send does to the latency maps

Every result about runs of sends rests on the three equations of this module:
the effect of a request, of a reply without a timestamp, and of a reply with
one, on the timestamps and on the published latencies.  A send never touches
`socketHopsMap`, nor any key of another protocol id.
-/

namespace BpfAgent.Sca

theorem publishLatency_timestampMap (maps : Maps) (hopIndex protocol : UInt32)
    (latency : UInt64) :
    (publishLatency maps hopIndex protocol latency).timestampMap = maps.timestampMap := by
  unfold publishLatency
  split <;> rfl

theorem publishLatency_socketHopsMap (maps : Maps) (hopIndex protocol : UInt32)
    (latency : UInt64) :
    (publishLatency maps hopIndex protocol latency).socketHopsMap = maps.socketHopsMap := by
  unfold publishLatency
  split <;> rfl

theorem subtractDownstreamLatency_timestampMap (maps : Maps) (hopIndex protocol : UInt32)
    (latency : UInt64) :
    (subtractDownstreamLatency maps hopIndex protocol latency).2.timestampMap =
      maps.timestampMap := by
  unfold subtractDownstreamLatency
  dsimp only
  split
  · split <;> exact publishLatency_timestampMap _ _ _ _
  · exact publishLatency_timestampMap _ _ _ _

theorem subtractDownstreamLatency_socketHopsMap (maps : Maps) (hopIndex protocol : UInt32)
    (latency : UInt64) :
    (subtractDownstreamLatency maps hopIndex protocol latency).2.socketHopsMap =
      maps.socketHopsMap := by
  unfold subtractDownstreamLatency
  dsimp only
  split
  · split <;> exact publishLatency_socketHopsMap _ _ _ _
  · exact publishLatency_socketHopsMap _ _ _ _

/-- The downstream entry is consumed, everything else is as published. -/
theorem subtractDownstreamLatency_get (maps : Maps) (hopIndex protocol : UInt32)
    (latency : UInt64) (key : UInt64) :
    (subtractDownstreamLatency maps hopIndex protocol latency).2.latencyHopMap.get key =
      if hopIndex + 1 < dataFlow.length.toUInt32 ∧ key = pairKey (hopIndex + 1) protocol then
        none
      else
        (publishLatency maps hopIndex protocol latency).latencyHopMap.get key := by
  unfold subtractDownstreamLatency
  dsimp only
  split
  next inside =>
    split
    next downstream found => simp [inside]
    next missing =>
      by_cases same : key = pairKey (hopIndex + 1) protocol
      · rw [same, missing, ite_self]
      · simp [same]
  next outside => simp [outside]

/-- The value subtracted is the one published before this reply. -/
theorem subtractDownstreamLatency_fst (maps : Maps) (hopIndex protocol : UInt32)
    (latency : UInt64) :
    (subtractDownstreamLatency maps hopIndex protocol latency).1 =
      if hopIndex + 1 < dataFlow.length.toUInt32 then
        Word.saturatingSub latency
          ((maps.latencyHopMap.get (pairKey (hopIndex + 1) protocol)).getD 0)
      else
        latency := by
  have different : pairKey (hopIndex + 1) protocol ≠ pairKey hopIndex protocol := by
    intro equality
    have := (Word.pack_inj.mp equality).1
    simp at this
  have unchanged : (publishLatency maps hopIndex protocol latency).latencyHopMap.get
      (pairKey (hopIndex + 1) protocol) =
        maps.latencyHopMap.get (pairKey (hopIndex + 1) protocol) := by
    unfold publishLatency
    split
    · exact BoundedMap.get_insert_ne _ different _
    · rfl
  unfold subtractDownstreamLatency
  dsimp only
  rw [unchanged]
  split
  · split
    next downstream found => rw [found, Option.getD_some]
    next missing =>
      rw [missing, Option.getD_none]
      apply UInt64.toNat_inj.mp
      simp
  · rfl

theorem handleResponse_of_missing {maps : Maps} {event : SendEvent} {call : SendCall}
    (missing : maps.timestampMap.get
      (pairKey event.endpoint.hopIndex event.protocol) = none) :
    handleResponse maps event call = (maps, none) := by
  simp [handleResponse, lookupTimestampWithProtocol, missing]

def takeTimestamp (maps : Maps) (event : SendEvent) : Maps :=
  { maps with timestampMap :=
      maps.timestampMap.remove (pairKey event.endpoint.hopIndex event.protocol) }

theorem handleResponse_of_zero {maps : Maps} {event : SendEvent} {call : SendCall}
    {storedTime : UInt64}
    (found : maps.timestampMap.get
      (pairKey event.endpoint.hopIndex event.protocol) = some storedTime)
    (zero : call.now - storedTime = 0) :
    handleResponse maps event call = (takeTimestamp maps event, none) := by
  simp [handleResponse, lookupTimestampWithProtocol, found, zero, takeTimestamp]

theorem handleResponse_of_found {maps : Maps} {event : SendEvent} {call : SendCall}
    {storedTime : UInt64}
    (found : maps.timestampMap.get
      (pairKey event.endpoint.hopIndex event.protocol) = some storedTime)
    (elapsed : call.now - storedTime ≠ 0) :
    handleResponse maps event call =
      (updateMovingAverage
          (subtractDownstreamLatency (takeTimestamp maps event) event.endpoint.hopIndex
            event.protocol (call.now - storedTime)).2
          event.pid
          (subtractDownstreamLatency (takeTimestamp maps event) event.endpoint.hopIndex
            event.protocol (call.now - storedTime)).1
          call.later,
        some ⟨event.pid,
          (subtractDownstreamLatency (takeTimestamp maps event) event.endpoint.hopIndex
            event.protocol (call.now - storedTime)).1,
          call.later⟩) := by
  simp [handleResponse, lookupTimestampWithProtocol, found, elapsed, takeTimestamp]

@[simp]
theorem handleResponse_socketHopsMap (maps : Maps) (event : SendEvent) (call : SendCall) :
    (handleResponse maps event call).1.socketHopsMap = maps.socketHopsMap := by
  cases found : maps.timestampMap.get
      (pairKey event.endpoint.hopIndex event.protocol) with
  | none => rw [handleResponse_of_missing found]
  | some storedTime =>
      by_cases zero : call.now - storedTime = 0
      · rw [handleResponse_of_zero found zero]
        rfl
      · rw [handleResponse_of_found found zero]
        exact subtractDownstreamLatency_socketHopsMap _ _ _ _

/-- A reply takes its own timestamp and no other. -/
theorem handleResponse_timestampMap (maps : Maps) (event : SendEvent) (call : SendCall)
    (key : UInt64) :
    (handleResponse maps event call).1.timestampMap.get key =
      if key = pairKey event.endpoint.hopIndex event.protocol then none
      else maps.timestampMap.get key := by
  cases found : maps.timestampMap.get
      (pairKey event.endpoint.hopIndex event.protocol) with
  | none =>
      rw [handleResponse_of_missing found]
      split
      next same => rw [same, found]
      next => rfl
  | some storedTime =>
      by_cases zero : call.now - storedTime = 0
      · rw [handleResponse_of_zero found zero]
        simp [takeTimestamp]
      · rw [handleResponse_of_found found zero]
        dsimp only [updateMovingAverage]
        rw [subtractDownstreamLatency_timestampMap]
        simp [takeTimestamp]

/-- A completed reply publishes its latency and consumes the downstream one. -/
theorem handleResponse_latencyHopMap {maps : Maps} {event : SendEvent} {call : SendCall}
    {storedTime : UInt64}
    (found : maps.timestampMap.get
      (pairKey event.endpoint.hopIndex event.protocol) = some storedTime)
    (elapsed : call.now - storedTime ≠ 0) (key : UInt64) :
    (handleResponse maps event call).1.latencyHopMap.get key =
      if event.endpoint.hopIndex + 1 < dataFlow.length.toUInt32 ∧
          key = pairKey (event.endpoint.hopIndex + 1) event.protocol then
        none
      else
        (publishLatency maps event.endpoint.hopIndex event.protocol
          (call.now - storedTime)).latencyHopMap.get key := by
  rw [handleResponse_of_found found elapsed]
  dsimp only [updateMovingAverage]
  rw [subtractDownstreamLatency_get]
  congr 1
  unfold publishLatency takeTimestamp
  split <;> rfl

theorem handleResponse_sample {maps : Maps} {event : SendEvent} {call : SendCall}
    {storedTime : UInt64}
    (found : maps.timestampMap.get
      (pairKey event.endpoint.hopIndex event.protocol) = some storedTime)
    (elapsed : call.now - storedTime ≠ 0) :
    (handleResponse maps event call).2.map Sample.latency =
      some (if event.endpoint.hopIndex + 1 < dataFlow.length.toUInt32 then
        Word.saturatingSub (call.now - storedTime)
          ((maps.latencyHopMap.get
            (pairKey (event.endpoint.hopIndex + 1) event.protocol)).getD 0)
      else
        call.now - storedTime) := by
  rw [handleResponse_of_found found elapsed, Option.map_some,
    subtractDownstreamLatency_fst]
  rfl

theorem send_of_request {maps : Maps} {call : SendCall} {event : SendEvent}
    (seen : sendEvent maps call = some event) (sender : event.endpoint.isSender = 1) :
    sysEnterSendmsgHandler maps call = (handleRequest maps event call, none) := by
  simp [sysEnterSendmsgHandler, seen, sender]

theorem send_of_reply {maps : Maps} {call : SendCall} {event : SendEvent}
    (seen : sendEvent maps call = some event) (receiver : event.endpoint.isSender ≠ 1) :
    sysEnterSendmsgHandler maps call = handleResponse maps event call := by
  simp [sysEnterSendmsgHandler, seen, receiver]

@[simp]
theorem send_socketHopsMap (maps : Maps) (call : SendCall) :
    (send maps call).socketHopsMap = maps.socketHopsMap := by
  cases seen : sendEvent maps call with
  | none => simp [send, sysEnterSendmsgHandler, seen]
  | some event =>
      by_cases sender : event.endpoint.isSender = 1
      · rw [send, send_of_request seen sender]
        rfl
      · rw [send, send_of_reply seen sender, handleResponse_socketHopsMap]

theorem foldl_send_socketHopsMap (maps : Maps) (calls : List SendCall) :
    (calls.foldl send maps).socketHopsMap = maps.socketHopsMap := by
  induction calls generalizing maps with
  | nil => rfl
  | cons call calls inductionHypothesis =>
      rw [List.foldl_cons, inductionHypothesis, send_socketHopsMap]

/-- How a call is read depends on the tracked endpoints only. -/
theorem sendEvent_congr {maps others : Maps}
    (same : others.socketHopsMap = maps.socketHopsMap) (call : SendCall) :
    sendEvent others call = sendEvent maps call := by
  unfold sendEvent getEndpoint
  rw [same]

theorem publishLatency_get_ne (maps : Maps) {hopIndex protocol : UInt32}
    (latency : UInt64) {key : UInt64} (different : key ≠ pairKey hopIndex protocol) :
    (publishLatency maps hopIndex protocol latency).latencyHopMap.get key =
      maps.latencyHopMap.get key := by
  unfold publishLatency
  split
  · exact BoundedMap.get_insert_ne _ different _
  · rfl

theorem send_frame {maps : Maps} {call : SendCall} {event : SendEvent}
    (seen : sendEvent maps call = some event) {protocol : UInt32}
    (other : protocol ≠ event.protocol) (hop : UInt32) :
    (send maps call).timestampMap.get (pairKey hop protocol) =
        maps.timestampMap.get (pairKey hop protocol) ∧
      (send maps call).latencyHopMap.get (pairKey hop protocol) =
        maps.latencyHopMap.get (pairKey hop protocol) := by
  have different : ∀ hopIndex, pairKey hop protocol ≠ pairKey hopIndex event.protocol := by
    intro hopIndex equality
    exact other (Word.pack_inj.mp equality).2
  by_cases sender : event.endpoint.isSender = 1
  · rw [send, send_of_request seen sender]
    exact ⟨BoundedMap.get_insert_ne _ (different _) _, rfl⟩
  · rw [send, send_of_reply seen sender]
    refine ⟨by rw [handleResponse_timestampMap, if_neg (different _)], ?_⟩
    cases found : maps.timestampMap.get
        (pairKey event.endpoint.hopIndex event.protocol) with
    | none => rw [handleResponse_of_missing found]
    | some storedTime =>
        by_cases zero : call.now - storedTime = 0
        · rw [handleResponse_of_zero found zero]
          rfl
        · rw [handleResponse_latencyHopMap found zero,
            if_neg (fun both => different _ both.2),
            publishLatency_get_ne _ _ (different _)]

theorem handleResponse_size (maps : Maps) (event : SendEvent) (call : SendCall) :
    (handleResponse maps event call).1.timestampMap.size ≤ maps.timestampMap.size ∧
      (handleResponse maps event call).1.latencyHopMap.size ≤
        maps.latencyHopMap.size + 1 := by
  have published : ∀ (taken : Maps) hopIndex protocol latency,
      (publishLatency taken hopIndex protocol latency).latencyHopMap.size ≤
        taken.latencyHopMap.size + 1 := by
    intro taken hopIndex protocol latency
    unfold publishLatency
    split
    · exact BoundedMap.size_insert_le _ _ _
    · exact Nat.le_succ _
  cases found : maps.timestampMap.get
      (pairKey event.endpoint.hopIndex event.protocol) with
  | none =>
      rw [handleResponse_of_missing found]
      exact ⟨le_rfl, Nat.le_succ _⟩
  | some storedTime =>
      by_cases zero : call.now - storedTime = 0
      · rw [handleResponse_of_zero found zero]
        exact ⟨BoundedMap.size_remove_le _ _, Nat.le_succ _⟩
      · rw [handleResponse_of_found found zero]
        dsimp only [updateMovingAverage]
        rw [subtractDownstreamLatency_timestampMap]
        refine ⟨BoundedMap.size_remove_le _ _, ?_⟩
        unfold subtractDownstreamLatency
        dsimp only
        split
        · split
          · exact (BoundedMap.size_remove_le _ _).trans (published (takeTimestamp maps event) _ _ _)
          · exact published (takeTimestamp maps event) _ _ _
        · exact published (takeTimestamp maps event) _ _ _

theorem send_size (maps : Maps) (call : SendCall) :
    (send maps call).timestampMap.size ≤ maps.timestampMap.size + 1 ∧
      (send maps call).latencyHopMap.size ≤ maps.latencyHopMap.size + 1 := by
  cases seen : sendEvent maps call with
  | none => simp [send, sysEnterSendmsgHandler, seen]
  | some event =>
      by_cases sender : event.endpoint.isSender = 1
      · rw [send, send_of_request seen sender]
        exact ⟨BoundedMap.size_insert_le _ _ _, Nat.le_succ _⟩
      · rw [send, send_of_reply seen sender]
        have bound := handleResponse_size maps event call
        exact ⟨bound.1.trans (Nat.le_succ _), bound.2⟩

theorem foldl_send_size (maps : Maps) (calls : List SendCall) :
    (calls.foldl send maps).timestampMap.size ≤ maps.timestampMap.size + calls.length ∧
      (calls.foldl send maps).latencyHopMap.size ≤
        maps.latencyHopMap.size + calls.length := by
  induction calls generalizing maps with
  | nil => exact ⟨le_rfl, le_rfl⟩
  | cons call calls inductionHypothesis =>
      have rest := inductionHypothesis (send maps call)
      have first := send_size maps call
      simp only [List.foldl_cons, List.length_cons]
      omega

end BpfAgent.Sca
