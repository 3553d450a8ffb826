import BpfAgent.Lib.Run
import BpfAgent.Sca.SendStep

/-!
# SCA: requests that are never answered

The timestamp of a request leaves TIMESTAMP_MAP only with its reply, and a
protocol id is not used again.  Unanswered requests stay, and once they fill
the map no other exchange is measured.
-/

namespace BpfAgent.Sca

def samples (maps : Maps) (calls : List SendCall) : List Sample :=
  Run.outputs send (fun maps call => (sysEnterSendmsgHandler maps call).2) maps calls

/-- A request on a hop and the reply to it. -/
structure Exchange (maps : Maps) (request reply : SendCall) where
  requested : SendEvent
  replied : SendEvent
  requestSeen : sendEvent maps request = some requested
  replySeen : sendEvent maps reply = some replied
  sender : requested.endpoint.isSender = 1
  receiver : replied.endpoint.isSender ≠ 1
  hop : replied.endpoint.hopIndex = requested.endpoint.hopIndex
  protocol : replied.protocol = requested.protocol
  later : request.now < reply.now

section Exchange

variable {maps : Maps} {request reply : SendCall}

def Exchange.key (exchange : Exchange maps request reply) : UInt64 :=
  pairKey exchange.requested.endpoint.hopIndex exchange.requested.protocol

/-- The reply alone records a sample, and it is for the replying process. -/
def Exchange.Measured (exchange : Exchange maps request reply) : Prop :=
  ∃ sample, samples maps [request, reply] = [sample] ∧ sample.pid = exchange.replied.pid

theorem Exchange.samples_eq (exchange : Exchange maps request reply) :
    samples maps [request, reply] =
      (handleResponse (handleRequest maps exchange.requested request) exchange.replied
        reply).2.toList := by
  have stored := send_of_request exchange.requestSeen exchange.sender
  have seen : sendEvent (handleRequest maps exchange.requested request) reply =
      some exchange.replied := (sendEvent_congr rfl reply).trans exchange.replySeen
  simp only [samples, Run.outputs, send, stored, send_of_reply seen exchange.receiver,
    Option.toList_none, List.nil_append, List.append_nil]

theorem Exchange.stored_of_room (exchange : Exchange maps request reply)
    (room : maps.timestampMap.Room exchange.key) :
    (handleRequest maps exchange.requested request).timestampMap.get
      (pairKey exchange.replied.endpoint.hopIndex exchange.replied.protocol) =
        some request.now := by
  rw [exchange.hop, exchange.protocol]
  exact (BoundedMap.get_insert_of_room room request.now _).trans (if_pos rfl)

theorem Exchange.missing_of_not_room (exchange : Exchange maps request reply)
    (full : ¬maps.timestampMap.Room exchange.key) :
    (handleRequest maps exchange.requested request).timestampMap.get
      (pairKey exchange.replied.endpoint.hopIndex exchange.replied.protocol) = none := by
  have absent : exchange.key ∉ maps.timestampMap := fun present => full (.inl present)
  rw [exchange.hop, exchange.protocol]
  exact (congrArg (BoundedMap.get · exchange.key)
    (BoundedMap.insert_of_not_room full request.now)).trans (BoundedMap.notMem_iff_get.mp absent)

theorem Exchange.measured_iff (exchange : Exchange maps request reply) :
    exchange.Measured ↔ maps.timestampMap.Room exchange.key := by
  rw [Exchange.Measured, exchange.samples_eq]
  by_cases room : maps.timestampMap.Room exchange.key
  · have elapsed : reply.now - request.now ≠ 0 := by
      intro same
      have equal : reply.now = request.now := by
        rw [← UInt64.sub_add_cancel reply.now request.now, same, UInt64.zero_add]
      have later := exchange.later
      rw [equal] at later
      exact UInt64.lt_irrefl _ later
    rw [handleResponse_of_found (exchange.stored_of_room room) elapsed]
    simp [room]
  · rw [handleResponse_of_missing (exchange.missing_of_not_room room)]
    simp [room]

end Exchange

/-- After every history of sends, an exchange is measured exactly when there is
room for the timestamp of its request. -/
theorem exchange_measured_iff_room (hops : BoundedMap UInt64 HopEndpoint socketHopsMapMaxEntries)
    (calls : List SendCall) (request reply : SendCall)
    (exchange : Exchange (calls.foldl send (Maps.loaded hops)) request reply) :
    exchange.Measured ↔
      (calls.foldl send (Maps.loaded hops)).timestampMap.Room exchange.key :=
  exchange.measured_iff

def oneHop : BoundedMap UInt64 HopEndpoint socketHopsMapMaxEntries :=
  endpoints [(100, 3, 0, 1), (200, 4, 0, 0)]

def unanswered (number : Nat) : List SendCall :=
  (List.range number).map fun id => sendCall 100 3 id.toUInt32 id.toUInt64

def requestEvent (protocol : UInt32) : SendEvent where
  endpoint := ⟨0, 1, .replicate 32 0⟩
  pid := 100
  fd := 3
  protocol := protocol
  msgType := 1

def replyEvent (protocol : UInt32) : SendEvent where
  endpoint := ⟨0, 0, .replicate 32 0⟩
  pid := 200
  fd := 4
  protocol := protocol
  msgType := 1

section OneHop

variable {maps : Maps} (hops : maps.socketHopsMap = oneHop) (protocol : UInt32) (now : UInt64)

include hops

theorem sendEvent_request :
    sendEvent maps (sendCall 100 3 protocol now) = some (requestEvent protocol) := by
  apply sendEvent_sendCall
  rw [getEndpoint, hops]
  decide +kernel

theorem sendEvent_reply :
    sendEvent maps (sendCall 200 4 protocol now) = some (replyEvent protocol) := by
  apply sendEvent_sendCall
  rw [getEndpoint, hops]
  decide +kernel

end OneHop

structure Unanswered (number : Nat) (maps : Maps) : Prop where
  hops : maps.socketHopsMap = oneHop
  size : maps.timestampMap.size = number
  keys : ∀ key ∈ maps.timestampMap, key.toNat < number

theorem Unanswered.next {number : Nat} {maps : Maps} (waiting : Unanswered number maps)
    (small : number < 1024) :
    Unanswered (number + 1) (send maps (sendCall 100 3 number.toUInt32 number.toUInt64)) := by
  have seen := sendEvent_request waiting.hops number.toUInt32 number.toUInt64
  have value : (pairKey 0 number.toUInt32).toNat = number := by
    rw [pairKey, Word.toNat_pack, Nat.toUInt32_eq, UInt32.toNat_ofNat', UInt32.toNat_zero]
    omega
  have stored : (send maps (sendCall 100 3 number.toUInt32 number.toUInt64)).timestampMap =
      maps.timestampMap.insert (pairKey 0 number.toUInt32) number.toUInt64 := by
    rw [send, send_of_request seen rfl]
    rfl
  refine ⟨(send_socketHopsMap _ _).trans waiting.hops, ?_, ?_⟩
  · rw [stored]
    exact BoundedMap.size_insert_numbered waiting.size waiting.keys value small _
  · intro key present
    rw [stored] at present
    exact BoundedMap.rank_lt_of_mem_insert waiting.keys value present

theorem unanswered_run {number : Nat} (small : number ≤ 1024) :
    Unanswered number ((unanswered number).foldl send (Maps.loaded oneHop)) := by
  induction number with
  | zero => exact ⟨rfl, rfl, fun key present => absurd present (BoundedMap.notMem_empty key)⟩
  | succ number inductionHypothesis =>
      have previous := inductionHypothesis (by omega)
      rw [unanswered, List.range_succ, List.map_append, List.foldl_append]
      exact previous.next (by omega)

def oneHopExchange {maps : Maps} (hops : maps.socketHopsMap = oneHop) :
    Exchange maps (sendCall 100 3 1024 1024) (sendCall 200 4 1024 1025) where
  requested := requestEvent 1024
  replied := replyEvent 1024
  requestSeen := sendEvent_request hops 1024 1024
  replySeen := sendEvent_reply hops 1024 1025
  sender := rfl
  receiver := by decide
  hop := rfl
  protocol := rfl
  later := by decide

/-- After 1024 unanswered requests an answered one records no sample. -/
theorem not_measured_after_unanswered :
    Nonempty (Exchange ((unanswered 1024).foldl send (Maps.loaded oneHop))
      (sendCall 100 3 1024 1024) (sendCall 200 4 1024 1025)) ∧
    samples ((unanswered 1024).foldl send (Maps.loaded oneHop))
      [sendCall 100 3 1024 1024, sendCall 200 4 1024 1025] = [] := by
  have waiting := unanswered_run (Nat.le_refl 1024)
  let exchange := oneHopExchange waiting.hops
  have full : ¬((unanswered 1024).foldl send (Maps.loaded oneHop)).timestampMap.Room
      exchange.key := by
    apply BoundedMap.not_room_of_numbered waiting.size waiting.keys
    rw [show exchange.key = pairKey 0 1024 from rfl]
    decide
  refine ⟨⟨exchange⟩, ?_⟩
  rw [exchange.samples_eq, handleResponse_of_missing (exchange.missing_of_not_room full)]
  rfl

theorem measured_at_first :
    ∃ sample, samples (Maps.loaded oneHop)
        [sendCall 100 3 1024 1024, sendCall 200 4 1024 1025] = [sample] ∧ sample.pid = 200 := by
  let exchange : Exchange (List.foldl send (Maps.loaded oneHop) []) (sendCall 100 3 1024 1024)
    (sendCall 200 4 1024 1025) := oneHopExchange rfl
  apply (exchange_measured_iff_room oneHop [] _ _ exchange).mpr
  exact .inr (by decide)

end BpfAgent.Sca
