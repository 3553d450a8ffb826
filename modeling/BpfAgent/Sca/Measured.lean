import BpfAgent.Sca.Lockstep
import BpfAgent.Sca.NngHeader
import BpfAgent.Sca.Telescoping

/-!
# SCA: the agent watches the simulator

Every send of the simulator passes the tracepoint.  As the chain has one token,
the agent sees one exchange after the other.  It measures what each component
took, and between two exchanges it remembers nothing, so that its maps never
fill however long the simulator runs and whatever ids it draws.
-/

namespace BpfAgent.Sca.Simulator

open Relay

/-- The msghdr of a send leads to one buffer. -/
structure Buffer (memory : Memory) (msgPtr : UInt64) (bytes : List UInt8) : Prop where
  leads : ∃ msghdr base, readUserMsgHdr memory msgPtr = some msghdr ∧ msghdr.msgIov ≠ 0 ∧
    msghdr.msgIovlen = 1 ∧ readIovAt memory msghdr.msgIov 0 = some ⟨base, 64⟩ ∧ base ≠ 0 ∧
    memory.read base 64 = some bytes

theorem readNngHeader_buildMessage {memory : Memory} {msgPtr : UInt64} {msgType : UInt16}
    {protocol : UInt32} (buffer : Buffer memory msgPtr (buildMessage msgType protocol)) :
    readNngHeader memory msgPtr = some (protocol, msgType) := by
  obtain ⟨msghdr, base, hdr, iov, iovlen, first, present, readable⟩ := buffer.leads
  apply readNngHeader_eq_some_iff.mpr
  refine ⟨msghdr, ⟨base, 64⟩, hdr, iov, by rw [iovlen]; decide, first, present, ?_⟩
  rw [if_pos (show (15 : UInt64) ≤ 64 by decide), readHeaderFromSingleIov_eq_some_iff]
  constructor
  · have bytes := Memory.read_part readable (show 9 + 4 ≤ 64 by decide)
    rw [readBeU32, show base + 9 = base + (9 : Nat).toUInt64 from rfl, bytes]
    exact congrArg some (Word.bigEndian_bigEndianBytes protocol)
  · have bytes := Memory.read_part readable (show 13 + 2 ≤ 64 by decide)
    rw [readBeU16, show base + 13 = base + (13 : Nat).toUInt64 from rfl, bytes]
    exact congrArg some (Word.toUInt16_bigEndian_bytes16 msgType)

/-- A system call that makes a send of the simulator on a tracked endpoint. -/
structure Traced (maps : Maps) (sent : Send Header) (call : SendCall) : Prop where
  call : ∃ args endpoint, call.args = some args ∧
    getEndpoint maps (pidOf call.pidTgid) args.fd.toUInt32 = some endpoint ∧
    endpoint.hopIndex.toNat = sent.hop ∧ (endpoint.isSender = 1 ↔ sent.reply = false) ∧
    Buffer call.memory args.msg (buildMessage sent.message.2 sent.message.1)

theorem Traced.sendEvent {maps : Maps} {sent : Send Header} {call : SendCall}
    (traced : Traced maps sent call) :
    ∃ event, sendEvent maps call = some event ∧ event.endpoint.hopIndex.toNat = sent.hop ∧
      (event.endpoint.isSender = 1 ↔ sent.reply = false) ∧ event.protocol = sent.message.1 := by
  obtain ⟨args, endpoint, made, tracked, hop, sender, buffer⟩ := traced.call
  refine ⟨⟨endpoint, pidOf call.pidTgid, args.fd.toUInt32, sent.message.1, sent.message.2⟩, ?_,
    hop, sender, rfl⟩
  simp only [Sca.sendEvent, made, tracked, readNngHeader_buildMessage buffer, Option.bind_eq_bind,
    Option.bind_some]
  rfl

/-- The agent remembers nothing of a message. -/
def Idle (maps : Maps) : Prop := ∀ key, key ∉ maps.timestampMap ∧ key ∉ maps.latencyHopMap

theorem Idle.size {maps : Maps} (idle : Idle maps) :
    maps.timestampMap.size = 0 ∧ maps.latencyHopMap.size = 0 := by
  constructor
  · rw [BoundedMap.size, List.length_eq_zero_iff, List.eq_nil_iff_forall_not_mem]
    intro key member
    exact (idle key).1 (BoundedMap.mem_keys.mp member)
  · rw [BoundedMap.size, List.length_eq_zero_iff, List.eq_nil_iff_forall_not_mem]
    intro key member
    exact (idle key).2 (BoundedMap.mem_keys.mp member)

theorem Idle.absent {maps : Maps} (idle : Idle maps) (message : Message) : message.Absent maps :=
  fun hop => idle (pairKey hop message.protocol)

theorem Idle.of_get {maps : Maps}
    (none : ∀ hop protocol, maps.timestampMap.get (pairKey hop protocol) = none ∧
      maps.latencyHopMap.get (pairKey hop protocol) = none) : Idle maps := by
  intro key
  obtain ⟨hop, protocol, rfl⟩ := Word.exists_pack key
  exact ⟨BoundedMap.notMem_iff_get.mpr (none hop protocol).1,
    BoundedMap.notMem_iff_get.mpr (none hop protocol).2⟩

def exchanged (protocol : UInt32) (calls : List SendCall) (size : calls.length = 14) : Message where
  protocol := protocol
  req hop := calls.get ⟨hop.val, by omega⟩
  rep hop := calls.get ⟨13 - hop.val, by omega⟩

theorem exchanged_sends (protocol : UInt32) {calls : List SendCall} (size : calls.length = 14) :
    (exchanged protocol calls size).sends = calls := by
  apply List.ext_getElem
  · rw [Message.sends_length, size]
  · intro position inside _
    rw [Message.sends_length] at inside
    rcases Message.sends_cases (List.getElem?_eq_getElem
      (show position < (exchanged protocol calls size).sends.length by
        rw [Message.sends_length]; omega)) with ⟨hop, rfl, same⟩ | ⟨hop, here, same⟩
    · exact same
    · rw [same]
      have index : 13 - hop.val = position := by omega
      simp only [exchanged, List.get_eq_getElem, index]

theorem cycle_protocol (header : Header) :
    ∀ sent ∈ cycle 7 replyTo header, sent.message.1 = header.1 := by
  intro sent member
  rcases List.mem_append.mp member with request | reply
  · obtain ⟨hop, -, rfl⟩ := List.mem_map.mp request
    rfl
  · obtain ⟨hop, -, rfl⟩ := List.mem_map.mp reply
    rfl

section Exchange

variable {maps : Maps} {header : Header} {calls : List SendCall}
  (traced : List.Forall₂ (Traced maps) (cycle 7 replyTo header) calls)

include traced

theorem exchange_length : calls.length = 14 := by
  rw [← traced.length_eq, length_cycle]

theorem traced_get {position : Nat} {sent : Send Header}
    (next : (cycle 7 replyTo header)[position]? = some sent) (inside : position < calls.length) :
    Traced maps sent (calls.get ⟨position, inside⟩) := by
  obtain ⟨bound, rfl⟩ := List.getElem?_eq_some_iff.mp next
  exact traced.get bound inside

theorem exchanged_travels (size : calls.length = 14) :
    (exchanged header.1 calls size).Travels maps where
  request hop := by
    obtain ⟨event, seen, index, sender, protocol⟩ :=
      (traced_get traced (cycle_request hop.isLt header) (by omega)).sendEvent
    refine ⟨event, seen, ?_, sender.mpr rfl, protocol⟩
    rw [← UInt32.toNat_inj, index, Hop.toNat_word]
  reply hop := by
    have position : 2 * 7 - hop.val - 1 = 13 - hop.val := by omega
    have next : (cycle 7 replyTo header)[2 * 7 - hop.val - 1]? =
        some ⟨hop.val, true, replyTo header⟩ := cycle_reply hop.isLt header
    rw [position] at next
    obtain ⟨event, seen, index, sender, protocol⟩ :=
      (traced_get traced next (by omega)).sendEvent
    refine ⟨event, seen, ?_, ?_, protocol⟩
    · rw [← UInt32.toNat_inj, index, Hop.toNat_word]
    · intro isSender
      cases sender.mp isSender

theorem mem_protocol {call : SendCall} (member : call ∈ calls) :
    ∃ event, sendEvent maps call = some event ∧ event.protocol = header.1 := by
  obtain ⟨⟨position, inside⟩, rfl⟩ := List.mem_iff_get.mp member
  have bound : position < (cycle 7 replyTo header).length := by
    rw [traced.length_eq]
    exact inside
  obtain ⟨event, seen, -, -, protocol⟩ := (traced.get bound inside).sendEvent
  exact ⟨event, seen, protocol.trans (cycle_protocol header _ (List.get_mem _ _))⟩

theorem exchanged_interleaves (size : calls.length = 14) :
    Interleaves maps [exchanged header.1 calls size] calls where
  distinct := List.nodup_singleton _
  covered call member := by
    obtain ⟨event, seen, protocol⟩ := mem_protocol traced member
    exact ⟨_, List.mem_singleton_self _, by simp [Message.owns, seen, protocol, exchanged]⟩
  ordered message member := by
    rw [List.mem_singleton.mp member, exchanged_sends]
    apply List.filter_eq_self.mpr
    intro call member
    obtain ⟨event, seen, protocol⟩ := mem_protocol traced member
    simp [Message.owns, seen, protocol, exchanged]

omit traced in
theorem Idle.size_le (idle : Idle maps) {sent : List SendCall} (short : sent.length ≤ 14) :
    (sent.foldl send maps).timestampMap.size ≤ 14 ∧
      (sent.foldl send maps).latencyHopMap.size ≤ 14 := by
  have bound := foldl_send_size maps sent
  obtain ⟨timestamps, latencies⟩ := idle.size
  omega

theorem exchange_neverFull (idle : Idle maps) : NeverFull maps calls := by
  intro sent reached
  have length := reached.length_le
  rw [exchange_length traced] at length
  have bound := idle.size_le length
  omega

theorem exchange_progress (idle : Idle maps)
    (clock : calls.Pairwise fun first second => first.now < second.now)
    (size : calls.length = 14) {sent : List SendCall} (reached : sent <+: calls) :
    Progress (exchanged header.1 calls size) sent.length (sent.foldl send maps) := by
  have interleaves := exchanged_interleaves traced size
  have member := List.mem_singleton_self (exchanged header.1 calls size)
  have progress := interleaves.progress
    (by simpa using exchanged_travels traced size)
    (by simpa using idle.absent (exchanged header.1 calls size))
    clock (exchange_neverFull traced idle) member sent reached
  have all : sent.filter ((exchanged header.1 calls size).owns maps) = sent := by
    apply List.filter_eq_self.mpr
    intro call inside
    obtain ⟨event, seen, protocol⟩ := mem_protocol traced (reached.subset inside)
    simp [Message.owns, seen, protocol, exchanged]
  rw [Message.position, all] at progress
  exact progress

theorem exchange_frame {protocol : UInt32} (other : protocol ≠ header.1) (hop : UInt32)
    {sent : List SendCall} (reached : sent <+: calls) :
    (sent.foldl send maps).timestampMap.get (pairKey hop protocol) =
        maps.timestampMap.get (pairKey hop protocol) ∧
      (sent.foldl send maps).latencyHopMap.get (pairKey hop protocol) =
        maps.latencyHopMap.get (pairKey hop protocol) := by
  induction sent using List.reverseRecOn with
  | nil => exact ⟨rfl, rfl⟩
  | append_singleton sent call inductionHypothesis =>
      have member : call ∈ calls := reached.subset (by simp)
      obtain ⟨event, seen, same⟩ := mem_protocol traced member
      rw [← sendEvent_congr (foldl_send_socketHopsMap maps sent)] at seen
      have different : protocol ≠ event.protocol := by rwa [same]
      have step := send_frame seen different hop
      have before := inductionHypothesis ((List.prefix_append _ _).trans reached)
      rw [List.foldl_append, List.foldl_cons, List.foldl_nil]
      exact ⟨step.1.trans before.1, step.2.trans before.2⟩

/-- After an exchange the agent has forgotten it. -/
theorem exchange_idle (idle : Idle maps)
    (clock : calls.Pairwise fun first second => first.now < second.now) :
    Idle (calls.foldl send maps) := by
  have size := exchange_length traced
  apply Idle.of_get
  intro hop protocol
  by_cases own : protocol = header.1
  · have progress := exchange_progress traced idle clock size List.prefix_rfl
    rw [size] at progress
    obtain ⟨timestamp, latency⟩ := progress.done hop
    subst own
    exact ⟨BoundedMap.notMem_iff_get.mp timestamp, BoundedMap.notMem_iff_get.mp latency⟩
  · obtain ⟨timestamp, latency⟩ := exchange_frame traced own hop List.prefix_rfl
    rw [timestamp, latency]
    exact ⟨BoundedMap.notMem_iff_get.mp (idle _).1, BoundedMap.notMem_iff_get.mp (idle _).2⟩

/-- Each reply passes on what its hop took itself. -/
theorem exchange_sample (idle : Idle maps)
    (clock : calls.Pairwise fun first second => first.now < second.now)
    (size : calls.length = 14) (hop : Hop) :
    (sysEnterSendmsgHandler ((calls.take (13 - hop.val)).foldl send maps)
      ((exchanged header.1 calls size).rep hop)).2.map Sample.latency =
        some ((exchanged header.1 calls size).sample hop) := by
  have reached : calls.take (13 - hop.val) <+: calls := List.take_prefix _ _
  have progress := exchange_progress traced idle clock size reached
  rw [List.length_take, size, Nat.min_eq_left (by omega)] at progress
  obtain ⟨event, seen, hopIndex, receiver, protocol⟩ := (exchanged_travels traced size).reply hop
  rw [← sendEvent_congr (foldl_send_socketHopsMap maps (calls.take (13 - hop.val)))] at seen
  have ordered : (exchanged header.1 calls size).Ordered := by
    apply Message.ordered_of_pairwise
    rw [exchanged_sends]
    exact clock
  exact progress.sample ordered seen hopIndex receiver protocol

end Exchange

theorem Traced.congr {maps others : Maps} (same : others.socketHopsMap = maps.socketHopsMap)
    {sent : Send Header} {call : SendCall} (traced : Traced maps sent call) :
    Traced others sent call := by
  obtain ⟨args, endpoint, made, tracked, rest⟩ := traced.call
  refine ⟨args, endpoint, made, ?_, rest⟩
  rw [getEndpoint, same]
  exact tracked

theorem traced_after {maps : Maps} {sent : List (Send Header)} {calls : List SendCall}
    (earlier : List SendCall) (traced : List.Forall₂ (Traced maps) sent calls) :
    List.Forall₂ (Traced (earlier.foldl send maps)) sent calls :=
  traced.imp fun _ _ one => one.congr (foldl_send_socketHopsMap maps earlier)

theorem exchanges_idle {maps : Maps} {completed : List Header} {calls : List SendCall}
    (idle : Idle maps)
    (traced : List.Forall₂ (Traced maps) (completed.flatMap (cycle 7 replyTo)) calls)
    (clock : calls.Pairwise fun first second => first.now < second.now) :
    Idle (calls.foldl send maps) := by
  induction completed generalizing maps calls with
  | nil =>
      rw [List.flatMap_nil, List.forall₂_nil_left_iff] at traced
      rw [traced]
      exact idle
  | cons header completed inductionHypothesis =>
      rw [List.flatMap_cons] at traced
      have whole : calls = calls.take 14 ++ calls.drop 14 := (List.take_append_drop 14 calls).symm
      have first := List.forall₂_take 14 traced
      have rest := List.forall₂_drop 14 traced
      rw [List.take_append_of_le_length (by rw [length_cycle]),
        List.take_of_length_le (by rw [length_cycle])] at first
      rw [List.drop_append_of_le_length (by rw [length_cycle]),
        List.drop_eq_nil_of_le (by rw [length_cycle]), List.nil_append] at rest
      rw [whole] at clock ⊢
      rw [List.pairwise_append] at clock
      rw [List.foldl_append]
      exact inductionHypothesis (exchange_idle first idle clock.1)
        (traced_after (calls.take 14) rest) clock.2.1

/-- What the agent makes of a run: its maps stay small, and the replies of every
exchange yield what the hops took themselves. -/
structure Watched (maps : Maps) (calls : List SendCall) : Prop where
  small : ∀ sent, sent <+: calls → (sent.foldl send maps).timestampMap.size ≤ 14 ∧
    (sent.foldl send maps).latencyHopMap.size ≤ 14
  exchange : ∀ before exchange after, calls = before ++ exchange ++ after →
    before.length % 14 = 0 → exchange.length = 14 →
    ∃ message : Message, message.sends = exchange ∧
      (∀ hop : Hop, (sysEnterSendmsgHandler
        ((before ++ exchange.take (13 - hop.val)).foldl send maps) (message.rep hop)).2.map
          Sample.latency = some (message.sample hop)) ∧
      (∀ (hop : Hop) (inside : hop.val + 1 < 7),
        (message.sample hop).toNat = message.raw hop - message.raw ⟨hop.val + 1, inside⟩) ∧
      ∑ hop, (message.sample hop).toNat = message.raw 0

section Watched

variable {maps : Maps} {cycles : List Header} {sent : List (Send Header)}
  {calls : List SendCall} (idle : Idle maps)
  (part : sent <+: cycles.flatMap (cycle 7 replyTo))
  (traced : List.Forall₂ (Traced maps) sent calls)
  (clock : calls.Pairwise fun first second => first.now < second.now)

include idle part traced clock

theorem idle_after {before after : List SendCall} (split : calls = before ++ after)
    (whole : before.length % 14 = 0) : Idle (before.foldl send maps) := by
  obtain ⟨remaining, joined⟩ := part
  have length := traced.length_eq
  rw [split] at traced clock length
  rw [List.length_append] at length
  have count : 2 * 7 * (before.length / 14) = before.length := by omega
  have first := List.forall₂_take_append sent before after traced
  have cut : sent.take before.length =
      (cycles.take (before.length / 14)).flatMap (cycle 7 replyTo) := by
    rw [← take_cycles, count, ← joined, List.take_append_of_le_length (by omega)]
  rw [cut] at first
  exact exchanges_idle idle first (List.pairwise_append.mp clock).1

theorem small_along {reached : List SendCall} (before : reached <+: calls) :
    (reached.foldl send maps).timestampMap.size ≤ 14 ∧
      (reached.foldl send maps).latencyHopMap.size ≤ 14 := by
  obtain ⟨after, split⟩ := before
  let count := 14 * (reached.length / 14)
  have inside : count ≤ reached.length := Nat.mul_div_le reached.length 14
  have cut : calls = reached.take count ++ (reached.drop count ++ after) := by
    rw [← List.append_assoc, List.take_append_drop, split]
  have quiet := idle_after idle part traced clock cut (by
    rw [List.length_take, Nat.min_eq_left inside]
    exact Nat.mul_mod_right 14 _)
  have short : (reached.drop count).length ≤ 14 := by
    rw [List.length_drop]
    omega
  have bound := quiet.size_le short
  rw [← List.foldl_append, List.take_append_drop] at bound
  exact bound

omit idle clock in
/-- Fourteen sends after any number of exchanges are an exchange again. -/
theorem exchange_traced {before exchange after : List SendCall}
    (split : calls = before ++ (exchange ++ after)) (whole : before.length % 14 = 0)
    (size : exchange.length = 14) :
    ∃ header, List.Forall₂ (Traced maps) (cycle 7 replyTo header) exchange := by
  obtain ⟨remaining, joined⟩ := part
  have length := traced.length_eq
  rw [split, List.length_append, List.length_append] at length
  have count : 2 * 7 * (before.length / 14) = before.length := by omega
  rw [split] at traced
  have rest := List.forall₂_drop_append sent before (exchange ++ after) traced
  have middle := List.forall₂_take_append _ exchange after rest
  have cut : (sent.drop before.length).take exchange.length =
      ((cycles.drop (before.length / 14)).take 1).flatMap (cycle 7 replyTo) := by
    rw [← take_cycles, ← drop_cycles, count, ← joined,
      List.drop_append_of_le_length (by omega), size,
      List.take_append_of_le_length (by rw [List.length_drop]; omega)]
  rw [cut] at middle
  cases remain : cycles.drop (before.length / 14) with
  | nil =>
      rw [remain] at middle
      have none := middle.length_eq
      rw [size] at none
      simp at none
  | cons header others =>
      rw [remain, List.take_succ_cons, List.take_zero, List.flatMap_singleton] at middle
      exact ⟨header, middle⟩

end Watched

/-- In every run of the simulator, from an agent that has just been loaded, or
has watched whole exchanges only. -/
theorem watched_of_run {acts : List Act} {state : State} {maps : Maps} {calls : List SendCall}
    (ran : acts.foldlM step State.initial = some state) (idle : Idle maps)
    (traced : List.Forall₂ (Traced maps) state.sent calls)
    (clock : calls.Pairwise fun first second => first.now < second.now) :
    Watched maps calls ∧ (state.initiator = none → Idle (calls.foldl send maps)) := by
  obtain ⟨completed, place, got, stream, reached⟩ := reached_of_run ran
  obtain ⟨completed, ready, outstanding⟩ := reached.serves.lockstep
  have part : ∃ cycles : List Header, state.sent <+: cycles.flatMap (cycle 7 replyTo) := by
    by_cases rests : state.initiator = none
    · exact ⟨completed, (ready rests).symm ▸ List.prefix_rfl⟩
    · obtain ⟨header, count, -, -, sent⟩ := outstanding rests
      refine ⟨completed ++ [header], ?_⟩
      rw [sent, List.flatMap_append, List.flatMap_singleton]
      exact (List.prefix_append_right_inj _).mpr (List.take_prefix _ _)
  obtain ⟨cycles, part⟩ := part
  refine ⟨⟨fun _ => small_along idle part traced clock, ?_⟩, ?_⟩
  · intro before exchange after split whole size
    rw [List.append_assoc] at split
    have quiet := idle_after idle part traced clock split whole
    obtain ⟨header, exchanges⟩ := exchange_traced part traced split whole size
    have times : exchange.Pairwise fun first second => first.now < second.now := by
      rw [split] at clock
      exact (List.pairwise_append.mp (List.pairwise_append.mp clock).2.1).1
    have ordered : (exchanged header.1 exchange size).Ordered := by
      apply Message.ordered_of_pairwise
      rw [exchanged_sends]
      exact times
    refine ⟨exchanged header.1 exchange size, exchanged_sends _ size, ?_, ordered.toNat_sample,
      ordered.sum_sample⟩
    intro hop
    rw [List.foldl_append]
    exact exchange_sample (traced_after before exchanges) quiet times size hop
  · intro rests
    rw [ready rests] at traced
    exact exchanges_idle idle traced clock

end BpfAgent.Sca.Simulator
