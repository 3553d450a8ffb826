import BpfAgent.Irss.Handoff

/-!
# IRSS: receives that are never forwarded

A timestamp leaves TIMESTAMP_MAP only through the send that matches it.  Those
of datagrams that are never sent on stay, and once they fill the map no other
receive is measured any more.
-/

namespace BpfAgent.Irss

def ThreadEvent.clock : ThreadEvent → Option UInt64
  | .enter _ _ => none
  | .kprobe _ _ => none
  | .exit _ _ _ now => some now
  | .send _ _ now => some now

/-- The return from a receive and the send that forwards what it received. -/
structure Forward where
  pidTgid : UInt64
  ret : Option Int64
  memory : Memory
  received : UInt64
  args : SysEnterMsgArgs
  sendMemory : Memory
  sent : UInt64
  key : UInt32

def Forward.events (forward : Forward) : List ThreadEvent :=
  [.exit forward.pidTgid forward.ret forward.memory forward.received,
    .send (some forward.args) forward.sendMemory forward.sent]

/-- The thread is about to return with a payload of this tag, the kprobe has
seen no other port than the listen port, and the send goes to the configured
destination with the same tag. -/
structure Forward.Occurs (forward : Forward) (threads : Threads) : Prop where
  received : ∃ frame pointer, threads.inside forward.pidTgid = some frame ∧
    ¬frame.Vetoed (listenPort threads.maps) ∧ frame.pointer = some pointer ∧
    receivedTag forward.ret forward.memory pointer = some forward.key
  destination : readTxDest forward.sendMemory forward.args.msg = some (rawDest threads.maps)
  payload : readPayloadKey forward.sendMemory forward.args.msg = some forward.key

/-- One more sample: the time between the two events. -/
structure Forward.Measured (forward : Forward) (before after : Accumulator) : Prop where
  count : after.count.toNat = before.count.toNat + 1
  sum : after.sum.toNat = before.sum.toNat + (forward.sent.toNat - forward.received.toNat)

/-- The pointer is staged and there is room for the timestamp, or the very same
timestamp is already there; and the accumulators do not overflow. -/
def Forward.Kept (forward : Forward) (maps : Maps) : Prop :=
  (forward.pidTgid ∈ maps.recvMsgPtr ∧ maps.timestampMap.Room forward.key ∨
      maps.timestampMap.get forward.key = some forward.received) ∧
    maps.latency.count.toNat + 1 < 2 ^ 64 ∧
    maps.latency.sum.toNat + (forward.sent.toNat - forward.received.toNat) < 2 ^ 64

theorem sysExitRecvmsgHandler_rest (maps : Maps) (pidTgid : UInt64) (ret : Option Int64)
    (memory : Memory) (now : UInt64) :
    (sysExitRecvmsgHandler maps pidTgid ret memory now).latency = maps.latency ∧
      rawDest (sysExitRecvmsgHandler maps pidTgid ret memory now) = rawDest maps := by
  unfold sysExitRecvmsgHandler
  dsimp only
  split
  · exact ⟨rfl, rfl⟩
  · split
    · exact ⟨rfl, rfl⟩
    · split
      · exact ⟨rfl, rfl⟩
      · split <;> exact ⟨rfl, rfl⟩

theorem sysEnterSendmsgHandler_latency {maps : Maps} {args : SysEnterMsgArgs}
    {memory : Memory} {key : UInt32}
    (destination : readTxDest memory args.msg = some (rawDest maps))
    (payload : readPayloadKey memory args.msg = some key) (now : UInt64) :
    (sysEnterSendmsgHandler maps (some args) memory now).latency =
      maps.latency.add ((maps.timestampMap.get key).map (Word.saturatingSub now)) := by
  simp only [sysEnterSendmsgHandler, destination, payload, if_true]
  cases maps.timestampMap.get key <;> rfl

theorem sysEnterSendmsgHandler_timestamp {maps : Maps} {args : Option SysEnterMsgArgs}
    {memory : Memory} {now : UInt64} {key : UInt32} {timestamp : UInt64}
    (found : (sysEnterSendmsgHandler maps args memory now).timestampMap.get key =
      some timestamp) : maps.timestampMap.get key = some timestamp := by
  unfold sysEnterSendmsgHandler at found
  cases args with
  | none => exact found
  | some args =>
      dsimp only at found
      split at found
      · split at found
        · exact found
        · split at found
          · exact found
          · rw [BoundedMap.get_remove] at found
            split at found
            · cases found
            · exact found
      · exact found

theorem sysExitRecvmsgHandler_timestamp {maps : Maps} {pidTgid : UInt64} {ret : Option Int64}
    {memory : Memory} {now : UInt64} {key : UInt32} {timestamp : UInt64}
    (found : (sysExitRecvmsgHandler maps pidTgid ret memory now).timestampMap.get key =
      some timestamp) :
    timestamp = now ∨ maps.timestampMap.get key = some timestamp := by
  cases staged : maps.recvMsgPtr.get pidTgid with
  | none =>
      rw [sysExitRecvmsgHandler_of_missing staged] at found
      exact .inr found
  | some pointer =>
      rw [sysExitRecvmsgHandler_of_staged staged] at found
      split at found
      · exact .inr found
      next stored _ =>
        by_cases room : maps.timestampMap.Room stored
        · rw [BoundedMap.get_insert_of_room room] at found
          split at found
          · cases found
            exact .inl rfl
          · exact .inr found
        · rw [BoundedMap.insert_of_not_room room] at found
          exact .inr found

/-- No stored timestamp is later than `bound`. -/
def Past (bound : UInt64) (threads : Threads) : Prop :=
  ∀ key timestamp, threads.maps.timestampMap.get key = some timestamp → timestamp ≤ bound

theorem Past.step {bound : UInt64} {threads next : Threads} (past : Past bound threads)
    {event : ThreadEvent} (early : ∀ now, event.clock = some now → now ≤ bound)
    (stepped : threads.step event = some next) : Past bound next := by
  intro key timestamp found
  cases event with
  | enter pidTgid args =>
      simp only [Threads.step] at stepped
      split at stepped
      · cases stepped
      · cases stepped
        simp only [(sysEnterRecvmsgHandler_frame _ _ _).1] at found
        exact past key timestamp found
  | kprobe pidTgid hit =>
      simp only [Threads.step, Option.some.injEq] at stepped
      subst stepped
      simp only [(udpRecvmsgHandler_frame _ _ _).1] at found
      exact past key timestamp found
  | exit pidTgid ret memory now =>
      obtain ⟨-, rfl⟩ := exit_eq_some_iff.mp stepped
      rcases sysExitRecvmsgHandler_timestamp found with rfl | before
      · exact early timestamp rfl
      · exact past key timestamp before
  | send args memory now =>
      simp only [Threads.step, Option.some.injEq] at stepped
      subst stepped
      exact past key timestamp (sysEnterSendmsgHandler_timestamp found)

theorem Past.run {bound : UInt64} {threads next : Threads} (past : Past bound threads)
    {events : List ThreadEvent} (early : ∀ now ∈ events.filterMap ThreadEvent.clock, now ≤ bound)
    (ran : events.foldlM Threads.step threads = some next) : Past bound next := by
  apply Run.foldlM_invariant (Past bound) _ ran past
  intro event member reached after stepped before
  apply before.step _ stepped
  intro now clock
  exact early now (List.mem_filterMap.mpr ⟨event, member, clock⟩)

section Forward

variable {forward : Forward} {port : UInt32} {threads : Threads}

theorem Forward.Occurs.stored_iff (occurs : forward.Occurs threads) (staged : Staged port threads) :
    (sysExitRecvmsgHandler threads.maps forward.pidTgid forward.ret forward.memory
        forward.received).timestampMap.get forward.key = some forward.received ↔
      forward.pidTgid ∈ threads.maps.recvMsgPtr ∧ threads.maps.timestampMap.Room forward.key ∨
        threads.maps.timestampMap.get forward.key = some forward.received := by
  obtain ⟨frame, pointer, inside, -, own, tag⟩ := occurs.received
  cases found : threads.maps.recvMsgPtr.get forward.pidTgid with
  | none =>
      have absent := BoundedMap.notMem_iff_get.mpr found
      rw [sysExitRecvmsgHandler_of_missing found]
      simp [absent]
  | some value =>
      have present : forward.pidTgid ∈ threads.maps.recvMsgPtr :=
        BoundedMap.mem_iff_get.mpr ⟨value, found⟩
      obtain ⟨current, same, pointers, -⟩ := staged.staged _ value found
      cases inside.symm.trans same
      cases own.symm.trans pointers
      rw [sysExitRecvmsgHandler_of_staged found, tag]
      dsimp only
      by_cases room : threads.maps.timestampMap.Room forward.key
      · rw [BoundedMap.get_insert_of_room room]
        simp [present, room]
      · rw [BoundedMap.insert_of_not_room room]
        simp [room]

theorem Forward.measured_add_iff (before : Accumulator) {stored : Option UInt64}
    (ordered : forward.received ≤ forward.sent)
    (past : ∀ timestamp, stored = some timestamp → timestamp ≤ forward.received) :
    forward.Measured before (before.add (stored.map (Word.saturatingSub forward.sent))) ↔
      stored = some forward.received ∧ before.count.toNat + 1 < 2 ^ 64 ∧
        before.sum.toNat + (forward.sent.toNat - forward.received.toNat) < 2 ^ 64 := by
  have countBound : before.count.toNat < 2 ^ 64 := before.count.toNat_lt
  have sumBound : before.sum.toNat < 2 ^ 64 := before.sum.toNat_lt
  have sentBound : forward.sent.toNat < 2 ^ 64 := forward.sent.toNat_lt
  have inOrder := UInt64.le_iff_toNat_le.mp ordered
  have one : (1 : UInt64).toNat = 1 := rfl
  cases stored with
  | none =>
      constructor
      · rintro ⟨count, -⟩
        simp only [Option.map_none, Accumulator.add] at count
        omega
      · rintro ⟨impossible, -⟩
        cases impossible
  | some timestamp =>
      have early := UInt64.le_iff_toNat_le.mp (past timestamp rfl)
      have count : (before.add ((some timestamp).map (Word.saturatingSub forward.sent))).count.toNat =
          (before.count.toNat + 1) % 2 ^ 64 := by
        rw [Option.map_some, Accumulator.add, Accumulator.count_accumulateLatency,
          UInt64.toNat_add, one]
      have sum : (before.add ((some timestamp).map (Word.saturatingSub forward.sent))).sum.toNat =
          (before.sum.toNat + (forward.sent.toNat - timestamp.toNat)) % 2 ^ 64 := by
        rw [Option.map_some, Accumulator.add, Accumulator.sum_accumulateLatency,
          UInt64.toNat_add, Word.toNat_saturatingSub]
      constructor
      · rintro ⟨counted, summed⟩
        rw [count] at counted
        rw [sum] at summed
        have same : timestamp.toNat = forward.received.toNat := by omega
        refine ⟨congrArg some (UInt64.toNat_inj.mp same), ?_, ?_⟩
        · omega
        · omega
      · rintro ⟨same, countFits, sumFits⟩
        cases same
        constructor
        · rw [count, Nat.mod_eq_of_lt countFits]
        · rw [sum, Nat.mod_eq_of_lt sumFits]

theorem Forward.Occurs.ran (occurs : forward.Occurs threads) :
    ∃ after, forward.events.foldlM Threads.step threads = some after ∧
      after.maps = sysEnterSendmsgHandler
        (sysExitRecvmsgHandler threads.maps forward.pidTgid forward.ret forward.memory
          forward.received)
        (some forward.args) forward.sendMemory forward.sent := by
  obtain ⟨frame, pointer, inside, -⟩ := occurs.received
  have returned : threads.step
      (.exit forward.pidTgid forward.ret forward.memory forward.received) = some ⟨_, _⟩ :=
    exit_eq_some_iff.mpr ⟨⟨frame, inside⟩, rfl⟩
  rw [Forward.events, List.foldlM_cons, returned]
  exact ⟨_, rfl, rfl⟩

theorem Forward.Occurs.measured_iff (occurs : forward.Occurs threads)
    (staged : Staged port threads) (past : Past forward.received threads)
    (ordered : forward.received ≤ forward.sent) :
    ∃ after, forward.events.foldlM Threads.step threads = some after ∧
      (forward.Measured threads.maps.latency after.maps.latency ↔
        forward.Kept threads.maps) := by
  obtain ⟨after, ran, maps⟩ := occurs.ran
  obtain ⟨latency, destination⟩ := sysExitRecvmsgHandler_rest threads.maps forward.pidTgid
    forward.ret forward.memory forward.received
  refine ⟨after, ran, ?_⟩
  rw [maps, sysEnterSendmsgHandler_latency (occurs.destination.trans (by rw [destination]))
    occurs.payload, latency, Forward.measured_add_iff _ ordered, occurs.stored_iff staged]
  · rfl
  · intro timestamp found
    rcases sysExitRecvmsgHandler_timestamp found with rfl | before
    · exact UInt64.le_refl _
    · exact past _ timestamp before

end Forward

theorem past_of_run {rawDestMap listenPortMap : BoundedMap UInt32 UInt32 1}
    {events : List ThreadEvent} {threads : Threads} {forward : Forward}
    (ran : events.foldlM Threads.step (Threads.loaded rawDestMap listenPortMap) = some threads)
    (clock : ((events ++ forward.events).filterMap ThreadEvent.clock).Pairwise (· ≤ ·)) :
    Past forward.received threads ∧ forward.received ≤ forward.sent := by
  rw [List.filterMap_append, List.pairwise_append] at clock
  obtain ⟨-, own, early⟩ := clock
  constructor
  · apply Past.run _ _ ran
    · intro key timestamp found
      simp [Threads.loaded, Maps.empty] at found
    · intro now member
      exact early now member forward.received (by simp [Forward.events, ThreadEvent.clock])
  · simpa [Forward.events, ThreadEvent.clock] using own

/-- After every history, a receive that is forwarded at once is measured
exactly when its timestamp could be stored. -/
theorem forward_measured_iff_kept (rawDestMap listenPortMap : BoundedMap UInt32 UInt32 1)
    (events : List ThreadEvent) (threads : Threads)
    (ran : events.foldlM Threads.step (Threads.loaded rawDestMap listenPortMap) = some threads)
    (forward : Forward) (occurs : forward.Occurs threads)
    (clock : ((events ++ forward.events).filterMap ThreadEvent.clock).Pairwise (· ≤ ·)) :
    ∃ after, forward.events.foldlM Threads.step threads = some after ∧
      (forward.Measured threads.maps.latency after.maps.latency ↔
        forward.Kept threads.maps) := by
  obtain ⟨past, ordered⟩ := past_of_run ran clock
  exact occurs.measured_iff ((Staged.loaded rawDestMap listenPortMap).run ran) past ordered

theorem readPayloadKey_msghdrMemory {buffer : List UInt8} (length : buffer.length = 4) :
    readPayloadKey (msghdrMemory [] buffer) 4096 = some (Word.bigEndian buffer) := by
  have fits : buffer.length < 2 ^ 32 := by omega
  have iov := readIovAt_msghdrMemory fits
  rw [length] at iov
  simp only [readPayloadKey, readUserMsgHdr_msghdrMemory fits, Option.bind_eq_bind,
    Option.bind_some]
  rw [if_neg (by decide)]
  simp only [Option.bind_some, iov]
  rw [if_neg (by decide), readBeU32,
    read_buffer_msghdrMemory fits (show _ = 4184 + 0 from rfl) (by omega), List.drop_zero,
    ← length, List.take_length]
  rfl

theorem receivedTag_msghdrMemory (key : UInt32) :
    receivedTag (some 4) (msghdrMemory [] (Word.bigEndianBytes key)) 4096 = some key := by
  have read := readPayloadKey_msghdrMemory (show (Word.bigEndianBytes key).length = 4 from rfl)
  rw [Word.bigEndian_bigEndianBytes] at read
  rw [receivedTag, Option.bind_eq_bind, Option.bind_some, if_neg (by decide)]
  exact read

def enterEvents : List ThreadEvent :=
  [.enter 1 (some ⟨3, 4096⟩), .kprobe 1 (some listenPortDefault)]

def lostReceive (number : Nat) : List ThreadEvent :=
  enterEvents ++
    [.exit 1 (some 4) (msghdrMemory [] (Word.bigEndianBytes number.toUInt32)) number.toUInt64]

def flood (number : Nat) : List ThreadEvent := (List.range number).flatMap lostReceive

/-- The state after `number` receives that nobody forwards. -/
structure Flooded (number : Nat) (threads : Threads) : Prop where
  idle : threads.inside 1 = none
  unstaged : ∀ pidTgid, threads.maps.recvMsgPtr.get pidTgid = none
  size : threads.maps.timestampMap.size = number
  keys : ∀ key ∈ threads.maps.timestampMap, key.toNat < number
  port : listenPort threads.maps = listenPortDefault.toUInt32
  destination : rawDest threads.maps = rawDest .empty

structure Entered (threads entered : Threads) : Prop where
  inside : entered.inside 1 = some ⟨some ⟨3, 4096⟩, [some listenPortDefault]⟩
  staged : ∀ pidTgid, entered.maps.recvMsgPtr.get pidTgid =
    if pidTgid = 1 then some 4096 else none
  timestampMap : entered.maps.timestampMap = threads.maps.timestampMap
  port : listenPort entered.maps = listenPort threads.maps
  destination : rawDest entered.maps = rawDest threads.maps

theorem Flooded.enter {number : Nat} {threads : Threads} (flooded : Flooded number threads) :
    ∃ entered, enterEvents.foldlM Threads.step threads = some entered ∧
      Entered threads entered := by
  have room : threads.maps.recvMsgPtr.Room 1 := by
    apply BoundedMap.room_of_keys_subset {1}
    · simp
    · intro other present
      exact absurd present (BoundedMap.notMem_iff_get.mpr (flooded.unstaged other))
    · simp
  have matching : ¬listenPortDefault.toUInt32 ≠ listenPort threads.maps := by
    rw [flooded.port]
    simp
  let maps := sysEnterRecvmsgHandler threads.maps 1 (some ⟨3, 4096⟩)
  have probed : udpRecvmsgHandler maps 1 (some listenPortDefault) = maps := if_neg matching
  refine ⟨⟨maps, Function.update (Function.update threads.inside 1 (some ⟨some ⟨3, 4096⟩, []⟩))
    1 (some ⟨some ⟨3, 4096⟩, [some listenPortDefault]⟩)⟩, ?_, ?_⟩
  · simp only [enterEvents, List.foldlM_cons, List.foldlM_nil, Threads.step, flooded.idle,
      Option.bind_eq_bind, Option.bind_some, Function.update_self, Option.map_some]
    rw [probed]
    rfl
  · refine ⟨by simp, ?_, rfl, rfl, rfl⟩
    intro pidTgid
    simp only [maps, sysEnterRecvmsgHandler, BoundedMap.get_insert_of_room room,
      flooded.unstaged]

theorem Flooded.next {number : Nat} {threads : Threads} (flooded : Flooded number threads)
    (small : number < 1024) :
    ∃ next, (lostReceive number).foldlM Threads.step threads = some next ∧
      Flooded (number + 1) next := by
  obtain ⟨entered, ran, enters⟩ := flooded.enter
  have value : number.toUInt32.toNat = number := by
    rw [Nat.toUInt32_eq, UInt32.toNat_ofNat']
    omega
  have stored : (sysExitRecvmsgHandler entered.maps 1 (some 4)
      (msghdrMemory [] (Word.bigEndianBytes number.toUInt32)) number.toUInt64).timestampMap =
      threads.maps.timestampMap.insert number.toUInt32 number.toUInt64 := by
    rw [sysExitRecvmsgHandler_of_staged ((enters.staged 1).trans (if_pos rfl)),
      receivedTag_msghdrMemory, enters.timestampMap]
  let next : Threads :=
    ⟨sysExitRecvmsgHandler entered.maps 1 (some 4)
      (msghdrMemory [] (Word.bigEndianBytes number.toUInt32)) number.toUInt64,
      Function.update entered.inside 1 none⟩
  have returned : entered.step (.exit 1 (some 4)
      (msghdrMemory [] (Word.bigEndianBytes number.toUInt32)) number.toUInt64) = some next :=
    exit_eq_some_iff.mpr ⟨⟨_, enters.inside⟩, rfl⟩
  refine ⟨next, ?_, ?_⟩
  · rw [lostReceive, List.foldlM_append, ran, Option.bind_eq_bind, Option.bind_some,
      List.foldlM_cons, returned]
    rfl
  · refine ⟨by simp [next], ?_, ?_, ?_, ?_, ?_⟩
    · intro pidTgid
      rw [sysExitRecvmsgHandler_recvMsgPtr, enters.staged]
      split <;> rfl
    · rw [show next.maps.timestampMap = _ from stored]
      exact BoundedMap.size_insert_numbered flooded.size flooded.keys value small _
    · intro key present
      rw [show next.maps.timestampMap = _ from stored] at present
      exact BoundedMap.rank_lt_of_mem_insert flooded.keys value present
    · exact (sysExitRecvmsgHandler_listenPort _ _ _ _ _).trans
        (enters.port.trans flooded.port)
    · exact (sysExitRecvmsgHandler_rest _ _ _ _ _).2.trans
        (enters.destination.trans flooded.destination)

theorem flood_succ (number : Nat) : flood (number + 1) = flood number ++ lostReceive number := by
  rw [flood, List.range_succ, List.flatMap_append, List.flatMap_singleton]
  rfl

theorem flooded_flood {number : Nat} (small : number ≤ 1024) :
    ∃ threads, (flood number).foldlM Threads.step (Threads.loaded .empty .empty) =
      some threads ∧ Flooded number threads := by
  induction number with
  | zero =>
      refine ⟨Threads.loaded .empty .empty, rfl, rfl, ?_, rfl, ?_, rfl, rfl⟩
      · intro pidTgid
        rfl
      · intro key present
        exact absurd present (BoundedMap.notMem_empty key)
  | succ number inductionHypothesis =>
      obtain ⟨threads, ran, flooded⟩ := inductionHypothesis (by omega)
      obtain ⟨next, received, floods⟩ := flooded.next (by omega)
      refine ⟨next, ?_, floods⟩
      rw [flood_succ, List.foldlM_append, ran]
      exact received

theorem flood_clock (number : Nat) :
    (flood number).filterMap ThreadEvent.clock = (List.range number).map Nat.toUInt64 := by
  induction number with
  | zero => rfl
  | succ number inductionHypothesis =>
      rw [flood_succ, List.filterMap_append, inductionHypothesis, List.range_succ,
        List.map_append]
      rfl

def lateForward : Forward where
  pidTgid := 1
  ret := some 4
  memory := msghdrMemory [] (Word.bigEndianBytes 1024)
  received := 1024
  args := ⟨3, 4096⟩
  sendMemory := msghdrMemory [2, 0, 0, 0, 10, 10, 10, 253, 0, 0, 0, 0, 0, 0, 0, 0]
    (Word.bigEndianBytes 1024)
  sent := 1025
  key := 1024

theorem Entered.occurs {number : Nat} {threads entered : Threads}
    (flooded : Flooded number threads) (enters : Entered threads entered) :
    lateForward.Occurs entered := by
  refine ⟨⟨_, 4096, enters.inside, ?_, rfl, receivedTag_msghdrMemory 1024⟩, ?_, by decide⟩
  · rintro ⟨hit, member, foreign⟩
    rw [List.mem_singleton, Option.some_inj] at member
    subst member
    exact foreign (enters.port.trans flooded.port).symm
  · rw [enters.destination, flooded.destination]
    decide

theorem pairwise_clock {number : Nat} (small : number < 2 ^ 64) :
    ((List.range number).map Nat.toUInt64).Pairwise (· ≤ ·) := by
  rw [List.pairwise_map]
  apply List.pairwise_lt_range.imp_of_mem
  intro earlier later _ member inOrder
  have bound := List.mem_range.mp member
  rw [UInt64.le_iff_toNat_le, Nat.toUInt64_eq, Nat.toUInt64_eq, UInt64.toNat_ofNat',
    UInt64.toNat_ofNat']
  omega

/-- After 1024 datagrams that were received and not forwarded, the next one is
forwarded and not measured. -/
theorem not_measured_after_flood :
    ∃ threads, (flood 1024 ++ enterEvents).foldlM Threads.step
        (Threads.loaded .empty .empty) = some threads ∧
      lateForward.Occurs threads ∧
      ((flood 1024 ++ enterEvents ++ lateForward.events).filterMap
        ThreadEvent.clock).Pairwise (· ≤ ·) ∧
      ∃ after, lateForward.events.foldlM Threads.step threads = some after ∧
        ¬lateForward.Measured threads.maps.latency after.maps.latency := by
  obtain ⟨threads, ran, flooded⟩ := flooded_flood (Nat.le_refl 1024)
  obtain ⟨entered, entering, enters⟩ := flooded.enter
  have occurs := enters.occurs flooded
  have full : ¬entered.maps.timestampMap.Room lateForward.key := by
    rw [enters.timestampMap]
    exact BoundedMap.not_room_of_numbered flooded.size flooded.keys (by decide)
  have clock : ((flood 1024 ++ enterEvents ++ lateForward.events).filterMap
      ThreadEvent.clock).Pairwise (· ≤ ·) := by
    have times : (flood 1024 ++ enterEvents ++ lateForward.events).filterMap
        ThreadEvent.clock = (List.range 1026).map Nat.toUInt64 := by
      have range : List.range 1026 = List.range 1024 ++ [1024, 1025] := by
        rw [List.range_succ, List.range_succ, List.append_assoc]
        rfl
      rw [range, List.map_append, List.append_assoc, List.filterMap_append, flood_clock]
      congr 1
    rw [times]
    exact pairwise_clock (by decide)
  have reached : (flood 1024 ++ enterEvents).foldlM Threads.step
      (Threads.loaded .empty .empty) = some entered := by
    rw [List.foldlM_append, ran]
    exact entering
  obtain ⟨past, ordered⟩ := past_of_run reached clock
  obtain ⟨after, forwarded, measured⟩ :=
    occurs.measured_iff ((Staged.loaded .empty .empty).run reached) past ordered
  refine ⟨entered, reached, occurs, clock, after, forwarded, measured.not.mpr ?_⟩
  rintro ⟨⟨-, room⟩ | stored, -⟩
  · exact full room
  · exact full (.inl (BoundedMap.mem_iff_get.mpr ⟨_, stored⟩))

theorem measured_without_flood :
    ∃ threads, enterEvents.foldlM Threads.step (Threads.loaded .empty .empty) =
        some threads ∧ lateForward.Kept threads.maps ∧
      ∃ after, lateForward.events.foldlM Threads.step threads = some after ∧
        lateForward.Measured threads.maps.latency after.maps.latency := by
  obtain ⟨_, ran, flooded⟩ := flooded_flood (Nat.zero_le 1024)
  cases ran
  obtain ⟨entered, entering, enters⟩ := flooded.enter
  have kept : ∀ threads, enterEvents.foldlM Threads.step (Threads.loaded .empty .empty) =
      some threads → lateForward.Kept threads.maps := by
    rintro threads ⟨⟩
    exact ⟨.inl (by decide), by decide, by decide⟩
  obtain ⟨after, forwarded, measured⟩ := forward_measured_iff_kept .empty .empty enterEvents
    entered entering lateForward (enters.occurs flooded) (by decide)
  exact ⟨entered, entering, kept entered entering, after, forwarded,
    measured.mpr (kept entered entering)⟩

end BpfAgent.Irss
