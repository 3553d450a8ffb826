import BpfAgent.Irss.EndToEnd

/-!
# IRSS: the simulator under the hooks

The IRSS thread of the simulator receives a datagram, works on it and passes
the same buffer on to the raw destination.  Receives time out or fail, and
datagrams may be too short to carry a tag, or too long for the buffer.  The
buffer is never cleared, so behind a short datagram stands what an earlier one
left there.

Other threads receive and send in between.  They are only required to be none
of the agent's business: what they receive is filtered out or fails, and what
they send goes elsewhere.
-/

namespace BpfAgent.Irss.Simulator

open EndToEnd

def bufSize : Nat := 512

/-- The IRSS thread, its descriptors, the addresses of `hdr` and `out_hdr`, and
the arguments it was started with. -/
structure Forwarder where
  pidTgid : UInt64
  udpFd : UInt64
  rawFd : UInt64
  hdr : UInt64
  outHdr : UInt64
  rawDestIp : Ipv4Addr
  listenPort : UInt16

/-- RAW_DEST_IP. -/
def rawDestArg : Option String → Except String Ipv4Addr
  | none => .ok defaultDest
  | some arg =>
      match Ipv4Addr.parse arg.toList with
      | some address => .ok address
      | none => .error ("invalid RAW_DEST_IP '" ++ arg ++ "': invalid IPv4 address syntax")

/-- LISTEN_PORT. -/
def listenPortArg : Option String → Except String UInt16
  | none => .ok listenPortDefault
  | some arg =>
      match (Text.parseUnsigned 65536 arg.toList).map Nat.toUInt16 with
      | some port => if port ≠ 0 then .ok port else .error ("invalid LISTEN_PORT '" ++ arg ++ "'")
      | none => .error ("invalid LISTEN_PORT '" ++ arg ++ "'")

/-- The agent is configured for the arguments of the simulator. -/
def Mirrors (config : ProgramConfig) (forwarder : Forwarder) : Prop :=
  ∃ first second, rawDestArg first = .ok forwarder.rawDestIp ∧
    listenPortArg second = .ok forwarder.listenPort ∧
    setting config "raw_dest" = first.map .string ∧
    setting config "listen_port" =
      second.map fun _ => .integer forwarder.listenPort.toNat.toInt64

inductive Phase where
  | ready
  | receiving
  | working (len : Nat) (since : UInt64)

structure Process where
  phase : Phase
  buf : List UInt8

def Process.start : Process := ⟨.ready, .replicate bufSize 0⟩

/-- The sockaddr_in of the raw destination as it stands in memory. -/
def sockaddrIn (address : Ipv4Addr) : List UInt8 :=
  [2, 0, 0, 0] ++ Word.bigEndianBytes (Word.bigEndian address.octets) ++ .replicate 8 0

/-- What recvmsg makes of the buffer. -/
def fill (buf datagram : List UInt8) : List UInt8 :=
  datagram.take bufSize ++ buf.drop (min datagram.length bufSize)

def tag (buf : List UInt8) : UInt32 := Word.bigEndian (buf.take keySize)

/-- A msghdr with one iovec of `len` bytes over the buffer. -/
def Scatters (memory : Memory) (msghdr : UserMsgHdr) (len : Nat) (buf : List UInt8) : Prop :=
  msghdr.msgIov ≠ 0 ∧ msghdr.msgIovlen = 1 ∧
    ∃ base, readIovAt memory msghdr.msgIov 0 = some ⟨base, len.toUInt64⟩ ∧ base ≠ 0 ∧
      memory.read base buf.length = some buf

/-- `hdr`, which asks for no address. -/
def Incoming (memory : Memory) (msgPtr : UInt64) (buf : List UInt8) : Prop :=
  ∃ msghdr, readUserMsgHdr memory msgPtr = some msghdr ∧ msghdr.msgName = 0 ∧
    Scatters memory msghdr bufSize buf

/-- `out_hdr`, addressed to the raw destination. -/
def Outgoing (memory : Memory) (msgPtr : UInt64) (address : Ipv4Addr) (len : Nat)
    (buf : List UInt8) : Prop :=
  ∃ msghdr, readUserMsgHdr memory msgPtr = some msghdr ∧ msghdr.msgName ≠ 0 ∧
    msghdr.msgNamelen = sockaddrInSize.toUInt32 ∧
    memory.read msghdr.msgName sockaddrInSize = some (sockaddrIn address) ∧
    Scatters memory msghdr len buf

def thread : EndToEnd.Hook → Option UInt64
  | .enter pidTgid _ | .kprobe pidTgid _ | .exit pidTgid _ _ => some pidTgid
  | .send _ _ | .tick => none

/-- An event of another thread, or a tick, that leaves the timestamps alone. -/
def Bystander (forwarder : Forwarder) (state : State) (event : Event) : Prop :=
  thread event.hook ≠ some forwarder.pidTgid ∧ action state event = .keep

/-- What happens next, and how long the simulator has worked on the datagram it
passes on. -/
inductive Move (forwarder : Forwarder) (state : State) : Process → Event → Option Nat → Process → Prop where
  | recvmsg (buf : List UInt8) (now : UInt64) :
      Move forwarder state ⟨.ready, buf⟩ ⟨now, .enter forwarder.pidTgid (some ⟨forwarder.udpFd, forwarder.hdr⟩)⟩ none
        ⟨.receiving, buf⟩
  | probed (buf : List UInt8) (now : UInt64) :
      Move forwarder state ⟨.receiving, buf⟩ ⟨now, .kprobe forwarder.pidTgid (some forwarder.listenPort)⟩ none
        ⟨.receiving, buf⟩
  | received (buf : List UInt8) (now : UInt64) (datagram : List UInt8) (memory : Memory)
      (filled : Incoming memory forwarder.hdr (fill buf datagram)) :
      Move forwarder state ⟨.receiving, buf⟩
        ⟨now, .exit forwarder.pidTgid (some (min datagram.length bufSize).toInt64) memory⟩ none
        ⟨.working (min datagram.length bufSize) now, fill buf datagram⟩
  | failed (buf : List UInt8) (now : UInt64) (n : Int64) (memory : Memory) (negative : n < 0) :
      Move forwarder state ⟨.receiving, buf⟩ ⟨now, .exit forwarder.pidTgid (some n) memory⟩ none
        ⟨.ready, buf⟩
  | sendmsg (buf : List UInt8) (now : UInt64) (len : Nat) (since : UInt64) (memory : Memory)
      (outgoing : Outgoing memory forwarder.outHdr forwarder.rawDestIp len buf) :
      Move forwarder state ⟨.working len since, buf⟩
        ⟨now, .send (some ⟨forwarder.rawFd, forwarder.outHdr⟩) memory⟩
        (if keySize ≤ len then some (now.toNat - since.toNat) else none) ⟨.ready, buf⟩
  | other (process : Process) (event : Event) (bystander : Bystander forwarder state event) :
      Move forwarder state process event none process

/-- A run of the simulator and its surroundings under the hooks, with the times
worked on the datagrams passed on. -/
inductive Runs (forwarder : Forwarder) (initial : State) : List Event → List Nat → Process → Prop where
  | start : Runs forwarder initial [] [] .start
  | move {events times process event worked next}
      (ran : Runs forwarder initial events times process)
      (moves : Move forwarder (events.foldl step initial) process event worked next) :
      Runs forwarder initial (events ++ [event]) (times ++ worked.toList) next

/-- The thread that an event lets into recvmsg. -/
def entering : EndToEnd.Hook → Option UInt64
  | .enter pidTgid _ => some pidTgid
  | _ => none

/-- The simulator never finds RECV_MSG_PTR full of other threads' pointers. -/
def Admits (forwarder : Forwarder) (state : State) (event : Event) : Prop :=
  entering event.hook = some forwarder.pidTgid → state.maps.recvMsgPtr.Room forwarder.pidTgid

instance (forwarder : Forwarder) (state : State) (event : Event) :
    Decidable (Admits forwarder state event) :=
  inferInstanceAs (Decidable (_ → _))

theorem sockaddrIn_octets (address : Ipv4Addr) :
    sockaddrIn address = [2, 0, 0, 0] ++ address.octets ++ .replicate 8 0 := by
  rw [sockaddrIn]
  congr 2
  exact Word.bigEndianBytes_bigEndian _ _ _ _

theorem readPayloadKey_of_scatters {memory : Memory} {msgPtr : UInt64} {msghdr : UserMsgHdr}
    {len : Nat} {buf : List UInt8} (header : readUserMsgHdr memory msgPtr = some msghdr)
    (scatters : Scatters memory msghdr len buf) (inside : len ≤ bufSize)
    (size : buf.length = bufSize) :
    readPayloadKey memory msgPtr = if keySize ≤ len then some (tag buf) else none := by
  obtain ⟨present, one, base, first, mapped, readable⟩ := scatters
  have length : len.toUInt64.toNat = len := by
    rw [Nat.toUInt64_eq, UInt64.toNat_ofNat']
    exact Nat.mod_eq_of_lt (Nat.lt_of_le_of_lt inside (by decide))
  have short : len.toUInt64 < keySize.toUInt64 ↔ len < keySize := by
    rw [UInt64.lt_iff_toNat_lt, length]
    exact Iff.rfl
  have bytes : memory.read base 4 = some (buf.take 4) :=
    Memory.read_take readable (by rw [size]; decide)
  unfold readPayloadKey
  simp only [header, Option.bind_eq_bind, Option.bind_some, present, one, first, mapped, short,
    readBeU32, bytes, false_or]
  by_cases enough : keySize ≤ len
  · rw [if_neg (by decide), if_neg (Nat.not_lt.mpr enough), if_pos enough]
    rfl
  · rw [if_neg (by decide), if_pos (Nat.not_le.mp enough), if_neg enough]
    rfl

theorem addressedTo_of_outgoing {memory : Memory} {msgPtr : UInt64} {address : Ipv4Addr}
    {len : Nat} {buf : List UInt8} (outgoing : Outgoing memory msgPtr address len buf) :
    AddressedTo memory msgPtr address.octets := by
  obtain ⟨msghdr, header, named, namelen, name, -⟩ := outgoing
  refine ⟨msghdr, sockaddrIn address, header, named, ?_, name, ?_, ?_⟩
  · exact UInt32.le_of_eq namelen.symm
  · rw [sockaddrIn_octets]
    change (Memory.field [2, 0] 0 2).toUInt16 = afInet
    decide
  · rw [sockaddrIn_octets]
    rfl

/-- What the timestamps hold while the simulator is in a phase. -/
def Stamped (maps : Maps) (process : Process) : Prop :=
  match process.phase with
  | .working len since => ∀ key, maps.timestampMap.get key =
      if keySize ≤ len ∧ key = tag process.buf then some since else none
  | _ => ∀ key, maps.timestampMap.get key = none

/-- The pointer of the simulator is staged exactly while it receives. -/
def Staged (forwarder : Forwarder) (maps : Maps) (phase : Phase) : Prop :=
  maps.recvMsgPtr.get forwarder.pidTgid =
    match phase with
    | .receiving => some forwarder.hdr
    | _ => none

structure Follows (forwarder : Forwarder) (maps : Maps) (process : Process) : Prop where
  destination : rawDest maps = (Memory.field forwarder.rawDestIp.octets 0 4).toUInt32
  port : listenPort maps = forwarder.listenPort.toUInt32
  size : process.buf.length = bufSize
  inside : ∀ len since, process.phase = .working len since → len ≤ bufSize
  staged : Staged forwarder maps process.phase
  stamped : Stamped maps process

theorem length_fill {buf : List UInt8} (size : buf.length = bufSize) (datagram : List UInt8) :
    (fill buf datagram).length = bufSize := by
  rw [fill, List.length_append, List.length_take, List.length_drop, size, Nat.min_comm]
  exact Nat.add_sub_cancel' (Nat.min_le_right _ _)

theorem step_listenPort (state : State) (event : Event) :
    listenPort (step state event).maps = listenPort state.maps := by
  unfold step
  cases event.hook with
  | enter pidTgid args => exact (sysEnterRecvmsgHandler_frame ..).2
  | kprobe pidTgid port => exact (udpRecvmsgHandler_frame ..).2
  | exit pidTgid ret memory => exact sysExitRecvmsgHandler_listenPort ..
  | send args memory => exact (sysEnterSendmsgHandler_frame ..).2.1
  | tick => rfl

theorem step_recvMsgPtr_of_ne {state : State} {event : Event} {pidTgid : UInt64}
    (other : thread event.hook ≠ some pidTgid) :
    (step state event).maps.recvMsgPtr.get pidTgid = state.maps.recvMsgPtr.get pidTgid := by
  unfold step
  cases hook : event.hook with
  | enter caller args =>
      rw [hook, thread, ne_eq, Option.some.injEq] at other
      cases args with
      | none => rfl
      | some args => exact BoundedMap.get_insert_ne _ (Ne.symm other) _
  | kprobe caller port =>
      rw [hook, thread, ne_eq, Option.some.injEq] at other
      cases port with
      | none => rfl
      | some port =>
          simp only [udpRecvmsgHandler]
          split
          · rw [BoundedMap.get_remove, if_neg (Ne.symm other)]
          · rfl
  | exit caller ret memory =>
      rw [hook, thread, ne_eq, Option.some.injEq] at other
      exact (sysExitRecvmsgHandler_recvMsgPtr ..).trans (if_neg (Ne.symm other))
  | send args memory =>
      exact congrArg (BoundedMap.get · pidTgid) (sysEnterSendmsgHandler_frame ..).1
  | tick => rfl

section Moves

variable {forwarder : Forwarder} {state : State} {buf : List UInt8}

theorem room_of_get_none {maps : Maps} (none : ∀ key, maps.timestampMap.get key = none)
    (key : UInt32) : maps.timestampMap.Room key := by
  right
  have empty : maps.timestampMap.keys = [] := by
    apply List.eq_nil_iff_forall_not_mem.mpr
    intro other member
    exact BoundedMap.notMem_iff_get.mpr (none other) (BoundedMap.mem_keys.mp member)
  rw [BoundedMap.size, empty]
  decide

theorem receivedTag_incoming {memory : Memory} {msgPtr : UInt64} {n : Nat}
    (incoming : Incoming memory msgPtr buf) (size : buf.length = bufSize) (inside : n ≤ bufSize) :
    receivedTag (some n.toInt64) memory msgPtr =
      if keySize ≤ n then some (tag buf) else none := by
  obtain ⟨msghdr, header, -, scatters⟩ := incoming
  have short : n.toInt64 < keySize.toInt64 ↔ n < keySize := by
    have bound : n < 2 ^ 63 := Nat.lt_of_le_of_lt inside (by decide)
    have value : n.toInt64.toInt = n := Int64.toInt_ofNat_of_lt bound
    rw [Int64.lt_iff_toInt_lt, value]
    exact Int.ofNat_lt
  have payload := readPayloadKey_of_scatters header scatters (Nat.le_refl _) size
  rw [if_pos (by decide)] at payload
  simp only [receivedTag, Option.bind_eq_bind, Option.bind_some, short, payload]
  by_cases enough : keySize ≤ n
  · rw [if_neg (Nat.not_lt.mpr enough), if_pos enough]
  · rw [if_pos (Nat.not_le.mp enough), if_neg enough]
    rfl

theorem Follows.received {now : UInt64} {datagram : List UInt8} {memory : Memory}
    (follows : Follows forwarder state.maps ⟨.receiving, buf⟩)
    (filled : Incoming memory forwarder.hdr (fill buf datagram)) :
    Follows forwarder (step state ⟨now, .exit forwarder.pidTgid
        (some (min datagram.length bufSize).toInt64) memory⟩).maps
      ⟨.working (min datagram.length bufSize) now, fill buf datagram⟩ where
  destination := (step_rawDest ..).trans follows.destination
  port := (step_listenPort ..).trans follows.port
  size := length_fill follows.size datagram
  inside len since working := by
    cases working
    exact Nat.min_le_right _ _
  staged := (sysExitRecvmsgHandler_recvMsgPtr ..).trans (if_pos rfl)
  stamped := by
    have stored := receivedTag_incoming filled (length_fill follows.size datagram)
      (Nat.min_le_right datagram.length bufSize)
    intro key
    simp only [step, sysExitRecvmsgHandler_stored, storedTag]
    rw [show state.maps.recvMsgPtr.get forwarder.pidTgid = some forwarder.hdr from follows.staged,
      Option.bind_some, stored]
    by_cases enough : keySize ≤ min datagram.length bufSize
    · have room := room_of_get_none follows.stamped (tag (fill buf datagram))
      rw [if_pos enough, Option.elim_some, BoundedMap.get_insert_of_room room]
      simp only [enough, true_and, follows.stamped key]
    · rw [if_neg enough, Option.elim_none, if_neg fun both => enough both.1]
      exact follows.stamped key

theorem Follows.failed {now : UInt64} {n : Int64} {memory : Memory}
    (follows : Follows forwarder state.maps ⟨.receiving, buf⟩) (negative : n < 0) :
    Follows forwarder (step state ⟨now, .exit forwarder.pidTgid (some n) memory⟩).maps
      ⟨.ready, buf⟩ where
  destination := (step_rawDest ..).trans follows.destination
  port := (step_listenPort ..).trans follows.port
  size := follows.size
  inside _ _ working := by cases working
  staged := (sysExitRecvmsgHandler_recvMsgPtr ..).trans (if_pos rfl)
  stamped := by
    have short : n < keySize.toInt64 := Int64.lt_trans negative (by decide)
    have nothing : storedTag state.maps forwarder.pidTgid (some n) memory = none := by
      rw [storedTag, show state.maps.recvMsgPtr.get forwarder.pidTgid = some forwarder.hdr
        from follows.staged]
      simp [receivedTag, short]
    intro key
    simp only [step, sysExitRecvmsgHandler_stored, nothing, Option.elim_none]
    exact follows.stamped key

theorem Follows.sentTag {len : Nat} {since : UInt64} {memory : Memory}
    (follows : Follows forwarder state.maps ⟨.working len since, buf⟩)
    (outgoing : Outgoing memory forwarder.outHdr forwarder.rawDestIp len buf) :
    EndToEnd.sentTag state.maps (some ⟨forwarder.rawFd, forwarder.outHdr⟩) memory =
      if keySize ≤ len then some (tag buf) else none := by
  have addressed : readTxDest memory forwarder.outHdr = some (rawDest state.maps) := by
    rw [follows.destination]
    exact (readTxDest_eq_some_iff rfl).mpr (addressedTo_of_outgoing outgoing)
  obtain ⟨msghdr, header, -, -, -, scatters⟩ := outgoing
  have payload := readPayloadKey_of_scatters header scatters (follows.inside len since rfl)
    follows.size
  simp [EndToEnd.sentTag, addressed, payload]

theorem Follows.sendmsg {now : UInt64} {len : Nat} {since : UInt64} {memory : Memory}
    (follows : Follows forwarder state.maps ⟨.working len since, buf⟩)
    (outgoing : Outgoing memory forwarder.outHdr forwarder.rawDestIp len buf) :
    Follows forwarder
      (step state ⟨now, .send (some ⟨forwarder.rawFd, forwarder.outHdr⟩) memory⟩).maps
      ⟨.ready, buf⟩ where
  destination := (step_rawDest ..).trans follows.destination
  port := (step_listenPort ..).trans follows.port
  size := follows.size
  inside _ _ working := by cases working
  staged := by
    have kept := (sysEnterSendmsgHandler_frame state.maps
      (some ⟨forwarder.rawFd, forwarder.outHdr⟩) memory now).1
    exact (congrArg (BoundedMap.get · forwarder.pidTgid) kept).trans follows.staged
  stamped := by
    intro key
    simp only [step, sysEnterSendmsgHandler_eq, follows.sentTag outgoing]
    have stamped : ∀ key, state.maps.timestampMap.get key =
      if keySize ≤ len ∧ key = tag buf then some since else none := follows.stamped
    by_cases enough : keySize ≤ len
    · simp only [enough, if_true, true_and, Option.bind_some] at stamped ⊢
      rw [stamped, if_pos rfl, Option.map_some]
      simp only [BoundedMap.get_remove, stamped]
      split <;> rfl
    · simp only [enough, if_false, false_and, Option.bind_none] at stamped ⊢
      exact stamped key

end Moves

theorem listenPortArg_ne_zero {arg : Option String} {port : UInt16}
    (parsed : listenPortArg arg = .ok port) : port ≠ 0 := by
  cases arg with
  | none =>
      cases parsed
      decide
  | some arg =>
      simp only [listenPortArg] at parsed
      split at parsed
      · split at parsed
        next used =>
          cases parsed
          exact used
        next => cases parsed
      · cases parsed

section Configured

variable {config : ProgramConfig} {forwarder : Forwarder} (mirrors : Mirrors config forwarder)

include mirrors

theorem Mirrors.rawDest : parseRawDest config = forwarder.rawDestIp := by
  obtain ⟨first, -, parsed, -, found, -⟩ := mirrors
  unfold parseRawDest parseStringSetting
  cases first with
  | none =>
      rw [found]
      exact Except.ok.inj parsed
  | some arg =>
      simp only [rawDestArg] at parsed
      simp only [found, Option.map_some, Option.bind_some, Value.asStr]
      cases read : Ipv4Addr.parse arg.toList with
      | none => simp [read] at parsed
      | some address =>
          simp only [read, Except.ok.injEq] at parsed
          exact parsed

theorem Mirrors.listenPort : parseListenPort config = forwarder.listenPort := by
  obtain ⟨-, second, -, parsed, -, found⟩ := mirrors
  have used := listenPortArg_ne_zero parsed
  apply parseIntSetting_eq_iff.mpr
  cases second with
  | none => exact .inr ⟨(Except.ok.inj parsed).symm, by simp [found]⟩
  | some arg =>
      left
      refine ⟨forwarder.listenPort.toNat.toInt64, found, ?_⟩
      have small : forwarder.listenPort.toNat < 2 ^ 63 :=
        Nat.lt_trans forwarder.listenPort.toNat_lt (by decide)
      apply Option.filter_eq_some_iff.mpr
      exact ⟨Word.u16TryFrom_eq_some_iff.mpr (Int64.toInt_ofNat_of_lt small),
        decide_eq_true used⟩

theorem Mirrors.follows : Follows forwarder (State.loaded config).maps .start where
  destination := by
    refine (rawDest_load (configured config)).trans ?_
    rw [configured, mirrors.rawDest]
  port := by
    refine (listenPort_load (configured config)).trans ?_
    rw [configured, mirrors.listenPort]
  size := List.length_replicate
  inside _ _ working := by cases working
  staged := rfl
  stamped _ := rfl

end Configured

section Runs

variable {forwarder : Forwarder} {state : State} {process next : Process} {event : Event}
  {worked : Option Nat}

/-- The hooks keep up with every move, and measure exactly the work. -/
theorem Follows.move (follows : Follows forwarder state.maps process)
    (admits : Admits forwarder state event)
    (moves : Move forwarder state process event worked next) :
    Follows forwarder (step state event).maps next ∧
      (sample state event).map UInt64.toNat = worked := by
  cases moves with
  | recvmsg buf now =>
      refine ⟨⟨follows.destination, follows.port, follows.size, ?_, ?_, follows.stamped⟩, rfl⟩
      · intro len since working
        cases working
      · exact (BoundedMap.get_insert_of_room (admits rfl) _ _).trans (if_pos rfl)
  | probed buf now =>
      have passed : (step state ⟨now, .kprobe forwarder.pidTgid (some forwarder.listenPort)⟩).maps =
          state.maps := if_neg (not_not.mpr follows.port.symm)
      rw [passed]
      exact ⟨follows, rfl⟩
  | received buf now datagram memory filled => exact ⟨follows.received filled, rfl⟩
  | failed buf now n memory negative => exact ⟨follows.failed negative, rfl⟩
  | sendmsg buf now len since memory outgoing =>
      refine ⟨follows.sendmsg outgoing, ?_⟩
      have stamped := follows.stamped (tag buf)
      simp only [sample, follows.sentTag outgoing]
      by_cases enough : keySize ≤ len
      · simp only [enough, true_and, if_true] at stamped ⊢
        rw [Option.bind_some, stamped, Option.map_some, Option.map_some,
          Word.toNat_saturatingSub]
      · rw [if_neg enough, if_neg enough]
        rfl
  | other process event bystander =>
      obtain ⟨elsewhere, keeps⟩ := bystander
      have kept := action_eq_keep keeps
      constructor
      · refine ⟨(step_rawDest ..).trans follows.destination,
          (step_listenPort ..).trans follows.port, follows.size, follows.inside,
          (step_recvMsgPtr_of_ne elsewhere).trans follows.staged, ?_⟩
        have stamped := follows.stamped
        unfold Stamped at stamped ⊢
        rw [kept]
        exact stamped
      · rw [sample_eq, keeps]
        rfl

variable {config : ProgramConfig} {events : List Event} {times : List Nat}

theorem follows_of_runs (mirrors : Mirrors config forwarder)
    (ran : Runs forwarder (State.loaded config) events times process)
    (admitted : Run.Along step (Admits forwarder) (State.loaded config) events) :
    Follows forwarder (display.stateAfter (State.loaded config) events).maps process ∧
      (display.recorded (State.loaded config) events).map UInt64.toNat = times := by
  induction ran with
  | start => exact ⟨mirrors.follows, rfl⟩
  | move ran moves inductionHypothesis =>
      obtain ⟨before, admits, -⟩ := Run.along_append.mp admitted
      obtain ⟨follows, recorded⟩ := inductionHypothesis before
      obtain ⟨next, measured⟩ := follows.move admits moves
      constructor
      · rw [Reporter.stateAfter, List.foldl_append]
        exact next
      · rw [Reporter.recorded, Run.outputs_append, List.map_append, ← measured]
        congr 1
        simp only [Run.outputs, List.append_nil, Option.toList_map]
        rfl

end Runs

/-- What the agent knows of a simulator that was started with the arguments the
agent is configured for. -/
structure Observed (config : ProgramConfig) (forwarder : Forwarder) (events : List Event)
    (times : List Nat) (process : Process) : Prop where
  /-- The times worked are the samples, in order: none is missed or added. -/
  samples : (display.recorded (State.loaded config) events).map UInt64.toNat = times
  staged : Staged forwarder (display.stateAfter (State.loaded config) events).maps process.phase
  /-- Nothing is remembered but the datagram that is worked on. -/
  stamped : Stamped (display.stateAfter (State.loaded config) events).maps process
  averages : times.sum < 2 ^ 64 → times.length < 2 ^ 64 →
    display.Averages (State.loaded config) events

theorem observed_of_runs (config : ProgramConfig) (forwarder : Forwarder)
    (mirrors : Mirrors config forwarder) (events : List Event) (times : List Nat)
    (process : Process) (ran : Runs forwarder (State.loaded config) events times process)
    (admitted : Run.Along step (Admits forwarder) (State.loaded config) events) :
    Observed config forwarder events times process := by
  obtain ⟨follows, recorded⟩ := follows_of_runs mirrors ran admitted
  refine ⟨recorded, follows.staged, follows.stamped, ?_⟩
  intro total number
  apply Reporter.averages_of_fits ⟨trivial, rfl, rfl, rfl⟩
  constructor
  · rw [recorded]
    exact total
  · rw [← recorded, List.length_map] at number
    exact number

def started : Forwarder := ⟨1, 3, 4, 4096, 4096, ⟨192, 0, 2, 1⟩, listenPortDefault⟩

theorem mirrors_started : Mirrors otherDest started := by
  refine ⟨some "192.0.2.1", none, ?_, rfl, ?_, ?_⟩
  · decide +kernel
  · decide
  · decide

def tagged : List UInt8 := [222, 173, 190, 239] ++ .replicate 60 7

def afterTagged : List UInt8 := fill Process.start.buf tagged

def afterShort : List UInt8 := fill afterTagged [1, 2]

def outMemory (len : Nat) (buf : List UInt8) : Memory :=
  Memory.segment 4096
    (Memory.wordBytes 4168 ++ Memory.wordBytes 16 ++ Memory.wordBytes 4152 ++
      Memory.wordBytes 1 ++ .replicate 24 0 ++ Memory.wordBytes 4184 ++
      Memory.wordBytes len.toUInt64 ++ sockaddrIn started.rawDestIp ++ buf)

def session : List Event :=
  [⟨10, .enter 1 (some ⟨3, 4096⟩)⟩, ⟨11, .kprobe 1 (some 5020)⟩,
    ⟨20, .exit 1 (some (-11)) (msghdrMemory [] Process.start.buf)⟩,
    ⟨30, .enter 1 (some ⟨3, 4096⟩)⟩,
    ⟨1000, .exit 1 (some 64) (msghdrMemory [] afterTagged)⟩,
    ⟨1500, .enter 2 (some ⟨9, 8192⟩)⟩,
    ⟨13000, .send (some ⟨4, 4096⟩) (outMemory 64 afterTagged)⟩,
    ⟨14000, .enter 1 (some ⟨3, 4096⟩)⟩,
    ⟨15000, .exit 1 (some 2) (msghdrMemory [] afterShort)⟩,
    ⟨27000, .send (some ⟨4, 4096⟩) (outMemory 2 afterShort)⟩, ⟨28000, .tick⟩]

theorem incoming_msghdrMemory {buf : List UInt8} (size : buf.length = bufSize) :
    Incoming (msghdrMemory [] buf) 4096 buf := by
  have fits : buf.length < 2 ^ 32 := by
    rw [size]
    decide
  refine ⟨_, readUserMsgHdr_msghdrMemory fits, rfl, by decide, rfl, 4184, ?_, by decide, ?_⟩
  · rw [← size]
    exact readIovAt_msghdrMemory fits
  · have whole := @read_buffer_msghdrMemory buf fits 4184 0 buf.length rfl (by omega)
    rwa [List.drop_zero, List.take_length] at whole

theorem read_outMemory (len : Nat) {buf : List UInt8} (size : buf.length = bufSize) :
    (outMemory len buf).read 4184 buf.length = some buf := by
  have located : (4184 : UInt64).toNat = (4096 : UInt64).toNat + 88 := rfl
  rw [outMemory, Memory.read_segment located]
  · rw [List.drop_left' (by rfl), List.take_length]
  · rw [List.length_append, size]
    rfl
  · rw [List.length_append, size]
    change 4096 + (88 + 512) < 2 ^ 64
    decide

theorem outgoing_tagged : Outgoing (outMemory 64 afterTagged) 4096 ⟨192, 0, 2, 1⟩ 64 afterTagged :=
  ⟨⟨4168, 16, 4152, 1⟩, by decide +kernel, by decide, rfl, by decide +kernel, by decide, rfl, 4184,
    by decide +kernel, by decide, read_outMemory 64 (length_fill List.length_replicate tagged)⟩

theorem outgoing_short : Outgoing (outMemory 2 afterShort) 4096 ⟨192, 0, 2, 1⟩ 2 afterShort :=
  ⟨⟨4168, 16, 4152, 1⟩, by decide +kernel, by decide, rfl, by decide +kernel, by decide, rfl, 4184,
    by decide +kernel, by decide,
    read_outMemory 2 (length_fill (length_fill List.length_replicate tagged) [1, 2])⟩

theorem runs_session :
    Runs started (State.loaded otherDest) session [12000] ⟨.ready, afterShort⟩ := by
  have full : afterTagged.length = bufSize := length_fill List.length_replicate tagged
  have begun : Runs started (State.loaded otherDest) [] [] .start := .start
  have timedOut := ((begun.move (.recvmsg _ 10)).move (.probed _ 11)).move
    (.failed _ 20 (-11) (msghdrMemory [] Process.start.buf) (by decide))
  have arrived := (timedOut.move (.recvmsg _ 30)).move
    (.received _ 1000 tagged (msghdrMemory [] afterTagged) (incoming_msghdrMemory full))
  have passedOn := (arrived.move (.other _ ⟨1500, .enter 2 (some ⟨9, 8192⟩)⟩
    ⟨by decide, rfl⟩)).move (.sendmsg _ 13000 _ _ (outMemory 64 afterTagged) outgoing_tagged)
  have again := (passedOn.move (.recvmsg _ 14000)).move
    (.received _ 15000 [1, 2] (msghdrMemory [] afterShort)
      (incoming_msghdrMemory (length_fill full [1, 2])))
  have ended := (again.move (.sendmsg _ 27000 _ _ (outMemory 2 afterShort) outgoing_short)).move
    (.other _ ⟨28000, .tick⟩ ⟨by decide, rfl⟩)
  exact ended

theorem observed_session :
    Observed otherDest started session [12000] ⟨.ready, afterShort⟩ ∧
      (display.stateAfter (State.loaded otherDest) session).program.avgLatencyUs = 12 :=
  ⟨observed_of_runs _ _ mirrors_started _ _ _ runs_session (by decide +kernel), by decide +kernel⟩

end BpfAgent.Irss.Simulator
