import BpfAgent.Irss.Ebpf
import BpfAgent.Lib.Run
import Mathlib.Logic.Function.Basic

/-!
# IRSS: which receives leave a timestamp

The system is the program's maps together with the recvmsg calls that are
under way, one per thread.  The kernel runs sys_enter, then the kprobe exactly
when the socket is an IPv4 UDP socket, then sys_exit, and interleaves the
threads as it likes.

The port filter withdraws a staged pointer; it never has to admit one.  A
receive for which the kprobe does not run is therefore not filtered at all.
-/

namespace BpfAgent.Irss

inductive SocketKind where
  | udpV4
  | udpV6
  | tcp
  | unix
  | raw
  | other
  deriving DecidableEq

structure Socket where
  kind : SocketKind
  localPort : UInt16
  deriving DecidableEq

/-- A UDP socket bound to the configured listen port. -/
def Socket.Listens (port : UInt32) (socket : Socket) : Prop :=
  (socket.kind = .udpV4 ∨ socket.kind = .udpV6) ∧ socket.localPort.toUInt32 = port

instance (port : UInt32) (socket : Socket) : Decidable (socket.Listens port) :=
  inferInstanceAs (Decidable ((socket.kind = .udpV4 ∨ socket.kind = .udpV6) ∧
    socket.localPort.toUInt32 = port))

/-- One recvmsg() system call, with the memory and the clock at its exit. -/
structure RecvCall where
  pidTgid : UInt64
  socket : Socket
  args : Option SysEnterMsgArgs
  ret : Option Int64
  memory : Memory
  now : UInt64

def RecvCall.tag (call : RecvCall) : Option UInt32 := do
  let args ← call.args
  let ret ← call.ret
  if ret < keySize.toInt64 then failure
  readPayloadKey call.memory args.msg

/-- A call under way, and whether the kprobe has run for it. -/
structure Receive where
  call : RecvCall
  probed : Bool

structure System where
  maps : Maps
  inside : UInt64 → Option Receive
  received : List RecvCall

/-- The system after load, with the filters as userspace configured them. -/
def System.loaded (rawDestMap listenPortMap : BoundedMap UInt32 UInt32 1) : System where
  maps := { Maps.empty with rawDestMap, listenPortMap }
  inside _ := none
  received := []

inductive Hook where
  | enter (call : RecvCall)
  | kprobe (pidTgid : UInt64)
  | exit (pidTgid : UInt64)
  | send (args : Option SysEnterMsgArgs) (memory : Memory) (now : UInt64)

/-- Run one hook, if the kernel may run it now. -/
def System.step (system : System) : Hook → Option System
  | .enter call =>
      match system.inside call.pidTgid with
      | some _ => none
      | none => some
          { system with
            maps := sysEnterRecvmsgHandler system.maps call.pidTgid call.args
            inside := Function.update system.inside call.pidTgid (some ⟨call, false⟩) }
  | .kprobe pidTgid =>
      match system.inside pidTgid with
      | some ⟨call, false⟩ =>
          if call.socket.kind = .udpV4 then some
            { system with
              maps := udpRecvmsgHandler system.maps pidTgid (some call.socket.localPort)
              inside := Function.update system.inside pidTgid (some ⟨call, true⟩) }
          else none
      | _ => none
  | .exit pidTgid =>
      match system.inside pidTgid with
      | some ⟨call, probed⟩ =>
          if probed = decide (call.socket.kind = .udpV4) then some
            { maps := sysExitRecvmsgHandler system.maps pidTgid call.ret call.memory call.now
              inside := Function.update system.inside pidTgid none
              received := call :: system.received }
          else none
      | none => none
  | .send args memory now =>
      some { system with maps := sysEnterSendmsgHandler system.maps args memory now }

def Hook.call (system : System) : Hook → Option RecvCall
  | .enter call => some call
  | .kprobe pidTgid => (system.inside pidTgid).map Receive.call
  | .exit pidTgid => (system.inside pidTgid).map Receive.call
  | .send _ _ _ => none

/-- Timestamps come from the listen port, and other receives leave none. -/
structure Filters (port : UInt32) (system : System) : Prop where
  origin : ∀ key ∈ system.maps.timestampMap, ∃ call ∈ system.received,
    call.socket.Listens port ∧ call.tag = some key
  silent : ∀ hook next call, system.step hook = some next → hook.call system = some call →
    ¬call.socket.Listens port → next.maps.timestampMap = system.maps.timestampMap

/-- The kprobe runs for the call, or it needs no filter, or it delivers no tag. -/
def RecvCall.Covered (port : UInt32) (call : RecvCall) : Prop :=
  call.socket.kind = .udpV4 ∨ call.socket.Listens port ∨ call.tag = none

instance (port : UInt32) (call : RecvCall) : Decidable (call.Covered port) :=
  inferInstanceAs (Decidable (call.socket.kind = .udpV4 ∨ call.socket.Listens port ∨
    call.tag = none))

theorem sysEnterRecvmsgHandler_frame (maps : Maps) (pidTgid : UInt64)
    (args : Option SysEnterMsgArgs) :
    (sysEnterRecvmsgHandler maps pidTgid args).timestampMap = maps.timestampMap ∧
      listenPort (sysEnterRecvmsgHandler maps pidTgid args) = listenPort maps := by
  cases args <;> exact ⟨rfl, rfl⟩

theorem sysEnterRecvmsgHandler_get {maps : Maps} {pidTgid other : UInt64}
    {args : Option SysEnterMsgArgs} {pointer : UInt64}
    (staged : (sysEnterRecvmsgHandler maps pidTgid args).recvMsgPtr.get other = some pointer) :
    maps.recvMsgPtr.get other = some pointer ∨
      other = pidTgid ∧ args.map SysEnterMsgArgs.msg = some pointer := by
  cases args with
  | none => exact .inl staged
  | some args =>
      by_cases room : maps.recvMsgPtr.Room pidTgid
      · simp only [sysEnterRecvmsgHandler, BoundedMap.get_insert_of_room room] at staged
        split at staged
        next same => exact .inr ⟨same, by simpa using staged⟩
        next => exact .inl staged
      · simp only [sysEnterRecvmsgHandler, BoundedMap.insert_of_not_room room] at staged
        exact .inl staged

theorem udpRecvmsgHandler_frame (maps : Maps) (pidTgid : UInt64) (port : Option UInt16) :
    (udpRecvmsgHandler maps pidTgid port).timestampMap = maps.timestampMap ∧
      listenPort (udpRecvmsgHandler maps pidTgid port) = listenPort maps := by
  cases port with
  | none => exact ⟨rfl, rfl⟩
  | some port =>
      unfold udpRecvmsgHandler
      dsimp only
      split <;> exact ⟨rfl, rfl⟩

/-- What stays staged after the kprobe was staged before, and passed the filter
if it belongs to the probed thread. -/
theorem udpRecvmsgHandler_get {maps : Maps} {pidTgid other : UInt64} {port : UInt16}
    {pointer : UInt64}
    (staged : (udpRecvmsgHandler maps pidTgid (some port)).recvMsgPtr.get other =
      some pointer) :
    maps.recvMsgPtr.get other = some pointer ∧
      (other = pidTgid → port.toUInt32 = listenPort maps) := by
  unfold udpRecvmsgHandler at staged
  dsimp only at staged
  split at staged
  next =>
    rw [BoundedMap.get_remove] at staged
    split at staged
    · simp at staged
    next different => exact ⟨staged, fun same => absurd same different⟩
  next matching => exact ⟨staged, fun _ => not_not.mp matching⟩

theorem sysExitRecvmsgHandler_listenPort (maps : Maps) (pidTgid : UInt64)
    (ret : Option Int64) (memory : Memory) (now : UInt64) :
    listenPort (sysExitRecvmsgHandler maps pidTgid ret memory now) = listenPort maps := by
  unfold sysExitRecvmsgHandler
  dsimp only
  split
  · rfl
  · split
    · rfl
    · split
      · rfl
      · split <;> rfl

theorem sysExitRecvmsgHandler_recvMsgPtr (maps : Maps) (pidTgid other : UInt64)
    (ret : Option Int64) (memory : Memory) (now : UInt64) :
    (sysExitRecvmsgHandler maps pidTgid ret memory now).recvMsgPtr.get other =
      if other = pidTgid then none else maps.recvMsgPtr.get other := by
  unfold sysExitRecvmsgHandler
  dsimp only
  split
  next missing =>
    split
    next same => rw [same, missing]
    next => rfl
  · split
    · rw [BoundedMap.get_remove]
    · split
      · rw [BoundedMap.get_remove]
      · split <;> rw [BoundedMap.get_remove]

theorem sysExitRecvmsgHandler_of_missing {maps : Maps} {pidTgid : UInt64}
    (missing : maps.recvMsgPtr.get pidTgid = none) (ret : Option Int64) (memory : Memory)
    (now : UInt64) :
    sysExitRecvmsgHandler maps pidTgid ret memory now = maps := by
  simp [sysExitRecvmsgHandler, missing]

/-- The tag that the exit of a receive finds behind its msghdr pointer. -/
def receivedTag (ret : Option Int64) (memory : Memory) (msgPtr : UInt64) : Option UInt32 := do
  let ret ← ret
  if ret < keySize.toInt64 then failure
  readPayloadKey memory msgPtr

theorem sysExitRecvmsgHandler_of_staged {maps : Maps} {pidTgid pointer : UInt64}
    (staged : maps.recvMsgPtr.get pidTgid = some pointer) (ret : Option Int64)
    (memory : Memory) (now : UInt64) :
    (sysExitRecvmsgHandler maps pidTgid ret memory now).timestampMap =
      match receivedTag ret memory pointer with
      | none => maps.timestampMap
      | some key => maps.timestampMap.insert key now := by
  simp only [sysExitRecvmsgHandler, staged, receivedTag, Option.bind_eq_bind]
  cases ret with
  | none => rfl
  | some ret =>
      by_cases short : ret < keySize.toInt64
      · simp [short]
      · cases readPayloadKey memory pointer <;> simp [short]

theorem sysExitRecvmsgHandler_timestampMap {maps : Maps} {call : RecvCall}
    {pointer : UInt64} (staged : maps.recvMsgPtr.get call.pidTgid = some pointer)
    (own : call.args.map SysEnterMsgArgs.msg = some pointer) :
    (sysExitRecvmsgHandler maps call.pidTgid call.ret call.memory call.now).timestampMap =
      match call.tag with
      | none => maps.timestampMap
      | some key => maps.timestampMap.insert key call.now := by
  obtain ⟨args, entered, rfl⟩ := Option.map_eq_some_iff.mp own
  have tag : call.tag = receivedTag call.ret call.memory args.msg := by
    rw [RecvCall.tag, entered]
    rfl
  rw [sysExitRecvmsgHandler_of_staged staged, tag]

theorem sysEnterSendmsgHandler_frame (maps : Maps) (args : Option SysEnterMsgArgs)
    (memory : Memory) (now : UInt64) :
    (sysEnterSendmsgHandler maps args memory now).recvMsgPtr = maps.recvMsgPtr ∧
      listenPort (sysEnterSendmsgHandler maps args memory now) = listenPort maps ∧
      ∀ key ∈ (sysEnterSendmsgHandler maps args memory now).timestampMap,
        key ∈ maps.timestampMap := by
  unfold sysEnterSendmsgHandler
  cases args with
  | none => exact ⟨rfl, rfl, fun _ present => present⟩
  | some args =>
      dsimp only
      split
      · split
        · exact ⟨rfl, rfl, fun _ present => present⟩
        · split
          · exact ⟨rfl, rfl, fun _ present => present⟩
          · exact ⟨rfl, rfl, fun _ present => (BoundedMap.mem_remove.mp present).2⟩
      · exact ⟨rfl, rfl, fun _ present => present⟩

/-- Every staged pointer belongs to the call its thread is in, and has passed
the filter if the kprobe has run. -/
structure Staging (port : UInt32) (system : System) : Prop where
  configured : listenPort system.maps = port
  own : ∀ pidTgid receive, system.inside pidTgid = some receive →
    receive.call.pidTgid = pidTgid ∧ receive.call.Covered port
  staged : ∀ pidTgid pointer, system.maps.recvMsgPtr.get pidTgid = some pointer →
    ∃ receive, system.inside pidTgid = some receive ∧
      receive.call.args.map SysEnterMsgArgs.msg = some pointer ∧
      (receive.probed = true → receive.call.socket.localPort.toUInt32 = port)

section Steps

variable {port : UInt32} {system next : System}

theorem Staging.enter (staging : Staging port system) {call : RecvCall}
    (covered : call.Covered port) (stepped : system.step (.enter call) = some next) :
    Staging port next := by
  simp only [System.step] at stepped
  split at stepped
  · cases stepped
  next idle =>
    cases stepped
    refine ⟨?_, ?_, ?_⟩
    · exact (sysEnterRecvmsgHandler_frame _ _ _).2.trans staging.configured
    · intro pidTgid receive inside
      by_cases same : pidTgid = call.pidTgid
      · subst same
        simp only [Function.update_self, Option.some.injEq] at inside
        subst inside
        exact ⟨rfl, covered⟩
      · simp only [Function.update_of_ne same] at inside
        exact staging.own pidTgid receive inside
    · intro pidTgid pointer staged
      by_cases same : pidTgid = call.pidTgid
      · subst same
        refine ⟨⟨call, false⟩, by simp, ?_, by simp⟩
        rcases sysEnterRecvmsgHandler_get staged with before | ⟨-, now⟩
        · obtain ⟨receive, inside, -⟩ := staging.staged _ _ before
          rw [idle] at inside
          cases inside
        · exact now
      · rcases sysEnterRecvmsgHandler_get staged with before | ⟨impossible, -⟩
        · simp only [Function.update_of_ne same]
          exact staging.staged pidTgid pointer before
        · exact absurd impossible same

theorem Staging.kprobe (staging : Staging port system) {pidTgid : UInt64}
    (stepped : system.step (.kprobe pidTgid) = some next) : Staging port next := by
  simp only [System.step] at stepped
  split at stepped
  next call current =>
    split at stepped
    next =>
      cases stepped
      refine ⟨?_, ?_, ?_⟩
      · exact (udpRecvmsgHandler_frame _ _ _).2.trans staging.configured
      · intro other receive inside
        by_cases same : other = pidTgid
        · subst same
          simp only [Function.update_self, Option.some.injEq] at inside
          subst inside
          exact staging.own other ⟨call, false⟩ current
        · simp only [Function.update_of_ne same] at inside
          exact staging.own other receive inside
      · intro other pointer staged
        obtain ⟨before, passed⟩ := udpRecvmsgHandler_get staged
        obtain ⟨receive, inside, pointers, probed⟩ := staging.staged other pointer before
        by_cases same : other = pidTgid
        · subst same
          rw [current] at inside
          cases inside
          exact ⟨⟨call, true⟩, by simp, pointers, fun _ => (passed rfl).trans staging.configured⟩
        · exact ⟨receive, by simpa [Function.update_of_ne same] using inside, pointers, probed⟩
    next => cases stepped
  next => cases stepped

theorem Staging.exit (staging : Staging port system) {pidTgid : UInt64}
    (stepped : system.step (.exit pidTgid) = some next) : Staging port next := by
  simp only [System.step] at stepped
  split at stepped
  next call probed current =>
    split at stepped
    next =>
      cases stepped
      refine ⟨?_, ?_, ?_⟩
      · exact (sysExitRecvmsgHandler_listenPort _ _ _ _ _).trans staging.configured
      · intro other receive inside
        by_cases same : other = pidTgid
        · subst same
          simp at inside
        · simp only [Function.update_of_ne same] at inside
          exact staging.own other receive inside
      · intro other pointer staged
        simp only [sysExitRecvmsgHandler_recvMsgPtr] at staged
        split at staged
        · cases staged
        next different =>
          simp only [Function.update_of_ne different]
          exact staging.staged other pointer staged
    next => cases stepped
  next => cases stepped

theorem Staging.send (staging : Staging port system) {args : Option SysEnterMsgArgs}
    {memory : Memory} {now : UInt64}
    (stepped : system.step (.send args memory now) = some next) : Staging port next := by
  simp only [System.step, Option.some.injEq] at stepped
  subst stepped
  obtain ⟨pointers, ports, -⟩ := sysEnterSendmsgHandler_frame system.maps args memory now
  refine ⟨ports.trans staging.configured, staging.own, ?_⟩
  intro pidTgid pointer staged
  rw [pointers] at staged
  exact staging.staged pidTgid pointer staged

theorem Staging.step (staging : Staging port system) {hook : Hook}
    (covered : ∀ call, hook = .enter call → call.Covered port)
    (stepped : system.step hook = some next) : Staging port next := by
  cases hook with
  | enter call => exact staging.enter (covered call rfl) stepped
  | kprobe pidTgid => exact staging.kprobe stepped
  | exit pidTgid => exact staging.exit stepped
  | send args memory now => exact staging.send stepped

theorem Staging.exit_timestampMap (staging : Staging port system) {pidTgid : UInt64}
    (stepped : system.step (.exit pidTgid) = some next) :
    ∃ call, (system.inside pidTgid).map Receive.call = some call ∧
      next.received = call :: system.received ∧
      (¬call.socket.Listens port → next.maps.timestampMap = system.maps.timestampMap) ∧
      ∀ key ∈ next.maps.timestampMap,
        key ∈ system.maps.timestampMap ∨ call.tag = some key := by
  simp only [System.step] at stepped
  split at stepped
  next call probed current =>
    split at stepped
    next discipline =>
      cases stepped
      obtain ⟨rfl, covered⟩ := staging.own pidTgid _ current
      refine ⟨call, by rw [current]; rfl, rfl, ?_⟩
      cases staged : system.maps.recvMsgPtr.get call.pidTgid with
      | none =>
          rw [sysExitRecvmsgHandler_of_missing staged]
          exact ⟨fun _ => rfl, fun _ present => .inl present⟩
      | some pointer =>
          obtain ⟨receive, inside, own, passed⟩ := staging.staged _ pointer staged
          rw [current] at inside
          cases inside
          simp only [sysExitRecvmsgHandler_timestampMap staged own]
          cases tag : call.tag with
          | none => exact ⟨fun _ => rfl, fun _ present => .inl present⟩
          | some stored =>
              refine ⟨fun foreign => absurd ?_ foreign, ?_⟩
              · rcases covered with probedKind | listens | silent
                · exact ⟨.inl probedKind, passed (discipline.trans (decide_eq_true probedKind))⟩
                · exact listens
                · rw [tag] at silent
                  cases silent
              · intro key present
                rcases BoundedMap.mem_of_mem_insert present with equality | before
                · exact .inr (by rw [equality])
                · exact .inl before
    next => cases stepped
  next => cases stepped

/-- Hooks other than sys_exit never add a timestamp, and those of a receive
leave the timestamps alone. -/
theorem step_timestampMap {hook : Hook} (stepped : system.step hook = some next)
    (notExit : ∀ pidTgid, hook ≠ .exit pidTgid) :
    next.received = system.received ∧
      (∀ key ∈ next.maps.timestampMap, key ∈ system.maps.timestampMap) ∧
      ((hook.call system).isSome → next.maps.timestampMap = system.maps.timestampMap) := by
  cases hook with
  | enter call =>
      simp only [System.step] at stepped
      split at stepped
      · cases stepped
      · cases stepped
        have unchanged := (sysEnterRecvmsgHandler_frame system.maps call.pidTgid call.args).1
        exact ⟨rfl, fun key present => by rwa [unchanged] at present, fun _ => unchanged⟩
  | kprobe pidTgid =>
      simp only [System.step] at stepped
      split at stepped
      next call current =>
        split at stepped
        · cases stepped
          have unchanged := (udpRecvmsgHandler_frame system.maps pidTgid
            (some call.socket.localPort)).1
          exact ⟨rfl, fun key present => by rwa [unchanged] at present, fun _ => unchanged⟩
        · cases stepped
      · cases stepped
  | exit pidTgid => exact absurd rfl (notExit pidTgid)
  | send args memory now =>
      simp only [System.step, Option.some.injEq] at stepped
      subst stepped
      exact ⟨rfl, (sysEnterSendmsgHandler_frame system.maps args memory now).2.2,
        fun impossible => by simp [Hook.call] at impossible⟩

/-- Every timestamp comes from a payload received on the listen port. -/
def Origin (port : UInt32) (system : System) : Prop :=
  ∀ key ∈ system.maps.timestampMap, ∃ call ∈ system.received,
    call.socket.Listens port ∧ call.tag = some key

theorem Staging.origin (staging : Staging port system) (origin : Origin port system)
    {hook : Hook} (stepped : system.step hook = some next) : Origin port next := by
  intro key present
  by_cases returning : ∃ pidTgid, hook = .exit pidTgid
  · obtain ⟨pidTgid, rfl⟩ := returning
    obtain ⟨call, -, received, foreign, keys⟩ := staging.exit_timestampMap stepped
    rw [received]
    by_cases listens : call.socket.Listens port
    · rcases keys key present with before | tag
      · obtain ⟨earlier, member, justified⟩ := origin key before
        exact ⟨earlier, List.mem_cons_of_mem _ member, justified⟩
      · exact ⟨call, List.mem_cons_self, listens, tag⟩
    · rw [foreign listens] at present
      obtain ⟨earlier, member, justified⟩ := origin key present
      exact ⟨earlier, List.mem_cons_of_mem _ member, justified⟩
  · obtain ⟨received, keys, -⟩ := step_timestampMap stepped
      (fun pidTgid equality => returning ⟨pidTgid, equality⟩)
    rw [received]
    exact origin key (keys key present)

theorem Staging.filters (staging : Staging port system) (origin : Origin port system) :
    Filters port system where
  origin := origin
  silent hook after call stepped belongs foreign := by
    by_cases returning : ∃ pidTgid, hook = .exit pidTgid
    · obtain ⟨pidTgid, rfl⟩ := returning
      obtain ⟨returned, inside, -, unchanged, -⟩ := staging.exit_timestampMap stepped
      obtain rfl : returned = call := Option.some.inj (inside.symm.trans belongs)
      exact unchanged foreign
    · obtain ⟨-, -, unchanged⟩ := step_timestampMap stepped
        (fun pidTgid equality => returning ⟨pidTgid, equality⟩)
      exact unchanged (by rw [belongs]; rfl)

end Steps

/-- When every recvmsg call is either probed, or bound to the listen port, or
delivers no tag, the filter does its work in every state of the run. -/
theorem filters_of_covered (rawDestMap listenPortMap : BoundedMap UInt32 UInt32 1)
    (hooks : List Hook) (system : System)
    (ran : hooks.foldlM System.step (System.loaded rawDestMap listenPortMap) = some system)
    (covered : ∀ call, Hook.enter call ∈ hooks →
      call.Covered (listenPort (System.loaded rawDestMap listenPortMap).maps)) :
    Filters (listenPort (System.loaded rawDestMap listenPortMap).maps) system := by
  have invariant := Run.foldlM_invariant
    (fun reached =>
      Staging (listenPort (System.loaded rawDestMap listenPortMap).maps) reached ∧
        Origin (listenPort (System.loaded rawDestMap listenPortMap).maps) reached)
    (by
      rintro hook member reached next stepped ⟨staging, origin⟩
      refine ⟨staging.step ?_ stepped, staging.origin origin stepped⟩
      rintro call rfl
      exact covered call member)
    ran
    ⟨⟨rfl, fun _ _ inside => by simp [System.loaded] at inside,
        fun _ _ staged => by simp [System.loaded, Maps.empty] at staged⟩,
      fun key present => by simp [System.loaded, Maps.empty] at present⟩
  exact invariant.1.filters invariant.2

def recvCall (pidTgid : UInt64) (socket : Socket) (payload : List UInt8) : RecvCall where
  pidTgid := pidTgid
  socket := socket
  args := some ⟨3, 4096⟩
  ret := some payload.length.toInt64
  memory := msghdrMemory [] payload
  now := 1000

def udpHooks : List Hook :=
  [.enter (recvCall 1 ⟨.udpV4, 5020⟩ [1, 2, 3, 4]),
    .enter (recvCall 2 ⟨.udpV4, 53⟩ [9, 9, 9, 9]),
    .kprobe 2, .kprobe 1, .exit 1, .exit 2]

theorem filters_udp_hooks :
    ∃ system, udpHooks.foldlM System.step (System.loaded .empty .empty) = some system ∧
      0x01020304 ∈ system.maps.timestampMap ∧ Filters 5020 system := by
  refine ⟨_, rfl, by decide, ?_⟩
  apply filters_of_covered .empty .empty udpHooks _ rfl
  intro call member
  have probed : ∀ call, Hook.enter call ∈ udpHooks → call.socket.kind = .udpV4 := by
    intro call member
    simp only [udpHooks, List.mem_cons, Hook.enter.injEq, reduceCtorEq, List.not_mem_nil,
      or_false] at member
    rcases member with rfl | rfl <;> rfl
  exact .inl (probed call member)

/-- A TCP receive passes the filter unseen and leaves a timestamp. -/
theorem not_filters_tcp_receive :
    ∃ system, [Hook.enter (recvCall 1 ⟨.tcp, 443⟩ [1, 2, 3, 4]), .exit 1].foldlM System.step
        (System.loaded .empty .empty) = some system ∧
      ¬Filters (listenPort (System.loaded .empty .empty).maps) system := by
  refine ⟨_, rfl, ?_⟩
  intro filters
  obtain ⟨call, member, ⟨listens, -⟩, -⟩ := filters.origin 0x01020304 (by decide)
  simp only [System.loaded, List.mem_singleton] at member
  subst member
  simp [recvCall] at listens

end BpfAgent.Irss
