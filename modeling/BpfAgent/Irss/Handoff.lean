import BpfAgent.Irss.ReceiveFilter

/-!
# IRSS: handing the msghdr pointer from enter to exit

Any number of threads make recvmsg calls.  Between enter and exit of a call the
udp_recvmsg kprobe may hit any number of times, with any port or with one that
cannot be read, and it also hits in threads that are in no recvmsg at all.

RECV_MSG_PTR is a scratch map of 1024 entries and a failed store is not
noticed.  What it holds is nevertheless always the pointer of the call that its
thread is in.
-/

namespace BpfAgent.Irss

/-- A recvmsg call under way: what its enter handler could read, and the ports
of the kprobe hits since, the latest first. -/
structure Frame where
  args : Option SysEnterMsgArgs
  hits : List (Option UInt16)

def Frame.pointer (frame : Frame) : Option UInt64 := frame.args.map SysEnterMsgArgs.msg

structure Threads where
  maps : Maps
  inside : UInt64 → Option Frame

def Threads.loaded (rawDestMap listenPortMap : BoundedMap UInt32 UInt32 1) : Threads where
  maps := { Maps.empty with rawDestMap, listenPortMap }
  inside _ := none

inductive ThreadEvent where
  | enter (pidTgid : UInt64) (args : Option SysEnterMsgArgs)
  | kprobe (pidTgid : UInt64) (port : Option UInt16)
  | exit (pidTgid : UInt64) (ret : Option Int64) (memory : Memory) (now : UInt64)
  | send (args : Option SysEnterMsgArgs) (memory : Memory) (now : UInt64)

/-- Run one handler.  A thread enters when it is in no call and exits from one;
the kprobe and the send handler run at any time. -/
def Threads.step (threads : Threads) : ThreadEvent → Option Threads
  | .enter pidTgid args =>
      match threads.inside pidTgid with
      | some _ => none
      | none => some
          { maps := sysEnterRecvmsgHandler threads.maps pidTgid args
            inside := Function.update threads.inside pidTgid (some ⟨args, []⟩) }
  | .kprobe pidTgid port => some
      { maps := udpRecvmsgHandler threads.maps pidTgid port
        inside := Function.update threads.inside pidTgid
          ((threads.inside pidTgid).map fun frame => { frame with hits := port :: frame.hits }) }
  | .exit pidTgid ret memory now =>
      match threads.inside pidTgid with
      | none => none
      | some _ => some
          { maps := sysExitRecvmsgHandler threads.maps pidTgid ret memory now
            inside := Function.update threads.inside pidTgid none }
  | .send args memory now =>
      some { threads with maps := sysEnterSendmsgHandler threads.maps args memory now }

/-- Some kprobe hit of the call has seen another port than the configured one. -/
def Frame.Vetoed (port : UInt32) (frame : Frame) : Prop :=
  ∃ hit, some hit ∈ frame.hits ∧ hit.toUInt32 ≠ port

/-- The handoff is sound in this state. -/
structure Handoff (threads : Threads) : Prop where
  /-- A key is a thread inside a call, and its value is the pointer of that call. -/
  own : ∀ pidTgid pointer, threads.maps.recvMsgPtr.get pidTgid = some pointer →
    ∃ frame, threads.inside pidTgid = some frame ∧ frame.pointer = some pointer
  /-- The exit handler reads behind the pointer of its own call or not at all,
  leaves no key, and stores nothing for a call that was vetoed. -/
  exit : ∀ pidTgid ret memory now next,
    threads.step (.exit pidTgid ret memory now) = some next →
    ∃ frame, threads.inside pidTgid = some frame ∧ pidTgid ∉ next.maps.recvMsgPtr ∧
      (next.maps.timestampMap = threads.maps.timestampMap ∨
        ¬frame.Vetoed (listenPort threads.maps) ∧
        ∃ pointer key, frame.pointer = some pointer ∧
          readPayloadKey memory pointer = some key ∧
          next.maps.timestampMap = threads.maps.timestampMap.insert key now)

structure Staged (port : UInt32) (threads : Threads) : Prop where
  configured : listenPort threads.maps = port
  staged : ∀ pidTgid pointer, threads.maps.recvMsgPtr.get pidTgid = some pointer →
    ∃ frame, threads.inside pidTgid = some frame ∧ frame.pointer = some pointer ∧
      ¬frame.Vetoed port

theorem Staged.loaded (rawDestMap listenPortMap : BoundedMap UInt32 UInt32 1) :
    Staged (listenPort (Threads.loaded rawDestMap listenPortMap).maps)
      (Threads.loaded rawDestMap listenPortMap) := by
  refine ⟨rfl, ?_⟩
  intro pidTgid pointer found
  simp [Threads.loaded, Maps.empty] at found

section Steps

variable {port : UInt32} {threads next : Threads} {pidTgid : UInt64}

theorem Staged.enter (staged : Staged port threads) {args : Option SysEnterMsgArgs}
    (stepped : threads.step (.enter pidTgid args) = some next) : Staged port next := by
  simp only [Threads.step] at stepped
  split at stepped
  · cases stepped
  next idle =>
    cases stepped
    refine ⟨(sysEnterRecvmsgHandler_frame _ _ _).2.trans staged.configured, ?_⟩
    intro other pointer found
    rcases sysEnterRecvmsgHandler_get found with before | ⟨rfl, own⟩
    · obtain ⟨frame, inside, pointers, passed⟩ := staged.staged other pointer before
      have different : other ≠ pidTgid := by
        rintro rfl
        rw [idle] at inside
        cases inside
      exact ⟨frame, (Function.update_of_ne different ..).trans inside, pointers, passed⟩
    · refine ⟨⟨args, []⟩, Function.update_self .., own, ?_⟩
      rintro ⟨hit, impossible, -⟩
      cases impossible

theorem Staged.kprobe (staged : Staged port threads) {hit : Option UInt16}
    (stepped : threads.step (.kprobe pidTgid hit) = some next) : Staged port next := by
  simp only [Threads.step, Option.some.injEq] at stepped
  subst stepped
  refine ⟨(udpRecvmsgHandler_frame _ _ _).2.trans staged.configured, ?_⟩
  intro other pointer found
  have kept : threads.maps.recvMsgPtr.get other = some pointer ∧
      (other = pidTgid → ∀ seen, hit = some seen → seen.toUInt32 = port) := by
    cases hit with
    | none => exact ⟨found, fun _ seen impossible => by cases impossible⟩
    | some seen =>
        obtain ⟨before, passed⟩ := udpRecvmsgHandler_get found
        refine ⟨before, ?_⟩
        rintro same _ ⟨⟩
        exact (passed same).trans staged.configured
  obtain ⟨frame, inside, pointers, passed⟩ := staged.staged other pointer kept.1
  by_cases same : other = pidTgid
  · subst same
    refine ⟨{ frame with hits := hit :: frame.hits }, by simp [inside], pointers, ?_⟩
    rintro ⟨seen, member, foreign⟩
    rcases List.mem_cons.mp member with latest | earlier
    · exact foreign (kept.2 rfl seen latest.symm)
    · exact passed ⟨seen, earlier, foreign⟩
  · exact ⟨frame, by simpa [Function.update_of_ne same] using inside, pointers, passed⟩

theorem exit_eq_some_iff {ret : Option Int64} {memory : Memory} {now : UInt64} :
    threads.step (.exit pidTgid ret memory now) = some next ↔
      (∃ frame, threads.inside pidTgid = some frame) ∧
        next = ⟨sysExitRecvmsgHandler threads.maps pidTgid ret memory now,
          Function.update threads.inside pidTgid none⟩ := by
  simp only [Threads.step]
  cases threads.inside pidTgid with
  | none => simp
  | some frame => simp [eq_comm]

theorem Staged.exit (staged : Staged port threads) {ret : Option Int64} {memory : Memory}
    {now : UInt64} (stepped : threads.step (.exit pidTgid ret memory now) = some next) :
    Staged port next := by
  obtain ⟨-, rfl⟩ := exit_eq_some_iff.mp stepped
  refine ⟨(sysExitRecvmsgHandler_listenPort _ _ _ _ _).trans staged.configured, ?_⟩
  intro other pointer found
  simp only [sysExitRecvmsgHandler_recvMsgPtr] at found
  split at found
  · cases found
  next different =>
    simp only [Function.update_of_ne different]
    exact staged.staged other pointer found

theorem Staged.send (staged : Staged port threads) {args : Option SysEnterMsgArgs}
    {memory : Memory} {now : UInt64}
    (stepped : threads.step (.send args memory now) = some next) : Staged port next := by
  simp only [Threads.step, Option.some.injEq] at stepped
  subst stepped
  obtain ⟨pointers, ports, -⟩ := sysEnterSendmsgHandler_frame threads.maps args memory now
  refine ⟨ports.trans staged.configured, ?_⟩
  intro other pointer found
  rw [pointers] at found
  exact staged.staged other pointer found

theorem Staged.step (staged : Staged port threads) {event : ThreadEvent}
    (stepped : threads.step event = some next) : Staged port next := by
  cases event with
  | enter pidTgid args => exact staged.enter stepped
  | kprobe pidTgid hit => exact staged.kprobe stepped
  | exit pidTgid ret memory now => exact staged.exit stepped
  | send args memory now => exact staged.send stepped

theorem Staged.run (staged : Staged port threads) {events : List ThreadEvent}
    (ran : events.foldlM Threads.step threads = some next) : Staged port next :=
  Run.foldlM_invariant (Staged port)
    (fun _ _ _ _ stepped before => before.step stepped) ran staged

theorem readPayloadKey_of_receivedTag {ret : Option Int64} {memory : Memory}
    {pointer : UInt64} {key : UInt32} (tag : receivedTag ret memory pointer = some key) :
    readPayloadKey memory pointer = some key := by
  simp only [receivedTag, Option.bind_eq_bind, Option.bind_eq_some_iff] at tag
  obtain ⟨ret, -, tag⟩ := tag
  split at tag
  · cases tag
  · simpa using tag

theorem Staged.handoff (staged : Staged port threads) : Handoff threads where
  own pidTgid pointer found := by
    obtain ⟨frame, inside, pointers, -⟩ := staged.staged pidTgid pointer found
    exact ⟨frame, inside, pointers⟩
  exit pidTgid ret memory now next stepped := by
    obtain ⟨⟨frame, inside⟩, rfl⟩ := exit_eq_some_iff.mp stepped
    refine ⟨frame, inside, ?_, ?_⟩
    · rw [BoundedMap.notMem_iff_get, sysExitRecvmsgHandler_recvMsgPtr, if_pos rfl]
    · cases found : threads.maps.recvMsgPtr.get pidTgid with
      | none =>
          left
          rw [sysExitRecvmsgHandler_of_missing found]
      | some pointer =>
          obtain ⟨current, same, own, passed⟩ := staged.staged pidTgid pointer found
          cases inside.symm.trans same
          rw [sysExitRecvmsgHandler_of_staged found]
          cases tag : receivedTag ret memory pointer with
          | none => exact .inl rfl
          | some key =>
              right
              rw [staged.configured]
              exact ⟨passed, pointer, key, own, readPayloadKey_of_receivedTag tag, rfl⟩

end Steps

/-- However the threads interleave, the handoff is sound in every state. -/
theorem handoff_of_run (rawDestMap listenPortMap : BoundedMap UInt32 UInt32 1)
    (events : List ThreadEvent) (threads : Threads)
    (ran : events.foldlM Threads.step (Threads.loaded rawDestMap listenPortMap) =
      some threads) : Handoff threads :=
  ((Staged.loaded rawDestMap listenPortMap).run ran).handoff

def vetoEvents : List ThreadEvent :=
  [.enter 1 (some ⟨3, 4096⟩), .enter 2 (some ⟨3, 4096⟩), .kprobe 1 (some 53),
    .kprobe 2 none, .exit 1 (some 4) (msghdrMemory [] [9, 9, 9, 9]) 10, .kprobe 1 (some 5020)]

theorem handoff_veto_events :
    ∃ threads, vetoEvents.foldlM Threads.step (Threads.loaded .empty .empty) = some threads ∧
      threads.maps.recvMsgPtr.keys = [2] ∧ threads.maps.timestampMap.keys = [] ∧
      Handoff threads :=
  ⟨_, rfl, by decide, by decide, handoff_of_run .empty .empty vetoEvents _ rfl⟩

end BpfAgent.Irss
