import BpfAgent.Sca.HopSockets
import BpfAgent.Sca.HostPid
import BpfAgent.Sca.Measured

/-!
# SCA: the agent attaches to the simulator

From the sockets that `ss` lists and the files of their owners to the map of
endpoints: each end of each hop is entered under the process id that the eBPF
program will see, whichever namespace the agent runs in.  The sends of the
simulator are then measured.
-/

namespace BpfAgent.Sca.Simulator

open Relay

def hopRow (hop : Hop) : String × String × String := dataFlow.get hop

theorem getElem?_dataFlow (hop : Hop) : dataFlow[hop.val]? = some (hopRow hop) :=
  List.getElem?_eq_getElem hop.isLt

def solidRow (row : String × String × String) : Bool :=
  (row.2.1.toList ++ row.2.2.toList).all fun character => !Text.isWhitespace character

theorem solid_names (hop : Hop) :
    Text.Solid (hopRow hop).2.1.toList ∧ Text.Solid (hopRow hop).2.2.toList := by
  have all : dataFlow.all solidRow = true := by decide +kernel
  have row := List.all_eq_true.mp all (hopRow hop) (List.get_mem dataFlow hop)
  have solid : ∀ character ∈ (hopRow hop).2.1.toList ++ (hopRow hop).2.2.toList,
      Text.isWhitespace character = false := by
    intro character member
    exact (Bool.not_eq_true' _).mp (List.all_eq_true.mp row character member)
  exact ⟨fun character member => solid character (List.mem_append_left _ member),
    fun character member => solid character (List.mem_append_right _ member)⟩

/-- The sockets that each hop is sent on: requests on the connected one, replies
on the accepted one. -/
structure Ends where
  socket : Hop → (reply : Bool) → UnixSockRec
  hostPid : UInt32 → UInt32

def Ends.key (ends : Ends) (side : Hop × Bool) : UInt64 :=
  Word.pack (ends.hostPid (ends.socket side.1 side.2).pid) (ends.socket side.1 side.2).fd

/-- The sockets of a running simulator among those that `ss` lists. -/
structure Wiring (proc : Proc) (sockets : List UnixSockRec) extends Ends where
  same : SameSocket sockets
  listed : ∀ hop reply, socket hop reply ∈ sockets
  bound : ∀ hop, (socket hop true).path = some (hopRow hop).1
  unbound : ∀ hop, (socket hop false).path = none
  peer : ∀ hop, (socket hop false).peerInode = (socket hop true).inode
  receivers : ∀ sock ∈ sockets, ∀ hop, sock.path = some (hopRow hop).1 → sock = socket hop true
  senders : ∀ sock ∈ sockets, ∀ hop, sock.path = none →
    sock.peerInode = (socket hop true).inode → sock = socket hop false
  sending : ∀ hop,
    Runs proc (socket hop false).pid (hostPid (socket hop false).pid) (hopRow hop).2.1
  receiving : ∀ hop,
    Runs proc (socket hop true).pid (hostPid (socket hop true).pid) (hopRow hop).2.2
  /-- A descriptor of a process is one socket. -/
  distinct : Function.Injective toEnds.key

def foundHops (proc : Proc) (sockets : List UnixSockRec) : List DiscoveredHop :=
  discoverHopSockets (commMatches proc) (toHostPid proc) sockets

def attachedMaps (proc : Proc) (sockets : List UnixSockRec) : Maps :=
  (populateSocketHopsMap Display.empty Maps.empty (foundHops proc sockets)).2

namespace Wiring

variable {proc : Proc} {sockets : List UnixSockRec} (wiring : Wiring proc sockets)

/-- The entry of one end of a hop. -/
def entry (side : Hop × Bool) : DiscoveredHop :=
  if side.2 then
    receiverEntry (toHostPid proc) side.1.val (hopRow side.1) (wiring.socket side.1 true)
  else
    senderEntry (toHostPid proc) side.1.val (hopRow side.1) (wiring.socket side.1 false)

theorem key_entry (side : Hop × Bool) : (wiring.entry side).key = wiring.key side := by
  obtain ⟨hop, reply⟩ := side
  cases reply with
  | false =>
      have host := (wiring.sending hop).toHostPid
      simp [entry, DiscoveredHop.key, senderEntry, Ends.key, host]
  | true =>
      have host := (wiring.receiving hop).toHostPid
      simp [entry, DiscoveredHop.key, receiverEntry, Ends.key, host]

theorem receives_iff {sock : UnixSockRec} (member : sock ∈ sockets) (hop : Hop) :
    Receives (commMatches proc) (hopRow hop) sock ↔ sock = wiring.socket hop true := by
  constructor
  · rintro ⟨path, -⟩
    exact wiring.receivers sock member hop path
  · rintro rfl
    exact ⟨wiring.bound hop, (wiring.receiving hop).commMatches (solid_names hop).2⟩

theorem sends_iff {sock : UnixSockRec} (member : sock ∈ sockets) (hop : Hop) :
    Sends (commMatches proc) sockets (hopRow hop) sock ↔ sock = wiring.socket hop false := by
  constructor
  · rintro ⟨unbound, ⟨other, listed, peer, path⟩, -⟩
    rw [wiring.receivers other listed hop path] at peer
    exact wiring.senders sock member hop unbound peer.symm
  · rintro rfl
    exact ⟨wiring.unbound hop, ⟨wiring.socket hop true, wiring.listed hop true,
      (wiring.peer hop).symm, wiring.bound hop⟩,
      (wiring.sending hop).commMatches (solid_names hop).1⟩

include wiring in
theorem discovers : DiscoversExactly (commMatches proc) (toHostPid proc) sockets
    (foundHops proc sockets) :=
  discoverHopSockets_exact wiring.same

theorem exists_entry {found : DiscoveredHop} (member : found ∈ foundHops proc sockets) :
    ∃ side, found = wiring.entry side := by
  obtain ⟨inside, role⟩ := wiring.discovers.only found member
  let hop : Hop := ⟨found.hopIndex, inside⟩
  rcases role with receiver | sender
  · have listed : found ∈ (foundHops proc sockets).filter
        fun entry => entry.hopIndex = found.hopIndex ∧ entry.isSender = 0 := by
      simp [member, receiver]
    rw [wiring.discovers.receivers found.hopIndex _ (getElem?_dataFlow hop)] at listed
    obtain ⟨sock, filtered, made⟩ := List.mem_map.mp listed
    obtain ⟨present, receives⟩ := List.mem_filter.mp filtered
    rw [(wiring.receives_iff present hop).mp (of_decide_eq_true receives)] at made
    exact ⟨(hop, true), made.symm⟩
  · have listed : found ∈ (foundHops proc sockets).filter
        fun entry => entry.hopIndex = found.hopIndex ∧ entry.isSender = 1 := by
      simp [member, sender]
    rw [wiring.discovers.senders found.hopIndex _ (getElem?_dataFlow hop)] at listed
    obtain ⟨sock, filtered, made⟩ := List.mem_map.mp listed
    obtain ⟨present, sends⟩ := List.mem_filter.mp filtered
    rw [(wiring.sends_iff present hop).mp (of_decide_eq_true sends)] at made
    exact ⟨(hop, false), made.symm⟩

/-- Both ends of every hop are found. -/
theorem entry_mem (side : Hop × Bool) : wiring.entry side ∈ foundHops proc sockets := by
  obtain ⟨hop, reply⟩ := side
  cases reply with
  | true =>
      have listed : wiring.entry (hop, true) ∈ (foundHops proc sockets).filter
          fun entry => entry.hopIndex = hop.val ∧ entry.isSender = 0 := by
        rw [wiring.discovers.receivers hop.val _ (getElem?_dataFlow hop)]
        refine List.mem_map.mpr ⟨wiring.socket hop true, List.mem_filter.mpr ⟨?_, ?_⟩, rfl⟩
        · exact wiring.listed hop true
        · exact decide_eq_true ((wiring.receives_iff (wiring.listed hop true) hop).mpr rfl)
      exact (List.mem_filter.mp listed).1
  | false =>
      have listed : wiring.entry (hop, false) ∈ (foundHops proc sockets).filter
          fun entry => entry.hopIndex = hop.val ∧ entry.isSender = 1 := by
        rw [wiring.discovers.senders hop.val _ (getElem?_dataFlow hop)]
        refine List.mem_map.mpr ⟨wiring.socket hop false, List.mem_filter.mpr ⟨?_, ?_⟩, rfl⟩
        · exact wiring.listed hop false
        · exact decide_eq_true ((wiring.sends_iff (wiring.listed hop false) hop).mpr rfl)
      exact (List.mem_filter.mp listed).1

theorem getEndpoint_attached (side : Hop × Bool) :
    getEndpoint (attachedMaps proc sockets) (wiring.hostPid (wiring.socket side.1 side.2).pid)
      (wiring.socket side.1 side.2).fd = some (wiring.entry side).endpoint := by
  let domain : Finset UInt64 := Finset.univ.image wiring.key
  have small : domain.card ≤ socketHopsMapMaxEntries := by
    refine (Finset.card_image_le).trans ?_
    decide
  have within : ∀ hop ∈ foundHops proc sockets, hop.key ∈ domain := by
    intro hop member
    obtain ⟨other, rfl⟩ := wiring.exists_entry member
    rw [key_entry]
    exact Finset.mem_image_of_mem _ (Finset.mem_univ other)
  have empty : ∀ key ∈ Maps.empty.socketHopsMap, key ∈ domain :=
    fun key present => absurd present (BoundedMap.notMem_empty key)
  rcases get_foldl_insertEndpoint domain small empty within (wiring.key side) with
    ⟨hop, member, key, found⟩ | ⟨absent, -⟩
  · obtain ⟨other, rfl⟩ := wiring.exists_entry member
    rw [key_entry] at key
    rw [wiring.distinct key] at found
    exact found
  · exact absurd (wiring.key_entry side) (absent _ (wiring.entry_mem side))

/-- A system call by which a process of the simulator makes a send. -/
structure Makes (sent : Send Header) (call : SendCall) : Prop where
  call : ∃ hop : Hop, sent.hop = hop.val ∧ ∃ args, call.args = some args ∧
    pidOf call.pidTgid = wiring.hostPid (wiring.socket hop sent.reply).pid ∧
    args.fd.toUInt32 = (wiring.socket hop sent.reply).fd ∧
    Buffer call.memory args.msg (buildMessage sent.message.2 sent.message.1)

theorem traced {sent : Send Header} {call : SendCall} (makes : wiring.Makes sent call) :
    Traced (attachedMaps proc sockets) sent call := by
  obtain ⟨hop, index, args, made, pid, fd, buffer⟩ := makes.call
  have tracked := wiring.getEndpoint_attached (hop, sent.reply)
  refine ⟨args, _, made, by rw [pid, fd]; exact tracked, ?_, ?_, buffer⟩
  · rw [index]
    cases sent.reply <;> exact Hop.toNat_word hop
  · cases sent.reply <;> simp [entry, senderEntry, receiverEntry, DiscoveredHop.endpoint]

end Wiring

theorem idle_attached (proc : Proc) (sockets : List UnixSockRec) :
    Idle (attachedMaps proc sockets) :=
  fun key => ⟨BoundedMap.notMem_empty key, BoundedMap.notMem_empty key⟩

/-- From the listed sockets to the latencies: an agent that is loaded once the
simulator is wired measures every exchange. -/
theorem attached_watches (proc : Proc) (sockets : List UnixSockRec)
    (wiring : Wiring proc sockets) (acts : List Act) (state : State) (calls : List SendCall)
    (ran : acts.foldlM step State.initial = some state)
    (made : List.Forall₂ wiring.Makes state.sent calls)
    (clock : calls.Pairwise fun first second => first.now < second.now) :
    Watched (attachedMaps proc sockets) calls ∧
      (state.initiator = none → Idle (calls.foldl send (attachedMaps proc sockets))) :=
  watched_of_run ran (idle_attached proc sockets) (made.imp fun _ _ => wiring.traced) clock

def containerNames : List String :=
  ["DATA_SOURCE", "INTERNAL_ROUTER", "RED_WF_COMM_L", "FRAGMENTER", "RED_IRSS_COMM_L", "DATA_SINK"]

/-- Process 7 of the container is the first of the simulator, and 81593 to the host. -/
def containerPid (name : String) : UInt32 := (7 + containerNames.idxOf name).toUInt32

def containerHostPid (pid : UInt32) : UInt32 := pid + 81586

def containerProc : Proc where
  status pid := (containerNames[pid.toNat - 7]?).map fun name =>
    renderStatus ["Name:\t".toList ++ name.toList, nspidLine (containerHostPid pid) [pid]]
  comm pid := (containerNames[pid.toNat - 7]?).map fun name => name.toList ++ ['\n']

def containerEnds : Ends where
  socket hop reply :=
    if reply then
      ⟨containerPid (hopRow hop).2.2, 20 + hop.word, 2000 + hop.word.toUInt64,
        1000 + hop.word.toUInt64, some (hopRow hop).1⟩
    else
      ⟨containerPid (hopRow hop).2.1, 10 + hop.word, 1000 + hop.word.toUInt64,
        2000 + hop.word.toUInt64, none⟩
  hostPid := containerHostPid

def containerSockets : List UnixSockRec :=
  (List.finRange 7).flatMap fun hop =>
    [containerEnds.socket hop false, containerEnds.socket hop true]

theorem container_runs {pid : UInt32} {name : String}
    (named : containerNames[pid.toNat - 7]? = some name) (member : name ∈ containerNames) :
    Runs containerProc pid (containerHostPid pid) name where
  status := by
    have plain : ∀ name ∈ containerNames, OtherField ("Name:\t".toList ++ name.toList) := by
      unfold OtherField
      decide +kernel
    refine ⟨["Name:\t".toList ++ name.toList], [pid], [], ?_, ?_⟩
    · intro line listed
      rw [List.mem_singleton.mp listed]
      exact plain name member
    · exact congrArg (Option.map _) named
  comm := congrArg (Option.map _) named

def containerWiring : Wiring containerProc containerSockets where
  toEnds := containerEnds
  same := by
    unfold SameSocket
    decide +kernel
  listed := by decide +kernel
  bound := by decide +kernel
  unbound := by decide +kernel
  peer := by decide +kernel
  receivers := by decide +kernel
  senders := by decide +kernel
  sending hop := by
    have named : ∀ hop : Hop, containerNames[(containerEnds.socket hop false).pid.toNat - 7]? =
        some (hopRow hop).2.1 := by
      decide +kernel
    exact container_runs (named hop) (List.mem_of_getElem? (named hop))
  receiving hop := by
    have named : ∀ hop : Hop, containerNames[(containerEnds.socket hop true).pid.toNat - 7]? =
        some (hopRow hop).2.2 := by
      decide +kernel
    exact container_runs (named hop) (List.mem_of_getElem? (named hop))
  distinct := by
    unfold Function.Injective
    decide +kernel

def containerCall (sent : Send Header) (now : UInt64) : SendCall :=
  let sock := containerEnds.socket (Fin.ofNat 7 sent.hop) sent.reply
  { args := some ⟨sock.fd.toUInt64, 4096⟩
    pidTgid := Word.pack (containerHostPid sock.pid) 0
    memory := msghdrMemory [] (buildMessage sent.message.2 sent.message.1)
    now := now
    later := now }

theorem buffer_msghdrMemory (msgType : UInt16) (protocol : UInt32) :
    Buffer (msghdrMemory [] (buildMessage msgType protocol)) 4096
      (buildMessage msgType protocol) := by
  have fits : (buildMessage msgType protocol).length < 2 ^ 32 := by
    rw [length_buildMessage]
    decide
  refine ⟨_, 4184, readUserMsgHdr_msghdrMemory fits, by decide, rfl, readIovAt_msghdrMemory fits,
    by decide, ?_⟩
  exact read_buffer_msghdrMemory fits (show (4184 : UInt64).toNat = 4184 + 0 from rfl)
    (show 0 + 64 ≤ (buildMessage msgType protocol).length from Nat.le_refl 64)

theorem containerCall_makes {sent : Send Header} (now : UInt64) (inside : sent.hop < 7) :
    containerWiring.Makes sent (containerCall sent now) := by
  refine ⟨Fin.ofNat 7 sent.hop, (Nat.mod_eq_of_lt inside).symm, _, rfl, Word.high_pack _ _, ?_,
    buffer_msghdrMemory _ _⟩
  exact UInt32.toUInt32_toUInt64 _

def containerCalls : List SendCall :=
  (cycle 7 replyTo (7, 41)).mapIdx fun position sent =>
    containerCall sent (1000 + 100 * position.toUInt64)

theorem attached_container :
    ∃ state, wholeCycle.foldlM step State.initial = some state ∧
      Watched (attachedMaps containerProc containerSockets) containerCalls ∧
      Idle (containerCalls.foldl send (attachedMaps containerProc containerSockets)) := by
  have ran : (wholeCycle.foldlM step State.initial).map
      (fun state => (state.initiator, state.sent)) = some (none, cycle 7 replyTo (7, 41)) := by
    decide +kernel
  obtain ⟨state, reached, ended⟩ := Option.map_eq_some_iff.mp ran
  obtain ⟨ready, sent⟩ := Prod.mk.inj ended
  have made : List.Forall₂ containerWiring.Makes state.sent containerCalls := by
    rw [sent]
    apply List.forall₂_iff_get.mpr
    refine ⟨by simp [containerCalls], ?_⟩
    intro position inside other
    simp only [containerCalls, List.get_eq_getElem, List.getElem_mapIdx]
    apply containerCall_makes
    have hops : ∀ sent ∈ cycle 7 replyTo (7, 41), sent.hop < 7 := by decide
    exact hops _ (List.getElem_mem inside)
  have watched := attached_watches containerProc containerSockets containerWiring wholeCycle state
    containerCalls reached made (by decide +kernel)
  exact ⟨state, reached, watched.1, watched.2 ready⟩

end BpfAgent.Sca.Simulator
