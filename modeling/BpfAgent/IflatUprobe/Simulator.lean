import BpfAgent.Iflat.Checksum
import BpfAgent.IflatUprobe.EndToEnd
import BpfAgent.IflatUprobe.Framing

/-!
# IFLAT_UPROBE: the simulator

The test rig receives a datagram behind the first interface, wraps its payload
into a packet of its own, which it injects into the second, and calls the
probed function with what comes out there.  It notes when it injected which
tag, as the agent notes when it saw the tag on the second interface.

The agent is configured as the rig prints it.
-/

namespace BpfAgent.IflatUprobe.Simulator

open Packet Iflat.Simulator OnesComplement EndToEnd

def tunSrcIp : List UInt8 := [10, 200, 1, 2]
def tunIpOctets : List UInt8 := [10, 200, 1, 1]
def leg2Port : UInt16 := 5001
def craftedSport : UInt16 := 5002
def msgSize : Nat := 64
def simPayloadPtrOffset : Nat := 296

def ipv4Header (total checksum : UInt16) : List UInt8 :=
  [0x45, 0] ++ Word.bigEndianBytes16 total ++ Word.bigEndianBytes16 0 ++
    Word.bigEndianBytes16 0x4000 ++ [64, ipprotoUdp] ++ Word.bigEndianBytes16 checksum ++
    tunSrcIp ++ tunIpOctets

/-- The checksum 0 stands for none. -/
def udpHeader (length : UInt16) : List UInt8 :=
  Word.bigEndianBytes16 craftedSport ++ Word.bigEndianBytes16 leg2Port ++
    Word.bigEndianBytes16 length ++ Word.bigEndianBytes16 0

def craftTunPacket (payload : List UInt8) : List UInt8 :=
  let total := (28 + payload.length).toUInt16
  ipv4Header total (internetChecksum (ipv4Header total 0)) ++
    (udpHeader (8 + payload.length).toUInt16 ++ payload)

def tag (payload : List UInt8) : UInt32 := Word.bigEndian (payload.take 4)

theorem bigEndianBytes_tag {payload : List UInt8} (long : 4 ≤ payload.length) :
    payload = Word.bigEndianBytes (tag payload) ++ payload.drop 4 := by
  have size : (payload.take 4).length = 4 := by
    rw [List.length_take]
    exact Nat.min_eq_left long
  obtain ⟨first, second, third, fourth, bytes⟩ := List.length_eq_four.mp size
  have split := List.take_append_drop 4 payload
  rw [tag, bytes, Word.bigEndianBytes_bigEndian, ← bytes, split]

/-- The kernel, which checks the header, takes the packet. -/
theorem internetChecksum_craftTunPacket (payload : List UInt8) :
    internetChecksum ((craftTunPacket payload).take 20) = 0 := by
  have header : (craftTunPacket payload).take 20 =
      ipv4Header (28 + payload.length).toUInt16
        (internetChecksum (ipv4Header (28 + payload.length).toUInt16 0)) :=
    List.take_left' rfl
  generalize (28 + payload.length).toUInt16 = total at header
  have split : ∀ value, ipv4Header total value =
      (ipv4Header total 0).take 10 ++
        (value >>> 8).toUInt8 :: value.toUInt8 :: (tunSrcIp ++ tunIpOctets) := fun _ => rfl
  have even : ((ipv4Header total 0).take 10).length = 10 := rfl
  rw [header, internetChecksum, split (internetChecksum _)]
  apply foldChecksum_insert
  · rw [even]
  · have bound := wordSum_le ((ipv4Header total 0).take 10 ++ 0 :: 0 :: (tunSrcIp ++ tunIpOctets))
    rw [show ((ipv4Header total 0).take 10 ++ 0 :: 0 :: (tunSrcIp ++ tunIpOctets)).length = 20
      from rfl] at bound
    rw [UInt32.toNat_zero]
    omega
  · rw [internetChecksum]
    rfl

theorem headers_crafted (total checksum length : UInt16) :
    Headers false (ipv4Header total checksum ++ udpHeader length) := by
  have version : (ipv4Header total checksum)[0]? = some 0x45 := rfl
  have protocol : (ipv4Header total checksum)[9]? = some 17 := rfl
  have size : (udpHeader length).length = 8 := rfl
  exact .mk version (by decide) (by decide) rfl protocol (.udp size)

theorem carries_craftTunPacket (payload : List UInt8) :
    Carries (craftTunPacket payload) 0 payload := by
  refine ⟨_, [], headers_crafted (28 + payload.length).toUInt16
    (internetChecksum (ipv4Header (28 + payload.length).toUInt16 0))
    (8 + payload.length).toUInt16, ?_⟩
  rw [List.drop_zero, List.append_nil, List.append_assoc]
  rfl

theorem parseIpv4Tag_carries {packet payload : List UInt8} (carries : Carries packet 0 payload)
    (long : 4 ≤ payload.length) : parseIpv4Tag packet 0 = some (tag payload) := by
  obtain ⟨headers, trailer, accepted, shape⟩ := carries
  apply parseTag_of_datagram l4Hlen_measures
  have whole : payload ++ trailer =
      Word.bigEndianBytes (tag payload) ++ (payload.drop 4 ++ trailer) := by
    rw [← List.append_assoc, ← bigEndianBytes_tag long]
  rw [shape, whole]
  exact .mk accepted

/-- The second hook finds the tag that the payload starts with. -/
theorem parsePayloadTag_craftTunPacket {payload : List UInt8} (long : 4 ≤ payload.length) :
    parsePayloadTag (craftTunPacket payload) = some (tag payload) := by
  have ipv4 : Ipv4Packet (craftTunPacket payload) := by
    constructor
    · simp only [craftTunPacket, List.length_append]
      exact Nat.le_add_right 20 _
    · change (0x45 : UInt8) >>> 4 = 4
      decide
  have bare : ¬Framed (craftTunPacket payload) := by
    rw [ipv4.framed_iff]
    rintro ⟨third, fourth, same, -⟩
    cases same
  rw [parsePayloadTag_bare bare]
  exact parseIpv4Tag_carries (carries_craftTunPacket payload) long

/-- Size and alignment of the members of `TxSlotSim`: state, index, endpoint,
burst, dispatch_time, enqueued_ncr, dispatch_ncr, payload, payload_capacity,
payload_length. -/
def txSlotSim : List (Nat × Nat) :=
  [(4, 4), (4, 4), (4, 4), (256, 1), (8, 8), (8, 8), (8, 8), (8, 8), (4, 4), (4, 4)]

def payloadMember : Nat := 7

/-- Where a member of a `repr(C)` record starts that begins at `offset`. -/
def offsetOf : List (Nat × Nat) → (member offset : Nat) → Nat
  | [], _, offset => offset
  | (size, align) :: rest, member, offset =>
      let start := (offset + align - 1) / align * align
      match member with
      | 0 => start
      | member + 1 => offsetOf rest member (start + size)

theorem offsetOf_payload : offsetOf txSlotSim payloadMember 0 = simPayloadPtrOffset := by decide

/-- A call `iflat_uprobe_sim_submit(null, 0, &slot)` with the payload in the arena. -/
def Submits (call : FnCall) (payload : List UInt8) : Prop :=
  ∃ slot arena, call.arg 2 = some slot ∧ slot ≠ 0 ∧
    call.memory.read (slot + (offsetOf txSlotSim payloadMember 0).toUInt64) 8 =
      some (Memory.wordBytes arena) ∧
    arena ≠ 0 ∧ call.memory.read arena payload.length = some payload

/-- The entry that the rig prints for the agent. -/
def printed (exe : String) (pid : Int64) : ProgramConfig where
  name := "iflat_uprobe"
  settings := some <|
    AList.insert "rx1_iface" (.string "veth-iu0") <| AList.insert "rx2_iface" (.string "tun0") <|
    AList.insert "target" (.string exe) <|
    AList.insert "symbol" (.string "iflat_uprobe_sim_submit") <|
    AList.insert "pid" (.integer pid) <| AList.insert "arg_index" (.integer 3) <|
    AList.insert "payload_ptr_offset" (.integer 296) <|
    AList.insert "tag_offset" (.integer 0) ∅

theorem probeConfig_printed (exe : String) (pid : Int64) :
    probeConfig (printed exe pid) = ⟨3, 296, 0⟩ := by
  rfl

def printedProgram (exe : String) (pid : Int64) : Program :=
  { Program.new with
    enabled := true, rx1Iface := "veth-iu0", rx2Iface := "tun0", target := exe
    symbol := "iflat_uprobe_sim_submit", pid := parsePid (printed exe pid)
    argIndex := 3, payloadPtrOffset := 296, tagOffset := 0 }

def printedAttached (exe : String) (pid : Int64) : Attached where
  rx1Iface := "veth-iu0"
  rx2Iface := "tun0"
  site := ⟨exe, "iflat_uprobe_sim_submit", 0, Uprobe.pidScope (parsePid (printed exe pid))⟩
  configMap := BoundedMap.empty.insert uprobeConfigKey ⟨3, 296, 0⟩

theorem loaded_printed {exe : String} (named : exe ≠ "") (pid : Int64) :
    Loaded (printed exe pid) (printedProgram exe pid) (printedAttached exe pid) := by
  have target : parseStringSetting (printed exe pid) "target" = some exe := rfl
  have first : parseIfaceSetting (printed exe pid) "rx1_iface" = .ok (some "veth-iu0") := rfl
  have second : parseIfaceSetting (printed exe pid) "rx2_iface" = .ok (some "tun0") := rfl
  have nonempty : exe.isEmpty = false := by
    rw [Bool.eq_false_iff, ne_eq, String.isEmpty_iff]
    exact named
  constructor
  · rw [configure, first, second, target]
    change (if !exe.isEmpty && true then _ else _) = _
    rw [nonempty]
    rfl
  · rfl

theorem configMap_printed {exe : String} {pid : Int64} {program : Program} {attached : Attached}
    (loaded : Loaded (printed exe pid) program attached) :
    attached.configMap.get uprobeConfigKey = some ⟨3, 296, 0⟩ :=
  loaded.facts.2.2.2.2.trans (congrArg some (probeConfig_printed exe pid))

variable {configMap : ConfigMap} {call : FnCall} {payload : List UInt8}

/-- The probe finds the tag that the payload starts with. -/
theorem callTag_of_submits (written : configMap.get uprobeConfigKey = some ⟨3, 296, 0⟩)
    (submits : Submits call payload) (long : 4 ≤ payload.length) :
    callTag configMap call = some (tag payload) := by
  obtain ⟨slot, arena, register, slot_ne, member, arena_ne, readable⟩ := submits
  have bytes := Memory.read_take readable long
  rw [offsetOf_payload] at member
  have pointer := Memory.field_wordBytes [] arena []
  rw [List.nil_append, List.append_nil] at pointer
  rw [callTag_of_configured written]
  have base : argument ⟨3, 296, 0⟩ call = slot := by
    change (call.arg 2).getD 0 = slot
    rw [register]
    rfl
  have found : payloadPtr ⟨3, 296, 0⟩ call = some arena := by
    rw [payloadPtr, if_neg (by decide), base]
    change (call.memory.read (slot + simPayloadPtrOffset.toUInt64) 8).map _ = _
    rw [member, Option.map_some]
    exact congrArg some pointer
  rw [if_neg (by decide), base, if_neg slot_ne, found, Option.bind_some, if_neg arena_ne]
  change (call.memory.read (arena + 0) 4).map Word.bigEndian = _
  rw [UInt64.add_zero, bytes, Option.map_some, tag]

theorem ipv4Packet_of_carries {packet : List UInt8} (carries : Carries packet 0 payload) :
    Ipv4Packet packet := by
  obtain ⟨headers, trailer, accepted, shape⟩ := carries
  obtain @⟨ipHeader, l4Header, versionIhl, protocol, version, four, long, size, proto, l4⟩ :=
    accepted
  rw [List.drop_zero, List.append_assoc] at shape
  have first : 0 < ipHeader.length := by omega
  constructor
  · rw [shape, List.length_append]
    omega
  · rw [shape, List.getD_append _ _ _ _ first, List.getD_eq_getElem?_getD, version]
    exact four

/-- However the datagram got to the first interface, all three hooks find the
tag that its payload starts with, and the kernel takes the injected packet. -/
theorem tag_at_every_hook {exe : String} {pid : Int64} {program : Program} {attached : Attached}
    (loaded : Loaded (printed exe pid) program attached) (header packet payload : List UInt8)
    (call : FnCall) (long : 4 ≤ payload.length) (ethernet : EthernetHeader header)
    (carries : Carries packet 0 payload) (submits : Submits call payload) :
    internetChecksum ((craftTunPacket payload).take 20) = 0 ∧
      ∃ tag, payload.take 4 = Word.bigEndianBytes tag ∧
        parsePayloadTag (header ++ packet) = some tag ∧
        parsePayloadTag (craftTunPacket payload) = some tag ∧
        callTag attached.configMap call = some tag := by
  refine ⟨internetChecksum_craftTunPacket payload, tag payload, ?_, ?_,
    parsePayloadTag_craftTunPacket long,
    callTag_of_submits (configMap_printed loaded) submits long⟩
  · exact (congrArg (List.take 4) (bigEndianBytes_tag long)).trans (List.take_left' rfl)
  · rw [ethernet.parsePayloadTag_append (ipv4Packet_of_carries carries)]
    exact parseIpv4Tag_carries carries long

/-- The maps of the agent, and when the receiver injected which tag. -/
structure Rig where
  maps : Maps
  injections : Table UInt32 UInt64

def Rig.start : Rig := ⟨.empty, ∅⟩

inductive Act where
  /-- A frame reaches the first interface. -/
  | rx1 (now : UInt64) (frame : List UInt8) (victims : List UInt32)
  /-- The receiver reads a datagram from the leg-1 socket.  If its write to the
  tun device succeeds, the hook of the second interface runs within it. -/
  | leg1 (datagram : List UInt8) (injectNs : UInt64) (written : Option (UInt64 × List UInt32))
  /-- It reads a datagram from the leg-2 socket and calls the function. -/
  | leg2 (datagram : List UInt8) (fnNs : UInt64) (call : FnCall) (callNs : UInt64)
  | turn

/-- What is printed for a datagram, in microseconds. -/
structure Spans where
  tag : UInt32
  /-- sender->tun and tun->fn. -/
  legs : Option (UInt64 × UInt64)
  total : UInt64

variable (configMap : ConfigMap)

def step (rig : Rig) : Act → Rig
  | .rx1 now frame victims => { rig with maps := xdpRx1Handler rig.maps frame now victims }
  | .leg1 datagram injectNs written =>
      if datagram.length = msgSize then
        match written with
        | none => rig
        | some (rx2Ns, victims) =>
            { maps := (xdpRx2Handler rig.maps (craftTunPacket datagram) rx2Ns victims).1
              injections := rig.injections.insert (tag datagram) injectNs }
      else
        rig
  | .leg2 datagram _ call callNs =>
      if datagram.length = msgSize then
        { maps := (fnCallHandler configMap rig.maps call callNs).1
          injections := rig.injections.erase (tag datagram) }
      else
        rig
  | .turn => if 1024 < rig.injections.keys.length then { rig with injections := ∅ } else rig

/-- What the receiver prints. -/
def report (rig : Rig) (datagram : List UInt8) (fnNs : UInt64) : Option Spans :=
  if datagram.length = msgSize then
    let sentNs := Word.bigEndian64 ((datagram.drop 4).take 8)
    some {
      tag := tag datagram
      legs := (rig.injections.lookup (tag datagram)).map fun injected =>
        (Word.saturatingSub injected sentNs / 1000, Word.saturatingSub fnNs injected / 1000)
      total := Word.saturatingSub fnNs sentNs / 1000 }
  else
    none

/-- The clock is read before the packet is injected and before the function is
called, the call passes on what was received, and as long as there is room the
agent loses nothing. -/
def Orderly (rig : Rig) : Act → Prop
  | .rx1 _ _ _ => True
  | .leg1 datagram injectNs written =>
      datagram.length = msgSize → ∀ rx2Ns victims, written = some (rx2Ns, victims) →
        injectNs ≤ rx2Ns ∧ victims = [] ∧
          (rig.injections.insert (tag datagram) injectNs).keys.length ≤ 1024
  | .leg2 datagram fnNs call callNs => fnNs ≤ callNs ∧ Submits call datagram
  | .turn => True

/-- The agent knows the same tags as the receiver, each from a little later on. -/
structure Paired (rig : Rig) : Prop where
  known : ∀ tag, rig.injections.lookup tag = none ↔ rig.maps.timestamp2Map.get tag = none
  later : ∀ tag injected seen, rig.injections.lookup tag = some injected →
    rig.maps.timestamp2Map.get tag = some seen → injected ≤ seen

section Paired

variable {rig : Rig} (paired : Paired rig)

include paired

theorem Paired.mem_iff (tag : UInt32) : tag ∈ rig.injections ↔ tag ∈ rig.maps.timestamp2Map := by
  rw [← AList.lookup_isSome, Option.isSome_iff_ne_none, ne_eq, paired.known tag,
    BoundedMap.mem_iff_get]
  exact Option.ne_none_iff_exists'

theorem Paired.length_insert (tag : UInt32) (first second : UInt64) :
    (rig.maps.timestamp2Map.table.insert tag second).keys.length =
      (rig.injections.insert tag first).keys.length := by
  apply List.Perm.length_eq
  rw [List.perm_ext_iff_of_nodup (AList.keys_nodup _) (AList.keys_nodup _)]
  intro other
  rw [← AList.mem_keys, ← AList.mem_keys, AList.mem_insert, AList.mem_insert, paired.mem_iff]
  rfl

theorem Paired.length_le : rig.injections.keys.length ≤ 1024 := by
  have same : rig.injections.keys.length = rig.maps.timestamp2Map.keys.length := by
    apply List.Perm.length_eq
    rw [List.perm_ext_iff_of_nodup (AList.keys_nodup _) rig.maps.timestamp2Map.keys_nodup]
    intro other
    rw [← AList.mem_keys, BoundedMap.mem_keys, paired.mem_iff]
  rw [same]
  exact rig.maps.timestamp2Map.bounded

theorem Paired.rx1 (now : UInt64) (frame : List UInt8) (victims : List UInt32) :
    Paired { rig with maps := xdpRx1Handler rig.maps frame now victims } := by
  unfold xdpRx1Handler
  cases parsePayloadTag frame with
  | none => exact paired
  | some tag => exact ⟨paired.known, paired.later⟩

theorem Paired.leg1 {datagram : List UInt8} {injectNs rx2Ns : UInt64}
    (whole : datagram.length = msgSize) (earlier : injectNs ≤ rx2Ns)
    (room : (rig.injections.insert (tag datagram) injectNs).keys.length ≤ 1024) :
    Paired {
      maps := (xdpRx2Handler rig.maps (craftTunPacket datagram) rx2Ns []).1
      injections := rig.injections.insert (tag datagram) injectNs } := by
  have long : 4 ≤ datagram.length := by
    rw [whole]
    decide
  rw [xdpRx2Handler_of_parsed rig.maps _ rx2Ns [] (parsePayloadTag_craftTunPacket long)]
  rw [← paired.length_insert _ _ rx2Ns] at room
  have seen := @BoundedMap.get_insertEvicting_nil _ _ _ _ rig.maps.timestamp2Map (tag datagram)
    rx2Ns room
  constructor
  · intro other
    simp only [seen, Table.lookup_insert_ite]
    split
    · exact iff_of_false (by simp) (by simp)
    · exact paired.known other
  · intro other injected later
    simp only [seen, Table.lookup_insert_ite]
    split
    · rintro ⟨⟩ ⟨⟩
      exact earlier
    · exact paired.later other injected later

theorem Paired.leg2 {datagram : List UInt8} {call : FnCall} {callNs : UInt64}
    (parsed : callTag configMap call = some (tag datagram)) :
    Paired {
      maps := (fnCallHandler configMap rig.maps call callNs).1
      injections := rig.injections.erase (tag datagram) } := by
  have seen := fun other => (fnCallHandler_of_parsed configMap rig.maps _ other callNs parsed).2
  have erased : ∀ other, (rig.injections.erase (tag datagram)).lookup other =
      if other = tag datagram then none else rig.injections.lookup other := by
    intro other
    split
    next same => rw [same, AList.lookup_erase]
    next different => exact AList.lookup_erase_ne different
  constructor
  · intro other
    simp only [seen, erased]
    split
    · exact Iff.rfl
    · exact paired.known other
  · intro other injected later
    simp only [seen, erased]
    split
    · rintro ⟨⟩
    · exact paired.later other injected later

end Paired

theorem paired_start : Paired .start where
  known _ := Iff.rfl
  later _ _ _ nothing := by cases nothing

variable {configMap} (written : configMap.get uprobeConfigKey = some ⟨3, 296, 0⟩)

include written

theorem Paired.step {rig : Rig} (paired : Paired rig) {act : Act} (orderly : Orderly rig act) :
    Paired (step configMap rig act) := by
  cases act with
  | rx1 now frame victims => exact paired.rx1 now frame victims
  | leg1 datagram injectNs result =>
      simp only [Simulator.step]
      split
      next whole =>
        cases result with
        | none => exact paired
        | some result =>
            obtain ⟨rx2Ns, victims⟩ := result
            obtain ⟨earlier, rfl, room⟩ := orderly whole rx2Ns victims rfl
            exact paired.leg1 whole earlier room
      next => exact paired
  | leg2 datagram fnNs call callNs =>
      simp only [Simulator.step]
      split
      next whole =>
        have long : 4 ≤ datagram.length := by
          rw [whole]
          decide
        exact paired.leg2 configMap (callTag_of_submits written orderly.2 long)
      next => exact paired
  | turn =>
      simp only [Simulator.step]
      rw [if_neg (Nat.not_lt.mpr paired.length_le)]
      exact paired

/-- What the receiver prints about a datagram and what the agent measures. -/
structure Agree (configMap : ConfigMap) (rig : Rig) (datagram : List UInt8) (fnNs : UInt64)
    (call : FnCall) (callNs : UInt64) : Prop where
  /-- A leg is printed for exactly those calls that the agent measures. -/
  both : ∃ spans, report rig datagram fnNs = some spans ∧ spans.tag = tag datagram ∧
    (spans.legs = none ↔ (fnCallHandler configMap rig.maps call callNs).2 = none) ∧
    ∀ senderTun tunFn latency, spans.legs = some (senderTun, tunFn) →
      (fnCallHandler configMap rig.maps call callNs).2 = some latency →
      latency.toNat < (tunFn.toNat + 1) * 1000 + (callNs.toNat - fnNs.toNat)

theorem Paired.agree {rig : Rig} (paired : Paired rig) {datagram : List UInt8} {fnNs : UInt64}
    {call : FnCall} {callNs : UInt64} (whole : datagram.length = msgSize)
    (orderly : Orderly rig (.leg2 datagram fnNs call callNs)) :
    Agree configMap rig datagram fnNs call callNs := by
  obtain ⟨before, submits⟩ := orderly
  have long : 4 ≤ datagram.length := by
    rw [whole]
    decide
  have parsed := callTag_of_submits written submits long
  have sampled := (fnCallHandler_of_parsed configMap rig.maps _ 0 callNs parsed).1
  refine ⟨_, if_pos whole, rfl, ?_, ?_⟩
  · rw [sampled, Option.map_eq_none_iff, Option.map_eq_none_iff]
    exact paired.known _
  · intro senderTun tunFn latency spans measured
    rw [sampled] at measured
    obtain ⟨injected, noted, printed⟩ := Option.map_eq_some_iff.mp spans
    obtain ⟨seen, stored, rfl⟩ := Option.map_eq_some_iff.mp measured
    have later := UInt64.le_iff_toNat_le.mp (paired.later _ _ _ noted stored)
    have span : tunFn.toNat = (fnNs.toNat - injected.toNat) / 1000 := by
      rw [← (Prod.mk.inj printed).2, UInt64.toNat_div, Word.toNat_saturatingSub]
      rfl
    rw [UInt64.le_iff_toNat_le] at before
    rw [Word.toNat_saturatingSub, span]
    omega

/-- While the agent keeps what it stores, the receiver and the agent tell the
same story of every datagram. -/
structure SameStory (configMap : ConfigMap) (acts : List Act) : Prop where
  paired : Paired (acts.foldl (step configMap) .start)
  agree : ∀ earlier datagram fnNs call callNs later,
    acts = earlier ++ .leg2 datagram fnNs call callNs :: later → datagram.length = msgSize →
    Agree configMap (earlier.foldl (step configMap) .start) datagram fnNs call callNs

omit written

theorem sameStory_of_loaded {exe : String} {pid : Int64} {program : Program} {attached : Attached}
    (loaded : Loaded (printed exe pid) program attached) (acts : List Act)
    (orderly : Run.Along (step attached.configMap) Orderly .start acts) :
    SameStory attached.configMap acts := by
  have written := configMap_printed loaded
  have reached : ∀ {acts : List Act}, Run.Along (step attached.configMap) Orderly .start acts →
      Paired (acts.foldl (step attached.configMap) .start) := by
    intro acts met
    exact met.invariant Paired (fun _ _ here paired => paired.step written here) paired_start
  refine ⟨reached orderly, ?_⟩
  rintro earlier datagram fnNs call callNs later rfl whole
  obtain ⟨before, here, -⟩ := Run.along_append.mp orderly
  exact (reached before).agree written whole here

def datagram : List UInt8 :=
  [0, 0, 0, 7] ++ Word.bigEndianBytes64 1000 ++ .replicate 52 0

/-- The slot at address 4096, the arena right behind it. -/
def submitted : FnCall where
  arg index := if index = 2 then some 4096 else some 0
  memory := Memory.segment 4096
    (.replicate 296 0 ++ Memory.wordBytes 4408 ++ [64, 0, 0, 0] ++ [64, 0, 0, 0] ++ datagram)

theorem submits_submitted : Submits submitted datagram :=
  ⟨4096, 4408, rfl, by decide, by decide +kernel, by decide, by decide +kernel⟩

def ethernetHeader : List UInt8 := [0, 0, 0, 0, 0, 1, 0, 0, 0, 0, 0, 2, 0x08, 0x00]

theorem tag_at_every_hook_datagram :
    internetChecksum ((craftTunPacket datagram).take 20) = 0 ∧
      ∃ tag, datagram.take 4 = Word.bigEndianBytes tag ∧
        parsePayloadTag (ethernetHeader ++ craftTunPacket datagram) = some tag ∧
        parsePayloadTag (craftTunPacket datagram) = some tag ∧
        callTag (printedAttached "/sim" 42).configMap submitted = some tag :=
  tag_at_every_hook (loaded_printed (by decide) 42) _ _ _ _ (by decide) ⟨rfl, rfl⟩
    (carries_craftTunPacket datagram) submits_submitted

def trip : List Act :=
  [.rx1 20000 (ethernetHeader ++ craftTunPacket datagram) [],
    .leg1 datagram 50000 (some (51000, [])), .turn,
    .leg1 [1, 2, 3] 60000 (some (61000, [])), .turn,
    .leg2 datagram 90000 submitted 92000, .turn]

theorem sameStory_trip :
    SameStory (printedAttached "/sim" 42).configMap trip ∧
      (report ((trip.take 5).foldl (step (printedAttached "/sim" 42).configMap) .start) datagram
        90000).map Spans.legs = some (some (49, 40)) ∧
      (fnCallHandler (printedAttached "/sim" 42).configMap
        ((trip.take 5).foldl (step (printedAttached "/sim" 42).configMap) .start).maps submitted
        92000).2 = some 41000 := by
  refine ⟨sameStory_of_loaded (loaded_printed (by decide) 42) _ ?_, by decide +kernel,
    by decide +kernel⟩
  refine ⟨trivial, ?_, trivial, ?_, trivial, ⟨by decide, submits_submitted⟩, trivial, trivial⟩
  · rintro - rx2Ns victims ⟨⟩
    exact ⟨by decide, rfl, by decide +kernel⟩
  · intro other
    cases other

end BpfAgent.IflatUprobe.Simulator
