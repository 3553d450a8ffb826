import BpfAgent.Grammar
import BpfAgent.Iflat.Checksum
import BpfAgent.Iflat.Padding

/-!
# IFLAT simulator: crafting and recognising packets

The test rig sends UDP datagrams, TCP segments and ICMP echo requests that
carry a tag and the time of sending, and looks for them among the packets that
leave through the tunnel.  It has a parser of its own, which agrees with the
hooks of the agent on where the payload starts.

What is random in the source is an argument here.  Of a UDP datagram the rig
only provides the payload.
-/

namespace BpfAgent.Iflat.Simulator

open Packet OnesComplement

def destIp : List UInt8 := [10, 200, 0, 2]
def destPort : UInt16 := 5000
def tcpDestPort : UInt16 := 5001
def vethNsIpOctets : List UInt8 := [192, 168, 100, 2]
def msgSize : Nat := 64

inductive Proto where
  | udp
  | tcp
  | icmp
  deriving DecidableEq

/-- Tag, time of sending and filler. -/
def message (tag : UInt32) (sentNs : UInt64) : List UInt8 :=
  Word.bigEndianBytes tag ++
    (Word.bigEndianBytes64 sentNs ++ List.replicate (msgSize - 12) 0)

/-- The kernel fills in the checksum. -/
def ipv4Header (protocol : UInt8) (total : UInt16) : List UInt8 :=
  [0x45, 0] ++ Word.bigEndianBytes16 total ++ Word.bigEndianBytes16 0 ++
    Word.bigEndianBytes16 0x4000 ++ [64, protocol] ++ Word.bigEndianBytes16 0 ++
    vethNsIpOctets ++ destIp

def tcpHeader (sport : UInt16) (seq : UInt32) (checksum : UInt16) : List UInt8 :=
  Word.bigEndianBytes16 sport ++ Word.bigEndianBytes16 tcpDestPort ++ Word.bigEndianBytes seq ++
    Word.bigEndianBytes 0 ++ [(5 : UInt8) <<< 4, 0x02] ++ Word.bigEndianBytes16 64240 ++
    Word.bigEndianBytes16 checksum ++ Word.bigEndianBytes16 0

def craftTcpSegment (tag : UInt32) (sentNs : UInt64) (port : UInt16) (seq : UInt32) :
    List UInt8 :=
  let sport := port ||| 0x4000
  let checksum := tcpChecksum vethNsIpOctets destIp (tcpHeader sport seq 0 ++ message tag sentNs)
  ipv4Header ipprotoTcp 104 ++ (tcpHeader sport seq checksum ++ message tag sentNs)

def icmpHeader (ident seq checksum : UInt16) : List UInt8 :=
  [icmpEcho, 0] ++ Word.bigEndianBytes16 checksum ++ Word.bigEndianBytes16 ident ++
    Word.bigEndianBytes16 seq

def craftIcmpEcho (tag : UInt32) (sentNs : UInt64) (seq ident : UInt16) : List UInt8 :=
  let checksum := internetChecksum (icmpHeader ident seq 0 ++ message tag sentNs)
  ipv4Header ipprotoIcmp 92 ++ (icmpHeader ident seq checksum ++ message tag sentNs)

theorem wordSum_fits {start : UInt32} {data : List UInt8} (small : start.toNat < 2 ^ 20)
    (short : data.length ≤ 84) : start.toNat + wordSum data + 65535 < 2 ^ 32 := by
  have bound := wordSum_le data
  have words : (data.length + 1) / 2 ≤ 42 := by omega
  have total := Nat.mul_le_mul_left 65535 words
  omega

theorem tcpChecksum_tcpHeader (tag : UInt32) (sentNs : UInt64) (sport : UInt16) (seq : UInt32)
    {checksum : UInt16}
    (computed : checksum =
      tcpChecksum vethNsIpOctets destIp (tcpHeader sport seq 0 ++ message tag sentNs)) :
    tcpChecksum vethNsIpOctets destIp (tcpHeader sport seq checksum ++ message tag sentNs) = 0 := by
  have split : ∀ value, tcpHeader sport seq value ++ message tag sentNs =
      (tcpHeader sport seq 0).take 16 ++
        (value >>> 8).toUInt8 :: value.toUInt8 :: (0 :: 0 :: message tag sentNs) :=
    fun _ => rfl
  have even : ((tcpHeader sport seq 0).take 16).length = 16 := rfl
  have length : ∀ value, (tcpHeader sport seq value ++ message tag sentNs).length = 84 :=
    fun _ => rfl
  have cleared := split 0
  rw [tcpChecksum, length] at computed ⊢
  rw [split checksum]
  apply foldChecksum_insert
  · rw [even]
  · apply wordSum_fits
    · decide
    · exact Nat.le_refl 84
  · rw [computed, cleared]
    rfl

theorem internetChecksum_icmpHeader (tag : UInt32) (sentNs : UInt64) (ident seq : UInt16)
    {checksum : UInt16}
    (computed : checksum = internetChecksum (icmpHeader ident seq 0 ++ message tag sentNs)) :
    internetChecksum (icmpHeader ident seq checksum ++ message tag sentNs) = 0 := by
  have split : ∀ value, icmpHeader ident seq value ++ message tag sentNs =
      [icmpEcho, 0] ++ (value >>> 8).toUInt8 :: value.toUInt8 ::
        (Word.bigEndianBytes16 ident ++ Word.bigEndianBytes16 seq ++ message tag sentNs) :=
    fun _ => rfl
  have cleared := split 0
  rw [internetChecksum] at computed ⊢
  rw [split checksum]
  apply foldChecksum_insert rfl
  · apply wordSum_fits
    · decide
    · exact Nat.le_of_ble_eq_true rfl
  · rw [computed, cleared]
    rfl

/-- Whoever checks the segment of a crafted packet accepts it. -/
theorem crafted_checksums_verify (tag : UInt32) (sentNs : UInt64) (port : UInt16) (seq : UInt32)
    (icmpSeq ident : UInt16) :
    tcpChecksum vethNsIpOctets destIp ((craftTcpSegment tag sentNs port seq).drop 20) = 0 ∧
      internetChecksum ((craftIcmpEcho tag sentNs icmpSeq ident).drop 20) = 0 :=
  ⟨tcpChecksum_tcpHeader tag sentNs _ seq rfl, internetChecksum_icmpHeader tag sentNs ident icmpSeq rfl⟩

def slice (packet : List UInt8) (low high : Nat) : Option (List UInt8) :=
  if high ≤ packet.length then some ((packet.drop low).take (high - low)) else none

/-- Length of the layer-4 header of a packet to our port, or of an echo request. -/
def ourHlen (packet : List UInt8) (ihl : Nat) (protocol : UInt8) : Option (Nat × Proto) :=
  if protocol = ipprotoUdp then do
    let port ← readBeU16 packet (ihl + 2)
    if port = destPort then some (8, .udp) else none
  else if protocol = ipprotoTcp then do
    let port ← readBeU16 packet (ihl + 2)
    if port = tcpDestPort then
      let dataOffset ← packet[ihl + 12]?
      let hlen := (dataOffset >>> 4).toNat * 4
      if hlen < 20 then none else some (hlen, .tcp)
    else
      none
  else if protocol = ipprotoIcmp then do
    let icmpType ← packet[ihl]?
    if icmpType = icmpEcho then some (8, .icmp) else none
  else
    none

def parsePacket (packet : List UInt8) : Option (UInt32 × UInt64 × Proto) := do
  let versionIhl : UInt8 ← packet[0]?
  let ihl := (versionIhl &&& (0x0f : UInt8)).toNat * 4
  if versionIhl >>> 4 ≠ 4 then
    none
  else if ihl < 20 then
    none
  else
    let dest ← slice packet 16 20
    if dest ≠ destIp then
      none
    else
      let protocol ← packet[9]?
      let (hlen, name) ← ourHlen packet ihl protocol
      if packet.length < ihl + hlen then
        none
      else
        let payload := packet.drop (ihl + hlen)
        let tag ← slice payload 0 4
        let sentNs ← slice payload 4 12
        return (Word.bigEndian tag, Word.bigEndian64 sentNs, name)

def Proto.number : Proto → UInt8
  | .udp => ipprotoUdp
  | .tcp => ipprotoTcp
  | .icmp => ipprotoIcmp

/-- The port a packet goes to, or the type of an ICMP message, is ours. -/
def Addressed (packet : List UInt8) (l4 : Nat) : Proto → Prop
  | .udp => readBeU16 packet (l4 + 2) = some destPort
  | .tcp => readBeU16 packet (l4 + 2) = some tcpDestPort
  | .icmp => packet[l4]? = some icmpEcho

structure Ours (packet : List UInt8) (proto : Proto) : Prop where
  dest : slice packet 16 20 = some destIp
  protocol : packet[9]? = some proto.number
  addressed : Addressed packet (ihl packet) proto

/-- Where the hooks find the tag, the time of sending follows it. -/
def Stamped (packet : List UInt8) (sentNs : UInt64) : Prop :=
  ∃ off, payloadOff l4Hlen packet 0 = some off ∧
    (slice packet (off + 4) (off + 12)).map Word.bigEndian64 = some sentNs

theorem slice_drop {packet : List UInt8} {off low high : Nat} (positive : 0 < high) :
    slice (packet.drop off) low high = slice packet (off + low) (off + high) := by
  have bound : high ≤ packet.length - off ↔ off + high ≤ packet.length := by omega
  have size : off + high - (off + low) = high - low := by omega
  rw [slice, slice, List.length_drop, List.drop_drop, size]
  exact if_congr bound rfl rfl

theorem slice_eq_some_iff {packet bytes : List UInt8} {low high : Nat} :
    slice packet low high = some bytes ↔
      high ≤ packet.length ∧ (packet.drop low).take (high - low) = bytes := by
  unfold slice
  split
  next inside => simp [inside]
  next outside => simp [outside]

theorem bind_guard_eq_some_iff {α β : Type} [DecidableEq α] {read : Option α} {expected : α}
    {next : Option β} {result : β} :
    (read.bind fun found => if found = expected then next else none) = some result ↔
      read = some expected ∧ next = some result := by
  cases read with
  | none => simp
  | some found =>
      rw [Option.bind_some, Option.some.injEq]
      split
      next same => simp [same]
      next other => simp [other]

theorem ourHlen_udp_iff {packet : List UInt8} {l4 hlen : Nat} {proto : Proto} :
    ourHlen packet l4 ipprotoUdp = some (hlen, proto) ↔
      proto = .udp ∧ Addressed packet l4 .udp ∧ hlen = udpHlen := by
  have result : some (8, Proto.udp) = some (hlen, proto) ↔ proto = .udp ∧ hlen = udpHlen := by
    rw [Option.some.injEq, Prod.mk.injEq, udpHlen]
    tauto
  rw [ourHlen, if_pos rfl, Option.bind_eq_bind, bind_guard_eq_some_iff, result]
  exact and_left_comm

theorem ourHlen_icmp_iff {packet : List UInt8} {l4 hlen : Nat} {proto : Proto} :
    ourHlen packet l4 ipprotoIcmp = some (hlen, proto) ↔
      proto = .icmp ∧ Addressed packet l4 .icmp ∧ hlen = icmpHlen := by
  have result : some (8, Proto.icmp) = some (hlen, proto) ↔ proto = .icmp ∧ hlen = icmpHlen := by
    rw [Option.some.injEq, Prod.mk.injEq, icmpHlen]
    tauto
  rw [ourHlen, if_neg (by decide), if_neg (by decide), if_pos rfl, Option.bind_eq_bind,
    bind_guard_eq_some_iff, result]
  exact and_left_comm

theorem ourHlen_tcp_iff {packet : List UInt8} {l4 hlen : Nat} {proto : Proto}
    (fits : l4 + hlen ≤ packet.length) :
    ourHlen packet l4 ipprotoTcp = some (hlen, proto) ↔
      proto = .tcp ∧ Addressed packet l4 .tcp ∧ tcpHlen packet l4 = some hlen := by
  rw [ourHlen, if_neg (by decide), if_pos rfl, Option.bind_eq_bind, bind_guard_eq_some_iff,
    tcpHlen_eq_some_iff, and_left_comm]
  refine and_congr_right fun _ => ?_
  constructor
  · intro read
    obtain ⟨dataOffset, found, rest⟩ := Option.bind_eq_some_iff.mp read
    dsimp only at rest
    split at rest
    · cases rest
    next long =>
      cases rest
      exact ⟨rfl, dataOffset, found, by omega, by omega, rfl⟩
  · rintro ⟨rfl, dataOffset, found, -, long, rfl⟩
    refine Option.bind_eq_some_iff.mpr ⟨dataOffset, found, ?_⟩
    rw [if_neg (by omega)]

theorem ourHlen_other {packet : List UInt8} {l4 : Nat} {protocol : UInt8}
    (other : ∀ proto : Proto, protocol ≠ proto.number) : ourHlen packet l4 protocol = none := by
  have udp : protocol ≠ ipprotoUdp := other .udp
  have tcp : protocol ≠ ipprotoTcp := other .tcp
  have icmp : protocol ≠ ipprotoIcmp := other .icmp
  rw [ourHlen, if_neg udp, if_neg tcp, if_neg icmp]

/-- Of a packet that holds the whole header, the rig and the hooks measure the
same layer-4 header. -/
theorem ourHlen_eq_some_iff {packet : List UInt8} {l4 hlen : Nat} {protocol : UInt8}
    {proto : Proto} (fits : l4 + hlen ≤ packet.length) :
    ourHlen packet l4 protocol = some (hlen, proto) ↔
      protocol = proto.number ∧ Addressed packet l4 proto ∧
        l4Hlen protocol packet l4 = some hlen := by
  constructor
  · intro measured
    by_cases known : ∃ proto : Proto, protocol = proto.number
    · obtain ⟨found, rfl⟩ := known
      cases found with
      | udp =>
          obtain ⟨rfl, addressed, rfl⟩ := ourHlen_udp_iff.mp measured
          exact ⟨rfl, addressed, rfl⟩
      | tcp =>
          obtain ⟨rfl, addressed, length⟩ := (ourHlen_tcp_iff fits).mp measured
          exact ⟨rfl, addressed, length⟩
      | icmp =>
          obtain ⟨rfl, addressed, rfl⟩ := ourHlen_icmp_iff.mp measured
          exact ⟨rfl, addressed, l4Hlen_icmp_eq_some_iff.mpr ⟨rfl, fits, .inl addressed⟩⟩
    · rw [ourHlen_other (not_exists.mp known)] at measured
      cases measured
  · rintro ⟨rfl, addressed, length⟩
    cases proto with
    | udp => exact ourHlen_udp_iff.mpr ⟨rfl, addressed, (Option.some.inj length).symm⟩
    | tcp => exact (ourHlen_tcp_iff fits).mpr ⟨rfl, addressed, length⟩
    | icmp =>
        exact ourHlen_icmp_iff.mpr ⟨rfl, addressed, (l4Hlen_icmp_eq_some_iff.mp length).1⟩

theorem ihl_of_first {packet : List UInt8} {versionIhl : UInt8}
    (first : packet[0]? = some versionIhl) :
    (versionIhl &&& 0x0f).toNat * 4 = ihl packet := by
  rw [ihl, List.getD_eq_getElem?_getD, first, Option.getD_some]

theorem parsePacket_cases {packet : List UInt8} {tag : UInt32} {sentNs : UInt64} {proto : Proto} :
    parsePacket packet = some (tag, sentNs, proto) ↔
      ∃ (versionIhl protocol : UInt8) (hlen : Nat), packet[0]? = some versionIhl ∧
        versionIhl >>> 4 = 4 ∧ 20 ≤ ihl packet ∧ slice packet 16 20 = some destIp ∧
        packet[9]? = some protocol ∧
        ourHlen packet (ihl packet) protocol = some (hlen, proto) ∧
        (slice packet (ihl packet + hlen) (ihl packet + hlen + 4)).map Word.bigEndian = some tag ∧
        (slice packet (ihl packet + hlen + 4) (ihl packet + hlen + 12)).map Word.bigEndian64 =
          some sentNs := by
  unfold parsePacket
  simp only [Option.bind_eq_bind, Option.bind_eq_some_iff, Option.ite_none_left_eq_some]
  constructor
  · rintro ⟨versionIhl, first, four, long, dest, toUs, same, protocol, read, ⟨hlen, name⟩, measured,
      -, tag, tagged, sentNs, stamped, result⟩
    rw [ihl_of_first first] at long measured tagged stamped
    rw [slice_drop (by omega)] at tagged stamped
    cases Option.some.inj result
    rw [not_not.mp same] at toUs
    exact ⟨versionIhl, protocol, hlen, first, not_not.mp four, Nat.not_lt.mp long, toUs, read,
      measured, Option.map_eq_some_iff.mpr ⟨tag, tagged, rfl⟩,
      Option.map_eq_some_iff.mpr ⟨sentNs, stamped, rfl⟩⟩
  · rintro ⟨versionIhl, protocol, hlen, first, four, long, toUs, read, measured, tagged, stamped⟩
    obtain ⟨tagBytes, tagRead, rfl⟩ := Option.map_eq_some_iff.mp tagged
    obtain ⟨sentBytes, sentRead, rfl⟩ := Option.map_eq_some_iff.mp stamped
    have inside := (slice_eq_some_iff.mp sentRead).1
    refine ⟨versionIhl, first, not_not.mpr four, ?_⟩
    rw [ihl_of_first first]
    refine ⟨Nat.not_lt.mpr long, destIp, toUs, not_not.mpr rfl, protocol, read, (hlen, proto),
      measured, by omega, tagBytes, ?_, sentBytes, ?_, rfl⟩
    · rw [slice_drop (by omega)]
      exact tagRead
    · rw [slice_drop (by omega)]
      exact sentRead

theorem payloadOff_of_first {packet : List UInt8} {off : Nat} :
    payloadOff l4Hlen packet 0 = some off ↔
      ∃ (versionIhl protocol : UInt8) (hlen : Nat), packet[0]? = some versionIhl ∧
        versionIhl >>> 4 = 4 ∧ 20 ≤ ihl packet ∧ 20 ≤ packet.length ∧
        packet[9]? = some protocol ∧ l4Hlen protocol packet (ihl packet) = some hlen ∧
        ihl packet + hlen = off := by
  rw [payloadOff_eq_some_iff]
  simp only [Nat.zero_add]
  constructor
  · rintro ⟨versionIhl, protocol, hlen, first, read, fits, four, long, measured, found⟩
    rw [ihl_of_first first] at long measured found
    exact ⟨versionIhl, protocol, hlen, first, four, long, fits, read, measured, found⟩
  · rintro ⟨versionIhl, protocol, hlen, first, four, long, fits, read, measured, found⟩
    rw [← ihl_of_first first] at long measured found
    exact ⟨versionIhl, protocol, hlen, first, read, fits, four, long, measured, found⟩

theorem tagged_iff {packet : List UInt8} {off : Nat} {tag : UInt32} :
    (slice packet off (off + 4)).map Word.bigEndian = some tag ↔
      ∃ inside : off + keySize ≤ packet.length, tagAt packet off inside = tag := by
  rw [Option.map_eq_some_iff]
  constructor
  · rintro ⟨bytes, read, rfl⟩
    obtain ⟨inside, rfl⟩ := slice_eq_some_iff.mp read
    refine ⟨inside, ?_⟩
    rw [tagAt_eq_bigEndian inside, Nat.add_sub_cancel_left]
    rfl
  · rintro ⟨inside, rfl⟩
    refine ⟨_, slice_eq_some_iff.mpr ⟨inside, rfl⟩, ?_⟩
    rw [tagAt_eq_bigEndian inside, Nat.add_sub_cancel_left]
    rfl

theorem parsePacket_eq_some_iff {packet : List UInt8} {tag : UInt32} {sentNs : UInt64}
    {proto : Proto} :
    parsePacket packet = some (tag, sentNs, proto) ↔
      Ours packet proto ∧ txTag packet = some tag ∧ Stamped packet sentNs := by
  rw [parsePacket_cases, txTag, parsePayloadTag, parseTag_eq_some_iff]
  constructor
  · rintro ⟨versionIhl, protocol, hlen, first, four, long, toUs, read, measured, tagged, stamped⟩
    obtain ⟨sentBytes, sliced, -⟩ := Option.map_eq_some_iff.mp stamped
    have inside := (slice_eq_some_iff.mp sliced).1
    obtain ⟨rfl, addressed, length⟩ := (ourHlen_eq_some_iff (by omega)).mp measured
    have found := payloadOff_of_first.mpr
      ⟨versionIhl, _, hlen, first, four, long, by omega, read, length, rfl⟩
    obtain ⟨fits, value⟩ := tagged_iff.mp tagged
    exact ⟨⟨toUs, read, addressed⟩, ⟨_, fits, found, value⟩, _, found, stamped⟩
  · rintro ⟨ours, ⟨off, fits, found, value⟩, other, same, stamped⟩
    cases found.symm.trans same
    obtain ⟨versionIhl, protocol, hlen, first, four, long, -, read, measured, rfl⟩ :=
      payloadOff_of_first.mp found
    cases ours.protocol.symm.trans read
    exact ⟨versionIhl, _, hlen, first, four, long, ours.dest, read,
      (ourHlen_eq_some_iff (by omega)).mpr ⟨rfl, ours.addressed, measured⟩,
      tagged_iff.mpr ⟨fits, value⟩, stamped⟩

/-- The rig recognises exactly the packets addressed to it in which both hooks
of the agent find a tag that a time of sending follows. -/
theorem parsePacket_agrees_with_hooks (header packet : List UInt8) (tag : UInt32)
    (sentNs : UInt64) (proto : Proto) (length : header.length = ethHlen)
    (etherType : header.drop 12 = [0x08, 0x00]) :
    parsePacket packet = some (tag, sentNs, proto) ↔
      Ours packet proto ∧ rxTag (header ++ packet) = some tag ∧ txTag packet = some tag ∧
        Stamped packet sentNs := by
  rw [parsePacket_eq_some_iff, rxTag_append length etherType, txTag]
  tauto

def kernelHeader : List UInt8 :=
  [0x45, 0, 0, 92, 0, 7, 0x40, 0, 64, 17, 0, 0] ++ vethNsIpOctets ++ destIp

def udpHeader : List UInt8 := [0xc0, 0x01, 0x13, 0x88, 0, 72, 0, 0]

def datagramSent : List UInt8 := kernelHeader ++ (udpHeader ++ message 0x01020304 1000)

theorem parsePacket_agrees_sent :
    parsePacket datagramSent = some (0x01020304, 1000, .udp) ∧
      rxTag (ethHeader ++ datagramSent) = some 0x01020304 := by
  have recognised : parsePacket datagramSent = some (0x01020304, 1000, .udp) := by decide
  refine ⟨recognised, ?_⟩
  exact ((parsePacket_agrees_with_hooks ethHeader datagramSent 0x01020304 1000 .udp
    (by decide) (by decide)).mp recognised).2.1

end BpfAgent.Iflat.Simulator
