import BpfAgent.IflatUprobe.Ebpf
import Mathlib.Data.List.GetD

/-!
# IFLAT_UPROBE: telling frames apart

The hooks see frames with an Ethernet header and frames that start at the IP
header, and guess from bytes 12 to 14 which one they have.  On a bare packet
these bytes belong to the source address; on an Ethernet frame that carries
something else than IPv4 the whole frame is then read as an IP packet.
-/

namespace BpfAgent.IflatUprobe

open Packet

theorem l4Hlen_congr {left right : List UInt8} {l4 other : Nat} {protocol : UInt8}
    (lengths : left.length + other = right.length + l4)
    (dataOffset : left[l4 + 12]? = right[other + 12]?) :
    l4Hlen protocol left l4 = l4Hlen protocol right other := by
  unfold l4Hlen
  rw [tcpHlen_congr lengths dataOffset]

theorem parseIpv4Tag_append (header packet : List UInt8) :
    parseIpv4Tag (header ++ packet) header.length = parseIpv4Tag packet 0 := by
  apply parseTag_append
  intro protocol l4
  apply l4Hlen_congr
  · rw [List.length_append]
    omega
  · rw [Nat.add_assoc, List.getElem?_append_right (Nat.le_add_right _ _),
      Nat.add_sub_cancel_left]

/-- What the guess takes for an Ethernet header. -/
def Framed (frame : List UInt8) : Prop :=
  readBeU16 frame 12 = some ethPIp ∧
    (readU8 frame ethHlen).any (fun (version : UInt8) => version >>> 4 = 4)

theorem parsePayloadTag_framed {frame : List UInt8} (framed : Framed frame) :
    parsePayloadTag frame = parseIpv4Tag frame ethHlen :=
  if_pos framed

theorem parsePayloadTag_bare {frame : List UInt8} (bare : ¬Framed frame) :
    parsePayloadTag frame = parseIpv4Tag frame 0 :=
  if_neg bare

structure Ipv4Packet (packet : List UInt8) : Prop where
  length : 20 ≤ packet.length
  version : packet.getD 0 0 >>> 4 = 4

structure EthernetHeader (header : List UInt8) : Prop where
  length : header.length = ethHlen
  etherType : header.drop 12 = [0x08, 0x00]

def sourceAddress (packet : List UInt8) : List UInt8 := (packet.drop 12).take 4

/-- The network 8.0.64.0/20. -/
def LooksFramed (address : List UInt8) : Prop :=
  ∃ third fourth, address = [0x08, 0x00, third, fourth] ∧ third >>> 4 = 4

/-- Both framings of the packet give the tag of the packet itself. -/
def FramingIgnored (packet : List UInt8) : Prop :=
  parsePayloadTag packet = parseIpv4Tag packet 0 ∧
    ∀ header, EthernetHeader header →
      parsePayloadTag (header ++ packet) = parseIpv4Tag packet 0

theorem EthernetHeader.framed {header packet : List UInt8} (ethernet : EthernetHeader header)
    (ipv4 : Ipv4Packet packet) : Framed (header ++ packet) := by
  have inHeader : ∀ off < 2, (header ++ packet)[12 + off]? = [0x08, 0x00][off]? := by
    intro off bound
    rw [List.getElem?_append_left (by rw [ethernet.length, ethHlen]; omega),
      ← List.getElem?_drop, ethernet.etherType]
  have high := inHeader 0 (by omega)
  have low := inHeader 1 (by omega)
  have length := ipv4.length
  have version : (header ++ packet)[ethHlen]? = some (packet.getD 0 0) := by
    rw [← ethernet.length, List.getElem?_append_right (Nat.le_refl _), Nat.sub_self,
      List.getElem?_eq_getElem (by omega), List.getD_eq_getElem]
  constructor
  · simp only [readBeU16, readU8_eq]
    rw [high, low]
    rfl
  · rw [readU8_eq, version, Option.any_some]
    exact decide_eq_true ipv4.version

theorem EthernetHeader.parsePayloadTag_append {header packet : List UInt8}
    (ethernet : EthernetHeader header) (ipv4 : Ipv4Packet packet) :
    parsePayloadTag (header ++ packet) = parseIpv4Tag packet 0 := by
  rw [parsePayloadTag_framed (ethernet.framed ipv4), ← ethernet.length, parseIpv4Tag_append]

theorem readBeU16_eq_some_iff {frame : List UInt8} {off : Nat} :
    readBeU16 frame off = some ethPIp ↔
      frame[off]? = some 0x08 ∧ frame[off + 1]? = some 0x00 := by
  have halves : ∀ high low : UInt8,
      (high.toUInt16 <<< 8 ||| low.toUInt16 = ethPIp ↔ high = 0x08 ∧ low = 0x00) := by
    intro high low
    have highBound : high.toNat < 2 ^ 8 := high.toNat_lt
    have lowBound : low.toNat < 2 ^ 8 := low.toNat_lt
    rw [← UInt16.toNat_inj, ← UInt8.toNat_inj, ← UInt8.toNat_inj, Word.toNat_joinBytes]
    change high.toNat * 2 ^ 8 + low.toNat = 2048 ↔ high.toNat = 8 ∧ low.toNat = 0
    omega
  simp only [readBeU16, readU8_eq]
  cases frame[off]? with
  | none => simp
  | some high =>
      cases frame[off + 1]? with
      | none => simp
      | some low =>
          simpa using halves high low

theorem Ipv4Packet.framed_iff {packet : List UInt8} (ipv4 : Ipv4Packet packet) :
    Framed packet ↔ LooksFramed (sourceAddress packet) := by
  have length := ipv4.length
  have address : sourceAddress packet = [packet[12], packet[13], packet[14], packet[15]] := by
    apply List.ext_getElem?
    intro i
    rw [sourceAddress, List.getElem?_take, List.getElem?_drop]
    rcases i with _ | _ | _ | _ | i
    · simp
    · simp
    · simp
    · simp
    · simp
  unfold Framed LooksFramed ethHlen
  rw [readBeU16_eq_some_iff, readU8_eq, address, List.getElem?_eq_getElem (by omega),
    List.getElem?_eq_getElem (by omega), List.getElem?_eq_getElem (by omega), Option.any_some,
    decide_eq_true_eq, Option.some_inj, Option.some_inj]
  constructor
  · rintro ⟨⟨first, second⟩, version⟩
    exact ⟨_, _, by rw [first, second], version⟩
  · rintro ⟨third, fourth, same, version⟩
    simp only [List.cons.injEq] at same
    obtain ⟨first, second, rfl, -⟩ := same
    exact ⟨⟨first, second⟩, version⟩

theorem Ipv4Packet.framingIgnored_iff {packet : List UInt8} (ipv4 : Ipv4Packet packet) :
    FramingIgnored packet ↔
      (LooksFramed (sourceAddress packet) →
        parseIpv4Tag packet ethHlen = parseIpv4Tag packet 0) := by
  rw [← ipv4.framed_iff]
  constructor
  · rintro ⟨bare, -⟩ framed
    rw [← parsePayloadTag_framed framed, bare]
  · intro harmless
    refine ⟨?_, fun header ethernet => ethernet.parsePayloadTag_append ipv4⟩
    by_cases framed : Framed packet
    · rw [parsePayloadTag_framed framed, harmless framed]
    · exact parsePayloadTag_bare framed

def datagramFrom (source : List UInt8) : List UInt8 :=
  [0x45, 0, 0, 32, 0, 0, 0x40, 0, 64, 17, 0, 0] ++ source ++
    [10, 0, 0, 2, 0x03, 0xe8, 0x13, 0x9c, 0, 12, 0, 0, 1, 2, 3, 4]

section DatagramFrom

variable (first second third fourth : UInt8)

theorem datagramFrom_ipv4 : Ipv4Packet (datagramFrom [first, second, third, fourth]) := by
  constructor
  · simp [datagramFrom]
  · change (0x45 : UInt8) >>> 4 = 4
    decide

theorem sourceAddress_datagramFrom :
    sourceAddress (datagramFrom [first, second, third, fourth]) =
      [first, second, third, fourth] :=
  rfl

theorem parseIpv4Tag_datagramFrom :
    parseIpv4Tag (datagramFrom [first, second, third, fourth]) 0 = some 0x01020304 := by
  have found : payloadOff l4Hlen (datagramFrom [first, second, third, fourth]) 0 = some 28 := by
    rw [payloadOff_eq_some_iff]
    exact ⟨0x45, 17, 8, rfl, rfl, by simp [datagramFrom], rfl, by decide, rfl, rfl⟩
  have inside : 28 + keySize ≤ (datagramFrom [first, second, third, fourth]).length := by
    simp [datagramFrom, keySize]
  have payload : ∀ i < keySize, (datagramFrom [first, second, third, fourth])[28 + i]? =
      ([1, 2, 3, 4] : List UInt8)[0 + i]? := by
    intro i _
    rw [← List.getElem?_drop, Nat.zero_add]
    rfl
  rw [parseIpv4Tag, parseTag_eq_bind, found, Option.bind_some, dif_pos inside,
    tagAt_congr inside (by decide) payload]
  decide

theorem parseIpv4Tag_datagramFrom_shifted :
    parseIpv4Tag (datagramFrom [first, second, third, fourth]) ethHlen = none := by
  rw [parseIpv4Tag, parseTag, dif_neg (by simp [datagramFrom, ethHlen])]

end DatagramFrom

/-- The framing is ignored for every packet from a source exactly when the
source is not in 8.0.64.0/20, and for a packet from there when what is found
14 bytes further on is the same. -/
theorem framingIgnored_from_source_iff (first second third fourth : UInt8) :
    ((∀ packet, Ipv4Packet packet → sourceAddress packet = [first, second, third, fourth] →
        FramingIgnored packet) ↔
      ¬LooksFramed [first, second, third, fourth]) ∧
    ∀ packet, Ipv4Packet packet → sourceAddress packet = [first, second, third, fourth] →
      (FramingIgnored packet ↔
        (LooksFramed [first, second, third, fourth] →
          parseIpv4Tag packet ethHlen = parseIpv4Tag packet 0)) := by
  have each : ∀ packet, Ipv4Packet packet →
      sourceAddress packet = [first, second, third, fourth] →
      (FramingIgnored packet ↔
        (LooksFramed [first, second, third, fourth] →
          parseIpv4Tag packet ethHlen = parseIpv4Tag packet 0)) := by
    intro packet ipv4 source
    rw [ipv4.framingIgnored_iff, source]
  refine ⟨?_, each⟩
  constructor
  · intro ignored misread
    have ipv4 := datagramFrom_ipv4 first second third fourth
    have source := sourceAddress_datagramFrom first second third fourth
    have same := (each _ ipv4 source).mp (ignored _ ipv4 source) misread
    rw [parseIpv4Tag_datagramFrom, parseIpv4Tag_datagramFrom_shifted] at same
    cases same
  · intro apart packet ipv4 source
    exact (each packet ipv4 source).mpr fun misread => absurd misread apart

theorem datagramFrom_misread :
    Ipv4Packet (datagramFrom [8, 0, 64, 1]) ∧
      parsePayloadTag (datagramFrom [8, 0, 64, 1]) = none ∧
      parsePayloadTag (List.replicate 12 0xaa ++ [0x08, 0x00] ++ datagramFrom [8, 0, 64, 1]) =
        some 0x01020304 :=
  ⟨datagramFrom_ipv4 8 0 64 1, by decide, by decide⟩

/-- An Ethernet frame of another EtherType than IPv4. -/
structure OtherFrame (frame : List UInt8) : Prop where
  length : ethHlen ≤ frame.length
  etherType : readBeU16 frame 12 ≠ some ethPIp

def macIhl (frame : List UInt8) : Nat := (frame.getD 0 0 &&& 0x0f).toNat * 4

def macDataOffset (frame : List UInt8) : Nat :=
  (frame.getD (macIhl frame + 12) 0 >>> 4).toNat * 4

/-- The destination address starts like an IPv4 header, the fourth byte of the
source address is UDP or TCP, and the frame is long enough for a tag. -/
structure ImitatesIpv4 (frame : List UInt8) : Prop where
  version : frame.getD 0 0 >>> 4 = 4
  header : 20 ≤ macIhl frame
  payload : frame[9]? = some ipprotoUdp ∧ macIhl frame + udpHlen + keySize ≤ frame.length ∨
    frame[9]? = some ipprotoTcp ∧ 20 ≤ macDataOffset frame ∧
      macIhl frame + macDataOffset frame + keySize ≤ frame.length

/-- The frame has no tag, and neither hook changes a map. -/
def Skipped (frame : List UInt8) : Prop :=
  parsePayloadTag frame = none ∧ ∀ maps now victims,
    xdpRx1Handler maps frame now victims = maps ∧
      (xdpRx2Handler maps frame now victims).1 = maps

theorem skipped_iff {frame : List UInt8} : Skipped frame ↔ parsePayloadTag frame = none := by
  constructor
  · rintro ⟨untagged, -⟩
    exact untagged
  · intro untagged
    refine ⟨untagged, ?_⟩
    intro maps now victims
    simp [xdpRx1Handler, xdpRx2Handler, untagged]

theorem l4Hlen_eq_some_iff {protocol : UInt8} {packet : List UInt8} {l4 hlen : Nat} :
    l4Hlen protocol packet l4 = some hlen ↔
      protocol = ipprotoUdp ∧ hlen = udpHlen ∨
        protocol = ipprotoTcp ∧ tcpHlen packet l4 = some hlen := by
  unfold l4Hlen
  split
  next udp =>
    subst udp
    simp [ipprotoUdp, ipprotoTcp, eq_comm]
  next other =>
    split
    next tcp => simp [tcp, ipprotoUdp, ipprotoTcp]
    next unknown => simp [other, unknown]

theorem OtherFrame.parsePayloadTag_ne_none_iff {frame : List UInt8} (other : OtherFrame frame) :
    parsePayloadTag frame ≠ none ↔ ImitatesIpv4 frame := by
  have bare : ¬Framed frame := fun framed => other.etherType framed.1
  have length : 14 ≤ frame.length := other.length
  have version := List.getElem?_eq_getElem (show 0 < frame.length by omega)
  have first : frame.getD 0 0 = frame[0] := List.getD_eq_getElem _ _ (by omega)
  rw [parsePayloadTag_bare bare, parseIpv4Tag, parseTag_ne_none_iff]
  simp only [payloadOff_eq_some_iff, Nat.zero_add, l4Hlen_eq_some_iff]
  constructor
  · rintro ⟨off, ⟨versionIhl, protocol, hlen, readVersion, readProtocol, -, four, long,
      accepted, rfl⟩, inside⟩
    cases version.symm.trans readVersion
    rw [← first] at four long accepted inside
    refine ⟨four, long, ?_⟩
    rcases accepted with ⟨rfl, rfl⟩ | ⟨rfl, tcp⟩
    · exact .inl ⟨readProtocol, inside⟩
    · obtain ⟨dataOffset, read, -, enough, rfl⟩ := tcpHlen_eq_some_iff.mp tcp
      have offset : frame.getD (macIhl frame + 12) 0 = dataOffset := by
        rw [List.getD_eq_getElem?_getD, macIhl, read, Option.getD_some]
      exact .inr ⟨readProtocol, by rwa [macDataOffset, offset],
        by rwa [macDataOffset, offset]⟩
  · rintro ⟨four, long, ⟨udp, inside⟩ | ⟨tcp, enough, inside⟩⟩
    · have key : keySize = 4 := rfl
      have header : udpHlen = 8 := rfl
      refine ⟨_, ⟨_, _, udpHlen, version, udp, ?_, ?_, ?_, .inl ⟨rfl, rfl⟩, rfl⟩, ?_⟩
      · omega
      · rwa [← first]
      · rwa [← first]
      · rwa [← first]
    · have key : keySize = 4 := rfl
      refine ⟨_, ⟨_, _, macDataOffset frame, version, tcp, ?_, ?_, ?_, .inr ⟨rfl, ?_⟩, rfl⟩, ?_⟩
      · omega
      · rwa [← first]
      · rwa [← first]
      · rw [tcpHlen_eq_some_iff, ← first]
        have offsetInside : macIhl frame + 12 < frame.length := by omega
        refine ⟨_, List.getElem?_eq_getElem offsetInside, ?_, enough, ?_⟩
        · change macIhl frame + 20 ≤ frame.length
          omega
        · rw [macDataOffset, List.getD_eq_getElem _ _ offsetInside]
      · rwa [← first]

/-- A frame that does not carry IPv4 is skipped exactly when its addresses do
not imitate an IPv4 header. -/
theorem OtherFrame.skipped_iff_not_imitatesIpv4 {frame : List UInt8} (other : OtherFrame frame) :
    Skipped frame ↔ ¬ImitatesIpv4 frame := by
  rw [skipped_iff, ← other.parsePayloadTag_ne_none_iff, not_not]

/-- An ARP reply to 48:d7:05:00:00:01 from 00:1b:21:11:00:02, padded to 60 bytes. -/
def arpReply : List UInt8 :=
  [0x48, 0xd7, 0x05, 0x00, 0x00, 0x01, 0x00, 0x1b, 0x21, 0x11, 0x00, 0x02, 0x08, 0x06,
    0x00, 0x01, 0x08, 0x00, 0x06, 0x04, 0x00, 0x02, 0x00, 0x1b, 0x21, 0x11, 0x00, 0x02,
    10, 0, 0, 2, 0x48, 0xd7, 0x05, 0x00, 0x00, 0x01, 10, 0, 0, 1] ++ List.replicate 18 0

theorem arpReply_tagged :
    OtherFrame arpReply ∧ parsePayloadTag arpReply = some 0x00010000 ∧
      xdpRx1Handler .empty arpReply 5 [] ≠ .empty := by
  refine ⟨⟨by decide, by decide⟩, by decide, ?_⟩
  intro same
  have stored : (xdpRx1Handler .empty arpReply 5 []).timestamp1Map.get 0x00010000 = some 5 := by
    decide
  rw [same] at stored
  cases stored

theorem arpReply_skipped :
    OtherFrame (0x00 :: arpReply.tail) ∧ Skipped (0x00 :: arpReply.tail) := by
  have other : OtherFrame (0x00 :: arpReply.tail) := ⟨by decide, by decide⟩
  refine ⟨other, other.skipped_iff_not_imitatesIpv4.mpr ?_⟩
  rintro ⟨version, -, -⟩
  exact absurd version (by decide)

end BpfAgent.IflatUprobe
