import BpfAgent.Iflat.NatInvariance
import Mathlib.Data.List.GetD

/-!
# IFLAT: frames longer than their packet

A short packet is padded to the minimum frame size on the wire, and the stack
trims it to the length its header states before it is sent on.  The parser is
bounded by the end of the frame, so that the two hooks can disagree.
-/

namespace BpfAgent.Iflat

open Packet

/-- A whole IPv4 packet with a protocol the hooks look at. -/
structure Datagram (packet : List UInt8) : Prop where
  length : 20 ≤ packet.length
  version : packet.getD 0 0 >>> 4 = 4
  header : 20 ≤ ihl packet
  totalLength : readBeU16 packet 2 = some (UInt16.ofNat packet.length)
  addressable : packet.length < 2 ^ 16
  /-- Neither `more fragments` nor a fragment offset. -/
  unfragmented : (readBeU16 packet 6).map (· &&& 0x3fff) = some 0
  protocol : packet[9]? = some ipprotoUdp ∨ packet[9]? = some ipprotoTcp ∨
    packet[9]? = some ipprotoIcmp ∧
      (packet[ihl packet]? = some icmpEcho ∨ packet[ihl packet]? = some icmpEchoreply)

/-- The four bytes behind the headers end in the padding. -/
def TagInPadding (packet padding : List UInt8) : Prop :=
  ∃ hlen, l4HeaderLength (packet ++ padding) = some hlen ∧
    (packet[9]? = some ipprotoTcp → 20 ≤ hlen) ∧
    packet.length < ihl packet + hlen + keySize ∧
    ihl packet + hlen + keySize ≤ packet.length + padding.length

theorem l4Hlen_udp (packet : List UInt8) (l4 : Nat) :
    l4Hlen ipprotoUdp packet l4 = some udpHlen :=
  rfl

theorem l4Hlen_tcp (packet : List UInt8) (l4 : Nat) :
    l4Hlen ipprotoTcp packet l4 = tcpHlen packet l4 :=
  rfl

theorem l4Hlen_icmp_eq_some_iff {packet : List UInt8} {l4 hlen : Nat} :
    l4Hlen ipprotoIcmp packet l4 = some hlen ↔
      hlen = icmpHlen ∧ l4 + icmpHlen ≤ packet.length ∧
        (packet[l4]? = some icmpEcho ∨ packet[l4]? = some icmpEchoreply) := by
  have positive : 0 < icmpHlen := by decide
  rw [l4Hlen, if_neg (by decide), if_neg (by decide), if_pos rfl]
  split
  next inside =>
    rw [getElem?_eq_byteAt (show l4 < packet.length by omega)]
    dsimp only
    split
    next other =>
      constructor
      · intro impossible
        cases impossible
      · rintro ⟨-, -, echo⟩
        rw [Option.some_inj, Option.some_inj] at echo
        exact absurd echo (not_or.mpr other)
    next echo =>
      rw [Option.some_inj, Option.some_inj, Option.some_inj]
      constructor
      · intro same
        exact ⟨same.symm, inside, by_contra fun other => echo (not_or.mp other)⟩
      · rintro ⟨same, -, -⟩
        exact same.symm
  next outside =>
    constructor
    · intro impossible
      cases impossible
    · rintro ⟨-, inside, -⟩
      exact absurd inside outside

theorem l4Hlen_other {protocol : UInt8} (udp : protocol ≠ ipprotoUdp)
    (tcp : protocol ≠ ipprotoTcp) (icmp : protocol ≠ ipprotoIcmp) (packet : List UInt8)
    (l4 : Nat) : l4Hlen protocol packet l4 = none := by
  rw [l4Hlen, if_neg udp, if_neg tcp, if_neg icmp]

theorem l4Hlen_stable (packet padding : List UInt8) : Stable l4Hlen packet padding := by
  intro protocol l4 hlen fits
  by_cases udp : protocol = ipprotoUdp
  · subst udp
    rw [l4Hlen_udp, l4Hlen_udp]
  · by_cases tcp : protocol = ipprotoTcp
    · subst tcp
      exact tcpHlen_padded padding fits
    · by_cases icmp : protocol = ipprotoIcmp
      · subst icmp
        have positive : 0 < icmpHlen := by decide
        rw [l4Hlen_icmp_eq_some_iff, l4Hlen_icmp_eq_some_iff, List.length_append]
        constructor
        · rintro ⟨rfl, -, echo⟩
          rw [List.getElem?_append_left (by omega)] at echo
          exact ⟨rfl, fits, echo⟩
        · rintro ⟨rfl, inside, echo⟩
          rw [List.getElem?_append_left (by omega)]
          exact ⟨rfl, by omega, echo⟩
      · rw [l4Hlen_other udp tcp icmp, l4Hlen_other udp tcp icmp]

section Datagram

variable {packet : List UInt8} (datagram : Datagram packet) (padding : List UInt8)

include datagram

theorem Datagram.ihl_append : ihl (packet ++ padding) = ihl packet := by
  have length := datagram.length
  rw [ihl, ihl, List.getD_append _ _ _ _ (by omega)]

theorem Datagram.protocol_append : (packet ++ padding)[9]? = packet[9]? :=
  List.getElem?_append_left (by have := datagram.length; omega)

/-- The layer-4 header that the parser accepts is the one the packet's fields describe. -/
theorem Datagram.l4Hlen_iff {protocol : UInt8} (read : packet[9]? = some protocol) {hlen : Nat}
    (long : ihl packet + hlen ≤ (packet ++ padding).length) :
    l4Hlen protocol (packet ++ padding) (ihl packet) = some hlen ↔
      l4HeaderLength (packet ++ padding) = some hlen ∧
        (packet[9]? = some ipprotoTcp → 20 ≤ hlen) := by
  constructor
  · intro accepted
    constructor
    · rw [← datagram.ihl_append padding] at accepted
      exact l4HeaderLength_of_accepted ((datagram.protocol_append padding).trans read) accepted
    · intro tcp
      cases read.symm.trans tcp
      obtain ⟨_, -, -, enough, -⟩ := tcpHlen_eq_some_iff.mp accepted
      exact enough
  · rintro ⟨stated, enough⟩
    unfold l4HeaderLength at stated
    rw [datagram.protocol_append, datagram.ihl_append] at stated
    rcases datagram.protocol with udp | tcp | ⟨icmp, echo⟩
    · cases read.symm.trans udp
      rw [udp] at stated
      cases stated
      rfl
    · cases read.symm.trans tcp
      rw [if_pos tcp] at stated
      cases stated
      have positive := enough tcp
      have inside : ihl packet + 12 < (packet ++ padding).length := by omega
      rw [l4Hlen_tcp, tcpHlen_eq_some_iff]
      refine ⟨_, List.getElem?_eq_getElem inside, by omega, positive, ?_⟩
      rw [List.getD_eq_getElem _ _ inside]
    · cases read.symm.trans icmp
      rw [icmp] at stated
      cases stated
      have inside : ihl packet < packet.length := by
        by_contra outside
        rw [List.getElem?_eq_none (by omega)] at echo
        simp at echo
      rw [l4Hlen_icmp_eq_some_iff, List.getElem?_append_left inside]
      exact ⟨rfl, long, echo⟩

theorem Datagram.payloadOff_iff {off : Nat} (long : off ≤ (packet ++ padding).length) :
    payloadOff l4Hlen (packet ++ padding) 0 = some off ↔
      ∃ hlen, l4HeaderLength (packet ++ padding) = some hlen ∧
        (packet[9]? = some ipprotoTcp → 20 ≤ hlen) ∧ ihl packet + hlen = off := by
  have length := datagram.length
  have header : (packet ++ padding)[0]? = some (packet.getD 0 0) := by
    rw [List.getElem?_append_left (by omega), List.getD_eq_getElem _ _ (by omega),
      List.getElem?_eq_getElem]
  rw [payloadOff_eq_some_iff, header, Nat.zero_add, datagram.protocol_append]
  constructor
  · rintro ⟨versionIhl, protocol, hlen, same, read, -, -, -, accepted, found⟩
    cases same
    rw [Nat.zero_add] at accepted found
    have fits : ihl packet + hlen ≤ (packet ++ padding).length := by rw [ihl]; omega
    obtain ⟨stated, enough⟩ := (datagram.l4Hlen_iff padding read fits).mp accepted
    exact ⟨hlen, stated, enough, found⟩
  · rintro ⟨hlen, stated, enough, found⟩
    have read := List.getElem?_eq_getElem (show 9 < packet.length by omega)
    refine ⟨_, _, hlen, rfl, read, ?_, datagram.version, datagram.header, ?_, ?_⟩
    · rw [List.length_append]
      omega
    · rw [Nat.zero_add]
      exact (datagram.l4Hlen_iff padding read (by omega)).mpr ⟨stated, enough⟩
    · rw [Nat.zero_add]
      exact found

theorem Datagram.parsePayloadTag_padded_iff :
    parsePayloadTag (packet ++ padding) 0 = parsePayloadTag packet 0 ↔
      ¬TagInPadding packet padding := by
  unfold parsePayloadTag TagInPadding
  rw [parseTag_padded_iff (l4Hlen_stable packet padding)]
  constructor
  · rintro apart ⟨hlen, stated, enough, beyond, inside⟩
    have found := (datagram.payloadOff_iff padding (by rw [List.length_append]; omega)).mpr
      ⟨hlen, stated, enough, rfl⟩
    have := apart _ found
    omega
  · intro apart off found
    by_contra between
    obtain ⟨hlen, stated, enough, rfl⟩ :=
      (datagram.payloadOff_iff padding (by rw [List.length_append]; omega)).mp found
    exact apart ⟨hlen, stated, enough, by omega, by omega⟩

end Datagram

/-- The packet ends before its tag does, by the lengths that its headers state. -/
def PayloadShort (packet : List UInt8) : Prop :=
  ∀ hlen, l4HeaderLength packet = some hlen → packet.length < ihl packet + hlen + keySize

theorem Datagram.txTag_short {packet : List UInt8} (datagram : Datagram packet)
    (short : PayloadShort packet) : txTag packet = none := by
  by_contra found
  obtain ⟨off, accepted, inside⟩ := parseTag_ne_none_iff.mp found
  have bare := @Datagram.payloadOff_iff packet datagram [] off
  rw [List.append_nil] at bare
  obtain ⟨hlen, stated, -, rfl⟩ := (bare (by omega)).mp accepted
  exact absurd inside (Nat.not_le.mpr (short hlen stated))

/-- The two hooks read the same tag, and none from a short payload, exactly
when the tag does not end in the padding. -/
theorem rxTag_padded_iff (header packet padding : List UInt8)
    (length : header.length = ethHlen) (etherType : header.drop 12 = [0x08, 0x00])
    (datagram : Datagram packet) :
    (rxTag (header ++ packet ++ padding) = txTag packet ∧
        (PayloadShort packet →
          rxTag (header ++ packet ++ padding) = none ∧ txTag packet = none)) ↔
      ¬TagInPadding packet padding := by
  rw [List.append_assoc, rxTag_append length etherType, ← datagram.parsePayloadTag_padded_iff]
  constructor
  · rintro ⟨same, -⟩
    exact same
  · intro same
    refine ⟨same, ?_⟩
    intro short
    exact ⟨same.trans (datagram.txTag_short short), datagram.txTag_short short⟩

def ackPacket : List UInt8 :=
  [0x45, 0, 0, 40, 0, 1, 0x40, 0, 64, 6, 0, 0, 10, 0, 0, 1, 10, 0, 0, 2,
    0x03, 0xe8, 0x13, 0x9c, 0, 0, 0, 1, 0, 0, 0, 1, 0x50, 0x10, 0, 64, 0, 0, 0, 0]

def ethHeader : List UInt8 := List.replicate 12 0xaa ++ [0x08, 0x00]

theorem ackPacket_datagram : Datagram ackPacket :=
  ⟨by decide, by decide, by decide, by decide, by decide, by decide, by decide⟩

/-- In a frame of 60 bytes the acknowledgement gets a tag from its padding. -/
theorem ackPacket_tagged :
    Datagram ackPacket ∧ PayloadShort ackPacket ∧
      rxTag (ethHeader ++ ackPacket ++ List.replicate 6 0) = some 0 ∧
      txTag ackPacket = none := by
  refine ⟨ackPacket_datagram, ?_, by decide, by decide⟩
  intro hlen stated
  have header : l4HeaderLength ackPacket = some 20 := by decide
  cases header.symm.trans stated
  decide

theorem rxTag_padded_udp :
    Datagram udpPacket ∧ ¬TagInPadding udpPacket (List.replicate 13 0) ∧
      rxTag (ethHeader ++ udpPacket ++ List.replicate 13 0) = txTag udpPacket ∧
      txTag udpPacket = some 0x01020304 := by
  have datagram : Datagram udpPacket :=
    ⟨by decide, by decide, by decide, by decide, by decide, by decide, by decide⟩
  have apart : ¬TagInPadding udpPacket (List.replicate 13 0) := by
    rintro ⟨hlen, stated, -, beyond, -⟩
    have header : l4HeaderLength (udpPacket ++ List.replicate 13 0) = some 8 := by decide
    cases header.symm.trans stated
    exact absurd beyond (by decide)
  have padded := rxTag_padded_iff ethHeader udpPacket (List.replicate 13 0) (by decide)
    (by decide) datagram
  exact ⟨datagram, apart, (padded.mpr apart).1, by decide⟩

end BpfAgent.Iflat
