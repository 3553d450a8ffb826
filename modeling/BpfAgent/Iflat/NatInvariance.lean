import BpfAgent.Iflat.Ebpf

/-!
# IFLAT: the tag survives network address translation

Between the two hooks the kernel routes the packet and rewrites addresses,
ports, checksums and whatever else its headers hold.  The tag depends on none
of that.
-/

namespace BpfAgent.Iflat

open Packet

def ihl (packet : List UInt8) : Nat := (packet.getD 0 0 &&& 0x0f).toNat * 4

def l4HeaderLength (packet : List UInt8) : Option Nat :=
  if packet[9]? = some ipprotoTcp then
    some ((packet.getD (ihl packet + 12) 0 >>> 4).toNat * 4)
  else if packet[9]? = some ipprotoUdp ∨ packet[9]? = some ipprotoIcmp then
    some 8
  else
    none

/-- `rewritten` is `packet` with other header fields: everything may differ but
the version and header length, the protocol, the TCP data offset, the ICMP type
and the payload. -/
structure Rewrites (packet rewritten : List UInt8) : Prop where
  length : rewritten.length = packet.length
  versionIhl : rewritten[0]? = packet[0]?
  protocol : rewritten[9]? = packet[9]?
  dataOffset : packet[9]? = some ipprotoTcp →
    rewritten[ihl packet + 12]? = packet[ihl packet + 12]?
  icmpType : packet[9]? = some ipprotoIcmp → rewritten[ihl packet]? = packet[ihl packet]?
  payload : ∀ hlen, l4HeaderLength packet = some hlen → ∀ off, ihl packet + hlen ≤ off →
    rewritten[off]? = packet[off]?

theorem l4Hlen_congr {left right : List UInt8} {l4 other : Nat} {protocol : UInt8}
    (lengths : left.length + other = right.length + l4)
    (dataOffset : protocol = ipprotoTcp → left[l4 + 12]? = right[other + 12]?)
    (icmpType : protocol = ipprotoIcmp → left[l4]? = right[other]?) :
    l4Hlen protocol left l4 = l4Hlen protocol right other := by
  unfold l4Hlen
  by_cases udp : protocol = ipprotoUdp
  · rw [if_pos udp, if_pos udp]
  · rw [if_neg udp, if_neg udp]
    by_cases tcp : protocol = ipprotoTcp
    · rw [if_pos tcp, if_pos tcp]
      exact tcpHlen_congr lengths (dataOffset tcp)
    · rw [if_neg tcp, if_neg tcp]
      by_cases icmp : protocol = ipprotoIcmp
      · rw [if_pos icmp, if_pos icmp]
        by_cases inside : l4 + icmpHlen ≤ left.length
        · have otherInside : other + icmpHlen ≤ right.length := by omega
          have positive : 0 < icmpHlen := by decide
          rw [dif_pos inside, dif_pos otherInside,
            byteAt_congr (by omega) (by omega) (icmpType icmp)]
        · have otherOutside : ¬other + icmpHlen ≤ right.length := by omega
          rw [dif_neg inside, dif_neg otherOutside]
      · rw [if_neg icmp, if_neg icmp]

theorem l4HeaderLength_of_accepted {packet : List UInt8} {protocol : UInt8} {hlen : Nat}
    (read : packet[9]? = some protocol)
    (accepted : l4Hlen protocol packet (ihl packet) = some hlen) :
    l4HeaderLength packet = some hlen := by
  unfold l4HeaderLength
  rw [read]
  unfold l4Hlen at accepted
  by_cases udp : protocol = ipprotoUdp
  · rw [if_pos udp] at accepted
    cases accepted
    subst udp
    rfl
  · rw [if_neg udp] at accepted
    by_cases tcp : protocol = ipprotoTcp
    · rw [if_pos tcp] at accepted
      rw [if_pos (congrArg some tcp), ← accepted]
      unfold tcpHlen at accepted ⊢
      split at accepted
      next inside =>
        have offset : packet.getD (ihl packet + 12) 0 =
            byteAt packet (ihl packet + 12) (by omega) := by
          rw [List.getD_eq_getElem?_getD, getElem?_eq_byteAt (by omega), Option.getD_some]
        dsimp only at accepted ⊢
        split at accepted
        · cases accepted
        next long => rw [dif_pos inside, offset, if_neg long]
      next => cases accepted
    · rw [if_neg tcp] at accepted
      by_cases icmp : protocol = ipprotoIcmp
      · subst icmp
        rw [if_pos rfl] at accepted
        split at accepted
        · dsimp only at accepted
          split at accepted
          · cases accepted
          · cases accepted
            rfl
        · cases accepted
      · rw [if_neg icmp] at accepted
        cases accepted

theorem parsePayloadTag_append (header packet : List UInt8) :
    parsePayloadTag (header ++ packet) header.length = parsePayloadTag packet 0 := by
  apply parseTag_append
  intro protocol l4
  have shifted : ∀ off, (header ++ packet)[header.length + off]? = packet[off]? := by
    intro off
    rw [List.getElem?_append_right (Nat.le_add_right _ _), Nat.add_sub_cancel_left]
  apply l4Hlen_congr
  · rw [List.length_append]
    omega
  · intro _
    rw [Nat.add_assoc]
    exact shifted _
  · intro _
    exact shifted _

theorem Rewrites.parsePayloadTag {packet rewritten : List UInt8}
    (rewrites : Rewrites packet rewritten) :
    parsePayloadTag packet 0 = Iflat.parsePayloadTag rewritten 0 := by
  have header : ∀ versionIhl, packet[0]? = some versionIhl →
      0 + (versionIhl &&& 0x0f).toNat * 4 = ihl packet := by
    intro versionIhl read
    rw [ihl, List.getD_eq_getElem?_getD, read, Option.getD_some, Nat.zero_add]
  apply parseTag_congr
  · rw [rewrites.length]
  · exact rewrites.versionIhl.symm
  · exact rewrites.protocol.symm
  · intro versionIhl protocol readVersion readProtocol
    rw [header versionIhl readVersion]
    apply l4Hlen_congr
    · rw [rewrites.length]
    · rintro rfl
      exact (rewrites.dataOffset readProtocol).symm
    · rintro rfl
      exact (rewrites.icmpType readProtocol).symm
  · intro versionIhl protocol hlen readVersion readProtocol accepted i
    rw [header versionIhl readVersion] at accepted ⊢
    exact (rewrites.payload hlen (l4HeaderLength_of_accepted readProtocol accepted) _
      (Nat.le_add_right _ _)).symm

theorem rxTag_append {header packet : List UInt8} (length : header.length = ethHlen)
    (etherType : header.drop 12 = [0x08, 0x00]) :
    rxTag (header ++ packet) = parsePayloadTag packet 0 := by
  have inHeader : ∀ off < 2, (header ++ packet)[12 + off]? = [0x08, 0x00][off]? := by
    intro off bound
    rw [List.getElem?_append_left (by rw [length, ethHlen]; omega), ← List.getElem?_drop,
      etherType]
  have read : readBeU16 (header ++ packet) 12 = some ethPIp := by
    have high := inHeader 0 (by omega)
    have low := inHeader 1 (by omega)
    simp only [readBeU16, readU8_eq]
    rw [high, low]
    rfl
  rw [rxTag, read, ← parsePayloadTag_append header packet, length]
  simp [ethPIp]

/-- The tag stored on receipt is the tag looked up on transmission, whatever the
headers have become in between. -/
theorem rxTag_eq_txTag_of_rewrites (header packet rewritten : List UInt8)
    (length : header.length = ethHlen) (etherType : header.drop 12 = [0x08, 0x00])
    (rewrites : Rewrites packet rewritten) :
    rxTag (header ++ packet) = txTag rewritten := by
  rw [rxTag_append length etherType]
  exact rewrites.parsePayloadTag

def udpPacket : List UInt8 :=
  [0x45, 0, 0, 33, 0, 0, 0, 0, 64, 17, 0, 0, 10, 0, 0, 1, 10, 0, 0, 2,
    0x03, 0xe8, 0x13, 0x9c, 0, 13, 0, 0, 1, 2, 3, 4, 5]

def masqueradedPacket : List UInt8 :=
  [0x45, 0, 0, 33, 0, 0, 0, 0, 63, 17, 9, 9, 192, 168, 1, 1, 10, 0, 0, 2,
    0xff, 0x01, 0x13, 0x9c, 0, 13, 7, 7, 1, 2, 3, 4, 5]

theorem rxTag_eq_txTag_masqueraded :
    rxTag (List.replicate 12 0xaa ++ [0x08, 0x00] ++ udpPacket) = txTag masqueradedPacket ∧
      txTag masqueradedPacket = some 0x01020304 := by
  refine ⟨?_, by decide⟩
  apply rxTag_eq_txTag_of_rewrites _ _ _ (by decide) (by decide)
  refine ⟨by decide, by decide, by decide, by decide, by decide, ?_⟩
  intro hlen length off beyond
  have header : l4HeaderLength udpPacket = some 8 := by decide
  cases header.symm.trans length
  have start : ihl udpPacket + 8 = 28 := by decide
  obtain ⟨i, rfl⟩ := Nat.exists_eq_add_of_le (start ▸ beyond)
  rw [← List.getElem?_drop, ← List.getElem?_drop]
  rfl

end BpfAgent.Iflat
