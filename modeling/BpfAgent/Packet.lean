import Mathlib.Data.List.Basic
import Mathlib.Data.List.FinRange
import Mathlib.Data.UInt
import Mathlib.Tactic.Common

/-!
# Payload tags of packets

The XDP and TC programs see a packet as the bytes between `data` and `data_end`
and read it after explicit bounds checks.  Here a read takes the proof of its
bound, so that every read below is inside the packet by construction.

The parsers of the programs differ in the layer-4 protocols they accept and
agree on everything else.
-/

namespace BpfAgent.Packet

def keySize : Nat := 4

def ethHlen : Nat := 14
def ethPIp : UInt16 := 0x0800
def ipprotoUdp : UInt8 := 17
def ipprotoTcp : UInt8 := 6
def ipprotoIcmp : UInt8 := 1
def udpHlen : Nat := 8
def icmpHlen : Nat := 8
def icmpEchoreply : UInt8 := 0
def icmpEcho : UInt8 := 8

/-- The byte at an offset the caller has checked. -/
def byteAt (packet : List UInt8) (off : Nat) (inside : off < packet.length) : UInt8 :=
  packet.get ⟨off, inside⟩

def readU8 (packet : List UInt8) (off : Nat) : Option UInt8 :=
  if inside : off + 1 ≤ packet.length then some (byteAt packet off inside) else none

def readBeU16 (packet : List UInt8) (off : Nat) : Option UInt16 := do
  let hi ← readU8 packet off
  let lo ← readU8 packet (off + 1)
  return (hi.toUInt16 <<< 8) ||| lo.toUInt16

def tcpHlen (packet : List UInt8) (l4 : Nat) : Option Nat :=
  if inside : l4 + 20 ≤ packet.length then
    let dataOffset := byteAt packet (l4 + 12) (by omega)
    let hlen := (dataOffset >>> 4).toNat * 4
    if hlen < 20 then none else some hlen
  else
    none

/-- The `keySize` bytes from `payloadOff`, big-endian. -/
def tagAt (packet : List UInt8) (payloadOff : Nat)
    (inside : payloadOff + keySize ≤ packet.length) : UInt32 :=
  (List.finRange keySize).foldl
    (fun tag (i : Fin keySize) => (tag <<< 8) |||
      (byteAt packet (payloadOff + i.val) (by have := i.isLt; omega)).toUInt32)
    0

/-- Extract the payload tag of a datagram whose IPv4 header starts at `l3`.
`l4Hlen` gives the length of its layer-4 header, if the protocol is accepted. -/
def parseTag (l4Hlen : UInt8 → List UInt8 → Nat → Option Nat) (packet : List UInt8)
    (l3 : Nat) : Option UInt32 :=
  if inside : l3 + 20 ≤ packet.length then
    let versionIhl := byteAt packet l3 (by omega)
    let ihl := (versionIhl &&& 0x0f).toNat * 4
    if versionIhl >>> 4 ≠ 4 then
      none
    else if ihl < 20 then
      none
    else
      let protocol := byteAt packet (l3 + 9) (by omega)
      let l4 := l3 + ihl
      match l4Hlen protocol packet l4 with
      | none => none
      | some hlen =>
          if payload : l4 + hlen + keySize ≤ packet.length then
            some (tagAt packet (l4 + hlen) payload)
          else
            none
  else
    none

/-- Where the payload starts behind the headers that `parseTag` accepts. -/
def payloadOff (l4Hlen : UInt8 → List UInt8 → Nat → Option Nat) (packet : List UInt8)
    (l3 : Nat) : Option Nat :=
  if inside : l3 + 20 ≤ packet.length then
    let versionIhl := byteAt packet l3 (by omega)
    let ihl := (versionIhl &&& 0x0f).toNat * 4
    if versionIhl >>> 4 ≠ 4 then
      none
    else if ihl < 20 then
      none
    else
      (l4Hlen (byteAt packet (l3 + 9) (by omega)) packet (l3 + ihl)).map (l3 + ihl + ·)
  else
    none

theorem getElem?_eq_byteAt {packet : List UInt8} {off : Nat} (inside : off < packet.length) :
    packet[off]? = some (byteAt packet off inside) :=
  List.getElem?_eq_getElem inside

theorem readU8_eq (packet : List UInt8) (off : Nat) : readU8 packet off = packet[off]? := by
  unfold readU8
  split
  next inside => exact (getElem?_eq_byteAt inside).symm
  next outside => exact (List.getElem?_eq_none (Nat.le_of_not_lt outside)).symm

theorem byteAt_congr {left right : List UInt8} {off other : Nat}
    (inside : off < left.length) (otherInside : other < right.length)
    (same : left[off]? = right[other]?) :
    byteAt left off inside = byteAt right other otherInside := by
  rw [getElem?_eq_byteAt inside, getElem?_eq_byteAt otherInside] at same
  exact Option.some.inj same

theorem tcpHlen_congr {left right : List UInt8} {l4 other : Nat}
    (lengths : left.length + other = right.length + l4)
    (dataOffset : left[l4 + 12]? = right[other + 12]?) :
    tcpHlen left l4 = tcpHlen right other := by
  unfold tcpHlen
  by_cases inside : l4 + 20 ≤ left.length
  · have otherInside : other + 20 ≤ right.length := by omega
    rw [dif_pos inside, dif_pos otherInside,
      byteAt_congr (by omega) (by omega) dataOffset]
  · have otherOutside : ¬other + 20 ≤ right.length := by omega
    rw [dif_neg inside, dif_neg otherOutside]

theorem tagAt_congr {left right : List UInt8} {off other : Nat}
    (inside : off + keySize ≤ left.length) (otherInside : other + keySize ≤ right.length)
    (same : ∀ i < keySize, left[off + i]? = right[other + i]?) :
    tagAt left off inside = tagAt right other otherInside := by
  unfold tagAt
  congr 1
  funext tag i
  have bound := i.isLt
  rw [byteAt_congr (by omega) (by omega) (same i.val bound)]

theorem parseTag_congr {l4Hlen : UInt8 → List UInt8 → Nat → Option Nat}
    {left right : List UInt8} {l3 other : Nat}
    (lengths : left.length + other = right.length + l3)
    (version : left[l3]? = right[other]?)
    (protocol : left[l3 + 9]? = right[other + 9]?)
    (header : ∀ versionIhl proto, left[l3]? = some versionIhl → left[l3 + 9]? = some proto →
      l4Hlen proto left (l3 + (versionIhl &&& 0x0f).toNat * 4) =
        l4Hlen proto right (other + (versionIhl &&& 0x0f).toNat * 4))
    (payload : ∀ versionIhl proto hlen, left[l3]? = some versionIhl →
      left[l3 + 9]? = some proto →
      l4Hlen proto left (l3 + (versionIhl &&& 0x0f).toNat * 4) = some hlen →
      ∀ i, left[l3 + (versionIhl &&& 0x0f).toNat * 4 + hlen + i]? =
        right[other + (versionIhl &&& 0x0f).toNat * 4 + hlen + i]?) :
    parseTag l4Hlen left l3 = parseTag l4Hlen right other := by
  unfold parseTag
  by_cases inside : l3 + 20 ≤ left.length
  · have otherInside : other + 20 ≤ right.length := by omega
    have versionInside : l3 < left.length := by omega
    have protocolInside : l3 + 9 < left.length := by omega
    have versionRead := getElem?_eq_byteAt versionInside
    have protocolRead := getElem?_eq_byteAt protocolInside
    have headers := header _ _ versionRead protocolRead
    rw [dif_pos inside, dif_pos otherInside]
    dsimp only
    rw [← byteAt_congr (by omega) (by omega) version,
      ← byteAt_congr (by omega) (by omega) protocol, ← headers]
    cases found : l4Hlen (byteAt left (l3 + 9) protocolInside) left
        (l3 + (byteAt left l3 versionInside &&& 0x0f).toNat * 4) with
    | none => rfl
    | some hlen =>
        have bytes := payload _ _ hlen versionRead protocolRead found
        generalize (byteAt left l3 _ &&& 0x0f).toNat * 4 = ihl at bytes ⊢
        dsimp only
        by_cases whole : l3 + ihl + hlen + keySize ≤ left.length
        · have otherWhole : other + ihl + hlen + keySize ≤ right.length := by omega
          rw [dif_pos whole, dif_pos otherWhole,
            tagAt_congr whole otherWhole fun i _ => bytes i]
        · have otherPart : ¬other + ihl + hlen + keySize ≤ right.length := by omega
          rw [dif_neg whole, dif_neg otherPart]
  · have otherOutside : ¬other + 20 ≤ right.length := by omega
    rw [dif_neg inside, dif_neg otherOutside]

theorem parseTag_append {l4Hlen : UInt8 → List UInt8 → Nat → Option Nat}
    (header packet : List UInt8)
    (shift : ∀ protocol l4, l4Hlen protocol (header ++ packet) (header.length + l4) =
      l4Hlen protocol packet l4) :
    parseTag l4Hlen (header ++ packet) header.length = parseTag l4Hlen packet 0 := by
  have shifted : ∀ off, (header ++ packet)[header.length + off]? = packet[0 + off]? := by
    intro off
    rw [List.getElem?_append_right (Nat.le_add_right _ _), Nat.add_sub_cancel_left,
      Nat.zero_add]
  apply parseTag_congr
  · rw [List.length_append]
    omega
  · exact shifted 0
  · exact shifted 9
  · intro versionIhl protocol _ _
    rw [shift, Nat.zero_add]
  · intro versionIhl protocol hlen _ _ _ i
    simpa only [Nat.add_assoc] using shifted _

section PayloadOff

variable {l4Hlen : UInt8 → List UInt8 → Nat → Option Nat} {packet : List UInt8} {l3 : Nat}

theorem parseTag_eq_bind :
    parseTag l4Hlen packet l3 = (payloadOff l4Hlen packet l3).bind fun off =>
      if payload : off + keySize ≤ packet.length then some (tagAt packet off payload)
      else none := by
  unfold parseTag payloadOff
  dsimp only
  split
  · split
    · rfl
    · split
      · rfl
      · cases l4Hlen _ packet _ <;> rfl
  · rfl

theorem parseTag_ne_none_iff :
    parseTag l4Hlen packet l3 ≠ none ↔
      ∃ off, payloadOff l4Hlen packet l3 = some off ∧ off + keySize ≤ packet.length := by
  rw [parseTag_eq_bind]
  cases payloadOff l4Hlen packet l3 with
  | none => simp
  | some off => simp

theorem payloadOff_eq_some_iff {off : Nat} :
    payloadOff l4Hlen packet l3 = some off ↔
      ∃ versionIhl protocol hlen, packet[l3]? = some versionIhl ∧
        packet[l3 + 9]? = some protocol ∧ l3 + 20 ≤ packet.length ∧
        versionIhl >>> 4 = 4 ∧ 20 ≤ (versionIhl &&& 0x0f).toNat * 4 ∧
        l4Hlen protocol packet (l3 + (versionIhl &&& 0x0f).toNat * 4) = some hlen ∧
        l3 + (versionIhl &&& 0x0f).toNat * 4 + hlen = off := by
  unfold payloadOff
  by_cases inside : l3 + 20 ≤ packet.length
  · have version := getElem?_eq_byteAt (show l3 < packet.length by omega)
    have protocol := getElem?_eq_byteAt (show l3 + 9 < packet.length by omega)
    rw [dif_pos inside, version, protocol]
    dsimp only
    split
    next other =>
      constructor
      · intro impossible
        cases impossible
      · rintro ⟨versionIhl, _, _, same, -, -, four, -⟩
        cases same
        exact absurd four other
    next four =>
      split
      next short =>
        constructor
        · intro impossible
          cases impossible
        · rintro ⟨versionIhl, _, _, same, -, -, -, long, -⟩
          cases same
          exact absurd short (Nat.not_lt.mpr long)
      next long =>
        rw [Option.map_eq_some_iff]
        constructor
        · rintro ⟨hlen, accepted, found⟩
          exact ⟨_, _, hlen, rfl, rfl, inside, not_not.mp four, Nat.not_lt.mp long, accepted,
            found⟩
        · rintro ⟨versionIhl, protocol, hlen, sameVersion, sameProtocol, -, -, -, accepted, found⟩
          cases sameVersion
          cases sameProtocol
          exact ⟨hlen, accepted, found⟩
  · rw [dif_neg inside]
    simp [inside]

theorem tcpHlen_eq_some_iff {l4 hlen : Nat} :
    tcpHlen packet l4 = some hlen ↔
      ∃ dataOffset, packet[l4 + 12]? = some dataOffset ∧ l4 + 20 ≤ packet.length ∧
        20 ≤ hlen ∧ (dataOffset >>> 4).toNat * 4 = hlen := by
  unfold tcpHlen
  by_cases inside : l4 + 20 ≤ packet.length
  · have read := getElem?_eq_byteAt (show l4 + 12 < packet.length by omega)
    rw [dif_pos inside, read]
    dsimp only
    split
    next short =>
      constructor
      · intro impossible
        cases impossible
      · rintro ⟨dataOffset, same, -, long, rfl⟩
        cases same
        exact absurd short (Nat.not_lt.mpr long)
    next long =>
      constructor
      · intro found
        cases found
        exact ⟨_, rfl, inside, Nat.not_lt.mp long, rfl⟩
      · rintro ⟨dataOffset, same, -, -, rfl⟩
        cases same
        rfl
  · rw [dif_neg inside]
    simp [inside]

end PayloadOff

section Padding

variable {l4Hlen : UInt8 → List UInt8 → Nat → Option Nat} {packet : List UInt8} {l3 : Nat}
  (padding : List UInt8)

theorem tcpHlen_padded {l4 hlen : Nat} (fits : l4 + hlen ≤ packet.length) :
    tcpHlen (packet ++ padding) l4 = some hlen ↔ tcpHlen packet l4 = some hlen := by
  simp only [tcpHlen_eq_some_iff, List.length_append]
  constructor
  · rintro ⟨dataOffset, read, -, long, same⟩
    rw [List.getElem?_append_left (by omega)] at read
    exact ⟨dataOffset, read, by omega, long, same⟩
  · rintro ⟨dataOffset, read, inside, long, same⟩
    refine ⟨dataOffset, ?_, by omega, long, same⟩
    rw [List.getElem?_append_left (by omega)]
    exact read

/-- A layer-4 header inside the packet is found with and without the padding. -/
def Stable (l4Hlen : UInt8 → List UInt8 → Nat → Option Nat) (packet padding : List UInt8) :
    Prop :=
  ∀ protocol l4 hlen, l4 + hlen ≤ packet.length →
    (l4Hlen protocol (packet ++ padding) l4 = some hlen ↔
      l4Hlen protocol packet l4 = some hlen)

variable {padding} (stable : Stable l4Hlen packet padding)

include stable

theorem payloadOff_padded {off : Nat} (fits : off ≤ packet.length) :
    payloadOff l4Hlen (packet ++ padding) l3 = some off ↔
      payloadOff l4Hlen packet l3 = some off := by
  simp only [payloadOff_eq_some_iff, List.length_append]
  constructor
  · rintro ⟨versionIhl, protocol, hlen, version, proto, -, four, long, accepted, found⟩
    rw [List.getElem?_append_left (by omega)] at version proto
    exact ⟨versionIhl, protocol, hlen, version, proto, by omega, four, long,
      (stable _ _ _ (by omega)).mp accepted, found⟩
  · rintro ⟨versionIhl, protocol, hlen, version, proto, inside, four, long, accepted, found⟩
    refine ⟨versionIhl, protocol, hlen, ?_, ?_, by omega, four, long,
      (stable _ _ _ (by omega)).mpr accepted, found⟩
    · rwa [List.getElem?_append_left (by omega)]
    · rwa [List.getElem?_append_left (by omega)]

theorem parseTag_padded_of_fits {off : Nat}
    (found : payloadOff l4Hlen (packet ++ padding) l3 = some off)
    (fits : off + keySize ≤ packet.length) :
    parseTag l4Hlen (packet ++ padding) l3 = parseTag l4Hlen packet l3 := by
  have own := (payloadOff_padded stable (by omega)).mp found
  have longer : off + keySize ≤ (packet ++ padding).length := by
    rw [List.length_append]
    omega
  rw [parseTag_eq_bind, parseTag_eq_bind, found, own, Option.bind_some, Option.bind_some,
    dif_pos fits, dif_pos longer]
  congr 1
  apply tagAt_congr
  intro i bound
  exact List.getElem?_append_left (by omega)

theorem parseTag_padded_of_accepted (accepted : parseTag l4Hlen packet l3 ≠ none) :
    parseTag l4Hlen (packet ++ padding) l3 = parseTag l4Hlen packet l3 := by
  obtain ⟨off, found, fits⟩ := parseTag_ne_none_iff.mp accepted
  exact parseTag_padded_of_fits stable ((payloadOff_padded stable (by omega)).mpr found) fits

/-- The padding does not matter exactly when the tag lies inside the packet or
beyond the padding. -/
theorem parseTag_padded_iff :
    parseTag l4Hlen (packet ++ padding) l3 = parseTag l4Hlen packet l3 ↔
      ∀ off, payloadOff l4Hlen (packet ++ padding) l3 = some off →
        off + keySize ≤ packet.length ∨ packet.length + padding.length < off + keySize := by
  constructor
  · intro same off found
    by_contra between
    have present : parseTag l4Hlen (packet ++ padding) l3 ≠ none := by
      apply parseTag_ne_none_iff.mpr
      refine ⟨off, found, ?_⟩
      rw [List.length_append]
      omega
    rw [same] at present
    obtain ⟨own, ownFound, inside⟩ := parseTag_ne_none_iff.mp present
    have longer := (payloadOff_padded stable (by omega)).mpr ownFound
    cases found.symm.trans longer
    exact between (.inl inside)
  · intro apart
    by_cases skipped : parseTag l4Hlen (packet ++ padding) l3 = none
    · by_cases own : parseTag l4Hlen packet l3 = none
      · rw [skipped, own]
      · exact parseTag_padded_of_accepted stable own
    · obtain ⟨off, found, fits⟩ := parseTag_ne_none_iff.mp skipped
      rw [List.length_append] at fits
      rcases apart off found with inside | beyond
      · exact parseTag_padded_of_fits stable found inside
      · omega

end Padding

end BpfAgent.Packet
