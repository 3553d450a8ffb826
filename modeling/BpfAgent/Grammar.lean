import BpfAgent.Iflat.Ebpf
import BpfAgent.IflatUprobe.Ebpf

/-!
# The packets the tag parsers accept

The grammar of the accepted datagrams, written without offsets: headers of the
announced lengths one after the other, then the tag.  The parsers of IFLAT and
IFLAT_UPROBE accept exactly this grammar.

The programs load bytes through raw pointers.  A second version of the parsers
below keeps such loads, which fault outside the packet, and the bounds checks
as they stand in the programs; it never faults.
-/

namespace BpfAgent.Packet

/-- A layer-4 header behind which the payload starts. -/
inductive L4Header (echo : Bool) : (protocol : UInt8) → List UInt8 → Prop where
  | udp {header : List UInt8} (size : header.length = 8) : L4Header echo 17 header
  | tcp {header : List UInt8} {dataOffset : UInt8} (read : header[12]? = some dataOffset)
      (long : 5 ≤ (dataOffset >>> 4).toNat)
      (size : header.length = 4 * (dataOffset >>> 4).toNat) : L4Header echo 6 header
  | icmp {header : List UInt8} {icmpType : UInt8} (accepted : echo = true)
      (read : header[0]? = some icmpType) (asked : icmpType = 0 ∨ icmpType = 8)
      (size : header.length = 8) : L4Header echo 1 header

/-- An IPv4 header and the layer-4 header of its protocol.  `echo` says whether
ICMP echo is accepted. -/
inductive Headers (echo : Bool) : List UInt8 → Prop where
  | mk {ipHeader l4Header : List UInt8} {versionIhl protocol : UInt8}
      (version : ipHeader[0]? = some versionIhl) (four : versionIhl >>> 4 = 4)
      (long : 5 ≤ (versionIhl &&& 0x0f).toNat)
      (size : ipHeader.length = 4 * (versionIhl &&& 0x0f).toNat)
      (proto : ipHeader[9]? = some protocol) (l4 : L4Header echo protocol l4Header) :
      Headers echo (ipHeader ++ l4Header)

/-- Headers and a payload that starts with the tag, most significant byte first. -/
inductive Datagram (echo : Bool) : List UInt8 → (tag : UInt32) → Prop where
  | mk {headers rest : List UInt8} {tag : UInt32} (accepted : Headers echo headers) :
      Datagram echo (headers ++ (Word.bigEndianBytes tag ++ rest)) tag

theorem L4Header.with_echo {protocol : UInt8} {header : List UInt8}
    (accepted : L4Header false protocol header) : L4Header true protocol header := by
  cases accepted with
  | udp size => exact .udp size
  | tcp read long size => exact .tcp read long size
  | icmp allowed => cases allowed

theorem Datagram.with_echo {bytes : List UInt8} {tag : UInt32}
    (accepted : Datagram false bytes tag) : Datagram true bytes tag := by
  cases accepted with
  | mk headers =>
      cases headers with
      | mk version four long size proto l4 =>
          exact .mk (.mk version four long size proto l4.with_echo)

/-- The computed length of a layer-4 header that lies in the packet is that of
the header of the grammar. -/
def Measures (l4Hlen : UInt8 → List UInt8 → Nat → Option Nat) (echo : Bool) : Prop :=
  ∀ protocol packet l4 hlen, l4 + hlen ≤ packet.length →
    (l4Hlen protocol packet l4 = some hlen ↔
      L4Header echo protocol ((packet.drop l4).take hlen))

theorem tagAt_eq_bigEndian {packet : List UInt8} {off : Nat}
    (inside : off + keySize ≤ packet.length) :
    tagAt packet off inside = Word.bigEndian ((packet.drop off).take keySize) := by
  have bytes : (packet.drop off).take keySize =
      (List.finRange keySize).map fun i =>
        byteAt packet (off + i.val) (by have := i.isLt; omega) := by
    apply List.ext_getElem
    · rw [List.length_take, List.length_drop, List.length_map, List.length_finRange]
      omega
    · intro index _ _
      simp [byteAt]
  rw [tagAt, Word.bigEndian, bytes, List.foldl_map]

theorem drop_eq_take_append (packet : List UInt8) (off count : Nat) :
    packet.drop off = (packet.drop off).take count ++ packet.drop (off + count) := by
  rw [← List.drop_drop, List.take_append_drop]

theorem tagAt_eq_iff {packet : List UInt8} {off : Nat} {tag : UInt32}
    (inside : off + keySize ≤ packet.length) :
    tagAt packet off inside = tag ↔
      packet.drop off = Word.bigEndianBytes tag ++ packet.drop (off + keySize) := by
  have size : ((packet.drop off).take keySize).length = 4 := by
    rw [List.length_take, List.length_drop]
    unfold keySize at inside ⊢
    omega
  rw [tagAt_eq_bigEndian inside]
  constructor
  · rintro rfl
    obtain ⟨first, second, third, fourth, bytes⟩ := List.length_eq_four.mp size
    rw [bytes, Word.bigEndianBytes_bigEndian, ← bytes]
    exact drop_eq_take_append packet off keySize
  · intro starts
    rw [starts, show keySize = (Word.bigEndianBytes tag).length from rfl, List.take_left,
      Word.bigEndian_bigEndianBytes]

theorem parseTag_eq_some_iff {l4Hlen : UInt8 → List UInt8 → Nat → Option Nat}
    {packet : List UInt8} {l3 : Nat} {tag : UInt32} :
    parseTag l4Hlen packet l3 = some tag ↔
      ∃ off, ∃ inside : off + keySize ≤ packet.length,
        payloadOff l4Hlen packet l3 = some off ∧ tagAt packet off inside = tag := by
  rw [parseTag_eq_bind]
  cases payloadOff l4Hlen packet l3 with
  | none => simp
  | some off =>
      rw [Option.bind_some]
      constructor
      · intro parsed
        split at parsed
        next inside => exact ⟨off, inside, rfl, Option.some.inj parsed⟩
        next outside => cases parsed
      · rintro ⟨_, inside, same, value⟩
        cases same
        rw [dif_pos inside, value]

section Datagrams

variable {l4Hlen : UInt8 → List UInt8 → Nat → Option Nat} {echo : Bool}
  (measures : Measures l4Hlen echo) {packet : List UInt8} {l3 : Nat} {tag : UInt32}

include measures

theorem datagram_of_parseTag (parsed : parseTag l4Hlen packet l3 = some tag) :
    Datagram echo (packet.drop l3) tag := by
  obtain ⟨off, inside, found, value⟩ := parseTag_eq_some_iff.mp parsed
  obtain ⟨versionIhl, protocol, hlen, version, proto, whole, four, long, accepted, placed⟩ :=
    payloadOff_eq_some_iff.mp found
  rw [tagAt_eq_iff inside] at value
  have header := (measures protocol packet _ hlen (by omega)).mp accepted
  generalize size : (versionIhl &&& 0x0f).toNat * 4 = ihl at *
  rw [drop_eq_take_append packet l3 ihl, drop_eq_take_append packet (l3 + ihl) hlen, placed,
    value, ← List.append_assoc]
  apply Datagram.mk
  refine Headers.mk (show _ = some versionIhl from ?_) four (by omega) ?_
    (show _ = some protocol from ?_) header
  · rw [List.getElem?_take_of_lt (by omega), List.getElem?_drop]
    exact version
  · rw [List.length_take, List.length_drop]
    omega
  · rw [List.getElem?_take_of_lt (by omega), List.getElem?_drop]
    exact proto

theorem parseTag_of_datagram (accepted : Datagram echo (packet.drop l3) tag) :
    parseTag l4Hlen packet l3 = some tag := by
  generalize shape : packet.drop l3 = bytes at accepted
  obtain @⟨_, rest, _, headers⟩ := accepted
  obtain @⟨ipHeader, l4Header, versionIhl, protocol, version, four, long, size, proto, l4⟩ :=
    headers
  rw [List.append_assoc] at shape
  have l4Shape : packet.drop (l3 + ipHeader.length) =
      l4Header ++ (Word.bigEndianBytes tag ++ rest) := by
    rw [← List.drop_drop, shape, List.drop_left]
  have tagShape : packet.drop (l3 + ipHeader.length + l4Header.length) =
      Word.bigEndianBytes tag ++ rest := by
    rw [← List.drop_drop, l4Shape, List.drop_left]
  have lengths := congrArg List.length shape
  simp only [List.length_drop, List.length_append,
    show (Word.bigEndianBytes tag).length = 4 from rfl] at lengths
  have readIp : ∀ off < ipHeader.length, packet[l3 + off]? = ipHeader[off]? := by
    intro off bound
    rw [← List.getElem?_drop, shape, List.getElem?_append_left bound]
  have hlen : l4Hlen protocol packet (l3 + ipHeader.length) = some l4Header.length := by
    apply (measures _ _ _ _ (by omega)).mpr
    rw [l4Shape, List.take_left]
    exact l4
  have inside : l3 + ipHeader.length + l4Header.length + keySize ≤ packet.length := by
    unfold keySize
    omega
  have found : payloadOff l4Hlen packet l3 =
      some (l3 + ipHeader.length + l4Header.length) := by
    apply payloadOff_eq_some_iff.mpr
    rw [Nat.mul_comm] at size
    refine ⟨versionIhl, protocol, l4Header.length, ?_, ?_, by omega, four, by omega, ?_, ?_⟩
    · exact (readIp 0 (by omega)).trans version
    · exact (readIp 9 (by omega)).trans proto
    · rw [← size]
      exact hlen
    · rw [← size]
  apply parseTag_eq_some_iff.mpr
  refine ⟨_, inside, found, ?_⟩
  apply (tagAt_eq_iff inside).mpr
  have restShape : packet.drop (l3 + ipHeader.length + l4Header.length + keySize) = rest := by
    rw [← List.drop_drop, tagShape]
    rfl
  rw [tagShape, restShape]

theorem parseTag_iff_datagram :
    parseTag l4Hlen packet l3 = some tag ↔ Datagram echo (packet.drop l3) tag :=
  ⟨datagram_of_parseTag measures, parseTag_of_datagram measures⟩

end Datagrams

section Headers

variable {echo : Bool} {packet : List UInt8} {l4 hlen : Nat}

theorem udpHlen_measures (fits : l4 + hlen ≤ packet.length) :
    some udpHlen = some hlen ↔ L4Header echo ipprotoUdp ((packet.drop l4).take hlen) := by
  have size : ((packet.drop l4).take hlen).length = hlen := by
    rw [List.length_take, List.length_drop]
    omega
  rw [Option.some.injEq]
  constructor
  · intro fixed
    exact .udp (size.trans fixed.symm)
  · intro header
    cases header with
    | udp long => exact long.symm.trans size

theorem tcpHlen_measures (fits : l4 + hlen ≤ packet.length) :
    tcpHlen packet l4 = some hlen ↔
      L4Header echo ipprotoTcp ((packet.drop l4).take hlen) := by
  have size : ((packet.drop l4).take hlen).length = hlen := by
    rw [List.length_take, List.length_drop]
    omega
  rw [tcpHlen_eq_some_iff]
  constructor
  · rintro ⟨dataOffset, read, -, long, announced⟩
    refine .tcp (show _ = some dataOffset from ?_) (by omega) (by omega)
    rw [List.getElem?_take_of_lt (by omega), List.getElem?_drop]
    exact read
  · intro header
    cases header with
    | @tcp _ dataOffset read long announced =>
        rw [List.getElem?_take_of_lt (by omega), List.getElem?_drop] at read
        exact ⟨dataOffset, read, by omega, by omega, by omega⟩

theorem icmpHlen_measures (fits : l4 + hlen ≤ packet.length) {icmpType : UInt8}
    (read : packet[l4]? = some icmpType) :
    (if icmpType ≠ icmpEcho ∧ icmpType ≠ icmpEchoreply then none else some icmpHlen) =
        some hlen ↔
      L4Header true ipprotoIcmp ((packet.drop l4).take hlen) := by
  have size : ((packet.drop l4).take hlen).length = hlen := by
    rw [List.length_take, List.length_drop]
    omega
  have first : 0 < hlen → ((packet.drop l4).take hlen)[0]? = some icmpType := by
    intro positive
    rw [List.getElem?_take_of_lt positive, List.getElem?_drop]
    exact read
  constructor
  · intro accepted
    split at accepted
    next other => cases accepted
    next asked =>
      cases accepted
      refine .icmp rfl (first (by decide)) ?_ size
      by_cases reply : icmpType = 0
      · exact .inl reply
      · exact .inr (not_not.mp fun other => asked ⟨other, reply⟩)
  · intro header
    cases header with
    | icmp _ found asked long =>
        have eight : hlen = 8 := size.symm.trans long
        rw [first (by omega)] at found
        cases found
        rw [if_neg, eight]
        · rfl
        · rintro ⟨notEcho, notReply⟩
          exact asked.elim notReply notEcho

end Headers

/-- A load that nothing but the program's own checks keeps inside the packet.
Outside it faults, with the offset. -/
def load (packet : List UInt8) (off : Nat) : Except Nat UInt8 :=
  match packet[off]? with
  | some byte => .ok byte
  | none => .error off

def loadTcpHlen (packet : List UInt8) (l4 : Nat) : Except Nat (Option Nat) := do
  if packet.length < l4 + 20 then return none
  let dataOffset ← load packet (l4 + 12)
  let hlen := (dataOffset >>> 4).toNat * 4
  if hlen < 20 then return none
  return some hlen

def loadTagAt (packet : List UInt8) (base : Nat) : Except Nat UInt32 :=
  (List.range keySize).foldlM
    (fun tag i => do
      let byte ← load packet (base + i)
      return (tag <<< 8) ||| byte.toUInt32)
    0

def loadTag (loadL4Hlen : UInt8 → List UInt8 → Nat → Except Nat (Option Nat))
    (packet : List UInt8) (l3 : Nat) : Except Nat (Option UInt32) := do
  -- One check covers the fixed-size IPv4 header fields loaded below.
  if packet.length < l3 + 20 then return none
  let versionIhl ← load packet l3
  if versionIhl >>> 4 ≠ 4 then return none
  let ihl := (versionIhl &&& 0x0f).toNat * 4
  if ihl < 20 then return none
  let protocol ← load packet (l3 + 9)
  let l4 := l3 + ihl
  match ← loadL4Hlen protocol packet l4 with
  | none => return none
  | some hlen =>
      -- One aggregate check covers the whole tag.
      if packet.length < l4 + hlen + keySize then return none
      let tag ← loadTagAt packet (l4 + hlen)
      return some tag

theorem load_eq_byteAt {packet : List UInt8} {off : Nat} (inside : off < packet.length) :
    load packet off = .ok (byteAt packet off inside) := by
  rw [load, getElem?_eq_byteAt inside]

theorem loadTcpHlen_eq (packet : List UInt8) (l4 : Nat) :
    loadTcpHlen packet l4 = .ok (tcpHlen packet l4) := by
  unfold loadTcpHlen tcpHlen
  by_cases inside : l4 + 20 ≤ packet.length
  · rw [if_neg (Nat.not_lt.mpr inside), dif_pos inside,
      load_eq_byteAt (show l4 + 12 < packet.length by omega)]
    change (if _ then _ else _) = Except.ok (if _ then _ else _)
    split <;> rfl
  · rw [if_pos (Nat.not_le.mp inside), dif_neg inside]
    rfl

theorem loadTagAt_eq {packet : List UInt8} {base : Nat}
    (inside : base + keySize ≤ packet.length) :
    loadTagAt packet base = .ok (tagAt packet base inside) := by
  have loads : (fun (tag : UInt32) (i : Fin keySize) => do
      let byte ← load packet (base + i.val)
      return (tag <<< 8) ||| byte.toUInt32) = fun (tag : UInt32) (i : Fin keySize) =>
        Except.ok ((tag <<< 8) |||
          (byteAt packet (base + i.val) (by have := i.isLt; omega)).toUInt32) := by
    funext tag i
    rw [load_eq_byteAt]
    rfl
  rw [loadTagAt, show List.range keySize = (List.finRange keySize).map Fin.val by decide,
    List.foldlM_map, loads]
  exact List.foldlM_pure

theorem loadTag_eq {loadL4Hlen : UInt8 → List UInt8 → Nat → Except Nat (Option Nat)}
    {l4Hlen : UInt8 → List UInt8 → Nat → Option Nat}
    (header : ∀ protocol packet l4,
      loadL4Hlen protocol packet l4 = .ok (l4Hlen protocol packet l4))
    (packet : List UInt8) (l3 : Nat) :
    loadTag loadL4Hlen packet l3 = .ok (parseTag l4Hlen packet l3) := by
  unfold loadTag parseTag
  by_cases inside : l3 + 20 ≤ packet.length
  · rw [if_neg (Nat.not_lt.mpr inside), dif_pos inside,
      load_eq_byteAt (show l3 < packet.length by omega),
      load_eq_byteAt (show l3 + 9 < packet.length by omega)]
    dsimp only [bind, Except.bind]
    split
    next other => rfl
    next four =>
      split
      next short => rfl
      next long =>
        rw [header]
        cases l4Hlen _ packet _ with
        | none => rfl
        | some hlen =>
            dsimp only
            split
            next outside =>
              rw [dif_neg (Nat.not_le.mpr outside)]
              rfl
            next inside =>
              rw [dif_pos (Nat.not_lt.mp inside), loadTagAt_eq (Nat.not_lt.mp inside)]
              rfl
  · rw [if_pos (Nat.not_le.mp inside), dif_neg inside]
    rfl

end BpfAgent.Packet

namespace BpfAgent

open Packet

theorem Iflat.l4Hlen_measures : Measures Iflat.l4Hlen true := by
  intro protocol packet l4 hlen fits
  unfold Iflat.l4Hlen
  split
  next udp =>
    rw [udp]
    exact udpHlen_measures fits
  next notUdp =>
    split
    next tcp =>
      rw [tcp]
      exact tcpHlen_measures fits
    next notTcp =>
      split
      next icmp =>
        rw [icmp]
        by_cases inside : l4 + icmpHlen ≤ packet.length
        · rw [dif_pos inside]
          unfold icmpHlen at inside
          exact icmpHlen_measures fits (getElem?_eq_byteAt (by omega))
        · rw [dif_neg inside]
          constructor
          · intro impossible
            cases impossible
          · intro header
            cases header with
            | icmp _ _ _ long =>
                rw [List.length_take, List.length_drop] at long
                unfold icmpHlen at inside
                omega
      next notIcmp =>
        constructor
        · intro impossible
          cases impossible
        · intro header
          cases header with
          | udp => exact absurd rfl notUdp
          | tcp => exact absurd rfl notTcp
          | icmp => exact absurd rfl notIcmp

def Iflat.loadL4Hlen (protocol : UInt8) (packet : List UInt8) (l4 : Nat) :
    Except Nat (Option Nat) := do
  if protocol = ipprotoUdp then
    return some udpHlen
  else if protocol = ipprotoTcp then
    loadTcpHlen packet l4
  else if protocol = ipprotoIcmp then
    if packet.length < l4 + icmpHlen then return none
    let icmpType ← load packet l4
    if icmpType ≠ icmpEcho ∧ icmpType ≠ icmpEchoreply then return none
    return some icmpHlen
  else
    return none

def Iflat.loadPayloadTag (packet : List UInt8) (l3 : Nat) : Except Nat (Option UInt32) :=
  loadTag Iflat.loadL4Hlen packet l3

theorem Iflat.loadL4Hlen_eq (protocol : UInt8) (packet : List UInt8) (l4 : Nat) :
    Iflat.loadL4Hlen protocol packet l4 = .ok (Iflat.l4Hlen protocol packet l4) := by
  unfold Iflat.loadL4Hlen Iflat.l4Hlen
  split
  next udp => rfl
  next notUdp =>
    split
    next tcp => exact loadTcpHlen_eq packet l4
    next notTcp =>
      split
      next icmp =>
        by_cases inside : l4 + icmpHlen ≤ packet.length
        · have bound : l4 < packet.length := by
            unfold icmpHlen at inside
            omega
          rw [if_neg (Nat.not_lt.mpr inside), dif_pos inside, load_eq_byteAt bound]
          dsimp only [bind, Except.bind]
          split <;> rfl
        · rw [if_pos (Nat.not_le.mp inside), dif_neg inside]
          rfl
      next notIcmp => rfl

theorem IflatUprobe.l4Hlen_measures : Measures IflatUprobe.l4Hlen false := by
  intro protocol packet l4 hlen fits
  unfold IflatUprobe.l4Hlen
  split
  next udp =>
    rw [udp]
    exact udpHlen_measures fits
  next notUdp =>
    split
    next tcp =>
      rw [tcp]
      exact tcpHlen_measures fits
    next notTcp =>
      constructor
      · intro impossible
        cases impossible
      · intro header
        cases header with
        | udp => exact absurd rfl notUdp
        | tcp => exact absurd rfl notTcp
        | icmp accepted => cases accepted

def IflatUprobe.loadL4Hlen (protocol : UInt8) (packet : List UInt8) (l4 : Nat) :
    Except Nat (Option Nat) := do
  if protocol = ipprotoUdp then
    return some udpHlen
  else if protocol = ipprotoTcp then
    loadTcpHlen packet l4
  else
    return none

def IflatUprobe.loadIpv4Tag (packet : List UInt8) (l3 : Nat) : Except Nat (Option UInt32) :=
  loadTag IflatUprobe.loadL4Hlen packet l3

theorem IflatUprobe.loadL4Hlen_eq (protocol : UInt8) (packet : List UInt8) (l4 : Nat) :
    IflatUprobe.loadL4Hlen protocol packet l4 =
      .ok (IflatUprobe.l4Hlen protocol packet l4) := by
  unfold IflatUprobe.loadL4Hlen IflatUprobe.l4Hlen
  split
  next udp => rfl
  next notUdp =>
    split
    next tcp => exact loadTcpHlen_eq packet l4
    next notTcp => rfl

/-- The two parsers accept exactly the grammar, with and without ICMP echo, find
the same tag, and load no byte outside the packet. -/
theorem tagParsers_accept_grammar (packet : List UInt8) (l3 : Nat) :
    (∀ tag, Iflat.parsePayloadTag packet l3 = some tag ↔
      Datagram true (packet.drop l3) tag) ∧
    (∀ tag, IflatUprobe.parseIpv4Tag packet l3 = some tag ↔
      Datagram false (packet.drop l3) tag) ∧
    (∀ tag, IflatUprobe.parseIpv4Tag packet l3 = some tag →
      Iflat.parsePayloadTag packet l3 = some tag) ∧
    Iflat.loadPayloadTag packet l3 = .ok (Iflat.parsePayloadTag packet l3) ∧
    IflatUprobe.loadIpv4Tag packet l3 = .ok (IflatUprobe.parseIpv4Tag packet l3) := by
  have iflat : ∀ tag, Iflat.parsePayloadTag packet l3 = some tag ↔
      Datagram true (packet.drop l3) tag :=
    fun tag => parseTag_iff_datagram Iflat.l4Hlen_measures
  have iflatUprobe : ∀ tag, IflatUprobe.parseIpv4Tag packet l3 = some tag ↔
      Datagram false (packet.drop l3) tag :=
    fun tag => parseTag_iff_datagram IflatUprobe.l4Hlen_measures
  refine ⟨iflat, iflatUprobe, ?_, loadTag_eq Iflat.loadL4Hlen_eq packet l3,
    loadTag_eq IflatUprobe.loadL4Hlen_eq packet l3⟩
  intro tag parsed
  exact (iflat tag).mpr (Datagram.with_echo ((iflatUprobe tag).mp parsed))

end BpfAgent
