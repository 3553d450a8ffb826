import BpfAgent.Iflat.EndToEnd
import BpfAgent.Iflat.Simulator
import Mathlib.Algebra.Group.Action.Defs
import Mathlib.Algebra.Order.BigOperators.Group.List
import Mathlib.Algebra.Order.Group.Nat

/-!
# IFLAT simulator: the journey of a message

A message is crafted in the namespace, received by the one hook, rewritten by
masquerading, transmitted by the other and read back from the tunnel.  The rig
measures the whole way and the agent the part between its hooks.
-/

namespace BpfAgent.Iflat.Simulator

open Packet

/-- The packets that carry a message.  The kernel writes the headers of the UDP
datagrams. -/
inductive Crafted (tag : UInt32) (sentNs : UInt64) : Proto → List UInt8 → Prop where
  | udp {ipHeader udpHeader : List UInt8} {versionIhl : UInt8}
      (version : ipHeader[0]? = some versionIhl) (four : versionIhl >>> 4 = 4)
      (long : 5 ≤ (versionIhl &&& 0x0f).toNat)
      (size : ipHeader.length = 4 * (versionIhl &&& 0x0f).toNat)
      (protocol : ipHeader[9]? = some ipprotoUdp) (dest : slice ipHeader 16 20 = some destIp)
      (header : udpHeader.length = udpHlen) (port : readBeU16 udpHeader 2 = some destPort) :
      Crafted tag sentNs .udp (ipHeader ++ (udpHeader ++ message tag sentNs))
  | tcp (port : UInt16) (seq : UInt32) :
      Crafted tag sentNs .tcp (craftTcpSegment tag sentNs port seq)
  | icmp (seq ident : UInt16) :
      Crafted tag sentNs .icmp (craftIcmpEcho tag sentNs seq ident)

theorem slice_append {front back : List UInt8} {low high : Nat} (inside : high ≤ front.length) :
    slice (front ++ back) low high = slice front low high := by
  have longer : high ≤ (front ++ back).length := by
    rw [List.length_append]
    omega
  rw [slice, slice, if_pos longer, if_pos inside]
  by_cases order : low ≤ high
  · rw [List.drop_append_of_le_length (by omega), List.take_append_of_le_length]
    rw [List.length_drop]
    omega
  · rw [Nat.sub_eq_zero_of_le (by omega), List.take_zero, List.take_zero]

theorem readBeU16_congr {left right : List UInt8} {off other : Nat}
    (high : left[off]? = right[other]?) (low : left[off + 1]? = right[other + 1]?) :
    readBeU16 left off = readBeU16 right other := by
  simp only [readBeU16, readU8_eq, high, low]

theorem Addressed.congr {left right : List UInt8} {l4 other : Nat} {proto : Proto}
    (dest : proto ≠ .icmp → ∀ off, off = 2 ∨ off = 3 → left[l4 + off]? = right[other + off]?)
    (icmpType : proto = .icmp → left[l4]? = right[other]?) :
    Addressed left l4 proto ↔ Addressed right other proto := by
  cases proto with
  | udp =>
      have port := dest (by decide)
      simp only [Addressed, readBeU16_congr (port 2 (.inl rfl)) (port 3 (.inr rfl))]
  | tcp =>
      have port := dest (by decide)
      simp only [Addressed, readBeU16_congr (port 2 (.inl rfl)) (port 3 (.inr rfl))]
  | icmp => simp only [Addressed, icmpType rfl]

section Message

variable {ipHeader l4Header : List UInt8} {versionIhl : UInt8} {tag : UInt32} {sentNs : UInt64}

theorem getElem?_l4Header {rest : List UInt8} {off : Nat} (inside : off < l4Header.length) :
    (ipHeader ++ (l4Header ++ rest))[ipHeader.length + off]? = l4Header[off]? := by
  rw [List.getElem?_append_right (Nat.le_add_right _ _), Nat.add_sub_cancel_left,
    List.getElem?_append_left inside]

theorem parsePacket_message (proto : Proto) (version : ipHeader[0]? = some versionIhl)
    (four : versionIhl >>> 4 = 4)
    (long : 5 ≤ (versionIhl &&& 0x0f).toNat)
    (size : ipHeader.length = 4 * (versionIhl &&& 0x0f).toNat)
    (protocol : ipHeader[9]? = some proto.number) (dest : slice ipHeader 16 20 = some destIp)
    (l4 : L4Header true proto.number l4Header) (whole : 8 ≤ l4Header.length)
    (addressed : Addressed l4Header 0 proto) :
    parsePacket (ipHeader ++ (l4Header ++ message tag sentNs)) = some (tag, sentNs, proto) := by
  generalize shape : ipHeader ++ (l4Header ++ message tag sentNs) = packet
  have first : packet[0]? = some versionIhl := by
    rw [← shape, List.getElem?_append_left (by omega), version]
  have read : packet[9]? = some proto.number := by
    rw [← shape, List.getElem?_append_left (by omega), protocol]
  have start : ihl packet = ipHeader.length := by
    rw [← ihl_of_first first]
    omega
  have length : packet.length = ipHeader.length + (l4Header.length + msgSize) := by
    rw [← shape, List.length_append, List.length_append]
    rfl
  have header : (packet.drop ipHeader.length).take l4Header.length = l4Header := by
    rw [← shape, List.drop_left, List.take_left]
  have off : payloadOff l4Hlen packet 0 = some (ipHeader.length + l4Header.length) := by
    apply payloadOff_of_first.mpr
    refine ⟨versionIhl, proto.number, l4Header.length, first, four, by omega, by omega, read, ?_,
      by rw [start]⟩
    rw [start]
    apply (l4Hlen_measures _ _ _ _ (by omega)).mpr
    rw [header]
    exact l4
  have tagged : txTag packet = some tag := by
    apply parseTag_of_datagram l4Hlen_measures
    rw [List.drop_zero, ← shape, ← List.append_assoc]
    exact .mk (.mk version four long size protocol l4)
  have payload : packet.drop (ipHeader.length + l4Header.length) = message tag sentNs := by
    rw [← shape, ← List.drop_drop, List.drop_left, List.drop_left]
  have stamped : Stamped packet sentNs := by
    refine ⟨_, off, ?_⟩
    rw [← slice_drop (by omega), payload]
    exact congrArg some (Word.bigEndian64_bytes sentNs)
  apply parsePacket_eq_some_iff.mpr
  refine ⟨⟨?_, read, ?_⟩, tagged, stamped⟩
  · rw [← shape, slice_append (by omega), dest]
  · rw [start, ← shape]
    refine (Addressed.congr ?_ ?_).mpr addressed
    · rintro - off (rfl | rfl)
      · exact getElem?_l4Header (by omega)
      · exact getElem?_l4Header (by omega)
    · intro _
      exact @getElem?_l4Header ipHeader l4Header _ 0 (by omega)

end Message

theorem tcpHeader_l4Header (sport : UInt16) (seq : UInt32) (checksum : UInt16) :
    L4Header true Proto.tcp.number (tcpHeader sport seq checksum) :=
  .tcp (show _ = some ((5 : UInt8) <<< 4) from rfl) (by decide) rfl

theorem icmpHeader_l4Header (ident seq checksum : UInt16) :
    L4Header true Proto.icmp.number (icmpHeader ident seq checksum) :=
  .icmp rfl (show _ = some icmpEcho from rfl) (.inr rfl) rfl

theorem Crafted.parsePacket {tag : UInt32} {sentNs : UInt64} {proto : Proto}
    {packet : List UInt8} (crafted : Crafted tag sentNs proto packet) :
    parsePacket packet = some (tag, sentNs, proto) := by
  have first : ∀ protocol total, (ipv4Header protocol total)[0]? = some 0x45 := fun _ _ => rfl
  cases crafted with
  | udp version four long size protocol dest header port =>
      apply parsePacket_message .udp version four long size protocol dest (.udp header)
      · rw [header, udpHlen]
      · exact port
  | tcp port seq =>
      apply parsePacket_message .tcp (first _ _) (by decide) (by decide) rfl rfl rfl
        (tcpHeader_l4Header _ seq _)
      · exact Nat.le_of_ble_eq_true rfl
      · have port : readBeU16 (Word.bigEndianBytes16 tcpDestPort) 0 = some tcpDestPort := by decide
        exact (readBeU16_congr rfl rfl).trans port
  | icmp seq ident =>
      apply parsePacket_message .icmp (first _ _) (by decide) (by decide) rfl rfl rfl
        (icmpHeader_l4Header ident seq _)
      · exact Nat.le_refl 8
      · exact rfl

/-- The kernel rewrites headers and leaves alone where the packet goes. -/
structure Masquerades (packet rewritten : List UInt8) : Prop
    extends Rewrites packet rewritten where
  dest : slice rewritten 16 20 = slice packet 16 20
  port : packet[9]? ≠ some ipprotoIcmp → ∀ off, off = 2 ∨ off = 3 →
    rewritten[ihl packet + off]? = packet[ihl packet + off]?

section Masquerading

variable {packet rewritten : List UInt8} (masquerades : Masquerades packet rewritten)

include masquerades

theorem Masquerades.ihl : ihl rewritten = Iflat.ihl packet := by
  rw [Iflat.ihl, Iflat.ihl, List.getD_eq_getElem?_getD, List.getD_eq_getElem?_getD,
    masquerades.versionIhl]

theorem Masquerades.ours {proto : Proto} (ours : Ours packet proto) : Ours rewritten proto where
  dest := by rw [masquerades.dest, ours.dest]
  protocol := by rw [masquerades.protocol, ours.protocol]
  addressed := by
    rw [masquerades.ihl]
    refine (Addressed.congr ?_ ?_).mpr ours.addressed
    · intro other
      apply masquerades.port
      rw [ours.protocol]
      cases proto <;> simp_all [Proto.number, ipprotoUdp, ipprotoTcp, ipprotoIcmp]
    · rintro rfl
      exact masquerades.icmpType ours.protocol

theorem Masquerades.payloadOff {off : Nat} (found : payloadOff l4Hlen packet 0 = some off) :
    Packet.payloadOff l4Hlen rewritten 0 = some off := by
  obtain ⟨versionIhl, protocol, hlen, first, four, long, fits, read, measured, rfl⟩ :=
    payloadOff_of_first.mp found
  apply payloadOff_of_first.mpr
  rw [masquerades.ihl, masquerades.versionIhl, masquerades.protocol, masquerades.length]
  refine ⟨versionIhl, protocol, hlen, first, four, long, fits, read, ?_, rfl⟩
  rw [← measured]
  apply l4Hlen_congr
  · rw [masquerades.length]
  · rintro rfl
    exact masquerades.dataOffset read
  · rintro rfl
    exact masquerades.icmpType read

theorem Masquerades.stamped {sentNs : UInt64} (stamped : Stamped packet sentNs) :
    Stamped rewritten sentNs := by
  obtain ⟨off, found, read⟩ := stamped
  refine ⟨off, masquerades.payloadOff found, ?_⟩
  obtain ⟨versionIhl, protocol, hlen, first, four, long, fits, proto, measured, rfl⟩ :=
    payloadOff_of_first.mp found
  have payload := masquerades.payload hlen (l4HeaderLength_of_accepted proto measured)
  have same : rewritten.drop (Iflat.ihl packet + hlen) = packet.drop (Iflat.ihl packet + hlen) := by
    apply List.ext_getElem?
    intro index
    rw [List.getElem?_drop, List.getElem?_drop]
    exact payload _ (Nat.le_add_right _ _)
  rw [← slice_drop (by omega)] at read ⊢
  rw [same, read]

theorem Masquerades.recognised {tag : UInt32} {sentNs : UInt64} {proto : Proto}
    (recognised : parsePacket packet = some (tag, sentNs, proto)) :
    parsePacket rewritten = some (tag, sentNs, proto) := by
  obtain ⟨ours, tagged, stamped⟩ := parsePacket_eq_some_iff.mp recognised
  apply parsePacket_eq_some_iff.mpr
  refine ⟨masquerades.ours ours, ?_, masquerades.stamped stamped⟩
  rw [← tagged]
  exact masquerades.toRewrites.parsePayloadTag.symm

end Masquerading

/-- A message that is received and transmitted along a run, and then read from
the tunnel.  All clocks are one. -/
structure Journey (events : List Event) where
  tag : UInt32
  sentNs : UInt64
  proto : Proto
  packet : List UInt8
  crafted : Crafted tag sentNs proto packet
  header : List UInt8
  length : header.length = ethHlen
  etherType : header.drop 12 = [0x08, 0x00]
  rewritten : List UInt8
  masquerades : Masquerades packet rewritten
  first : Nat
  second : Nat
  before : first < second
  rxNow : UInt64
  victims : List UInt32
  received : events[first]? = some ⟨rxNow, .rx (header ++ packet) victims⟩
  txNow : UInt64
  transmitted : events[second]? = some ⟨txNow, .tx rewritten⟩
  readNow : UInt64
  sent : sentNs ≤ rxNow
  read : txNow ≤ readNow

/-- What the rig measures. -/
def latencyUs (now sentNs : UInt64) : UInt64 := Word.saturatingSub now sentNs / 1000

namespace Journey

variable {events : List Event} (journey : Journey events)

/-- What the agent measures. -/
def sample : Option UInt64 := forwarding.samples State.loaded events journey.second

theorem tagged : txTag journey.packet = some journey.tag :=
  (parsePacket_eq_some_iff.mp journey.crafted.parsePacket).2.1

theorem recognised :
    parsePacket journey.rewritten = some (journey.tag, journey.sentNs, journey.proto) :=
  journey.masquerades.recognised journey.crafted.parsePacket

theorem stores : forwarding.actions events journey.first = .store journey.tag journey.rxNow := by
  have tag : rxTag (journey.header ++ journey.packet) = some journey.tag := by
    rw [rxTag_append journey.length journey.etherType]
    exact journey.tagged
  simp [Correlation.Correlator.actions, journey.received, forwarding, action, tag]

theorem took : forwarding.actions events journey.second = .take journey.tag := by
  have tag : txTag journey.rewritten = some journey.tag := by
    rw [← journey.tagged]
    exact journey.masquerades.toRewrites.parsePayloadTag.symm
  simp [Correlation.Correlator.actions, journey.transmitted, forwarding, action, tag]

theorem clock_first : forwarding.clockAt events journey.first = journey.rxNow := by
  simp [Correlation.Correlator.clockAt, journey.received, forwarding]

theorem clock_second : forwarding.clockAt events journey.second = journey.txNow := by
  simp [Correlation.Correlator.clockAt, journey.transmitted, forwarding]

theorem second_inside : journey.second < events.length := by
  have transmitted := journey.transmitted
  by_contra outside
  rw [List.getElem?_eq_none (by omega)] at transmitted
  cases transmitted

section Ordered

variable (ordered : events.Pairwise fun earlier later => earlier.now ≤ later.now)

include ordered

theorem measures :
    Correlation.Measures (forwarding.actions events) (forwarding.evicted State.loaded events)
      (forwarding.clockAt events) (forwarding.samples State.loaded events) :=
  forwarding.measures (fun _ => rfl) ordered

/-- The hooks lie on the way that the rig measures, even if another message of
the same tag has been received in between. -/
theorem sample_le {latency : UInt64} (sampled : journey.sample = some latency) :
    latency.toNat ≤ journey.readNow.toNat - journey.sentNs.toNat := by
  have inside := journey.second_inside
  have bound := (measures ordered).sample_le journey.before ⟨_, journey.stores⟩ journey.took
    (fun other after before => forwarding.clockAt_le ordered after (before.trans inside)) sampled
  rw [journey.clock_first, journey.clock_second] at bound
  have sent := UInt64.le_iff_toNat_le.mp journey.sent
  have read := UInt64.le_iff_toNat_le.mp journey.read
  omega

theorem sampleUs_le {latency : UInt64} (sampled : journey.sample = some latency) :
    latency / nsPerUs ≤ latencyUs journey.readNow journey.sentNs := by
  have bound := journey.sample_le ordered sampled
  rw [UInt64.le_iff_toNat_le, latencyUs, UInt64.toNat_div, UInt64.toNat_div,
    Word.toNat_saturatingSub]
  exact Nat.div_le_div_right bound

end Ordered

/-- The rig recognises the message, the agent's sample is part of the rig's
latency, and there is one unless the tag was reused on the way or its timestamp
evicted, as a victim or from a full map. -/
structure Measured : Prop where
  recognised :
    parsePacket journey.rewritten = some (journey.tag, journey.sentNs, journey.proto)
  bounded : ∀ latency, journey.sample = some latency →
    latency / nsPerUs ≤ latencyUs journey.readNow journey.sentNs
  complete :
    (∀ index, journey.first < index → index < journey.second →
      ¬(forwarding.actions events index).Touches journey.tag) →
    (∀ index, journey.first ≤ index → index < journey.second →
      ¬forwarding.evicted State.loaded events index journey.tag) →
    ∃ latency, journey.sample = some latency ∧
      latency.toNat = journey.txNow.toNat - journey.rxNow.toNat
  evicted : ∀ index, forwarding.evicted State.loaded events index journey.tag →
    Displaces events index journey.tag

/-- Along every run, among all other traffic. -/
theorem measured_of_ordered (events : List Event)
    (ordered : events.Pairwise fun earlier later => earlier.now ≤ later.now)
    (journey : Journey events) : journey.Measured where
  recognised := journey.recognised
  bounded _ := journey.sampleUs_le ordered
  complete := by
    intro untouched kept
    obtain ⟨latency, sampled, -, elapsed⟩ := (measures ordered).of_untouched journey.before
      ⟨_, journey.stores⟩ journey.took untouched kept
    rw [journey.clock_first, journey.clock_second] at elapsed
    exact ⟨latency, sampled, elapsed⟩
  evicted _ := displaces_of_evicted

end Journey

section OneDatagram

def datagramMasqueraded : List UInt8 :=
  [0x45, 0, 0, 92, 0, 7, 0x40, 0, 63, 17, 9, 9, 10, 200, 0, 1] ++ destIp ++
    ([0xff, 0x01, 0x13, 0x88, 0, 72, 3, 4] ++ message 0x01020304 1000)

theorem datagram_masquerades : Masquerades datagramSent datagramMasqueraded := by
  refine ⟨⟨by decide, by decide, by decide, by decide, by decide, ?_⟩, by decide, ?_⟩
  · intro hlen length off beyond
    have header : l4HeaderLength datagramSent = some 8 := by decide
    cases header.symm.trans length
    have start : ihl datagramSent + 8 = 28 := by decide
    obtain ⟨index, rfl⟩ := Nat.exists_eq_add_of_le (start ▸ beyond)
    rw [← List.getElem?_drop, ← List.getElem?_drop]
    rfl
  · rintro - off (rfl | rfl) <;> decide

def datagramEvents : List Event :=
  [⟨2000, .rx (ethernetFrame datagramSent) []⟩, ⟨5000, .tx datagramMasqueraded⟩, ⟨10000, .tick⟩]

def datagramJourney : Journey datagramEvents where
  tag := 0x01020304
  sentNs := 1000
  proto := .udp
  packet := datagramSent
  crafted := .udp (show kernelHeader[0]? = some 0x45 from rfl) (by decide) (by decide) (by decide)
    (by decide) (by decide) (by decide) (by decide)
  header := List.replicate 12 0xaa ++ [0x08, 0x00]
  length := by decide
  etherType := by decide
  rewritten := datagramMasqueraded
  masquerades := datagram_masquerades
  first := 0
  second := 1
  before := by decide
  rxNow := 2000
  victims := []
  received := rfl
  txNow := 5000
  transmitted := rfl
  readNow := 9000
  sent := by decide
  read := by decide

theorem measured_datagram :
    datagramJourney.sample = some 3000 ∧ latencyUs 9000 1000 = 8 ∧ datagramJourney.Measured := by
  refine ⟨by decide +kernel, by decide, ?_⟩
  exact Journey.measured_of_ordered datagramEvents (by simp [datagramEvents]) datagramJourney

end OneDatagram

/-- The statistics that the receiver prints. -/
structure Receiver where
  samples : UInt64
  sumUs : UInt64
  minUs : UInt64
  maxUs : UInt64

namespace Receiver

def start : Receiver := ⟨0, 0, UInt64.ofNat (2 ^ 64 - 1), 0⟩

def record (receiver : Receiver) (latency : UInt64) : Receiver where
  samples := receiver.samples + 1
  sumUs := receiver.sumUs + latency
  minUs := min receiver.minUs latency
  maxUs := max receiver.maxUs latency

/-- A packet read at `now`; foreign traffic is skipped. -/
def receive (receiver : Receiver) (now : UInt64) (packet : List UInt8) : Receiver :=
  match parsePacket packet with
  | none => receiver
  | some (_, sentNs, _) => receiver.record (latencyUs now sentNs)

def avgUs (receiver : Receiver) : UInt64 := receiver.sumUs / receiver.samples

/-- The packets read, each with the time of reading. -/
def receiveAll (reads : List (UInt64 × List UInt8)) : Receiver :=
  reads.foldl (fun receiver read => receiver.receive read.1 read.2) start

def latencies (reads : List (UInt64 × List UInt8)) : List UInt64 :=
  reads.filterMap fun read =>
    (parsePacket read.2).map fun parsed => latencyUs read.1 parsed.2.1

structure Summarises (receiver : Receiver) (latencies : List UInt64) : Prop where
  samples : receiver.samples.toNat = latencies.length
  sum : receiver.sumUs.toNat = (latencies.map UInt64.toNat).sum
  least : ∀ latency ∈ latencies, receiver.minUs.toNat ≤ latency.toNat
  greatest : ∀ latency ∈ latencies, latency.toNat ≤ receiver.maxUs.toNat

theorem start_summarises : start.Summarises [] where
  samples := rfl
  sum := rfl
  least := by simp
  greatest := by simp

theorem Summarises.record {receiver : Receiver} {latencies : List UInt64}
    (summarises : receiver.Summarises latencies) (latency : UInt64)
    (total : ((latencies ++ [latency]).map UInt64.toNat).sum < 2 ^ 64)
    (number : (latencies ++ [latency]).length < 2 ^ 64) :
    (receiver.record latency).Summarises (latencies ++ [latency]) := by
  simp only [List.map_append, List.sum_append, List.length_append, List.map_cons, List.map_nil,
    List.sum_cons, List.sum_nil, List.length_singleton, Nat.add_zero] at total number
  have samples := summarises.samples
  have sum := summarises.sum
  constructor
  · rw [Receiver.record, UInt64.toNat_add, List.length_append, List.length_singleton, samples]
    exact Nat.mod_eq_of_lt number
  · simp only [Receiver.record, UInt64.toNat_add, List.map_append, List.sum_append, List.map_cons,
      List.map_nil, List.sum_cons, List.sum_nil, Nat.add_zero, sum]
    exact Nat.mod_eq_of_lt total
  · intro other member
    rw [Receiver.record, Word.toNat_min]
    rcases List.mem_append.mp member with old | new
    · exact (Nat.min_le_left _ _).trans (summarises.least other old)
    · rw [List.mem_singleton.mp new]
      exact Nat.min_le_right _ _
  · intro other member
    rw [Receiver.record, Word.toNat_max]
    rcases List.mem_append.mp member with old | new
    · exact (summarises.greatest other old).trans (Nat.le_max_left _ _)
    · rw [List.mem_singleton.mp new]
      exact Nat.le_max_right _ _

theorem latencies_append (reads later : List (UInt64 × List UInt8)) :
    latencies (reads ++ later) = latencies reads ++ latencies later :=
  List.filterMap_append

theorem receiveAll_summarises (reads : List (UInt64 × List UInt8))
    (total : ((latencies reads).map UInt64.toNat).sum < 2 ^ 64)
    (number : (latencies reads).length < 2 ^ 64) :
    (receiveAll reads).Summarises (latencies reads) := by
  induction reads using List.reverseRecOn with
  | nil => exact start_summarises
  | append_singleton reads read inductionHypothesis =>
      have reached : receiveAll (reads ++ [read]) =
          (receiveAll reads).receive read.1 read.2 := by
        rw [receiveAll, List.foldl_append]
        rfl
      rw [latencies_append] at total number ⊢
      rw [reached, receive]
      have earlier : (receiveAll reads).Summarises (latencies reads) := by
        apply inductionHypothesis
        · rw [List.map_append, List.sum_append] at total
          omega
        · rw [List.length_append] at number
          omega
      cases parsed : parsePacket read.2 with
      | none =>
          have nothing : latencies [read] = [] := by simp [latencies, parsed]
          rw [nothing, List.append_nil]
          exact earlier
      | some found =>
          have one : latencies [read] = [latencyUs read.1 found.2.1] := by
            simp [latencies, parsed]
          rw [one] at total number ⊢
          exact earlier.record _ total number

theorem latencies_filter (reads : List (UInt64 × List UInt8)) :
    latencies (reads.filter fun read => (parsePacket read.2).isSome) = latencies reads := by
  unfold latencies
  rw [List.filterMap_filter]
  apply List.filterMap_congr
  intro read _
  cases parsePacket read.2 <;> rfl

theorem Summarises.avg_between {receiver : Receiver} {latencies : List UInt64}
    (summarises : receiver.Summarises latencies) (some : latencies ≠ []) :
    receiver.minUs.toNat ≤ receiver.avgUs.toNat ∧
      receiver.avgUs.toNat ≤ receiver.maxUs.toNat := by
  have positive : 0 < latencies.length := List.length_pos_iff.mpr some
  rw [avgUs, UInt64.toNat_div, summarises.samples, summarises.sum]
  have low := List.card_nsmul_le_sum (latencies.map UInt64.toNat) receiver.minUs.toNat
    (by simpa using summarises.least)
  have high := List.sum_le_card_nsmul (latencies.map UInt64.toNat) receiver.maxUs.toNat
    (by simpa using summarises.greatest)
  rw [List.length_map, smul_eq_mul] at low high
  constructor
  · rw [Nat.le_div_iff_mul_le positive, Nat.mul_comm]
    exact low
  · exact Nat.div_le_of_le_mul high

end Receiver

def Journey.arrival {events : List Event} (journey : Journey events) : UInt64 × List UInt8 :=
  (journey.readNow, journey.rewritten)

theorem latencies_arrivals {events : List Event} (journeys : List (Journey events)) :
    Receiver.latencies (journeys.map Journey.arrival) =
      journeys.map fun journey => latencyUs journey.readNow journey.sentNs := by
  unfold Receiver.latencies
  rw [List.filterMap_map, ← List.filterMap_eq_map]
  apply List.filterMap_congr
  intro journey _
  simp [Journey.arrival, journey.recognised]

theorem sum_samples_le {events : List Event} {journeys : List (Journey events)}
    {samples : List UInt64}
    (ordered : events.Pairwise fun earlier later => earlier.now ≤ later.now)
    (sampled : journeys.map Journey.sample = samples.map some) :
    (samples.map UInt64.toNat).sum ≤
      1000 * ((journeys.map fun journey =>
        latencyUs journey.readNow journey.sentNs).map UInt64.toNat).sum +
          999 * samples.length := by
  induction journeys generalizing samples with
  | nil =>
      rw [List.map_nil, eq_comm, List.map_eq_nil_iff] at sampled
      simp [sampled]
  | cons journey journeys inductionHypothesis =>
      cases samples with
      | nil => simp at sampled
      | cons latency samples =>
          simp only [List.map_cons, List.cons.injEq] at sampled
          have bound := UInt64.le_iff_toNat_le.mp (journey.sampleUs_le ordered sampled.1)
          rw [UInt64.toNat_div, show nsPerUs.toNat = 1000 from rfl] at bound
          have rest := inductionHypothesis sampled.2
          simp only [List.map_cons, List.sum_cons, List.length_cons]
          omega

theorem average_samples_le {events : List Event} {journeys : List (Journey events)}
    {samples : List UInt64} {reads : List (UInt64 × List UInt8)}
    (ordered : events.Pairwise fun earlier later => earlier.now ≤ later.now)
    (sampled : (journeys.map Journey.sample).Perm (samples.map some))
    (arrived : (reads.filter fun read => (parsePacket read.2).isSome) =
      journeys.map Journey.arrival)
    (summarises : (Receiver.receiveAll reads).Summarises (Receiver.latencies reads)) :
    averageUs samples ≤ (Receiver.receiveAll reads).avgUs.toNat + 1 := by
  have latencies : Receiver.latencies reads =
      journeys.map fun journey => latencyUs journey.readNow journey.sentNs := by
    rw [← Receiver.latencies_filter, arrived, latencies_arrivals]
  have same : journeys.length = samples.length := by
    simpa using sampled.length_eq
  -- The samples in the order in which the messages were read.
  obtain ⟨reordered, inOrder, permuted⟩ : ∃ reordered, journeys.map Journey.sample =
      List.map some reordered ∧ reordered.Perm samples := by
    have factors := congrFun₂ (List.eq_map_comp_perm some) (journeys.map Journey.sample) samples
    exact factors.mpr sampled
  have bound := sum_samples_le ordered inOrder
  rw [← latencies, (permuted.map UInt64.toNat).sum_eq, permuted.length_eq] at bound
  have length : (Receiver.latencies reads).length = samples.length := by
    rw [latencies, List.length_map, same]
  rw [averageUs, Receiver.avgUs, UInt64.toNat_div, summarises.samples, summarises.sum, length]
  rcases Nat.eq_zero_or_pos samples.length with none | positive
  · simp [none]
  · rw [← Nat.div_div_eq_div_mul, ← Nat.add_div_right _ positive]
    apply Nat.div_le_div_right
    omega

/-- The samples between two ticks are those of the journeys, in some order: every
message is sampled, and nothing else is. -/
def Accounts {events : List Event} (before between : List Event)
    (journeys : List (Journey events)) : Prop :=
  (journeys.map Journey.second).Perm
    ((List.range' before.length between.length).filter fun index =>
      (forwarding.samples State.loaded events index).isSome)

theorem map_filter_isSome {Index Sample : Type} (sample : Index → Option Sample)
    (indices : List Index) :
    (indices.filter fun index => (sample index).isSome).map sample =
      (indices.filterMap sample).map some := by
  induction indices with
  | nil => rfl
  | cons index indices inductionHypothesis =>
      cases found : sample index with
      | none => simp [found, inductionHypothesis]
      | some value => simp [found, inductionHypothesis]

theorem Accounts.sampled {before between after : List Event}
    {journeys : List (Journey (before ++ between ++ after))}
    (accounts : Accounts before between journeys) :
    (journeys.map Journey.sample).Perm
      ((Run.outputs step sample (stateAfter before) between).map some) := by
  have positions := Run.outputs_infix step sample State.loaded before between after
  have samples := accounts.map (forwarding.samples State.loaded (before ++ between ++ after))
  rw [stateAfter, positions]
  rw [map_filter_isSome, List.map_map] at samples
  exact samples

/-- Whenever the agent has sampled, since the tick before, the messages that the
receiver has read, its gauge shows at most a microsecond more than the average
that the receiver prints, which lies between the extremes. -/
theorem gauge_le_average (before between after : List Event) (tick : Event)
    (ordered : (before ++ between ++ tick :: after).Pairwise
      fun earlier later => earlier.now ≤ later.now)
    (fits : Fits (before ++ between ++ tick :: after)) (atTick : AtTick before)
    (quiet : ∀ event ∈ between, event.hook ≠ .tick) (ticks : tick.hook = .tick)
    (journeys : List (Journey (before ++ between ++ tick :: after)))
    (accounts : Accounts before between journeys) (reads : List (UInt64 × List UInt8))
    (arrived : (reads.filter fun read => (parsePacket read.2).isSome) =
      journeys.map Journey.arrival)
    (total : ((Receiver.latencies reads).map UInt64.toNat).sum < 2 ^ 64)
    (number : reads.length < 2 ^ 64) :
    (stateAfter (before ++ between ++ [tick])).program.avgLatencyUs.toNat ≤
        (Receiver.receiveAll reads).avgUs.toNat + 1 ∧
      (journeys ≠ [] →
        (Receiver.receiveAll reads).minUs.toNat ≤ (Receiver.receiveAll reads).avgUs.toNat ∧
        (Receiver.receiveAll reads).avgUs.toNat ≤ (Receiver.receiveAll reads).maxUs.toNat) := by
  have counted : (Receiver.latencies reads).length ≤ reads.length := List.length_filterMap_le _ _
  have summarises := Receiver.receiveAll_summarises reads total (by omega)
  constructor
  · rw [fits.gauge atTick quiet ticks]
    exact average_samples_le ordered accounts.sampled arrived summarises
  · intro some
    apply summarises.avg_between
    rw [← Receiver.latencies_filter, arrived, latencies_arrivals]
    exact mt List.map_eq_nil_iff.mp some

theorem gauge_le_average_datagram :
    (stateAfter datagramEvents).program.avgLatencyUs = 3 ∧
      (stateAfter datagramEvents).program.avgLatencyUs.toNat ≤ (Receiver.receiveAll
        [(7000, [0x45, 0, 0, 0]), (9000, datagramMasqueraded)]).avgUs.toNat + 1 := by
  refine ⟨by decide +kernel, ?_⟩
  exact (gauge_le_average [] (datagramEvents.take 2) [] ⟨10000, .tick⟩ (by simp [datagramEvents])
    ⟨by decide +kernel, by decide +kernel⟩ (.inl rfl) (by decide) rfl [datagramJourney]
    (by unfold Accounts; decide +kernel) [(7000, [0x45, 0, 0, 0]), (9000, datagramMasqueraded)]
    (by decide +kernel) (by decide +kernel) (by decide)).1

end BpfAgent.Iflat.Simulator
