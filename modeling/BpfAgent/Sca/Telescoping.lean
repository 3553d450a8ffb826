import BpfAgent.Sca.SendStep
import Mathlib.Algebra.BigOperators.Fin

/-!
# SCA: the individual latencies of a message add up

A message travels all hops in lockstep: its requests go out in data-flow order
and its replies come back in the opposite order.  How far a message has come
determines exactly which of its timestamps and latencies the two maps hold, and
no send of another message disturbs them.  The individual latencies therefore
telescope to the raw latency of hop 0, however the messages are interleaved.
-/

namespace BpfAgent.Sca

abbrev Hop := Fin 7

def Hop.word (hop : Hop) : UInt32 := hop.val.toUInt32

theorem Hop.toNat_word (hop : Hop) : hop.word.toNat = hop.val := by
  revert hop
  decide

theorem Hop.word_inj {hop other : Hop} : hop.word = other.word ↔ hop = other := by
  rw [← UInt32.toNat_inj, Hop.toNat_word, Hop.toNat_word, Fin.val_inj]

theorem Hop.word_pos (hop : Hop) : 0 < hop.word ↔ hop ≠ 0 := by
  revert hop
  decide

theorem Hop.word_succ_lt (hop : Hop) :
    hop.word + 1 < dataFlow.length.toUInt32 ↔ hop.val + 1 < 7 := by
  revert hop
  decide

theorem Hop.word_succ (hop : Hop) (inside : hop.val + 1 < 7) :
    hop.word + 1 = Hop.word ⟨hop.val + 1, inside⟩ := by
  revert hop
  decide

structure Message where
  protocol : UInt32
  req : Hop → SendCall
  rep : Hop → SendCall

namespace Message

/-- The sends of a message: REQ 0, ..., REQ 6, REP 6, ..., REP 0. -/
def sends (message : Message) : List SendCall :=
  List.ofFn message.req ++ (List.ofFn message.rep).reverse

def raw (message : Message) (hop : Hop) : Nat :=
  (message.rep hop).now.toNat - (message.req hop).now.toNat

def sample (message : Message) (hop : Hop) : UInt64 :=
  if inside : hop.val + 1 < 7 then
    Word.saturatingSub ((message.rep hop).now - (message.req hop).now)
      ((message.rep ⟨hop.val + 1, inside⟩).now - (message.req ⟨hop.val + 1, inside⟩).now)
  else
    (message.rep hop).now - (message.req hop).now

def key (message : Message) (hop : Hop) : UInt64 := pairKey hop.word message.protocol

/-- Every send of the message is made on a tracked endpoint of its hop. -/
structure Travels (maps : Maps) (message : Message) : Prop where
  request : ∀ hop, ∃ event, sendEvent maps (message.req hop) = some event ∧
    event.endpoint.hopIndex = hop.word ∧ event.endpoint.isSender = 1 ∧
    event.protocol = message.protocol
  reply : ∀ hop, ∃ event, sendEvent maps (message.rep hop) = some event ∧
    event.endpoint.hopIndex = hop.word ∧ event.endpoint.isSender ≠ 1 ∧
    event.protocol = message.protocol

/-- The clock readings of a message are in lockstep order. -/
structure Ordered (message : Message) : Prop where
  turn : ∀ hop other, (message.req hop).now < (message.rep other).now
  down : ∀ hop other, hop < other → (message.req hop).now < (message.req other).now
  up : ∀ hop other, hop < other → (message.rep other).now < (message.rep hop).now

theorem ordered_of_pairwise {message : Message}
    (increasing : message.sends.Pairwise fun first second => first.now < second.now) :
    message.Ordered := by
  obtain ⟨requests, replies, across⟩ := List.pairwise_append.mp increasing
  refine ⟨?_, ?_, ?_⟩
  · intro hop other
    apply across
    · exact List.mem_ofFn.mpr ⟨hop, rfl⟩
    · exact List.mem_reverse.mpr (List.mem_ofFn.mpr ⟨other, rfl⟩)
  · intro hop other before
    exact List.pairwise_ofFn.mp requests before
  · intro hop other before
    exact List.pairwise_ofFn.mp (List.pairwise_reverse.mp replies) before

namespace Ordered

variable {message : Message} (ordered : message.Ordered)

include ordered

theorem toNat_elapsed (hop : Hop) :
    ((message.rep hop).now - (message.req hop).now).toNat = message.raw hop :=
  UInt64.toNat_sub_of_le _ _ (UInt64.le_of_lt (ordered.turn hop hop))

theorem elapsed (hop : Hop) : (message.rep hop).now - (message.req hop).now ≠ 0 := by
  intro zero
  have value := ordered.toNat_elapsed hop
  have later := UInt64.lt_iff_toNat_lt.mp (ordered.turn hop hop)
  rw [zero, Message.raw, UInt64.toNat_zero] at value
  omega

theorem raw_succ_le (hop : Hop) (inside : hop.val + 1 < 7) :
    message.raw ⟨hop.val + 1, inside⟩ ≤ message.raw hop := by
  have before : hop < ⟨hop.val + 1, inside⟩ := Nat.lt_succ_self hop.val
  have down := UInt64.lt_iff_toNat_lt.mp (ordered.down hop _ before)
  have up := UInt64.lt_iff_toNat_lt.mp (ordered.up hop _ before)
  unfold raw
  omega

theorem toNat_sample (hop : Hop) (inside : hop.val + 1 < 7) :
    (message.sample hop).toNat = message.raw hop - message.raw ⟨hop.val + 1, inside⟩ := by
  rw [Message.sample, dif_pos inside, Word.toNat_saturatingSub, ordered.toNat_elapsed,
    ordered.toNat_elapsed]

theorem sum_sample : ∑ hop, (message.sample hop).toNat = message.raw 0 := by
  have last : (message.sample 6).toNat = message.raw 6 := ordered.toNat_elapsed 6
  have step : ∀ (hop : Hop) (inside : hop.val + 1 < 7),
      (message.sample hop).toNat + message.raw ⟨hop.val + 1, inside⟩ = message.raw hop := by
    intro hop inside
    rw [ordered.toNat_sample hop inside]
    exact Nat.sub_add_cancel (ordered.raw_succ_le hop inside)
  have zero : (message.sample 0).toNat + message.raw 1 = message.raw 0 := step 0 (by decide)
  have one : (message.sample 1).toNat + message.raw 2 = message.raw 1 := step 1 (by decide)
  have two : (message.sample 2).toNat + message.raw 3 = message.raw 2 := step 2 (by decide)
  have three : (message.sample 3).toNat + message.raw 4 = message.raw 3 := step 3 (by decide)
  have four : (message.sample 4).toNat + message.raw 5 = message.raw 4 := step 4 (by decide)
  have five : (message.sample 5).toNat + message.raw 6 = message.raw 5 := step 5 (by decide)
  rw [Fin.sum_univ_seven]
  omega

end Ordered

theorem sends_length (message : Message) : message.sends.length = 14 := by
  simp [sends]

theorem sends_cases {message : Message} {position : Nat} {call : SendCall}
    (sent : message.sends[position]? = some call) :
    (∃ hop : Hop, position = hop.val ∧ call = message.req hop) ∨
      ∃ hop : Hop, position + hop.val = 13 ∧ call = message.rep hop := by
  rw [sends, List.getElem?_append] at sent
  split at sent
  next low =>
    simp only [List.length_ofFn] at low
    rw [List.getElem?_ofFn, dif_pos low] at sent
    exact .inl ⟨⟨position, low⟩, rfl, (Option.some.inj sent).symm⟩
  next high =>
    simp only [List.length_ofFn, Nat.not_lt] at high sent
    have bound : position - 7 < 7 := by
      by_contra beyond
      rw [List.getElem?_eq_none (by simp; omega)] at sent
      cases sent
    rw [List.getElem?_reverse (by simpa using bound), List.length_ofFn,
      List.getElem?_ofFn, dif_pos (by omega)] at sent
    exact .inr ⟨⟨7 - 1 - (position - 7), by omega⟩, by simp only; omega,
      (Option.some.inj sent).symm⟩

end Message

/-- What the maps hold of a message after its first `position` sends. -/
structure Progress (message : Message) (position : Nat) (maps : Maps) : Prop where
  waiting : ∀ hop : Hop, maps.timestampMap.get (message.key hop) =
    if hop.val < position ∧ position + hop.val ≤ 13 then some (message.req hop).now
    else none
  published : ∀ hop : Hop, maps.latencyHopMap.get (message.key hop) =
    if position + hop.val = 14 ∧ hop ≠ 0 then
      some ((message.rep hop).now - (message.req hop).now)
    else none
  beyond : ∀ hop : UInt32, 7 ≤ hop.toNat →
    maps.timestampMap.get (pairKey hop message.protocol) = none ∧
      maps.latencyHopMap.get (pairKey hop message.protocol) = none

namespace Progress

variable {message : Message} {maps : Maps} {call : SendCall} {event : SendEvent}
  {hop : Hop}

theorem key_inj {other : Hop} : message.key other = message.key hop ↔ other = hop := by
  rw [Message.key, Message.key, Word.pack_inj, Hop.word_inj]
  simp

theorem beyond_ne {word : UInt32} (far : 7 ≤ word.toNat) (hop : Hop) :
    pairKey word message.protocol ≠ message.key hop := by
  intro equality
  have same := congrArg UInt32.toNat (Word.pack_inj.mp equality).1
  rw [Hop.toNat_word] at same
  omega

theorem frame {position : Nat} (progress : Progress message position maps)
    (seen : sendEvent maps call = some event)
    (other : message.protocol ≠ event.protocol) :
    Progress message position (send maps call) where
  waiting hop := by
    rw [Message.key, (send_frame seen other hop.word).1]
    exact progress.waiting hop
  published hop := by
    rw [Message.key, (send_frame seen other hop.word).2]
    exact progress.published hop
  beyond word far := by
    rw [(send_frame seen other word).1, (send_frame seen other word).2]
    exact progress.beyond word far

theorem request (progress : Progress message hop.val maps)
    (seen : sendEvent maps (message.req hop) = some event)
    (hopIndex : event.endpoint.hopIndex = hop.word) (sender : event.endpoint.isSender = 1)
    (protocol : event.protocol = message.protocol)
    (room : maps.timestampMap.size < 1024) :
    Progress message (hop.val + 1) (send maps (message.req hop)) := by
  have stored : send maps (message.req hop) =
      storeTimestampWithProtocol maps hop.word message.protocol (message.req hop).now := by
    rw [send, send_of_request seen sender, handleRequest, hopIndex, protocol]
  have lookup : ∀ key, (send maps (message.req hop)).timestampMap.get key =
      if key = message.key hop then some (message.req hop).now
      else maps.timestampMap.get key := by
    intro key
    rw [stored]
    exact BoundedMap.get_insert_of_room (.inr room) _ key
  have hops : (send maps (message.req hop)).latencyHopMap = maps.latencyHopMap := by
    rw [stored]
    rfl
  refine ⟨?_, ?_, ?_⟩
  · intro other
    rw [lookup, progress.waiting other]
    by_cases same : other = hop
    · subst same
      rw [if_pos rfl, if_pos (by omega)]
    · rw [if_neg (fun equality => same (key_inj.mp equality))]
      have different : other.val ≠ hop.val := fun equality => same (Fin.ext equality)
      congr 1
      apply propext
      omega
  · intro other
    rw [hops, progress.published other, if_neg (by omega), if_neg (by omega)]
  · intro word far
    rw [lookup, if_neg (beyond_ne far hop), hops]
    exact progress.beyond word far

theorem found (progress : Progress message (13 - hop.val) maps) :
    maps.timestampMap.get (message.key hop) = some (message.req hop).now := by
  rw [progress.waiting hop, if_pos (by omega)]

theorem next_key (inside : hop.val + 1 < 7) :
    pairKey (hop.word + 1) message.protocol = message.key ⟨hop.val + 1, inside⟩ := by
  rw [Hop.word_succ hop inside]
  rfl

theorem reply_timestampMap (seen : sendEvent maps (message.rep hop) = some event)
    (hopIndex : event.endpoint.hopIndex = hop.word) (receiver : event.endpoint.isSender ≠ 1)
    (protocol : event.protocol = message.protocol) (key : UInt64) :
    (send maps (message.rep hop)).timestampMap.get key =
      if key = message.key hop then none else maps.timestampMap.get key := by
  rw [send, send_of_reply seen receiver, handleResponse_timestampMap, hopIndex, protocol]
  rfl

/-- A reply consumes the latency of the next hop and publishes its own. -/
theorem reply_latencyHopMap (progress : Progress message (13 - hop.val) maps)
    (ordered : message.Ordered)
    (seen : sendEvent maps (message.rep hop) = some event)
    (hopIndex : event.endpoint.hopIndex = hop.word) (receiver : event.endpoint.isSender ≠ 1)
    (protocol : event.protocol = message.protocol)
    (room : maps.latencyHopMap.size < 1024) (key : UInt64) :
    (send maps (message.rep hop)).latencyHopMap.get key =
      if hop.val + 1 < 7 ∧ key = pairKey (hop.word + 1) message.protocol then none
      else if key = message.key hop ∧ hop ≠ 0 then
        some ((message.rep hop).now - (message.req hop).now)
      else maps.latencyHopMap.get key := by
  have taken := progress.found
  rw [Message.key, ← hopIndex, ← protocol] at taken
  rw [send, send_of_reply seen receiver, handleResponse_latencyHopMap taken (ordered.elapsed hop),
    hopIndex, protocol]
  simp only [Hop.word_succ_lt, publishLatency, Hop.word_pos]
  by_cases first : hop = 0
  · simp [first]
  · simp only [first, ne_eq, not_false_eq_true, if_true, and_true]
    rw [BoundedMap.get_insert_of_room (.inr room)]
    rfl

theorem reply (progress : Progress message (13 - hop.val) maps)
    (ordered : message.Ordered)
    (seen : sendEvent maps (message.rep hop) = some event)
    (hopIndex : event.endpoint.hopIndex = hop.word) (receiver : event.endpoint.isSender ≠ 1)
    (protocol : event.protocol = message.protocol)
    (room : maps.latencyHopMap.size < 1024) :
    Progress message (14 - hop.val) (send maps (message.rep hop)) := by
  have timestamps := reply_timestampMap seen hopIndex receiver protocol
  have latencies := progress.reply_latencyHopMap ordered seen hopIndex receiver protocol room
  refine ⟨?_, ?_, ?_⟩
  · intro other
    rw [timestamps, progress.waiting other]
    by_cases same : other = hop
    · subst same
      rw [if_pos rfl, if_neg (by omega)]
    · rw [if_neg (fun equality => same (key_inj.mp equality))]
      have different : other.val ≠ hop.val := fun equality => same (Fin.ext equality)
      congr 1
      apply propext
      omega
  · intro other
    rw [latencies, progress.published other]
    by_cases same : other = hop
    · subst same
      have notNext : ¬(other.val + 1 < 7 ∧
          message.key other = pairKey (other.word + 1) message.protocol) := by
        rintro ⟨inside, equality⟩
        rw [next_key inside] at equality
        have := congrArg Fin.val (key_inj.mp equality)
        simp at this
      rw [if_neg notNext, if_neg (show ¬(13 - other.val + other.val = 14 ∧ other ≠ 0) by omega)]
      have total : 14 - other.val + other.val = 14 := by omega
      simp [total]
    · have notSelf : ¬(message.key other = message.key hop ∧ hop ≠ 0) :=
        fun both => same (key_inj.mp both.1)
      have different : other.val ≠ hop.val := fun equality => same (Fin.ext equality)
      rw [if_neg notSelf, if_neg (show ¬(14 - hop.val + other.val = 14 ∧ other ≠ 0) by omega)]
      split
      · rfl
      next unconsumed =>
        apply if_neg
        rintro ⟨next, -⟩
        have inside : hop.val + 1 < 7 := by omega
        refine unconsumed ⟨inside, ?_⟩
        rw [next_key inside]
        exact key_inj.mpr (Fin.ext (by simp only; omega))
  · intro word far
    have notNext : ¬(hop.val + 1 < 7 ∧
        pairKey word message.protocol = pairKey (hop.word + 1) message.protocol) := by
      rintro ⟨inside, equality⟩
      rw [next_key inside] at equality
      exact beyond_ne far _ equality
    rw [timestamps, latencies, if_neg (beyond_ne far hop), if_neg notNext,
      if_neg (fun both => beyond_ne far hop both.1)]
    exact progress.beyond word far

/-- The latency a reply passes on: its own raw latency less the downstream one. -/
theorem sample (progress : Progress message (13 - hop.val) maps)
    (ordered : message.Ordered)
    (seen : sendEvent maps (message.rep hop) = some event)
    (hopIndex : event.endpoint.hopIndex = hop.word) (receiver : event.endpoint.isSender ≠ 1)
    (protocol : event.protocol = message.protocol) :
    (sysEnterSendmsgHandler maps (message.rep hop)).2.map Sample.latency =
      some (message.sample hop) := by
  have taken := progress.found
  rw [Message.key, ← hopIndex, ← protocol] at taken
  rw [send_of_reply seen receiver, handleResponse_sample taken (ordered.elapsed hop),
    hopIndex, protocol, Message.sample]
  congr 1
  by_cases inside : hop.val + 1 < 7
  · have downstream := progress.published ⟨hop.val + 1, inside⟩
    rw [if_pos ⟨by simp only; omega, fun zero => Nat.succ_ne_zero hop.val (congrArg Fin.val zero)⟩]
      at downstream
    rw [if_pos ((Hop.word_succ_lt hop).mpr inside), dif_pos inside, Hop.word_succ hop inside,
      ← Message.key, downstream, Option.getD_some]
  · rw [if_neg (fun next => inside ((Hop.word_succ_lt hop).mp next)), dif_neg inside]

theorem done (progress : Progress message 14 maps) (word : UInt32) :
    pairKey word message.protocol ∉ maps.timestampMap ∧
      pairKey word message.protocol ∉ maps.latencyHopMap := by
  rw [BoundedMap.notMem_iff_get, BoundedMap.notMem_iff_get]
  by_cases far : 7 ≤ word.toNat
  · exact progress.beyond word far
  · have same : word = Hop.word ⟨word.toNat, by omega⟩ := by
      apply UInt32.toNat_inj.mp
      rw [Hop.toNat_word]
    rw [same]
    refine ⟨(progress.waiting _).trans (if_neg (by omega)),
      (progress.published _).trans (if_neg ?_)⟩
    rintro ⟨total, notFirst⟩
    exact notFirst (Fin.ext (by simpa using total))

end Progress

def Message.owns (message : Message) (maps : Maps) (call : SendCall) : Bool :=
  (sendEvent maps call).map SendEvent.protocol = some message.protocol

/-- `calls` consists of the sends of `messages`, each in its own order. -/
structure Interleaves (maps : Maps) (messages : List Message) (calls : List SendCall) :
    Prop where
  distinct : (messages.map Message.protocol).Nodup
  covered : ∀ call ∈ calls, ∃ message ∈ messages, message.owns maps call = true
  ordered : ∀ message ∈ messages, calls.filter (message.owns maps) = message.sends

/-- The 1024-entry maps have room throughout the run. -/
def NeverFull (maps : Maps) (calls : List SendCall) : Prop :=
  ∀ sent, sent <+: calls → (sent.foldl send maps).timestampMap.size < 1024 ∧
    (sent.foldl send maps).latencyHopMap.size < 1024

def Message.Absent (message : Message) (maps : Maps) : Prop :=
  ∀ hop, pairKey hop message.protocol ∉ maps.timestampMap ∧
    pairKey hop message.protocol ∉ maps.latencyHopMap

def Message.position (message : Message) (maps : Maps) (sent : List SendCall) : Nat :=
  (sent.filter (message.owns maps)).length

theorem Message.Absent.progress {message : Message} {maps : Maps}
    (absent : message.Absent maps) : Progress message 0 maps := by
  have none_left : ∀ hop,
      maps.timestampMap.get (pairKey hop message.protocol) = none ∧
        maps.latencyHopMap.get (pairKey hop message.protocol) = none := by
    intro hop
    exact ⟨BoundedMap.notMem_iff_get.mp (absent hop).1,
      BoundedMap.notMem_iff_get.mp (absent hop).2⟩
  refine ⟨?_, ?_, ?_⟩
  · intro hop
    rw [if_neg (by omega)]
    exact (none_left hop.word).1
  · intro hop
    rw [if_neg (by omega)]
    exact (none_left hop.word).2
  · intro hop _
    exact none_left hop

section Run

variable {maps : Maps} {messages : List Message} {calls : List SendCall}
  (interleaves : Interleaves maps messages calls)
  (travels : ∀ message ∈ messages, message.Travels maps)
  (absent : ∀ message ∈ messages, message.Absent maps)
  (clock : calls.Pairwise fun first second => first.now < second.now)
  (roomy : NeverFull maps calls)

include interleaves

theorem Interleaves.sends_position {message : Message} (member : message ∈ messages)
    {sent rest : List SendCall} {call : SendCall} (split : calls = sent ++ call :: rest)
    (owned : message.owns maps call = true) :
    message.sends[message.position maps sent]? = some call := by
  rw [← interleaves.ordered message member, split, List.filter_append,
    List.filter_cons_of_pos owned, Message.position]
  simp

theorem Interleaves.lockstep
    (clock : calls.Pairwise fun first second => first.now < second.now)
    {message : Message} (member : message ∈ messages) : message.Ordered := by
  apply Message.ordered_of_pairwise
  rw [← interleaves.ordered message member]
  exact clock.filter _

include travels clock roomy

theorem Interleaves.progress_snoc {message : Message} (member : message ∈ messages)
    {sent rest : List SendCall} {call : SendCall} (split : calls = sent ++ call :: rest)
    (progress : Progress message (message.position maps sent) (sent.foldl send maps)) :
    Progress message (message.position maps (sent ++ [call]))
      ((sent ++ [call]).foldl send maps) := by
  have sameHops := foldl_send_socketHopsMap maps sent
  have room := roomy sent ⟨call :: rest, split.symm⟩
  rw [List.foldl_append, List.foldl_cons, List.foldl_nil]
  by_cases owned : message.owns maps call = true
  · have position : message.position maps (sent ++ [call]) =
        message.position maps sent + 1 := by
      simp [Message.position, owned]
    rw [position]
    rcases Message.sends_cases (interleaves.sends_position member split owned) with
      ⟨hop, here, rfl⟩ | ⟨hop, here, rfl⟩
    · obtain ⟨event, seen, hopIndex, sender, protocol⟩ := (travels message member).request hop
      rw [← sendEvent_congr sameHops] at seen
      rw [here] at progress ⊢
      exact progress.request seen hopIndex sender protocol room.1
    · obtain ⟨event, seen, hopIndex, receiver, protocol⟩ := (travels message member).reply hop
      rw [← sendEvent_congr sameHops] at seen
      rw [show message.position maps sent = 13 - hop.val by omega] at progress
      rw [show message.position maps sent + 1 = 14 - hop.val by omega]
      exact progress.reply (interleaves.lockstep clock member) seen hopIndex receiver
        protocol room.2
  · have position : message.position maps (sent ++ [call]) = message.position maps sent := by
      simp [Message.position, owned]
    rw [position]
    obtain ⟨owner, -, owns⟩ := interleaves.covered call (by simp [split])
    simp only [Message.owns, decide_eq_true_eq, Option.map_eq_some_iff] at owns owned
    obtain ⟨event, seen, -⟩ := owns
    apply progress.frame (by rwa [sendEvent_congr sameHops])
    intro same
    exact owned ⟨event, seen, same.symm⟩

include absent in
theorem Interleaves.progress {message : Message} (member : message ∈ messages)
    (sent : List SendCall) : sent <+: calls →
      Progress message (message.position maps sent) (sent.foldl send maps) := by
  induction sent using List.reverseRecOn with
  | nil => exact fun _ => (absent message member).progress
  | append_singleton sent call inductionHypothesis =>
      rintro ⟨rest, split⟩
      rw [List.append_assoc, List.singleton_append] at split
      exact interleaves.progress_snoc travels clock roomy member split.symm
        (inductionHypothesis ⟨call :: rest, split⟩)

omit roomy in
theorem Interleaves.reply_position {message : Message} (member : message ∈ messages)
    {sent rest : List SendCall} {hop : Hop}
    (split : calls = sent ++ message.rep hop :: rest) :
    message.owns maps (message.rep hop) = true ∧
      message.position maps sent = 13 - hop.val := by
  have ordered := interleaves.lockstep clock member
  obtain ⟨event, seen, -, -, protocol⟩ := (travels message member).reply hop
  have owned : message.owns maps (message.rep hop) = true := by
    simp [Message.owns, seen, protocol]
  refine ⟨owned, ?_⟩
  rcases Message.sends_cases (interleaves.sends_position member split owned) with
    ⟨other, here, same⟩ | ⟨other, here, same⟩
  · have := ordered.turn other hop
    rw [same] at this
    exact absurd this (UInt64.lt_irrefl _)
  · rcases lt_trichotomy hop other with below | equality | above
    · have := ordered.up hop other below
      rw [same] at this
      exact absurd this (UInt64.lt_irrefl _)
    · subst equality
      omega
    · have := ordered.up other hop above
      rw [same] at this
      exact absurd this (UInt64.lt_irrefl _)

include absent in
/-- The seven samples of every message are its individual hop latencies.  They
add up to the raw latency of hop 0, and the message leaves no key behind. -/
theorem individual_latencies_telescope {message : Message} (member : message ∈ messages) :
    ∃ sample : Hop → UInt64,
      (∀ hop, message.rep hop ∈ calls) ∧
      (∀ hop sent rest, calls = sent ++ message.rep hop :: rest →
        (sysEnterSendmsgHandler (sent.foldl send maps) (message.rep hop)).2.map
          Sample.latency = some (sample hop)) ∧
      (∀ (hop : Hop) (inside : hop.val + 1 < 7),
        message.raw ⟨hop.val + 1, inside⟩ ≤ message.raw hop ∧
          (sample hop).toNat = message.raw hop - message.raw ⟨hop.val + 1, inside⟩) ∧
      (sample 6).toNat = message.raw 6 ∧
      ∑ hop, (sample hop).toNat = message.raw 0 ∧
      ∀ sent rest after, calls = sent ++ message.rep 0 :: rest → after <+: rest →
        message.Absent ((sent ++ message.rep 0 :: after).foldl send maps) := by
  have ordered := interleaves.lockstep clock member
  have inner := ordered.toNat_sample
  have last : (message.sample 6).toNat = message.raw 6 := ordered.toNat_elapsed 6
  refine ⟨message.sample, ?_, ?_, fun hop inside => ⟨ordered.raw_succ_le hop inside,
    inner hop inside⟩, last, ordered.sum_sample, ?_⟩
  · intro hop
    have sent : message.rep hop ∈ calls.filter (message.owns maps) := by
      rw [interleaves.ordered message member]
      exact List.mem_append_right _ (List.mem_reverse.mpr (List.mem_ofFn.mpr ⟨hop, rfl⟩))
    exact (List.mem_filter.mp sent).1
  · intro hop sent rest split
    have position := (interleaves.reply_position travels clock member split).2
    have progress := interleaves.progress travels absent clock roomy member sent
      ⟨message.rep hop :: rest, split.symm⟩
    obtain ⟨event, seen, hopIndex, receiver, protocol⟩ := (travels message member).reply hop
    rw [← sendEvent_congr (foldl_send_socketHopsMap maps sent)] at seen
    rw [position] at progress
    exact progress.sample ordered seen hopIndex receiver protocol
  · rintro sent rest after split ⟨remaining, rfl⟩
    obtain ⟨owned, position⟩ := interleaves.reply_position travels clock member split
    have reached : sent ++ message.rep 0 :: after <+: calls := ⟨remaining, by simp [split]⟩
    have progress := interleaves.progress travels absent clock roomy member _ reached
    have total : message.position maps (sent ++ message.rep 0 :: after) = 14 := by
      have most : message.position maps (sent ++ message.rep 0 :: after) ≤ 14 := by
        have bound := (reached.filter (message.owns maps)).length_le
        rwa [interleaves.ordered message member, Message.sends_length] at bound
      have least : 14 ≤ message.position maps (sent ++ message.rep 0 :: after) := by
        simp only [Message.position, List.filter_append, List.filter_cons_of_pos owned,
          List.length_append, List.length_cons] at position ⊢
        simp only [Fin.val_zero] at position
        omega
      omega
    rw [total] at progress
    exact progress.done

end Run

theorem neverFull_of_length {hops : BoundedMap UInt64 HopEndpoint socketHopsMapMaxEntries}
    {calls : List SendCall} (short : calls.length < 1024) :
    NeverFull (Maps.loaded hops) calls := by
  intro sent reached
  have bound := foldl_send_size (Maps.loaded hops) sent
  have length := reached.length_le
  have noTimestamps : (Maps.loaded hops).timestampMap.size = 0 := rfl
  have noLatencies : (Maps.loaded hops).latencyHopMap.size = 0 := rfl
  omega

def allHops : BoundedMap UInt64 HopEndpoint socketHopsMapMaxEntries :=
  endpoints ((List.finRange 7).flatMap fun hop =>
    [(100 + Hop.word hop, 4, Hop.word hop, 1), (200 + Hop.word hop, 4, Hop.word hop, 0)])

/-- A message that spends 100 ns on each hop in either direction and 800 ns at
the end of the chain. -/
def steadyMessage (protocol : UInt32) (start : UInt64) : Message where
  protocol := protocol
  req hop := sendCall (100 + hop.word) 4 protocol (start + 100 * hop.word.toUInt64)
  rep hop := sendCall (200 + hop.word) 4 protocol (start + 2000 - 100 * hop.word.toUInt64)

def twoMessages : List SendCall :=
  ((steadyMessage 7 1000).sends.zip (steadyMessage 9 1050).sends).flatMap
    fun (first, second) => [first, second]

theorem getEndpoint_allHops (hop : Hop) :
    getEndpoint (Maps.loaded allHops) (100 + hop.word) (4 : UInt64).toUInt32 =
        some ⟨hop.word, 1, .replicate 32 0⟩ ∧
      getEndpoint (Maps.loaded allHops) (200 + hop.word) (4 : UInt64).toUInt32 =
        some ⟨hop.word, 0, .replicate 32 0⟩ := by
  revert hop
  decide +kernel

theorem steadyMessage_travels (protocol : UInt32) (start : UInt64) :
    (steadyMessage protocol start).Travels (Maps.loaded allHops) where
  request hop := ⟨_, sendEvent_sendCall (getEndpoint_allHops hop).1 protocol _, rfl, rfl, rfl⟩
  reply hop :=
    ⟨_, sendEvent_sendCall (getEndpoint_allHops hop).2 protocol _, rfl, by simp, rfl⟩

set_option maxRecDepth 20000 in
theorem twoMessages_interleaves :
    Interleaves (Maps.loaded allHops) [steadyMessage 7 1000, steadyMessage 9 1050]
      twoMessages where
  distinct := by decide
  covered call member := by
    have each : ∀ call ∈ twoMessages,
        (steadyMessage 7 1000).owns (Maps.loaded allHops) call = true ∨
          (steadyMessage 9 1050).owns (Maps.loaded allHops) call = true := by
      decide +kernel
    rcases each call member with first | second
    · exact ⟨_, by simp, first⟩
    · exact ⟨_, by simp, second⟩
  ordered message member := by
    simp only [List.mem_cons, List.not_mem_nil, or_false] at member
    rcases member with rfl | rfl <;> rfl

theorem individual_latencies_of_two_messages :
    (steadyMessage 7 1000).raw 0 = 2000 ∧
      ∃ sample : Hop → UInt64, ∑ hop, (sample hop).toNat = 2000 ∧
        ∀ hop sent rest, twoMessages = sent ++ (steadyMessage 7 1000).rep hop :: rest →
          (sysEnterSendmsgHandler (sent.foldl send (Maps.loaded allHops))
            ((steadyMessage 7 1000).rep hop)).2.map Sample.latency = some (sample hop) := by
  refine ⟨by decide, ?_⟩
  have travels : ∀ message ∈ [steadyMessage 7 1000, steadyMessage 9 1050],
      message.Travels (Maps.loaded allHops) := by
    simpa using ⟨steadyMessage_travels 7 1000, steadyMessage_travels 9 1050⟩
  obtain ⟨sample, -, latency, -, -, total, -⟩ := individual_latencies_telescope
    twoMessages_interleaves travels
    (fun message _ hop => ⟨BoundedMap.notMem_empty _, BoundedMap.notMem_empty _⟩)
    (by decide +kernel) (neverFull_of_length (by decide)) (List.mem_cons_self ..)
  exact ⟨sample, total.trans (by decide), latency⟩

end BpfAgent.Sca
