import BpfAgent.Lib.Relay
import BpfAgent.Sca.Ebpf
import Mathlib.Logic.Function.Basic

/-!
# SCA simulator: six processes and seven hops

The simulator runs one process for every component of the data flow.  A
component serves each socket it listens on with a thread of its own, which
relays the request downstream, waits for the reply and replies upstream.  The
sockets are streams, so a message may arrive in any number of pieces.

The threads take their steps in any order.  Together they move one request
along the chain and its reply back.
-/

namespace BpfAgent.Sca.Simulator

open Relay

def msgSize : Nat := 64

structure Session where
  listenPath : String
  outPath : String
  deriving DecidableEq

structure Role where
  name : String
  sessions : List Session
  initiatorOut : Option String
  deriving DecidableEq

def roles : List Role :=
  [⟨"DATA_SOURCE", [], some "/tmp/DATA_L3_TO_INTERNAL_ROUTER"⟩,
    ⟨"INTERNAL_ROUTER", [⟨"/tmp/DATA_L3_TO_INTERNAL_ROUTER", "/tmp/DATA_L3_TO_WF_L"⟩], none⟩,
    ⟨"RED_WF_COMM_L", [⟨"/tmp/DATA_L3_TO_WF_L", "/tmp/WF_L_TO_FRAG"⟩,
      ⟨"/tmp/FRAG_TO_COMM_WF_L", "/tmp/DATA_L_TO_SINK"⟩], none⟩,
    ⟨"FRAGMENTER", [⟨"/tmp/WF_L_TO_FRAG", "/tmp/FRAG_TO_IRSS_L"⟩,
      ⟨"/tmp/IRSS_L_TO_FRAG", "/tmp/FRAG_TO_COMM_WF_L"⟩], none⟩,
    ⟨"RED_IRSS_COMM_L", [⟨"/tmp/FRAG_TO_IRSS_L", "/tmp/IRSS_L_TO_FRAG"⟩], none⟩,
    ⟨"DATA_SINK", [⟨"/tmp/DATA_L_TO_SINK", ""⟩], none⟩]

/-- The session that listens on the socket of a hop. -/
def sessionOn (hop : Nat) : Option Session := do
  let (path, _) ← dataFlow[hop]?
  (roles.flatMap Role.sessions).find? fun session => session.listenPath == path

/-- The hop that a session forwards to. -/
def outHop (session : Session) : Option Nat :=
  if session.outPath.isEmpty then none
  else dataFlow.findIdx? fun (path, _) => path == session.outPath

def firstHop : Option Nat := do
  let path ← roles.findSome? Role.initiatorOut
  dataFlow.findIdx? fun (other, _) => other == path

/-- Protocol and message type, as they are read. -/
abbrev Header := UInt32 × UInt16

def buildMessage (msgType : UInt16) (protocol : UInt32) : List UInt8 :=
  List.replicate nngSpfSize 0 ++ Word.bigEndianBytes protocol ++ Word.bigEndianBytes16 msgType ++
    Word.bigEndianBytes16 64 ++ List.replicate (msgSize - nngSpfSize - 8) 0

def parseMessage (buf : List UInt8) : Header :=
  (Word.bigEndian ((buf.drop nngSpfSize).take 4),
    Word.bigEndian16 (buf.getD (nngSpfSize + 4) 0) (buf.getD (nngSpfSize + 5) 0))

/-- The reply to a message echoes its protocol. -/
def replyTo (header : Header) : Header := (header.1, header.2 + 1)

theorem length_buildMessage (msgType : UInt16) (protocol : UInt32) :
    (buildMessage msgType protocol).length = msgSize :=
  rfl

theorem parseMessage_buildMessage (msgType : UInt16) (protocol : UInt32) :
    parseMessage (buildMessage msgType protocol) = (protocol, msgType) := by
  have bytes : ((buildMessage msgType protocol).drop nngSpfSize).take 4 =
      Word.bigEndianBytes protocol := rfl
  rw [parseMessage, bytes, Word.bigEndian_bigEndianBytes]
  exact congrArg (Prod.mk protocol) (Word.bigEndian16_bytes msgType)

/-- Where a session thread is in its loop. -/
inductive Phase where
  /-- It has read `got` of a request. -/
  | receiving (got : List UInt8)
  | processing (header : Header)
  /-- It has forwarded the request and read `got` of the reply. -/
  | waiting (header : Header) (got : List UInt8)
  | replying (header : Header)

structure State where
  initiator : Option (List UInt8)
  sessions : Nat → Phase
  /-- The bytes in flight on every hop, in either direction. -/
  down : Nat → List UInt8
  up : Nat → List UInt8
  sent : List (Send Header)

def State.initial : State where
  initiator := none
  sessions _ := .receiving []
  down _ := []
  up _ := []
  sent := []

inductive Act where
  | request (header : Header)
  | finish (count : Nat)
  | receive (hop count : Nat)
  | forward (hop : Nat)
  | collect (hop count : Nat)
  | reply (hop : Nat)

/-- One `recv`, of as many bytes as it returns. -/
def recv (stream got : List UInt8) (count : Nat) : Option (List UInt8 × List UInt8) :=
  if 0 < count ∧ count ≤ stream.length ∧ count ≤ msgSize - got.length then
    some (stream.drop count, got ++ stream.take count)
  else
    none

def step (state : State) : Act → Option State
  | .request header =>
      match state.initiator, firstHop with
      | none, some hop =>
          some { state with
            initiator := some []
            down := Function.update state.down hop
              (state.down hop ++ buildMessage header.2 header.1)
            sent := state.sent ++ [⟨hop, false, header⟩] }
      | _, _ => none
  | .finish count =>
      match state.initiator, firstHop with
      | some got, some hop => do
          let (stream, got) ← recv (state.up hop) got count
          return { state with
            initiator := if got.length = msgSize then none else some got
            up := Function.update state.up hop stream }
      | _, _ => none
  | .receive hop count =>
      match sessionOn hop, state.sessions hop with
      | some _, .receiving got => do
          let (stream, got) ← recv (state.down hop) got count
          return { state with
            sessions := Function.update state.sessions hop
              (if got.length = msgSize then .processing (parseMessage got) else .receiving got)
            down := Function.update state.down hop stream }
      | _, _ => none
  | .forward hop =>
      match (sessionOn hop).bind outHop, state.sessions hop with
      | some next, .processing header =>
          some { state with
            sessions := Function.update state.sessions hop (.waiting header [])
            down := Function.update state.down next
              (state.down next ++ buildMessage header.2 header.1)
            sent := state.sent ++ [⟨next, false, header⟩] }
      | _, _ => none
  | .collect hop count =>
      match (sessionOn hop).bind outHop, state.sessions hop with
      | some next, .waiting header got => do
          let (stream, got) ← recv (state.up next) got count
          return { state with
            sessions := Function.update state.sessions hop
              (if got.length = msgSize then .replying header else .waiting header got)
            up := Function.update state.up next stream }
      | _, _ => none
  | .reply hop =>
      let answered (header : Header) : State :=
        { state with
          sessions := Function.update state.sessions hop (.receiving [])
          up := Function.update state.up hop
            (state.up hop ++ buildMessage (header.2 + 1) header.1)
          sent := state.sent ++ [⟨hop, true, replyTo header⟩] }
      match sessionOn hop, state.sessions hop with
      | some session, .processing header =>
          if outHop session = none then some (answered header) else none
      | some _, .replying header => some (answered header)
      | _, _ => none

theorem firstHop_eq : firstHop = some 0 := by decide +kernel

theorem sessionOn_eq_none {hop : Nat} (outside : 7 ≤ hop) : sessionOn hop = none := by
  have beyond : dataFlow[hop]? = none := List.getElem?_eq_none outside
  simp [sessionOn, beyond]

theorem sessionOn_cases (hop : Nat) :
    (7 ≤ hop ∧ sessionOn hop = none) ∨
      hop < 7 ∧ ∃ session, sessionOn hop = some session ∧
        outHop session = if hop + 1 < 7 then some (hop + 1) else none := by
  rcases Nat.lt_or_ge hop 7 with inside | outside
  · have served : ∀ hop : Fin 7, (sessionOn hop.val).map outHop =
        some (if hop.val + 1 < 7 then some (hop.val + 1) else none) := by
      decide +kernel
    exact .inr ⟨inside, Option.map_eq_some_iff.mp (served ⟨hop, inside⟩)⟩
  · exact .inl ⟨outside, sessionOn_eq_none outside⟩

/-- The processes are those that the agent expects at both ends of every hop. -/
theorem roles_match_dataFlow :
    ∀ hop ∈ dataFlow, (∃ role ∈ roles, role.name = hop.2.2 ∧
        hop.1 ∈ role.sessions.map Session.listenPath) ∧
      ∃ role ∈ roles, role.name = hop.2.1 ∧
        (role.initiatorOut = some hop.1 ∨ hop.1 ∈ role.sessions.map Session.outPath) := by
  decide +kernel

section Steps

variable {state next : State} {header : Header} {hop count : Nat}

theorem recv_eq_some_iff {stream got rest read : List UInt8} :
    recv stream got count = some (rest, read) ↔
      0 < count ∧ count ≤ stream.length ∧ got.length + count ≤ msgSize ∧
        stream.drop count = rest ∧ got ++ stream.take count = read := by
  unfold recv
  split
  next possible =>
    have size : got.length + count ≤ msgSize := by omega
    simp [possible.1, possible.2.1, size]
  next impossible =>
    refine iff_of_false (by simp) ?_
    rintro ⟨positive, available, size, -⟩
    exact impossible ⟨positive, available, by omega⟩

theorem step_request (stepped : step state (.request header) = some next) :
    state.initiator = none ∧ next = { state with
      initiator := some []
      down := Function.update state.down 0 (state.down 0 ++ buildMessage header.2 header.1)
      sent := state.sent ++ [⟨0, false, header⟩] } := by
  simp only [step, firstHop_eq] at stepped
  split at stepped
  next hop ready same =>
    cases same
    cases stepped
    exact ⟨ready, rfl⟩
  next => cases stepped

theorem step_finish (stepped : step state (.finish count) = some next) :
    ∃ got rest read, state.initiator = some got ∧
      recv (state.up 0) got count = some (rest, read) ∧
      next = { state with
        initiator := if read.length = msgSize then none else some read
        up := Function.update state.up 0 rest } := by
  simp only [step, firstHop_eq] at stepped
  split at stepped
  next got hop waits same =>
    cases same
    obtain ⟨⟨rest, read⟩, received, result⟩ := Option.bind_eq_some_iff.mp stepped
    cases result
    exact ⟨got, rest, read, waits, received, rfl⟩
  next => cases stepped

theorem step_receive (stepped : step state (.receive hop count) = some next) :
    hop < 7 ∧ ∃ got rest read, state.sessions hop = .receiving got ∧
      recv (state.down hop) got count = some (rest, read) ∧
      next = { state with
        sessions := Function.update state.sessions hop
          (if read.length = msgSize then .processing (parseMessage read) else .receiving read)
        down := Function.update state.down hop rest } := by
  simp only [step] at stepped
  rcases sessionOn_cases hop with ⟨-, missing⟩ | ⟨inside, session, served, -⟩
  · simp [missing] at stepped
  · simp only [served] at stepped
    split at stepped
    next _ got _ listens =>
      obtain ⟨⟨rest, read⟩, received, result⟩ := Option.bind_eq_some_iff.mp stepped
      cases result
      exact ⟨inside, got, rest, read, listens, received, rfl⟩
    next => cases stepped

theorem step_forward (stepped : step state (.forward hop) = some next) :
    hop + 1 < 7 ∧ ∃ header, state.sessions hop = .processing header ∧
      next = { state with
        sessions := Function.update state.sessions hop (.waiting header [])
        down := Function.update state.down (hop + 1)
          (state.down (hop + 1) ++ buildMessage header.2 header.1)
        sent := state.sent ++ [⟨hop + 1, false, header⟩] } := by
  simp only [step] at stepped
  rcases sessionOn_cases hop with ⟨-, missing⟩ | ⟨-, session, served, out⟩
  · simp [missing] at stepped
  · by_cases more : hop + 1 < 7
    · simp only [served, Option.bind_some, out, if_pos more] at stepped
      split at stepped
      next _ header same processes =>
        cases same
        cases stepped
        exact ⟨more, header, processes, rfl⟩
      next => cases stepped
    · simp [served, out, more] at stepped

theorem step_collect (stepped : step state (.collect hop count) = some next) :
    hop + 1 < 7 ∧ ∃ header got rest read, state.sessions hop = .waiting header got ∧
      recv (state.up (hop + 1)) got count = some (rest, read) ∧
      next = { state with
        sessions := Function.update state.sessions hop
          (if read.length = msgSize then .replying header else .waiting header read)
        up := Function.update state.up (hop + 1) rest } := by
  simp only [step] at stepped
  rcases sessionOn_cases hop with ⟨-, missing⟩ | ⟨-, session, served, out⟩
  · simp [missing] at stepped
  · by_cases more : hop + 1 < 7
    · simp only [served, Option.bind_some, out, if_pos more] at stepped
      split at stepped
      next _ header got same waits =>
        cases same
        obtain ⟨⟨rest, read⟩, received, result⟩ := Option.bind_eq_some_iff.mp stepped
        cases result
        exact ⟨more, header, got, rest, read, waits, received, rfl⟩
      next => cases stepped
    · simp [served, out, more] at stepped

theorem step_reply (stepped : step state (.reply hop) = some next) :
    ∃ header, (hop + 1 = 7 ∧ state.sessions hop = .processing header ∨
        hop < 7 ∧ state.sessions hop = .replying header) ∧
      next = { state with
        sessions := Function.update state.sessions hop (.receiving [])
        up := Function.update state.up hop
          (state.up hop ++ buildMessage (header.2 + 1) header.1)
        sent := state.sent ++ [⟨hop, true, replyTo header⟩] } := by
  simp only [step] at stepped
  rcases sessionOn_cases hop with ⟨-, missing⟩ | ⟨inside, session, served, out⟩
  · simp [missing] at stepped
  · simp only [served] at stepped
    split at stepped
    next _ _ header same processes =>
      cases same
      by_cases more : hop + 1 < 7
      · simp [out, more] at stepped
      · rw [out, if_neg more, if_pos rfl] at stepped
        cases stepped
        exact ⟨header, .inl ⟨by omega, processes⟩, rfl⟩
    next _ _ header same replies =>
      cases stepped
      exact ⟨header, .inr ⟨inside, replies⟩, rfl⟩
    next => cases stepped

end Steps

end BpfAgent.Sca.Simulator
