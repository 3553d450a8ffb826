import BpfAgent.Irss.Ebpf
import BpfAgent.Lib.Ipv4
import BpfAgent.Settings

/-!
# IRSS: settings and display

Userspace reads the destination and the listen port from the settings, writes
them into the maps that the hooks consult, and reports the average latency at
every tick.  The destination travels from text through octets to a word; the
send hook compares the word with the one it finds in the caller's memory.
-/

namespace BpfAgent.Irss

structure Program where
  rawDest : Ipv4Addr
  listenPort : UInt16
  baseline : Baseline
  avgLatencyUs : UInt64
  deriving DecidableEq

def defaultDest : Ipv4Addr := ⟨10, 10, 10, 253⟩

def Program.new : Program := ⟨defaultDest, listenPortDefault, ⟨0, 0⟩, 0⟩

def parseRawDest (config : ProgramConfig) : Ipv4Addr :=
  match parseStringSetting config "raw_dest" with
  | none => defaultDest
  | some text => (Ipv4Addr.parse text.toList).getD defaultDest

def parseListenPort (config : ProgramConfig) : UInt16 :=
  parseIntSetting config "listen_port" listenPortDefault fun value =>
    (Word.u16TryFrom value).filter (· ≠ 0)

def configure (program : Program) (config : ProgramConfig) : Except String Program :=
  .ok { program with rawDest := parseRawDest config, listenPort := parseListenPort config }

/-- A new program with the settings of an entry. -/
def configured (config : ProgramConfig) : Program :=
  { Program.new with rawDest := parseRawDest config, listenPort := parseListenPort config }

/-- The maps as the hooks find them when they are attached. -/
def load (program : Program) : Maps :=
  { Maps.empty with
    rawDestMap := BoundedMap.empty.insert rawDestKey
      (Memory.field program.rawDest.octets 0 4).toUInt32
    listenPortMap := BoundedMap.empty.insert listenPortKey program.listenPort.toUInt32 }

def displayMetrics (program : Program) (maps : Maps) : Program :=
  let (avgUs, baseline) := report program.baseline maps.latency
  { program with baseline, avgLatencyUs := avgUs }

theorem rawDest_load (program : Program) :
    rawDest (load program) = (Memory.field program.rawDest.octets 0 4).toUInt32 := by
  have room : (BoundedMap.empty : BoundedMap UInt32 UInt32 1).Room rawDestKey := by decide
  rw [rawDest, load, BoundedMap.get_insert_of_room room, if_pos rfl, Option.getD_some]

theorem listenPort_load (program : Program) :
    listenPort (load program) = program.listenPort.toUInt32 := by
  have room : (BoundedMap.empty : BoundedMap UInt32 UInt32 1).Room listenPortKey := by decide
  rw [listenPort, load, BoundedMap.get_insert_of_room room, if_pos rfl, Option.getD_some]

/-- The address that the settings spell, or the default if they spell none. -/
def Destination (config : ProgramConfig) (address : Ipv4Addr) : Prop :=
  setting config "raw_dest" = some (.string address.text) ∨
    address = defaultDest ∧ ∀ other : Ipv4Addr,
      setting config "raw_dest" ≠ some (.string other.text)

theorem parseRawDest_eq_iff {config : ProgramConfig} {address : Ipv4Addr} :
    parseRawDest config = address ↔ Destination config address := by
  unfold parseRawDest Destination
  cases parsed : parseStringSetting config "raw_dest" with
  | none =>
      have absent : ∀ text, setting config "raw_dest" ≠ some (.string text) := by
        intro text found
        rw [parseStringSetting_eq_some_iff.mpr found] at parsed
        cases parsed
      simp [absent, eq_comm]
  | some text =>
      rw [parseStringSetting_eq_some_iff] at parsed
      simp only [parsed, ne_eq, Option.some.injEq, Value.string.injEq,
        ← Ipv4Addr.parse_toList_eq_some_iff]
      cases Ipv4Addr.parse text.toList with
      | none => simp [eq_comm]
      | some found => simp

/-- A socket address in user memory: AF_INET and the four bytes of an address. -/
def AddressedTo (memory : Memory) (msgPtr : UInt64) (octets : List UInt8) : Prop :=
  ∃ msghdr bytes, readUserMsgHdr memory msgPtr = some msghdr ∧ msghdr.msgName ≠ 0 ∧
    sockaddrInSize.toUInt32 ≤ msghdr.msgNamelen ∧
    memory.read msghdr.msgName sockaddrInSize = some bytes ∧
    (Memory.field bytes 0 2).toUInt16 = afInet ∧ (bytes.drop 4).take 4 = octets

theorem readTxDest_eq_some_iff {memory : Memory} {msgPtr : UInt64} {octets : List UInt8}
    (four : octets.length = 4) :
    readTxDest memory msgPtr = some (Memory.field octets 0 4).toUInt32 ↔
      AddressedTo memory msgPtr octets := by
  unfold readTxDest AddressedTo
  cases header : readUserMsgHdr memory msgPtr with
  | none => simp
  | some msghdr =>
      simp only [Option.bind_eq_bind, Option.bind_some, Option.some.injEq]
      by_cases unnamed : msghdr.msgName = 0 ∨ msghdr.msgNamelen < sockaddrInSize.toUInt32
      · refine iff_of_false (by simp [unnamed]) ?_
        rintro ⟨_, _, rfl, named, long, -⟩
        rcases unnamed with missing | short
        · exact named missing
        · exact UInt32.not_le.mpr short long
      · rw [if_neg unnamed]
        rw [not_or, UInt32.not_lt] at unnamed
        cases address : memory.read msghdr.msgName sockaddrInSize with
        | none =>
            refine iff_of_false (by simp) ?_
            rintro ⟨_, bytes, rfl, -, -, read, -⟩
            rw [address] at read
            cases read
        | some bytes =>
            have length : bytes.length = 16 := Memory.length_read address
            have whole : octets = (octets.drop 0).take 4 := by
              rw [List.drop_zero, ← four, List.take_length]
            have equal := @Memory.field_four_inj bytes octets 4 0 (by omega) (by omega)
            rw [← whole] at equal
            by_cases family : (Memory.field bytes 0 2).toUInt16 = afInet
            · simp only [Option.bind_some, family, ne_eq, not_true_eq_false, if_false,
                pure, Option.some.injEq]
              rw [equal]
              constructor
              · exact fun same => ⟨msghdr, bytes, rfl, unnamed.1, unnamed.2, address, family, same⟩
              · rintro ⟨_, _, rfl, -, -, read, -, same⟩
                rw [address] at read
                cases read
                exact same
            · refine iff_of_false (by simp [family]) ?_
              rintro ⟨_, other, rfl, -, -, read, inet, -⟩
              rw [address] at read
              cases read
              exact family inet

end BpfAgent.Irss
