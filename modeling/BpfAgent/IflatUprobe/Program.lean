import BpfAgent.IflatUprobe.FunctionCall
import BpfAgent.Settings
import BpfAgent.Uprobe.Configure

/-!
# IFLAT_UPROBE: settings and display

Two interfaces, a target and a symbol are required; without one of them the
program stays off.  How the probe gets from a call to the tag is optional and
falls back to defaults, so that whatever is configured, the probe finds an
argument that exists.
-/

namespace BpfAgent.IflatUprobe

def defaultArgIndex : UInt32 := 3

structure Program where
  enabled : Bool
  rx1Iface : String
  rx2Iface : String
  target : String
  symbol : String
  offset : UInt64
  pid : Int32
  argIndex : UInt32
  payloadPtrOffset : UInt32
  tagOffset : UInt32
  baseline1 : Baseline
  baseline2 : Baseline
  avgLatency1Us : UInt64
  avgLatency2Us : UInt64

def Program.new : Program where
  enabled := false
  rx1Iface := ""
  rx2Iface := ""
  target := ""
  symbol := ""
  offset := 0
  pid := -1
  argIndex := defaultArgIndex
  payloadPtrOffset := payloadPtrDirect
  tagOffset := 0
  baseline1 := ⟨0, 0⟩
  baseline2 := ⟨0, 0⟩
  avgLatency1Us := 0
  avgLatency2Us := 0

def parseIfaceSetting (config : ProgramConfig) (key : String) : Except String (Option String) :=
  parseIface "iflat_uprobe" config key

def parseOffset (config : ProgramConfig) : UInt64 :=
  parseIntSetting config "offset" 0 Word.u64TryFrom

def parsePid (config : ProgramConfig) : Int32 :=
  parseIntSetting config "pid" (-1) Word.i32TryFrom

def parseArgIndex (config : ProgramConfig) : UInt32 :=
  parseIntSetting config "arg_index" defaultArgIndex fun value =>
    (Word.u32TryFrom value).filter fun index => 1 ≤ index.toNat ∧ index.toNat ≤ maxArgs

def parsePayloadPtrOffset (config : ProgramConfig) : UInt32 :=
  parseIntSetting config "payload_ptr_offset" payloadPtrDirect fun value =>
    if value = -1 then some payloadPtrDirect
    else (Word.u32TryFrom value).filter (· ≠ payloadPtrDirect)

def parseTagOffset (config : ProgramConfig) : UInt32 :=
  parseIntSetting config "tag_offset" 0 Word.u32TryFrom

def configure (program : Program) (config : ProgramConfig) : Except String Program := do
  let rx1Iface ← parseIfaceSetting config "rx1_iface"
  let rx2Iface ← parseIfaceSetting config "rx2_iface"
  let program :=
    { program with
      target := (parseStringSetting config "target").getD ""
      symbol := (parseStringSetting config "symbol").getD ""
      offset := parseOffset config
      pid := parsePid config
      argIndex := parseArgIndex config
      payloadPtrOffset := parsePayloadPtrOffset config
      tagOffset := parseTagOffset config }
  match rx1Iface, rx2Iface with
  | some rx1, some rx2 =>
      if !program.target.isEmpty && !program.symbol.isEmpty then
        return { program with rx1Iface := rx1, rx2Iface := rx2, enabled := true }
      else
        return { program with enabled := false }
  | _, _ => return { program with enabled := false }

/-- What the hooks are attached to, and the map the probe consults. -/
structure Attached where
  rx1Iface : String
  rx2Iface : String
  site : Uprobe.Site
  configMap : ConfigMap

def load (program : Program) : Option Attached :=
  if program.enabled then
    some {
      rx1Iface := program.rx1Iface
      rx2Iface := program.rx2Iface
      site := ⟨program.target, program.symbol, program.offset, Uprobe.pidScope program.pid⟩
      configMap := BoundedMap.empty.insert uprobeConfigKey
        ⟨program.argIndex, program.payloadPtrOffset, program.tagOffset⟩ }
  else
    none

def displayMetrics (program : Program) (maps : Maps) : Program :=
  if program.enabled then
    let (avg1Us, baseline1) := report program.baseline1 maps.latency1
    let (avg2Us, baseline2) := report program.baseline2 maps.latency2
    { program with baseline1, baseline2, avgLatency1Us := avg1Us, avgLatency2Us := avg2Us }
  else
    program

section Configured

variable (config : ProgramConfig)

def ArgIndex (index : Nat) : Prop :=
  Chosen config "arg_index" 3 (fun number => 1 ≤ number ∧ number ≤ maxArgs) index

/-- Where the payload pointer lies behind the argument, or -1. -/
def PayloadPtrOffset (offset : Int) : Prop :=
  Chosen config "payload_ptr_offset" (-1)
    (fun number => -1 ≤ number ∧ number < 2 ^ 32 - 1) offset

def TagOffset (offset : Nat) : Prop :=
  Chosen config "tag_offset" 0 (fun number => 0 ≤ number ∧ number < 2 ^ 32) offset

/-- The offset that a word stands for. -/
def signedOffset (word : UInt32) : Int := if word = payloadPtrDirect then -1 else word.toNat

theorem parseArgIndex_chosen : ArgIndex config (parseArgIndex config).toNat := by
  change Chosen config "arg_index" (defaultArgIndex.toNat : Int) _ _
  refine parseIntSetting_chosen (fun word : UInt32 => (word.toNat : Int)) ?_ ?_
  · intro value word converted
    exact (Word.u32TryFrom_eq_some_iff.mp (Option.filter_eq_some_iff.mp converted).1).symm
  · intro value
    have limit : maxArgs = 6 := rfl
    simp only [Option.filter_eq_some_iff, decide_eq_true_eq, Word.u32TryFrom_eq_some_iff]
    constructor
    · rintro ⟨word, same, inside⟩
      omega
    · intro inside
      obtain ⟨word, converted⟩ :=
        (@Word.exists_u32TryFrom_iff value).mpr ⟨by omega, by omega⟩
      have same := Word.u32TryFrom_eq_some_iff.mp converted
      exact ⟨word, same, by omega, by omega⟩

theorem parsePayloadPtrOffset_chosen :
    PayloadPtrOffset config (signedOffset (parsePayloadPtrOffset config)) := by
  change Chosen config "payload_ptr_offset" (signedOffset payloadPtrDirect) _ _
  have direct : ∀ word : UInt32, word ≠ payloadPtrDirect ↔ word.toNat ≠ 2 ^ 32 - 1 := by
    intro word
    rw [ne_eq, ← UInt32.toNat_inj]
    rfl
  refine parseIntSetting_chosen signedOffset ?_ ?_
  · intro value word converted
    split at converted
    next minus =>
      cases converted
      rw [minus]
      rfl
    next =>
      obtain ⟨same, used⟩ := Option.filter_eq_some_iff.mp converted
      rw [signedOffset, if_neg (of_decide_eq_true used)]
      exact (Word.u32TryFrom_eq_some_iff.mp same).symm
  · intro value
    have minus : value = -1 ↔ value.toInt = -1 := Int64.toInt_inj.symm
    split
    next same =>
      rw [minus] at same
      rw [same]
      exact iff_of_true ⟨_, rfl⟩ (by omega)
    next other =>
      rw [minus] at other
      simp only [Option.filter_eq_some_iff, decide_eq_true_eq, Word.u32TryFrom_eq_some_iff, direct]
      constructor
      · rintro ⟨word, same, used⟩
        have bound := word.toNat_lt
        omega
      · intro inside
        obtain ⟨word, converted⟩ :=
          (@Word.exists_u32TryFrom_iff value).mpr ⟨by omega, by omega⟩
        have same := Word.u32TryFrom_eq_some_iff.mp converted
        exact ⟨word, same, by omega⟩

theorem parseTagOffset_chosen : TagOffset config (parseTagOffset config).toNat := by
  change Chosen config "tag_offset" ((0 : UInt32).toNat : Int) _ _
  refine parseIntSetting_chosen (fun word : UInt32 => (word.toNat : Int)) ?_ ?_
  · intro value word converted
    exact (Word.u32TryFrom_eq_some_iff.mp converted).symm
  · intro value
    exact Word.exists_u32TryFrom_iff

end Configured

end BpfAgent.IflatUprobe
