import BpfAgent.Settings
import BpfAgent.Uprobe.Program

/-!
# UPROBE: settings

What is probed, and which argument is read as a string.  Without a target and
a symbol the program stays off: it attaches nothing and its ticks do nothing.
-/

namespace BpfAgent.Uprobe

inductive UProbeScope where
  | allProcesses
  | oneProcess (pid : UInt32)
  deriving DecidableEq

def pidScope (pid : Int32) : UProbeScope :=
  if 0 < pid.toInt then .oneProcess pid.toUInt32 else .allProcesses

structure Site where
  target : String
  symbol : String
  offset : UInt64
  scope : UProbeScope
  deriving DecidableEq

structure UprobeProgram extends Program where
  target : String
  symbol : String
  offset : UInt64
  pid : Int32
  stringArg : UInt32

def UprobeProgram.new : UprobeProgram :=
  { Program.new false with target := "", symbol := "", offset := 0, pid := -1, stringArg := 0 }

def parseOffset (config : ProgramConfig) : UInt64 :=
  parseIntSetting config "offset" 0 Word.u64TryFrom

def parsePid (config : ProgramConfig) : Int32 :=
  parseIntSetting config "pid" (-1) Word.i32TryFrom

def parseStringArg (config : ProgramConfig) : UInt32 :=
  parseIntSetting config "string_arg" 0 fun value =>
    (Word.u32TryFrom value).filter (·.toNat ≤ maxArgs)

def configure (program : UprobeProgram) (config : ProgramConfig) : Except String UprobeProgram :=
  let target := (parseStringSetting config "target").getD ""
  let symbol := (parseStringSetting config "symbol").getD ""
  .ok { program with
    target
    symbol
    offset := parseOffset config
    pid := parsePid config
    stringArg := parseStringArg config
    enabled := !(target.isEmpty || symbol.isEmpty) }

/-- What is attached, and the maps as the probe finds them. -/
def load (program : UprobeProgram) : Option (Site × Maps) :=
  if program.enabled then
    some (⟨program.target, program.symbol, program.offset, pidScope program.pid⟩,
      ⟨.empty, BoundedMap.empty.insert stringArgKey program.stringArg⟩)
  else
    none

/-- The argument to be read as a string: 1 to 6, or 0 for none. -/
def StringArg (config : ProgramConfig) (index : Nat) : Prop :=
  Chosen config "string_arg" 0 (fun number => 0 ≤ number ∧ number ≤ maxArgs) index

theorem parseStringArg_chosen (config : ProgramConfig) :
    StringArg config (parseStringArg config).toNat := by
  change Chosen config "string_arg" ((0 : UInt32).toNat : Int) _ _
  refine parseIntSetting_chosen (fun word : UInt32 => (word.toNat : Int)) ?_ ?_
  · intro value word converted
    exact (Word.u32TryFrom_eq_some_iff.mp (Option.filter_eq_some_iff.mp converted).1).symm
  · intro value
    have limit : maxArgs = 6 := rfl
    simp only [Option.filter_eq_some_iff, decide_eq_true_eq, Word.u32TryFrom_eq_some_iff]
    constructor
    · rintro ⟨word, same, small⟩
      omega
    · intro inside
      obtain ⟨word, converted⟩ := (@Word.exists_u32TryFrom_iff value).mpr ⟨inside.1, by omega⟩
      have same := Word.u32TryFrom_eq_some_iff.mp converted
      exact ⟨word, same, by omega⟩

theorem StringArg.toNat_parseStringArg {config : ProgramConfig} {index : Nat}
    (set : StringArg config index) : (parseStringArg config).toNat = index :=
  Int.ofNat_inj.mp ((parseStringArg_chosen config).unique set)

theorem StringArg.le_maxArgs {config : ProgramConfig} {index : Nat}
    (set : StringArg config index) : index ≤ maxArgs := by
  rcases set with ⟨⟨-, bound⟩, -⟩ | ⟨zero, -⟩
  · exact Int.ofNat_le.mp bound
  · omega

/-- The entry names both what to probe and where. -/
def Complete (config : ProgramConfig) (target symbol : String) : Prop :=
  setting config "target" = some (.string target) ∧ target ≠ "" ∧
    setting config "symbol" = some (.string symbol) ∧ symbol ≠ ""

def configured (config : ProgramConfig) : UprobeProgram :=
  (configure .new config).toOption.getD .new

theorem getD_parseStringSetting_eq_iff {config : ProgramConfig} {key text : String}
    (nonempty : text ≠ "") :
    (parseStringSetting config key).getD "" = text ↔
      setting config key = some (.string text) := by
  rw [← parseStringSetting_eq_some_iff]
  cases parseStringSetting config key with
  | none => simp [Ne.symm nonempty]
  | some found => simp

/-- A probe is attached exactly for a complete entry, and where the entry says. -/
theorem load_configured_eq_some_iff {config : ProgramConfig} {site : Site} {maps : Maps} :
    load (configured config) = some (site, maps) ↔
      Complete config site.target site.symbol ∧ site.offset = parseOffset config ∧
        site.scope = pidScope (parsePid config) ∧
        maps = ⟨.empty, BoundedMap.empty.insert stringArgKey (parseStringArg config)⟩ := by
  obtain ⟨target, symbol, offset, scope⟩ := site
  have filled : ∀ text : String, (!text.isEmpty) = true ↔ text ≠ "" := by
    intro text
    simp
  unfold load
  split
  next enabled =>
    have nonempty : (parseStringSetting config "target").getD "" ≠ "" ∧
        (parseStringSetting config "symbol").getD "" ≠ "" := by
      simpa only [configured, configure, Except.toOption, Option.getD_some, Bool.not_or,
        Bool.and_eq_true, filled] using enabled
    simp only [Option.some.injEq, Prod.mk.injEq, Site.mk.injEq]
    constructor
    · rintro ⟨⟨rfl, rfl, rfl, rfl⟩, rfl⟩
      exact ⟨⟨(getD_parseStringSetting_eq_iff nonempty.1).mp rfl, nonempty.1,
        (getD_parseStringSetting_eq_iff nonempty.2).mp rfl, nonempty.2⟩, rfl, rfl, rfl⟩
    · rintro ⟨⟨foundTarget, someTarget, foundSymbol, someSymbol⟩, rfl, rfl, rfl⟩
      exact ⟨⟨(getD_parseStringSetting_eq_iff someTarget).mpr foundTarget,
        (getD_parseStringSetting_eq_iff someSymbol).mpr foundSymbol, rfl, rfl⟩, rfl⟩
  next disabled =>
    refine iff_of_false (by simp) ?_
    rintro ⟨⟨foundTarget, someTarget, foundSymbol, someSymbol⟩, -⟩
    apply disabled
    simp only [configured, configure, Except.toOption, Option.getD_some, Bool.not_or,
      Bool.and_eq_true, filled]
    rw [(getD_parseStringSetting_eq_iff someTarget).mpr foundTarget,
      (getD_parseStringSetting_eq_iff someSymbol).mpr foundSymbol]
    exact ⟨someTarget, someSymbol⟩

end BpfAgent.Uprobe
