import BpfAgent.Lib.Table

/-!
# Which programs are loaded

The agent instantiates the programs its configuration enables.  Without any it
falls back to all registered programs.  The fallback is decided after the
disabled entries have been dropped, so a configuration that only disables
programs is treated like one that lists none.

The log lines, and what a program does with its settings, are left out.
-/

namespace BpfAgent.App

structure EbpfProgramConfig (Settings : Type) where
  name : String
  enabled : Bool := true
  settings : Option Settings := none

structure DaemonConfig (Settings : Type) where
  ebpfPrograms : List (EbpfProgramConfig Settings) := []

structure ProgramRegistry (Program : Type) where
  factories : Table String (Unit → Program)

section Registry

variable {Program : Type}

def ProgramRegistry.new : ProgramRegistry Program := ⟨∅⟩

def ProgramRegistry.register (registry : ProgramRegistry Program) (name : String)
    (factory : Unit → Program) : ProgramRegistry Program :=
  ⟨registry.factories.insert name factory⟩

def ProgramRegistry.availablePrograms (registry : ProgramRegistry Program) : List String :=
  registry.factories.keys

def ProgramRegistry.createProgram (registry : ProgramRegistry Program) (name : String) :
    Option Program :=
  (registry.factories.lookup name).map fun factory => factory ()

end Registry

inductive ProgramKind where
  | iflat
  | iflatUprobe
  | irss
  | kfreeSkb
  | myProgram
  | sca
  | uprobe
  deriving DecidableEq

/-- The registry of the agent. -/
def registerPrograms {Program : Type} (new : ProgramKind → Program) : ProgramRegistry Program :=
  ProgramRegistry.new
    |>.register "iflat" (fun _ => new .iflat)
    |>.register "iflat_uprobe" (fun _ => new .iflatUprobe)
    |>.register "irss" (fun _ => new .irss)
    |>.register "kfree_skb" (fun _ => new .kfreeSkb)
    |>.register "my_program" (fun _ => new .myProgram)
    |>.register "sca" (fun _ => new .sca)
    |>.register "uprobe" (fun _ => new .uprobe)

section Loading

variable {Program Settings : Type}
  (configure : Program → EbpfProgramConfig Settings → Except String Program)
  (registry : ProgramRegistry Program)

def enabledProgramConfigs (daemonConfig : DaemonConfig Settings) :
    List (EbpfProgramConfig Settings) :=
  let enabled := daemonConfig.ebpfPrograms.filter (·.enabled)
  if enabled.isEmpty then
    registry.availablePrograms.map fun name => { name, enabled := true, settings := none }
  else
    enabled

/-- One round of the loop over the enabled entries. -/
def loadProgram (programs : Table String Program) (programConfig : EbpfProgramConfig Settings) :
    Except String (Table String Program) := do
  match registry.createProgram programConfig.name with
  | none => .error ("failed to create program " ++ programConfig.name)
  | some program =>
      let program ← configure program programConfig
      return programs.insert programConfig.name program

def loadPrograms (daemonConfig : DaemonConfig Settings) : Except String (Table String Program) :=
  let configs := enabledProgramConfigs registry daemonConfig
  if configs.isEmpty then .ok ∅ else configs.foldlM (loadProgram configure registry) ∅

/-- A fresh instance of the program an entry names, configured with the entry. -/
def Instantiates (config : EbpfProgramConfig Settings) (program : Program) : Prop :=
  ∃ fresh, registry.createProgram config.name = some fresh ∧
    configure fresh config = .ok program

variable {configure registry} {daemonConfig : DaemonConfig Settings}
  {configs : List (EbpfProgramConfig Settings)} {config : EbpfProgramConfig Settings}
  {start programs : Table String Program}

theorem loadProgram_eq_ok_iff :
    loadProgram configure registry start config = .ok programs ↔
      ∃ program, Instantiates configure registry config program ∧
        programs = start.insert config.name program := by
  unfold loadProgram Instantiates
  cases created : registry.createProgram config.name with
  | none => simp
  | some fresh =>
      cases configured : configure fresh config with
      | error message => simp [configured]
      | ok program => simp [configured, eq_comm]

theorem foldlM_cons_eq_ok_iff :
    (config :: configs).foldlM (loadProgram configure registry) start = .ok programs ↔
      ∃ program, Instantiates configure registry config program ∧
        configs.foldlM (loadProgram configure registry) (start.insert config.name program) =
          .ok programs := by
  rw [List.foldlM_cons]
  cases first : loadProgram configure registry start config with
  | error message =>
      refine iff_of_false (fun impossible => by cases impossible) ?_
      rintro ⟨program, instantiated, -⟩
      rw [loadProgram_eq_ok_iff.mpr ⟨program, instantiated, rfl⟩] at first
      cases first
  | ok next =>
      obtain ⟨program, instantiated, rfl⟩ := loadProgram_eq_ok_iff.mp first
      constructor
      · intro rest
        exact ⟨program, instantiated, rest⟩
      · rintro ⟨other, again, rest⟩
        have same : loadProgram configure registry start config =
            .ok (start.insert config.name other) :=
          loadProgram_eq_ok_iff.mpr ⟨other, again, rfl⟩
        rw [first] at same
        cases same
        exact rest

theorem mem_foldlM_iff
    (loaded : configs.foldlM (loadProgram configure registry) start = .ok programs)
    (name : String) : name ∈ programs ↔ name ∈ start ∨ ∃ config ∈ configs, config.name = name := by
  induction configs generalizing start with
  | nil =>
      cases loaded
      simp
  | cons config configs inductionHypothesis =>
      obtain ⟨program, -, rest⟩ := foldlM_cons_eq_ok_iff.mp loaded
      rw [inductionHypothesis rest, AList.mem_insert]
      simp only [List.exists_mem_cons_iff, @eq_comm _ name, or_assoc, or_left_comm]

theorem foldlM_succeeds_iff :
    (∃ programs, configs.foldlM (loadProgram configure registry) start = .ok programs) ↔
      ∀ config ∈ configs, ∃ program, Instantiates configure registry config program := by
  induction configs generalizing start with
  | nil => exact iff_of_true ⟨start, rfl⟩ fun _ impossible => by cases impossible
  | cons config configs inductionHypothesis =>
      simp only [foldlM_cons_eq_ok_iff, List.forall_mem_cons]
      constructor
      · rintro ⟨programs, program, instantiated, rest⟩
        exact ⟨⟨program, instantiated⟩, inductionHypothesis.mp ⟨programs, rest⟩⟩
      · rintro ⟨⟨program, instantiated⟩, others⟩
        obtain ⟨programs, rest⟩ := inductionHypothesis.mpr others
        exact ⟨programs, program, instantiated, rest⟩

theorem loadPrograms_eq_foldlM (daemonConfig : DaemonConfig Settings) :
    loadPrograms configure registry daemonConfig =
      (enabledProgramConfigs registry daemonConfig).foldlM (loadProgram configure registry) ∅ := by
  unfold loadPrograms
  dsimp only
  split
  next empty => rw [List.isEmpty_iff.mp empty]; rfl
  next => rfl

/-- Loading succeeds exactly if every entry taken names a registered program
that accepts its settings. -/
theorem loadPrograms_succeeds_iff :
    (∃ programs, loadPrograms configure registry daemonConfig = .ok programs) ↔
      ∀ config ∈ enabledProgramConfigs registry daemonConfig,
        ∃ program, Instantiates configure registry config program := by
  simp only [loadPrograms_eq_foldlM, foldlM_succeeds_iff]

theorem mem_loadPrograms_iff
    (loaded : loadPrograms configure registry daemonConfig = .ok programs) (name : String) :
    name ∈ programs ↔ ∃ config ∈ enabledProgramConfigs registry daemonConfig,
      config.name = name := by
  rw [loadPrograms_eq_foldlM] at loaded
  rw [mem_foldlM_iff loaded, or_iff_right (AList.notMem_empty name)]

/-- What a configuration asks for: the programs with an enabled entry, and all
registered ones if it lists none. -/
def Requested (registry : ProgramRegistry Program) (daemonConfig : DaemonConfig Settings)
    (name : String) : Prop :=
  if daemonConfig.ebpfPrograms = [] then name ∈ registry.availablePrograms
  else ∃ entry ∈ daemonConfig.ebpfPrograms, entry.name = name ∧ entry.enabled = true

/-- The programs are those that were asked for; one with disabled entries only
is not among them. -/
structure Obeys (registry : ProgramRegistry Program) (daemonConfig : DaemonConfig Settings)
    (programs : Table String Program) : Prop where
  requested : ∀ name, name ∈ programs ↔ Requested registry daemonConfig name
  disabled : ∀ name, (∃ entry ∈ daemonConfig.ebpfPrograms, entry.name = name) →
    (∀ entry ∈ daemonConfig.ebpfPrograms, entry.name = name → entry.enabled = false) →
    name ∉ programs

theorem Obeys.of_requested
    (requested : ∀ name, name ∈ programs ↔ Requested registry daemonConfig name) :
    Obeys registry daemonConfig programs := by
  refine ⟨requested, ?_⟩
  rintro name ⟨listed, member, -⟩ disabled loaded
  have asked := (requested name).mp loaded
  rw [Requested, if_neg (List.ne_nil_of_mem member)] at asked
  obtain ⟨entry, present, named, enabled⟩ := asked
  rw [disabled entry present named] at enabled
  cases enabled

theorem enabledProgramConfigs_of_enabled
    (enabled : ∃ entry ∈ daemonConfig.ebpfPrograms, entry.enabled = true) :
    enabledProgramConfigs registry daemonConfig = daemonConfig.ebpfPrograms.filter (·.enabled) := by
  obtain ⟨entry, member, on⟩ := enabled
  have nonempty : daemonConfig.ebpfPrograms.filter (·.enabled) ≠ [] :=
    List.ne_nil_of_mem (List.mem_filter.mpr ⟨member, on⟩)
  unfold enabledProgramConfigs
  dsimp only
  rw [if_neg (List.isEmpty_iff.not.mpr nonempty)]

theorem mem_enabledProgramConfigs_of_disabled
    (disabled : ∀ entry ∈ daemonConfig.ebpfPrograms, entry.enabled = false) (name : String) :
    (∃ config ∈ enabledProgramConfigs registry daemonConfig, config.name = name) ↔
      name ∈ registry.availablePrograms := by
  have empty : daemonConfig.ebpfPrograms.filter (·.enabled) = [] :=
    List.filter_eq_nil_iff.mpr fun entry member => by simp [disabled entry member]
  simp [enabledProgramConfigs, empty]

/-- A successful load obeys the configuration unless that lists entries, none
of which is enabled, and there are programs to fall back to. -/
theorem loadPrograms_obeys_iff
    (configure : Program → EbpfProgramConfig Settings → Except String Program)
    (registry : ProgramRegistry Program) (daemonConfig : DaemonConfig Settings)
    (programs : Table String Program)
    (loaded : loadPrograms configure registry daemonConfig = .ok programs) :
    Obeys registry daemonConfig programs ↔
      daemonConfig.ebpfPrograms = [] ∨
        (∃ entry ∈ daemonConfig.ebpfPrograms, entry.enabled = true) ∨
        registry.availablePrograms = [] := by
  have names := mem_loadPrograms_iff loaded
  by_cases enabled : ∃ entry ∈ daemonConfig.ebpfPrograms, entry.enabled = true
  · refine iff_of_true (.of_requested fun name => ?_) (.inr (.inl enabled))
    rw [names, enabledProgramConfigs_of_enabled enabled, Requested,
      if_neg (fun empty => by simp [empty] at enabled)]
    simp only [List.mem_filter, and_assoc, @and_comm (_ = name)]
  · have disabled : ∀ entry ∈ daemonConfig.ebpfPrograms, entry.enabled = false := by
      simpa using enabled
    simp only [mem_enabledProgramConfigs_of_disabled disabled] at names
    constructor
    · intro obeys
      by_cases listed : daemonConfig.ebpfPrograms = []
      · exact .inl listed
      · refine .inr (.inr (List.eq_nil_iff_forall_not_mem.mpr fun name available => ?_))
        have asked := (obeys.requested name).mp ((names name).mpr available)
        rw [Requested, if_neg listed] at asked
        obtain ⟨entry, member, -, on⟩ := asked
        exact enabled ⟨entry, member, on⟩
    · rintro (empty | on | nothing)
      · exact .of_requested fun name => by rw [names, Requested, if_pos empty]
      · exact absurd on enabled
      · refine .of_requested fun name => ?_
        rw [names, nothing, Requested, nothing]
        split
        · rfl
        · refine iff_of_false List.not_mem_nil ?_
          rintro ⟨entry, member, -, on⟩
          exact enabled ⟨entry, member, on⟩

end Loading

/-- What a program without settings of its own makes of an entry. -/
def defaultConfigure {Program Settings : Type} (program : Program)
    (_ : EbpfProgramConfig Settings) : Except String Program :=
  .ok program

def oneDisabled : DaemonConfig Unit :=
  ⟨[{ name := "sca", enabled := false }, { name := "kfree_skb" }]⟩

theorem loadPrograms_obeys_oneDisabled :
    ∃ programs, loadPrograms defaultConfigure (registerPrograms id) oneDisabled = .ok programs ∧
      Obeys (registerPrograms id) oneDisabled programs ∧ "sca" ∉ programs := by
  refine ⟨_, rfl, (loadPrograms_obeys_iff defaultConfigure _ _ _ rfl).mpr (.inr (.inl ?_)), ?_⟩
  · exact ⟨_, List.mem_cons_of_mem _ List.mem_cons_self, rfl⟩
  · decide +kernel

def onlyDisabled : DaemonConfig Unit := ⟨[{ name := "sca", enabled := false }]⟩

theorem not_obeys_onlyDisabled :
    ∃ programs, loadPrograms defaultConfigure (registerPrograms id) onlyDisabled = .ok programs ∧
      "sca" ∈ programs ∧ ¬Obeys (registerPrograms id) onlyDisabled programs := by
  refine ⟨_, rfl, by decide +kernel, ?_⟩
  intro obeys
  refine obeys.disabled "sca" ⟨_, List.mem_cons_self, rfl⟩ ?_ (by decide +kernel)
  intro entry member _
  rw [List.mem_singleton.mp member]

end BpfAgent.App
