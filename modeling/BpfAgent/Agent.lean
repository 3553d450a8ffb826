import BpfAgent.App
import BpfAgent.Iflat.Configure
import BpfAgent.IflatUprobe.EndToEnd
import BpfAgent.Irss.EndToEnd
import BpfAgent.KfreeSkb.Rates
import BpfAgent.Lib.Family
import BpfAgent.MyProgram.Program
import BpfAgent.Sca.Display
import BpfAgent.Uprobe.LatestCall

/-!
# The agent as a whole

From a configuration to the running programs, and the event loop over them.
Whether the kernel takes the object of a program and lets it attach is given
from outside; a program that is not fully configured does not ask.

The loop serves the hooks of every program as they fire and the programs' ticks
all at once.  A tick whose maps cannot be read is logged and forgotten.
-/

namespace BpfAgent.App

def ProgramKind.name : ProgramKind → String
  | .iflat => "iflat"
  | .iflatUprobe => "iflat_uprobe"
  | .irss => "irss"
  | .kfreeSkb => "kfree_skb"
  | .myProgram => "my_program"
  | .sca => "sca"
  | .uprobe => "uprobe"

theorem ProgramKind.name_inj {kind other : ProgramKind} (same : kind.name = other.name) :
    kind = other := by
  cases kind <;> cases other <;> first | rfl | exact absurd same (by decide)

end BpfAgent.App

namespace BpfAgent.Agent

open App

/-- What the factory of a program creates and `configure` works on. -/
def Configured : ProgramKind → Type
  | .iflat => Iflat.IflatProgram
  | .iflatUprobe => IflatUprobe.Program
  | .irss => Irss.Program
  | .kfreeSkb => KfreeSkb.Program
  | .myProgram => MyProgram.EventsPerPid
  | .sca => Sca.Program
  | .uprobe => Uprobe.UprobeProgram

structure EbpfProgram where
  kind : ProgramKind
  program : Configured kind

def new (kind : ProgramKind) : EbpfProgram where
  kind := kind
  program :=
    match kind with
    | .iflat => Iflat.IflatProgram.new
    | .iflatUprobe => IflatUprobe.Program.new
    | .irss => Irss.Program.new
    | .kfreeSkb => KfreeSkb.Program.new
    | .myProgram => (∅ : MyProgram.EventsPerPid)
    | .sca => (⟨.empty, ∅, none, ∅⟩ : Sca.Program)
    | .uprobe => Uprobe.UprobeProgram.new

def configureKind : (kind : ProgramKind) → Configured kind → ProgramConfig →
    Except String (Configured kind)
  | .iflat => Iflat.configure
  | .iflatUprobe => IflatUprobe.configure
  | .irss => Irss.configure
  | .uprobe => Uprobe.configure
  | .kfreeSkb => defaultConfigure
  | .myProgram => defaultConfigure
  | .sca => defaultConfigure

def configure (program : EbpfProgram) (config : ProgramConfig) : Except String EbpfProgram := do
  return ⟨program.kind, ← configureKind program.kind program.program config⟩

inductive ScaEvent where
  | send (call : Sca.SendCall)
  | tick (reading : Sca.Reading)

def ScaEvent.step (outcome : Sca.Outcome) : ScaEvent → Sca.Outcome
  | .send call => { outcome with maps := Sca.send outcome.maps call }
  | .tick reading => Sca.displayMetrics outcome.program outcome.maps reading

/-- A program with its maps, and what happens to it. -/
def programs : Family ProgramKind where
  State
    | .iflat => Iflat.State
    | .iflatUprobe => IflatUprobe.ConfigMap × IflatUprobe.EndToEnd.State
    | .irss => Irss.EndToEnd.State
    | .kfreeSkb => KfreeSkb.State
    | .myProgram => MyProgram.State
    | .sca => Sca.Outcome
    | .uprobe => Uprobe.Agent
  Event
    | .iflat => Iflat.Event
    | .iflatUprobe => IflatUprobe.EndToEnd.Event
    | .irss => Irss.EndToEnd.Event
    | .kfreeSkb => KfreeSkb.Event
    | .myProgram => MyProgram.Event
    | .sca => ScaEvent
    | .uprobe => Uprobe.Event
  step
    | .iflat => Iflat.step
    | .iflatUprobe => fun (configMap, state) event =>
        (configMap, IflatUprobe.EndToEnd.step configMap state event)
    | .irss => Irss.EndToEnd.step
    | .kfreeSkb => KfreeSkb.step
    | .myProgram => MyProgram.step
    | .sca => ScaEvent.step
    | .uprobe => Uprobe.Agent.step

def isTick : (kind : ProgramKind) → programs.Event kind → Prop
  | .iflat, event => Iflat.Event.hook event = .tick
  | .iflatUprobe, event => IflatUprobe.EndToEnd.Event.Ticks event
  | .irss, event => Irss.EndToEnd.Event.Ticks event
  | .kfreeSkb, event => ∃ now, event = KfreeSkb.Event.tick now
  | .myProgram, event => ∃ reads, event = MyProgram.Event.tick reads
  | .sca, event => ∃ reading, event = ScaEvent.tick reading
  | .uprobe, event => ∃ reads, event = Uprobe.Event.tick reads

/-- Hooks fire one at a time; a tick is one of all programs. -/
def Input : Type :=
  { input : programs.Input //
    match input with
    | .one kind event => ¬isTick kind event
    | .each events => ∀ kind event, events kind = some event → isTick kind event }

-- The states in which the programs start that may not be fully configured.
def loadedIflat (program : Iflat.IflatProgram) : Option Iflat.State :=
  (Iflat.load program).map fun _ => ⟨.empty, program.toProgram⟩

def loadedIflatUprobe (program : IflatUprobe.Program) :
    Option (IflatUprobe.ConfigMap × IflatUprobe.EndToEnd.State) :=
  (IflatUprobe.load program).map fun attached =>
    (attached.configMap, IflatUprobe.EndToEnd.State.loaded program)

def loadedUprobe (program : Uprobe.UprobeProgram) : Option Uprobe.Agent :=
  (Uprobe.load program).map fun (_, maps) => ⟨maps, program.toProgram, []⟩

/-- The state in which a program starts.  `first` is what SCA discovers when it
is loaded. -/
def loaded (first : List Sca.DiscoveredHop) :
    (kind : ProgramKind) → Configured kind → Option (programs.State kind)
  | .iflat, program => loadedIflat program
  | .iflatUprobe, program => loadedIflatUprobe program
  | .irss, program => some (⟨Irss.load program, program⟩ : Irss.EndToEnd.State)
  | .kfreeSkb, program => some (⟨.empty, program⟩ : KfreeSkb.State)
  | .myProgram, eventsPerPid => some (⟨.empty, eventsPerPid⟩ : MyProgram.State)
  | .sca, _ => some (Sca.loaded first)
  | .uprobe, program => loadedUprobe program

section Start

-- `kernel` is what the kernel says to the object of a program.
variable (kernel : ProgramKind → Except String Unit) (first : List Sca.DiscoveredHop)

def load (program : EbpfProgram) : Except String Unit :=
  match loaded first program.kind program.program with
  | none => .ok ()
  | some _ => kernel program.kind

def loadAndStartEbpfPrograms (table : Table String EbpfProgram) : Except String Unit :=
  table.entries.forM fun entry => load kernel first entry.2

def metricNames : ProgramKind → List String
  | .iflat => ["iflat_avg_latency_us"]
  | .iflatUprobe => ["iflat_uprobe_avg_latency1_us", "iflat_uprobe_avg_latency2_us"]
  | .irss => ["irss_avg_latency_us"]
  | .kfreeSkb => ["kfree_skb_total_drops_per_sec", "kfree_skb_drops_per_sec"]
  | .myProgram => ["my_program_events_per_pid"]
  | .sca => ["sca_avg_latency_per_pname"]
  | .uprobe => ["uprobe_calls_total"]

def registerMetric (registry : List String) (name : String) : Except String (List String) :=
  if name ∈ registry then .error "Duplicate metrics collector registration attempted"
  else .ok (registry ++ [name])

def setupPrometheusMetrics (table : Table String EbpfProgram) : Except String (List String) :=
  (table.entries.flatMap fun entry => metricNames entry.2.kind).foldlM registerMetric []

structure Running where
  /-- The order in which the event loop visits the programs. -/
  order : List ProgramKind
  system : programs.System
  metrics : List String

def systemOf (table : Table String EbpfProgram) : programs.System := fun kind =>
  (table.lookup kind.name).bind fun program =>
    if same : program.kind = kind then same ▸ loaded first program.kind program.program else none

/-- Everything up to the event loop.  Without programs there is none. -/
def run (statsIntervalMs : UInt64) (daemonConfig : DaemonConfig Settings) :
    Except String (Option Running) := do
  if statsIntervalMs = 0 then .error "stats_interval_ms must be greater than 0"
  let table ← loadPrograms configure (registerPrograms new) daemonConfig
  if table.entries.isEmpty then return none
  loadAndStartEbpfPrograms kernel first table
  let metrics ← setupPrometheusMetrics table
  return some
    { order := table.entries.map fun entry => entry.2.kind
      system := systemOf first table
      metrics }

end Start

/-- The event loop. -/
def Running.after (running : Running) (inputs : List Input) : programs.System :=
  (inputs.map Subtype.val).foldl (Family.next running.order) running.system

/-- What every program makes of its settings, if it takes them. -/
def Accepts (kind : ProgramKind) (config : ProgramConfig) : Prop :=
  match kind with
  | .iflat => AcceptsIface config "rx_iface" ∧ AcceptsIface config "tx_iface"
  | .iflatUprobe => AcceptsIface config "rx1_iface" ∧ AcceptsIface config "rx2_iface"
  | _ => True

/-- All that a program cannot do without is set. -/
def Complete (kind : ProgramKind) (config : ProgramConfig) : Prop :=
  match kind with
  | .iflat => ∃ rx tx, Iflat.Named config rx tx
  | .iflatUprobe => ∃ attached, IflatUprobe.EndToEnd.Required config attached
  | .uprobe => ∃ target symbol, Uprobe.Complete config target symbol
  | _ => True

/-- The last enabled entry of a program; an empty one if no entry is enabled. -/
def entryOf (daemonConfig : DaemonConfig Settings) (kind : ProgramKind) : Option ProgramConfig :=
  (enabledProgramConfigs (registerPrograms new) daemonConfig).reverse.find?
    fun config => config.name = kind.name

def startState (first : List Sca.DiscoveredHop) (kind : ProgramKind) (config : ProgramConfig) :
    Option (programs.State kind) :=
  (configureKind kind (new kind).program config).toOption.bind (loaded first kind)

section Entries

variable {config : ProgramConfig} {kind : ProgramKind}

theorem configureKind_succeeds_iff :
    (∃ program, configureKind kind (new kind).program config = .ok program) ↔
      Accepts kind config := by
  cases kind with
  | iflat => exact Iflat.configure_succeeds_iff
  | iflatUprobe => exact IflatUprobe.EndToEnd.configure_succeeds_iff
  | irss => exact iff_of_true ⟨_, rfl⟩ trivial
  | kfreeSkb => exact iff_of_true ⟨_, rfl⟩ trivial
  | myProgram => exact iff_of_true ⟨_, rfl⟩ trivial
  | sca => exact iff_of_true ⟨_, rfl⟩ trivial
  | uprobe => exact iff_of_true ⟨_, rfl⟩ trivial

theorem startState_of_configured {program : Configured kind}
    (configured : configureKind kind (new kind).program config = .ok program)
    (first : List Sca.DiscoveredHop) :
    startState first kind config = loaded first kind program := by
  rw [startState, configured]
  rfl

theorem isSome_loadedIflat {program : Iflat.IflatProgram}
    (configured : Iflat.configure .new config = .ok program) :
    (loadedIflat program).isSome ↔ ∃ rx tx, Iflat.Named config rx tx := by
  simp only [loadedIflat, Option.isSome_map, Option.isSome_iff_exists, Prod.exists,
    Iflat.load_of_configured configured]

theorem isSome_loadedIflatUprobe {program : IflatUprobe.Program}
    (configured : IflatUprobe.configure .new config = .ok program) :
    (loadedIflatUprobe program).isSome ↔
      ∃ attached, IflatUprobe.EndToEnd.Required config attached := by
  rw [loadedIflatUprobe, Option.isSome_map, Option.isSome_iff_exists]
  exact IflatUprobe.EndToEnd.load_of_configured configured

theorem isSome_loadedUprobe :
    (loadedUprobe (Uprobe.configured config)).isSome ↔
      ∃ target symbol, Uprobe.Complete config target symbol := by
  simp only [loadedUprobe, Option.isSome_map, Option.isSome_iff_exists, Prod.exists,
    Uprobe.load_configured_eq_some_iff]
  constructor
  · rintro ⟨site, maps, complete, -⟩
    exact ⟨site.target, site.symbol, complete⟩
  · rintro ⟨target, symbol, complete⟩
    exact ⟨⟨target, symbol, _, _⟩, _, complete, rfl, rfl, rfl⟩

theorem startState_isSome_iff (accepts : Accepts kind config) (first : List Sca.DiscoveredHop) :
    (startState first kind config).isSome ↔ Complete kind config := by
  obtain ⟨program, configured⟩ := configureKind_succeeds_iff.mpr accepts
  rw [startState_of_configured configured]
  cases kind with
  | iflat => exact isSome_loadedIflat configured
  | iflatUprobe => exact isSome_loadedIflatUprobe configured
  | uprobe =>
      cases configured
      exact isSome_loadedUprobe
  | irss => exact iff_of_true rfl trivial
  | kfreeSkb => exact iff_of_true rfl trivial
  | myProgram => exact iff_of_true rfl trivial
  | sca => exact iff_of_true rfl trivial

theorem createProgram_name (kind : ProgramKind) :
    (registerPrograms new).createProgram kind.name = some (new kind) := by
  cases kind <;> rfl

theorem createProgram_eq_some_iff {name : String} {program : EbpfProgram} :
    (registerPrograms new).createProgram name = some program ↔
      ∃ kind : ProgramKind, kind.name = name ∧ program = new kind := by
  constructor
  · intro created
    by_cases known : ∃ kind : ProgramKind, kind.name = name
    · obtain ⟨kind, rfl⟩ := known
      rw [createProgram_name] at created
      exact ⟨kind, rfl, (Option.some.inj created).symm⟩
    · have missing : (registerPrograms new).factories.lookup name = none := by
        rw [AList.lookup_eq_none, AList.mem_keys, show (registerPrograms new).factories.keys =
          [ProgramKind.uprobe, .sca, .myProgram, .kfreeSkb, .irss, .iflatUprobe, .iflat].map
            ProgramKind.name from rfl]
        intro member
        obtain ⟨kind, -, same⟩ := List.mem_map.mp member
        exact known ⟨kind, same⟩
      rw [ProgramRegistry.createProgram, missing] at created
      cases created
  · rintro ⟨kind, rfl, rfl⟩
    exact createProgram_name kind

theorem instantiates_iff {program : EbpfProgram} :
    Instantiates configure (registerPrograms new) config program ↔
      program.kind.name = config.name ∧
        configureKind program.kind (new program.kind).program config = .ok program.program := by
  obtain ⟨kind, program⟩ := program
  unfold Instantiates
  simp only [createProgram_eq_some_iff]
  constructor
  · rintro ⟨_, ⟨own, named, rfl⟩, configured⟩
    obtain ⟨result, taken, same⟩ := bind_eq_ok_iff.mp configured
    cases same
    exact ⟨named, taken⟩
  · rintro ⟨named, configured⟩
    exact ⟨new kind, ⟨kind, named, rfl⟩, bind_eq_ok_iff.mpr ⟨program, configured, rfl⟩⟩

end Entries

section Loaded

variable {configs : List ProgramConfig} {start table : Table String EbpfProgram}
  {daemonConfig : DaemonConfig Settings}

/-- The last entry of a name determines the program under the name. -/
theorem lookup_foldlM
    (loads : configs.foldlM (loadProgram configure (registerPrograms new)) start = .ok table)
    (name : String) :
    match configs.reverse.find? (fun config => config.name = name) with
    | none => table.lookup name = start.lookup name
    | some config => ∃ program, Instantiates configure (registerPrograms new) config program ∧
        config.name = name ∧ table.lookup name = some program := by
  induction configs generalizing start with
  | nil =>
      cases loads
      rfl
  | cons config configs inductionHypothesis =>
      obtain ⟨program, instantiated, rest⟩ := foldlM_cons_eq_ok_iff.mp loads
      have later := inductionHypothesis rest
      rw [List.reverse_cons, List.find?_append]
      cases found : configs.reverse.find? (fun config => config.name = name) with
      | some last =>
          rw [found] at later
          exact later
      | none =>
          rw [found] at later
          dsimp only at later
          rw [Table.lookup_insert_ite] at later
          by_cases own : config.name = name
          · rw [if_pos own.symm] at later
            have single : [config].find? (fun config => config.name = name) = some config := by
              simp [own]
            rw [Option.none_or, single]
            exact ⟨program, instantiated, own, later⟩
          · rw [if_neg (Ne.symm own)] at later
            have single : [config].find? (fun config => config.name = name) = none := by
              simp [own]
            rw [Option.none_or, single]
            exact later

variable (loads : loadPrograms configure (registerPrograms new) daemonConfig = .ok table)
include loads

theorem lookup_loaded (kind : ProgramKind) :
    match entryOf daemonConfig kind with
    | none => table.lookup kind.name = none
    | some config => ∃ program : Configured kind,
        configureKind kind (new kind).program config = .ok program ∧
          table.lookup kind.name = some ⟨kind, program⟩ := by
  have last := loads
  rw [loadPrograms_eq_foldlM] at last
  have lookup := lookup_foldlM last kind.name
  rw [entryOf]
  cases found : (enabledProgramConfigs (registerPrograms new) daemonConfig).reverse.find?
      fun config => config.name = kind.name with
  | none =>
      rw [found] at lookup
      exact lookup
  | some config =>
      rw [found] at lookup
      obtain ⟨⟨other, program⟩, instantiated, named, stored⟩ := lookup
      obtain ⟨same, configured⟩ := instantiates_iff.mp instantiated
      obtain rfl : other = kind := ProgramKind.name_inj (same.trans named)
      exact ⟨program, configured, stored⟩

theorem name_of_lookup {name : String} {program : EbpfProgram}
    (stored : table.lookup name = some program) : program.kind.name = name := by
  have last := loads
  rw [loadPrograms_eq_foldlM] at last
  have lookup := lookup_foldlM last name
  cases found : (enabledProgramConfigs (registerPrograms new) daemonConfig).reverse.find?
      fun config => config.name = name with
  | none =>
      rw [found] at lookup
      dsimp only at lookup
      rw [stored, AList.lookup_empty] at lookup
      cases lookup
  | some config =>
      rw [found] at lookup
      obtain ⟨other, instantiated, named, same⟩ := lookup
      cases stored.symm.trans same
      exact (instantiates_iff.mp instantiated).1.trans named

theorem nodup_kinds : (table.entries.map fun entry => entry.2.kind).Nodup := by
  refine List.Nodup.of_map ProgramKind.name ?_
  have keys : (table.entries.map fun entry => entry.2.kind).map ProgramKind.name = table.keys := by
    rw [List.map_map]
    apply List.map_congr_left
    intro entry member
    exact name_of_lookup loads (Table.lookup_of_mem_entries member)
  rw [keys]
  exact table.keys_nodup

theorem mem_kinds_iff (kind : ProgramKind) :
    kind ∈ (table.entries.map fun entry => entry.2.kind) ↔ entryOf daemonConfig kind ≠ none := by
  have lookup := lookup_loaded loads kind
  constructor
  · intro member missing
    rw [missing] at lookup
    obtain ⟨entry, present, rfl⟩ := List.mem_map.mp member
    have stored := Table.lookup_of_mem_entries present
    rw [← name_of_lookup loads stored, lookup] at stored
    cases stored
  · intro present
    obtain ⟨config, found⟩ := Option.ne_none_iff_exists'.mp present
    rw [found] at lookup
    obtain ⟨program, -, stored⟩ := lookup
    exact List.mem_map.mpr ⟨⟨kind.name, kind, program⟩, AList.mem_lookup_iff.mp stored, rfl⟩

theorem systemOf_loaded (first : List Sca.DiscoveredHop) (kind : ProgramKind) :
    systemOf first table kind = (entryOf daemonConfig kind).bind (startState first kind) := by
  have lookup := lookup_loaded loads kind
  cases found : entryOf daemonConfig kind with
  | none =>
      rw [found] at lookup
      rw [systemOf, lookup]
      rfl
  | some config =>
      rw [found] at lookup
      obtain ⟨program, configured, stored⟩ := lookup
      rw [systemOf, stored, Option.bind_some, Option.bind_some,
        startState_of_configured configured]
      exact dif_pos rfl

end Loaded

section Metrics

theorem foldlM_registerMetric {names registry : List String} (fresh : (registry ++ names).Nodup) :
    names.foldlM registerMetric registry = .ok (registry ++ names) := by
  induction names generalizing registry with
  | nil => simp [pure, Except.pure]
  | cons name names inductionHypothesis =>
      have unused : name ∉ registry := fun used =>
        (List.nodup_append.mp fresh).2.2 name used name List.mem_cons_self rfl
      rw [List.foldlM_cons, registerMetric, if_neg unused]
      have next : (registry ++ [name] ++ names).Nodup := by
        rw [List.append_assoc]
        exact fresh
      have rest := inductionHypothesis next
      rw [List.append_assoc] at rest
      exact rest

theorem metricNames_disjoint {kind other : ProgramKind} (different : kind ≠ other) :
    ∀ name ∈ metricNames kind, name ∉ metricNames other := by
  revert different
  cases kind <;> cases other <;> decide

/-- No two programs have a metric in common. -/
theorem nodup_metricNames {kinds : List ProgramKind} (once : kinds.Nodup) :
    (kinds.flatMap metricNames).Nodup := by
  rw [List.nodup_flatMap]
  refine ⟨?_, once.imp ?_⟩
  · intro kind _
    cases kind <;> decide
  · intro kind other different name first second
    exact metricNames_disjoint different name first second

end Metrics

/-- What has to be right for the agent to start. -/
structure Ready (kernel : ProgramKind → Except String Unit) (statsIntervalMs : UInt64)
    (daemonConfig : DaemonConfig Settings) : Prop where
  interval : statsIntervalMs ≠ 0
  entries : ∀ config ∈ enabledProgramConfigs (registerPrograms new) daemonConfig,
    ∃ kind : ProgramKind, kind.name = config.name ∧ Accepts kind config
  kernel : ∀ kind config, entryOf daemonConfig kind = some config → Complete kind config →
    kernel kind = .ok ()

/-- The programs with an entry, in the state that the last one gives them. -/
structure Started (first : List Sca.DiscoveredHop) (daemonConfig : DaemonConfig Settings)
    (running : Running) : Prop where
  once : running.order.Nodup
  covers : ∀ kind, kind ∈ running.order ↔ entryOf daemonConfig kind ≠ none
  system : ∀ kind, running.system kind = (entryOf daemonConfig kind).bind (startState first kind)
  metrics : running.metrics = running.order.flatMap metricNames

section Starting

variable {kernel : ProgramKind → Except String Unit} {first : List Sca.DiscoveredHop}
  {statsIntervalMs : UInt64} {daemonConfig : DaemonConfig Settings}

theorem forM_eq_ok_iff {Entry : Type} {entries : List Entry} {action : Entry → Except String Unit} :
    entries.forM action = .ok () ↔ ∀ entry ∈ entries, action entry = .ok () := by
  induction entries with
  | nil => simp [pure, Except.pure]
  | cons entry entries inductionHypothesis =>
      change (action entry >>= fun _ => entries.forM action) = .ok () ↔ _
      rw [bind_eq_ok_iff, List.forall_mem_cons, ← inductionHypothesis]
      constructor
      · rintro ⟨⟨⟩, here, rest⟩
        exact ⟨here, rest⟩
      · rintro ⟨here, rest⟩
        exact ⟨(), here, rest⟩

theorem enabledProgramConfigs_ne_nil (daemonConfig : DaemonConfig Settings) :
    enabledProgramConfigs (registerPrograms new) daemonConfig ≠ [] := by
  unfold enabledProgramConfigs
  dsimp only
  split
  next => simp [ProgramRegistry.availablePrograms, registerPrograms, ProgramRegistry.register]
  next some => exact fun empty => some (List.isEmpty_iff.mpr empty)

theorem entries_ne_nil {table : Table String EbpfProgram}
    (loads : loadPrograms configure (registerPrograms new) daemonConfig = .ok table) :
    table.entries ≠ [] := by
  obtain ⟨config, member⟩ :=
    List.exists_mem_of_ne_nil _ (enabledProgramConfigs_ne_nil daemonConfig)
  have present := (mem_loadPrograms_iff loads config.name).mpr ⟨config, member, rfl⟩
  intro empty
  rw [AList.mem_keys, AList.keys, empty] at present
  cases present

theorem load_eq_ok_iff {kind : ProgramKind} {program : Configured kind} :
    load kernel first ⟨kind, program⟩ = .ok () ↔
      ((loaded first kind program).isSome → kernel kind = .ok ()) := by
  rw [load]
  cases loaded first kind program <;> simp

/-- The kernel is asked for the programs whose settings are complete. -/
theorem loadAndStart_eq_ok_iff {table : Table String EbpfProgram}
    (loads : loadPrograms configure (registerPrograms new) daemonConfig = .ok table) :
    loadAndStartEbpfPrograms kernel first table = .ok () ↔
      ∀ kind config, entryOf daemonConfig kind = some config → Complete kind config →
        kernel kind = .ok () := by
  rw [loadAndStartEbpfPrograms, forM_eq_ok_iff]
  have each : ∀ {kind : ProgramKind} {config : ProgramConfig} {program : Configured kind},
      configureKind kind (new kind).program config = .ok program →
        (load kernel first ⟨kind, program⟩ = .ok () ↔
          (Complete kind config → kernel kind = .ok ())) := by
    intro kind config program configured
    rw [load_eq_ok_iff, ← startState_of_configured configured,
      startState_isSome_iff (configureKind_succeeds_iff.mp ⟨program, configured⟩)]
  constructor
  · intro all kind config found
    have lookup := lookup_loaded loads kind
    rw [found] at lookup
    obtain ⟨program, configured, stored⟩ := lookup
    exact (each configured).mp (all _ (AList.mem_lookup_iff.mp stored))
  · rintro all ⟨name, kind, program⟩ member
    have stored := Table.lookup_of_mem_entries member
    obtain rfl : kind.name = name := name_of_lookup loads stored
    have lookup := lookup_loaded loads kind
    cases found : entryOf daemonConfig kind with
    | none =>
        rw [found] at lookup
        cases stored.symm.trans lookup
    | some config =>
        rw [found] at lookup
        obtain ⟨own, configured, same⟩ := lookup
        cases stored.symm.trans same
        exact (each configured).mpr (all kind config found)

theorem loadPrograms_ready_iff :
    (∃ table, loadPrograms configure (registerPrograms new) daemonConfig = .ok table) ↔
      ∀ config ∈ enabledProgramConfigs (registerPrograms new) daemonConfig,
        ∃ kind : ProgramKind, kind.name = config.name ∧ Accepts kind config := by
  rw [loadPrograms_succeeds_iff]
  refine forall₂_congr fun config _ => ?_
  constructor
  · rintro ⟨program, instantiated⟩
    obtain ⟨named, configured⟩ := instantiates_iff.mp instantiated
    exact ⟨program.kind, named, configureKind_succeeds_iff.mp ⟨_, configured⟩⟩
  · rintro ⟨kind, named, accepts⟩
    obtain ⟨program, configured⟩ := configureKind_succeeds_iff.mpr accepts
    exact ⟨⟨kind, program⟩, instantiates_iff.mpr ⟨named, configured⟩⟩

/-- What `run` does, with the branches that are never taken left out. -/
theorem run_eq_ok_iff {outcome : Option Running} :
    run kernel first statsIntervalMs daemonConfig = .ok outcome ↔
      statsIntervalMs ≠ 0 ∧ ∃ table,
        loadPrograms configure (registerPrograms new) daemonConfig = .ok table ∧
        loadAndStartEbpfPrograms kernel first table = .ok () ∧
        outcome = some
          { order := table.entries.map fun entry => entry.2.kind
            system := systemOf first table
            metrics := (table.entries.map fun entry => entry.2.kind).flatMap metricNames } := by
  unfold run
  by_cases zero : statsIntervalMs = 0
  · refine iff_of_false ?_ fun right => right.1 zero
    rw [if_pos zero]
    rintro ⟨⟩
  · rw [if_neg zero]
    dsimp only
    rw [bind_eq_ok_iff]
    simp only [zero, ne_eq, not_false_eq_true, true_and]
    refine exists_congr fun table => and_congr_right fun loads => ?_
    have nonempty : table.entries.isEmpty = false :=
      List.isEmpty_eq_false_iff.mpr (entries_ne_nil loads)
    have metrics : setupPrometheusMetrics table =
        .ok ((table.entries.map fun entry => entry.2.kind).flatMap metricNames) := by
      have registered := @foldlM_registerMetric
        ((table.entries.map fun entry => entry.2.kind).flatMap metricNames) []
        (nodup_metricNames (nodup_kinds loads))
      rw [List.nil_append, List.flatMap_map] at registered
      rw [List.flatMap_map]
      exact registered
    rw [nonempty]
    simp only [Bool.false_eq_true, if_false, bind_eq_ok_iff, metrics]
    constructor
    · rintro ⟨⟨⟩, started, _, ⟨⟩, same⟩
      cases same
      exact ⟨started, rfl⟩
    · rintro ⟨started, rfl⟩
      exact ⟨(), started, _, rfl, rfl⟩

theorem started_of_run {running : Running}
    (runs : run kernel first statsIntervalMs daemonConfig = .ok (some running)) :
    Started first daemonConfig running := by
  obtain ⟨-, table, loads, -, same⟩ := run_eq_ok_iff.mp runs
  cases same
  exact ⟨nodup_kinds loads, mem_kinds_iff loads, systemOf_loaded loads first, rfl⟩

end Starting

/-- The agent starts exactly if it is ready to, and then runs every program that
has an entry with the settings of its last one; it never exits for want of
programs, and no metric is in the way of another. -/
theorem starts_up_iff_ready (kernel : ProgramKind → Except String Unit)
    (first : List Sca.DiscoveredHop) (statsIntervalMs : UInt64)
    (daemonConfig : DaemonConfig Settings) :
    ((∃ outcome, run kernel first statsIntervalMs daemonConfig = .ok outcome) ↔
        Ready kernel statsIntervalMs daemonConfig) ∧
      ∀ outcome, run kernel first statsIntervalMs daemonConfig = .ok outcome →
        ∃ running, outcome = some running ∧ Started first daemonConfig running := by
  constructor
  · simp only [run_eq_ok_iff]
    constructor
    · rintro ⟨_, interval, table, loads, started, -⟩
      exact ⟨interval, loadPrograms_ready_iff.mp ⟨table, loads⟩,
        (loadAndStart_eq_ok_iff loads).mp started⟩
    · rintro ⟨interval, entries, kernel⟩
      obtain ⟨table, loads⟩ := loadPrograms_ready_iff.mpr entries
      exact ⟨_, interval, table, loads, (loadAndStart_eq_ok_iff loads).mpr kernel, rfl⟩
  · intro outcome runs
    obtain ⟨-, table, loads, -, rfl⟩ := run_eq_ok_iff.mp runs
    exact ⟨_, rfl, started_of_run runs⟩

def eventsOf (kind : ProgramKind) (inputs : List Input) : List (programs.Event kind) :=
  (inputs.map Subtype.val).filterMap (Family.own kind)

theorem Started.after {first : List Sca.DiscoveredHop} {daemonConfig : DaemonConfig Settings}
    {running : Running} (started : Started first daemonConfig running) (inputs : List Input)
    (kind : ProgramKind) :
    running.after inputs kind =
      ((entryOf daemonConfig kind).bind (startState first kind)).map fun state =>
        (eventsOf kind inputs).foldl (programs.step kind) state := by
  have covers : Family.Covers running.order running.system := by
    intro kind there
    apply (started.covers kind).mpr
    intro missing
    rw [started.system, missing] at there
    exact there rfl
  rw [Running.after, Family.foldl_next_apply started.once covers, started.system]
  rfl

/-- However hooks and ticks of the programs mix, and whichever ticks fail, every
program is in the state that its own events alone lead to from its settings. -/
theorem programs_run_alone {kernel : ProgramKind → Except String Unit}
    {first : List Sca.DiscoveredHop} {statsIntervalMs : UInt64}
    {daemonConfig : DaemonConfig Settings} {running : Running}
    (runs : run kernel first statsIntervalMs daemonConfig = .ok (some running))
    (inputs : List Input) (kind : ProgramKind) :
    running.after inputs kind =
      ((entryOf daemonConfig kind).bind (startState first kind)).map fun state =>
        (eventsOf kind inputs).foldl (programs.step kind) state :=
  (started_of_run runs).after inputs kind

def twoPrograms : DaemonConfig Settings := ⟨[Irss.EndToEnd.otherDest, { name := "kfree_skb" }]⟩

def irssHook (event : Irss.EndToEnd.Event) (hook : ¬isTick .irss event) : Input :=
  ⟨.one .irss event, hook⟩

def dropped (reason : UInt32) : Input :=
  ⟨.one .kfreeSkb (KfreeSkb.Event.drop (some reason)), by rintro ⟨now, impossible⟩; cases impossible⟩

/-- A tick at which the drop counters cannot be read. -/
def irssTick (now : UInt64) : Input :=
  ⟨.each fun
      | .irss => some ⟨now, .tick⟩
      | _ => none,
    by
      intro kind event own
      cases kind <;> cases own
      rfl⟩

/-- A datagram is received and sent on while packets are dropped. -/
def mixedInputs : List Input :=
  [irssHook ⟨500, .enter 1 (some ⟨3, 4096⟩)⟩ (by rintro ⟨⟩), dropped 2,
    irssHook ⟨600, .kprobe 1 (some 5020)⟩ (by rintro ⟨⟩),
    irssHook ⟨1000, .exit 1 (some 4) Irss.EndToEnd.otherDestMemory⟩ (by rintro ⟨⟩), dropped 2,
    irssHook ⟨5000, .send (some ⟨4, 4096⟩) Irss.EndToEnd.otherDestMemory⟩ (by rintro ⟨⟩),
    irssTick 6000]

theorem twoPrograms_run :
    ∃ running, run (fun _ => .ok ()) [] 3000 twoPrograms = .ok (some running) :=
  ⟨_, rfl⟩

theorem two_programs_run_alone :
    ∃ running, run (fun _ => .ok ()) [] 3000 twoPrograms = .ok (some running) ∧
      running.after mixedInputs .irss =
        ((entryOf twoPrograms .irss).bind (startState [] .irss)).map fun state =>
          (eventsOf .irss mixedInputs).foldl (programs.step .irss) state := by
  obtain ⟨running, runs⟩ := twoPrograms_run
  exact ⟨running, runs, programs_run_alone runs mixedInputs .irss⟩

def reporters : (kind : ProgramKind) →
    List (Reporter (programs.State kind) (programs.Event kind))
  | .iflat => [Iflat.display]
  | .iflatUprobe => [IflatUprobe.EndToEnd.displayLoaded .first,
      IflatUprobe.EndToEnd.displayLoaded .second]
  | .irss => [Irss.EndToEnd.display]
  | _ => []

section Gauges

variable {kind : ProgramKind} {reporter : Reporter (programs.State kind) (programs.Event kind)}

theorem step_of_reporter (member : reporter ∈ reporters kind) :
    reporter.step = programs.step kind := by
  cases kind with
  | iflat =>
      cases List.mem_singleton.mp member
      rfl
  | iflatUprobe =>
      rcases List.mem_cons.mp member with rfl | member
      · rfl
      · cases List.mem_singleton.mp member
        rfl
  | irss =>
      cases List.mem_singleton.mp member
      rfl
  | kfreeSkb => cases member
  | myProgram => cases member
  | sca => cases member
  | uprobe => cases member

theorem fresh_loadedIflat {config : ProgramConfig} {program : Iflat.IflatProgram}
    (configured : Iflat.configure .new config = .ok program) {state : Iflat.State}
    (starts : loadedIflat program = some state) : Iflat.display.Fresh state := by
  obtain ⟨ifaces, attaches, rfl⟩ := Option.map_eq_some_iff.mp starts
  rw [Iflat.fresh_of_configured configured attaches]
  exact ⟨rfl, rfl, rfl, rfl⟩

theorem fresh_loadedIflatUprobe {config : ProgramConfig} {program : IflatUprobe.Program}
    (configured : IflatUprobe.configure .new config = .ok program)
    {state : IflatUprobe.ConfigMap × IflatUprobe.EndToEnd.State}
    (starts : loadedIflatUprobe program = some state) (leg : IflatUprobe.EndToEnd.Leg) :
    (IflatUprobe.EndToEnd.displayLoaded leg).Fresh state := by
  obtain ⟨attached, attaches, rfl⟩ := Option.map_eq_some_iff.mp starts
  obtain ⟨-, enabled, first, second, -⟩ :=
    IflatUprobe.EndToEnd.Loaded.facts ⟨configured, attaches⟩
  cases leg with
  | first => exact ⟨enabled, rfl, rfl, first⟩
  | second => exact ⟨enabled, rfl, rfl, second⟩

theorem fresh_of_startState (member : reporter ∈ reporters kind) {config : ProgramConfig}
    {first : List Sca.DiscoveredHop} {state : programs.State kind}
    (starts : startState first kind config = some state) : reporter.Fresh state := by
  rw [startState, Option.bind_eq_some_iff] at starts
  obtain ⟨program, configured, starts⟩ := starts
  have configured : configureKind kind (new kind).program config = .ok program := by
    cases outcome : configureKind kind (new kind).program config with
    | error message => simp [outcome, Except.toOption] at configured
    | ok own =>
        rw [outcome] at configured
        cases configured
        rfl
  cases kind with
  | iflat =>
      cases List.mem_singleton.mp member
      exact fresh_loadedIflat configured starts
  | iflatUprobe =>
      rcases List.mem_cons.mp member with rfl | member
      · exact fresh_loadedIflatUprobe configured starts .first
      · cases List.mem_singleton.mp member
        exact fresh_loadedIflatUprobe configured starts .second
  | irss =>
      cases List.mem_singleton.mp member
      cases configured
      cases starts
      exact ⟨trivial, rfl, rfl, rfl⟩
  | kfreeSkb => cases member
  | myProgram => cases member
  | sca => cases member
  | uprobe => cases member

end Gauges

/-- In every run of the agent, every latency gauge shows at every tick of its
program the average of the samples since the tick before. -/
theorem latency_gauges_average {kernel : ProgramKind → Except String Unit}
    {first : List Sca.DiscoveredHop} {statsIntervalMs : UInt64}
    {daemonConfig : DaemonConfig Settings} {running : Running}
    (runs : run kernel first statsIntervalMs daemonConfig = .ok (some running))
    (inputs : List Input) {kind : ProgramKind}
    {reporter : Reporter (programs.State kind) (programs.Event kind)}
    (member : reporter ∈ reporters kind) {config : ProgramConfig}
    (entry : entryOf daemonConfig kind = some config) {state : programs.State kind}
    (starts : startState first kind config = some state)
    (fits : reporter.Fits state (eventsOf kind inputs)) :
    running.after inputs kind = some (reporter.stateAfter state (eventsOf kind inputs)) ∧
      reporter.Averages state (eventsOf kind inputs) := by
  refine ⟨?_, Reporter.averages_of_fits (fresh_of_startState member starts) fits⟩
  rw [(started_of_run runs).after, entry, Option.bind_some, starts, Option.map_some,
    Reporter.stateAfter, step_of_reporter member]

theorem latency_gauges_mixed :
    ∃ running, run (fun _ => .ok ()) [] 3000 twoPrograms = .ok (some running) ∧
      Irss.EndToEnd.display.Averages (Irss.EndToEnd.State.loaded Irss.EndToEnd.otherDest)
        (eventsOf .irss mixedInputs) ∧
      Irss.EndToEnd.display.recorded (Irss.EndToEnd.State.loaded Irss.EndToEnd.otherDest)
        (eventsOf .irss mixedInputs) = [4000] := by
  obtain ⟨running, runs⟩ := twoPrograms_run
  have recorded : Irss.EndToEnd.display.recorded
      (Irss.EndToEnd.State.loaded Irss.EndToEnd.otherDest) (eventsOf .irss mixedInputs) =
        [4000] := by
    decide +kernel
  have fits : Irss.EndToEnd.display.Fits
      (Irss.EndToEnd.State.loaded Irss.EndToEnd.otherDest) (eventsOf .irss mixedInputs) := by
    constructor
    · rw [recorded]
      decide
    · rw [recorded]
      decide
  have entry : entryOf twoPrograms .irss = some Irss.EndToEnd.otherDest := rfl
  have starts : startState [] .irss Irss.EndToEnd.otherDest =
      some (Irss.EndToEnd.State.loaded Irss.EndToEnd.otherDest) := rfl
  have reported : Irss.EndToEnd.display ∈ reporters .irss := List.mem_singleton.mpr rfl
  exact ⟨running, runs, (latency_gauges_average runs mixedInputs reported entry starts fits).2,
    recorded⟩

end BpfAgent.Agent
