import BpfAgent.Iflat.EndToEnd
import BpfAgent.Reporting
import BpfAgent.Settings

/-!
# IFLAT: settings

Two interfaces are required.  A new program is on, and `configure` turns it off
when one of them is missing; a wrong name is an error of the whole agent.
-/

namespace BpfAgent.Iflat

structure IflatProgram extends Program where
  rxIface : String
  txIface : String

def IflatProgram.new : IflatProgram := { Program.new with rxIface := "", txIface := "" }

def parseIfaceSetting (config : ProgramConfig) (key : String) : Except String (Option String) :=
  parseIface "iflat" config key

def configure (program : IflatProgram) (config : ProgramConfig) : Except String IflatProgram := do
  let rxIface ← parseIfaceSetting config "rx_iface"
  let txIface ← parseIfaceSetting config "tx_iface"
  match rxIface, txIface with
  | some rx, some tx => return { program with rxIface := rx, txIface := tx }
  | _, _ => return { program with enabled := false }

/-- The interfaces the hooks are attached to. -/
def load (program : IflatProgram) : Option (String × String) :=
  if program.enabled then some (program.rxIface, program.txIface) else none

def Named (config : ProgramConfig) (rx tx : String) : Prop :=
  (setting config "rx_iface" = some (.string rx) ∧ IfaceName rx) ∧
    setting config "tx_iface" = some (.string tx) ∧ IfaceName tx

theorem configure_succeeds_iff {program : IflatProgram} {config : ProgramConfig} :
    (∃ next, configure program config = .ok next) ↔
      AcceptsIface config "rx_iface" ∧ AcceptsIface config "tx_iface" := by
  simp only [configure, bind_eq_ok_iff, ← parseIface_succeeds_iff "iflat"]
  constructor
  · rintro ⟨next, rx, first, tx, second, -⟩
    exact ⟨⟨rx, first⟩, tx, second⟩
  · rintro ⟨⟨rx, first⟩, tx, second⟩
    cases rx with
    | none => exact ⟨_, none, first, tx, second, rfl⟩
    | some rx =>
        cases tx with
        | none => exact ⟨_, some rx, first, none, second, rfl⟩
        | some tx => exact ⟨_, some rx, first, some tx, second, rfl⟩

/-- A new program attaches its hooks exactly if both interfaces are named, and
to these. -/
theorem load_of_configured {config : ProgramConfig} {program : IflatProgram}
    (configured : configure .new config = .ok program) (rx tx : String) :
    load program = some (rx, tx) ↔ Named config rx tx := by
  simp only [configure, bind_eq_ok_iff] at configured
  obtain ⟨rxIface, first, txIface, second, configured⟩ := configured
  have none_of : ∀ {key}, parseIfaceSetting config key = .ok none →
      ∀ name, setting config key ≠ some (.string name) := by
    intro key missing name found
    rw [parseIface_eq_ok_none_iff.mp missing] at found
    cases found
  cases rxIface with
  | none =>
      cases configured
      refine iff_of_false (by simp [load]) ?_
      exact fun named => none_of first _ named.1.1
  | some ingress =>
      cases txIface with
      | none =>
          cases configured
          refine iff_of_false (by simp [load]) ?_
          exact fun named => none_of second _ named.2.1
      | some egress =>
          cases configured
          obtain ⟨someRx, validRx⟩ := parseIface_eq_ok_some_iff.mp first
          obtain ⟨someTx, validTx⟩ := parseIface_eq_ok_some_iff.mp second
          simp only [load, IflatProgram.new, Program.new, if_true, Option.some.injEq,
            Prod.mk.injEq]
          constructor
          · rintro ⟨rfl, rfl⟩
            exact ⟨⟨someRx, validRx⟩, someTx, validTx⟩
          · rintro ⟨⟨sameRx, -⟩, sameTx, -⟩
            rw [someRx] at sameRx
            rw [someTx] at sameTx
            cases sameRx
            cases sameTx
            exact ⟨rfl, rfl⟩

def display : Reporter State Event where
  step := step
  sample := sample
  isTick event := event.hook = .tick
  accumulator state := state.maps.latency
  baseline state := state.program.baseline
  gauge state := state.program.avgLatencyUs
  live state := state.program.enabled = true
  adds state event := step_latency state event
  silent state event tick := by simp [sample, tick]
  stays state event live := by rw [step_enabled, live]
  quiet state event quiet := by rw [step_program quiet]
  shows state event live tick := (step_tick event tick live).2.1
  rebases state event live tick := (step_tick event tick live).2.2

theorem fresh_of_configured {config : ProgramConfig} {program : IflatProgram}
    (configured : configure .new config = .ok program) {ifaces : String × String}
    (attaches : load program = some ifaces) :
    program.toProgram = Program.new := by
  simp only [configure, bind_eq_ok_iff] at configured
  obtain ⟨rxIface, -, txIface, -, configured⟩ := configured
  have off : ∀ {disabled : IflatProgram}, disabled.enabled = false →
      (Except.ok disabled : Except String IflatProgram) = .ok program → False := by
    rintro disabled switch same
    cases same
    rw [load, switch] at attaches
    cases attaches
  split at configured
  next =>
    cases configured
    rfl
  next => exact (off rfl configured).elim

end BpfAgent.Iflat
