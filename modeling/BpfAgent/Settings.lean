import BpfAgent.App
import BpfAgent.Lib.Word

/-!
# Settings of a program

An entry of the configuration file may carry a table of settings.  The programs
read strings and integers from it, each under a key of its own; a setting that
is missing, of another type or out of range gives way to a default.  Names of
interfaces are the exception: a wrong one is an error.

The warnings about values that are not used are left out.
-/

namespace BpfAgent

/-- A TOML value.  Of the types no program asks for, only what an error message
prints of the value is kept. -/
inductive Value where
  | string (text : String)
  | integer (value : Int64)
  | other (debug : String)
  deriving DecidableEq

def Value.asStr : Value → Option String
  | .string text => some text
  | _ => none

def Value.asInteger : Value → Option Int64
  | .integer value => some value
  | _ => none

abbrev Settings := Table String Value

abbrev ProgramConfig := App.EbpfProgramConfig Settings

def setting (config : ProgramConfig) (key : String) : Option Value :=
  config.settings.bind fun settings => settings.lookup key

def parseStringSetting (config : ProgramConfig) (key : String) : Option String :=
  (setting config key).bind Value.asStr

/-- An integer, if `convert` takes it. -/
def parseIntSetting {Number : Type} (config : ProgramConfig) (key : String) (default : Number)
    (convert : Int64 → Option Number) : Number :=
  match (setting config key).bind Value.asInteger with
  | none => default
  | some value => (convert value).getD default

/-- The longest name of an interface, in bytes. -/
def maxIfaceLen : Nat := 15

def IfaceName (name : String) : Prop := name ≠ "" ∧ name.utf8ByteSize ≤ maxIfaceLen

instance (name : String) : Decidable (IfaceName name) :=
  inferInstanceAs (Decidable (name ≠ "" ∧ name.utf8ByteSize ≤ maxIfaceLen))

/-- The name of an interface, for the program whose errors it names. -/
def parseIface (program : String) (config : ProgramConfig) (key : String) :
    Except String (Option String) :=
  let invalid (shown reason : String) : Except String (Option String) :=
    .error ("invalid " ++ program ++ " " ++ key ++ " setting '" ++ shown ++ "': " ++ reason)
  match setting config key with
  | none => .ok none
  | some (.string name) =>
      if name = "" ∨ maxIfaceLen < name.utf8ByteSize then
        invalid name "not a valid interface name"
      else
        .ok (some name)
  | some (.integer value) => invalid ("Integer(" ++ toString value ++ ")") "not a string"
  | some (.other debug) => invalid debug "not a string"

theorem bind_eq_ok_iff {Error First Second : Type} {action : Except Error First}
    {rest : First → Except Error Second} {result : Second} :
    (action >>= rest) = .ok result ↔ ∃ value, action = .ok value ∧ rest value = .ok result := by
  cases action with
  | error failure =>
      refine iff_of_false (fun impossible => nomatch impossible) ?_
      rintro ⟨_, impossible, -⟩
      cases impossible
  | ok value =>
      constructor
      · intro continued
        exact ⟨value, rfl, continued⟩
      · rintro ⟨_, same, continued⟩
        cases same
        exact continued

section Read

variable {config : ProgramConfig} {key : String}

theorem parseStringSetting_eq_some_iff {text : String} :
    parseStringSetting config key = some text ↔ setting config key = some (.string text) := by
  unfold parseStringSetting
  cases setting config key with
  | none => simp
  | some value => cases value <;> simp [Value.asStr]

theorem parseIntSetting_eq_iff {Number : Type} {default number : Number}
    {convert : Int64 → Option Number} :
    parseIntSetting config key default convert = number ↔
      (∃ value, setting config key = some (.integer value) ∧ convert value = some number) ∨
        number = default ∧
          ∀ value, setting config key = some (.integer value) → convert value = none := by
  unfold parseIntSetting
  cases setting config key with
  | none => simp [eq_comm]
  | some value =>
      cases value with
      | string text => simp [Value.asInteger, eq_comm]
      | other debug => simp [Value.asInteger, eq_comm]
      | integer value =>
          cases converted : convert value with
          | none => simp [Value.asInteger, converted, eq_comm]
          | some result => simp [Value.asInteger, converted]

/-- The integer that is set if it is one of those `allowed`, else the default. -/
def Chosen (config : ProgramConfig) (key : String) (default : Int) (allowed : Int → Prop)
    (number : Int) : Prop :=
  allowed number ∧
      (∃ value, setting config key = some (.integer value) ∧ value.toInt = number) ∨
    number = default ∧
      ∀ value, setting config key = some (.integer value) → ¬allowed value.toInt

/-- A setting whose conversion takes exactly the integers that are `allowed`. -/
theorem parseIntSetting_chosen {Number : Type} {default : Number}
    {convert : Int64 → Option Number} {allowed : Int → Prop} (toInt : Number → Int)
    (taken : ∀ value number, convert value = some number → toInt number = value.toInt)
    (total : ∀ value, (∃ number, convert value = some number) ↔ allowed value.toInt) :
    Chosen config key (toInt default) allowed
      (toInt (parseIntSetting config key default convert)) := by
  rcases parseIntSetting_eq_iff.mp (Eq.refl (parseIntSetting config key default convert)) with
    ⟨value, found, converted⟩ | ⟨untouched, refused⟩
  · have same := taken value _ converted
    exact .inl ⟨same ▸ (total value).mp ⟨_, converted⟩, value, found, same.symm⟩
  · refine .inr ⟨by rw [untouched], ?_⟩
    intro value found inside
    obtain ⟨number, converted⟩ := (total value).mpr inside
    rw [refused value found] at converted
    cases converted

theorem Chosen.unique {default first second : Int} {allowed : Int → Prop}
    (one : Chosen config key default allowed first)
    (other : Chosen config key default allowed second) : first = second := by
  rcases one with ⟨inside, value, found, rfl⟩ | ⟨rfl, refused⟩
  · rcases other with ⟨-, _, same, rfl⟩ | ⟨-, refused⟩
    · cases found.symm.trans same
      rfl
    · exact absurd inside (refused value found)
  · rcases other with ⟨inside, value, found, rfl⟩ | ⟨rfl, -⟩
    · exact absurd inside (refused value found)
    · rfl

theorem parseIface_eq_ok_none_iff {program : String} :
    parseIface program config key = .ok none ↔ setting config key = none := by
  unfold parseIface
  cases setting config key with
  | none => simp
  | some value =>
      cases value with
      | string name =>
          dsimp only
          split <;> simp
      | integer value => simp
      | other debug => simp

theorem parseIface_eq_ok_some_iff {program name : String} :
    parseIface program config key = .ok (some name) ↔
      setting config key = some (.string name) ∧ IfaceName name := by
  unfold parseIface
  cases setting config key with
  | none => simp
  | some value =>
      cases value with
      | integer value => simp
      | other debug => simp
      | string text =>
          have valid : IfaceName text ↔ ¬(text = "" ∨ maxIfaceLen < text.utf8ByteSize) := by
            rw [IfaceName, not_or, Nat.not_lt]
          dsimp only
          split
          next wrong =>
            refine iff_of_false (by simp) ?_
            rintro ⟨same, right⟩
            cases same
            exact valid.mp right wrong
          next right =>
            simp only [Except.ok.injEq, Option.some.injEq, Value.string.injEq]
            constructor
            · rintro rfl
              exact ⟨rfl, valid.mpr right⟩
            · exact fun same => same.1

/-- The setting is missing or names an interface. -/
def AcceptsIface (config : ProgramConfig) (key : String) : Prop :=
  ∀ value, setting config key = some value → ∃ name, value = .string name ∧ IfaceName name

theorem parseIface_succeeds_iff (program : String) :
    (∃ iface, parseIface program config key = .ok iface) ↔ AcceptsIface config key := by
  constructor
  · rintro ⟨iface, parsed⟩ value found
    cases iface with
    | none =>
        rw [parseIface_eq_ok_none_iff.mp parsed] at found
        cases found
    | some name =>
        obtain ⟨same, valid⟩ := parseIface_eq_ok_some_iff.mp parsed
        rw [same] at found
        cases found
        exact ⟨name, rfl, valid⟩
  · intro accepts
    cases found : setting config key with
    | none => exact ⟨none, parseIface_eq_ok_none_iff.mpr found⟩
    | some value =>
        obtain ⟨name, rfl, valid⟩ := accepts value found
        exact ⟨some name, parseIface_eq_ok_some_iff.mpr ⟨found, valid⟩⟩

end Read

end BpfAgent
