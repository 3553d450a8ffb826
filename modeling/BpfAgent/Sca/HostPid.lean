import BpfAgent.Sca.SsOutput

/-!
# SCA: who owns a socket

`ss` reports process ids of the agent's own namespace, and the eBPF program
sees those of the host.  The status file of a process lists its ids from the
host's namespace inwards, so that the first one is the host's.
-/

namespace BpfAgent.Sca

def nspidMarker : List Char := ['N', 'S', 'p', 'i', 'd', ':']

/-- The host's id of a process, from the text of its status file. -/
def parseNspid (status : List Char) : Option UInt32 := do
  let line ← (Text.lines status).find? fun line => nspidMarker.isPrefixOf line
  let field ← (Text.splitWhitespace (line.drop nspidMarker.length)).head?
  parseU32 field

/-- What can be read of the processes. -/
structure Proc where
  status : UInt32 → Option (List Char)
  comm : UInt32 → Option (List Char)

def toHostPid (proc : Proc) (pid : UInt32) : UInt32 :=
  ((proc.status pid).bind parseNspid).getD pid

/-- Whether the owner of a socket has the expected name.  One that is gone is
accepted. -/
def commMatches (proc : Proc) (pid : UInt32) (expected : String) : Bool :=
  match proc.comm pid with
  | none => true
  | some comm => Text.trim comm == expected.toList

/-- The ids of a process, from the host's namespace to its own. -/
def nspidLine (hostPid : UInt32) (inner : List UInt32) : List Char :=
  nspidMarker ++ (hostPid :: inner).flatMap fun pid => '\t' :: Nat.toDigits 10 pid.toNat

def renderStatus (lines : List (List Char)) : List Char := lines.flatMap (· ++ ['\n'])

def OtherField (line : List Char) : Prop := '\n' ∉ line ∧ ¬nspidMarker <+: line

section Status

variable {hostPid : UInt32} {inner : List UInt32}

theorem mem_nspidLine {character : Char} (member : character ∈ nspidLine hostPid inner) :
    character ∈ nspidMarker ∨ character = '\t' ∨ character.isDigit = true := by
  rcases List.mem_append.mp member with marker | ids
  · exact .inl marker
  · obtain ⟨pid, -, inside⟩ := List.mem_flatMap.mp ids
    rcases List.mem_cons.mp inside with tab | digit
    · exact .inr (.inl tab)
    · exact .inr (.inr (Text.isDigit_toDigits digit))

theorem notMem_nspidLine {character : Char} (marker : character ∉ nspidMarker)
    (tab : character ≠ '\t') (digit : character.isDigit = false) :
    character ∉ nspidLine hostPid inner := by
  intro member
  rcases mem_nspidLine member with inside | same | isDigit
  · exact marker inside
  · exact tab same
  · rw [digit] at isDigit
    cases isDigit

theorem stripCarriageReturn_of_notMem {line : List Char} (absent : '\r' ∉ line) :
    Text.stripCarriageReturn line = line := by
  apply if_neg
  intro last
  exact absent (List.mem_of_getLast? last)

theorem stripCarriageReturn_initial (line : List Char) : Text.stripCarriageReturn line <+: line := by
  unfold Text.stripCarriageReturn
  split
  · exact List.dropLast_prefix line
  · exact List.prefix_rfl

theorem head_nspidLine :
    (Text.splitWhitespace ((nspidLine hostPid inner).drop nspidMarker.length)).head? =
      some (Nat.toDigits 10 hostPid.toNat) := by
  have solid := Text.solid_toDigits hostPid.toNat
  have nonempty : Nat.toDigits 10 hostPid.toNat ≠ [] := Nat.toDigits_ne_nil
  rw [nspidLine, List.drop_left, List.flatMap_cons, List.cons_append,
    Text.splitWhitespace_cons_blank rfl]
  rw [Text.splitWhitespace_solid_append solid nonempty]
  · rfl
  · cases inner with
    | nil => exact .inl rfl
    | cons pid inner => exact .inr rfl

theorem lines_renderStatus_cons {line : List Char} (single : '\n' ∉ line)
    (rest : List (List Char)) :
    Text.lines (renderStatus (line :: rest)) =
      Text.stripCarriageReturn line :: Text.lines (renderStatus rest) := by
  rw [renderStatus, List.flatMap_cons, List.append_assoc]
  exact Text.lines_append_cons single _

/-- The first id of the field is found behind any other fields. -/
theorem parseNspid_renderStatus {before : List (List Char)} (after : List (List Char))
    (others : ∀ line ∈ before, OtherField line) :
    parseNspid (renderStatus (before ++ nspidLine hostPid inner :: after)) = some hostPid := by
  have found : (Text.lines (renderStatus (before ++ nspidLine hostPid inner :: after))).find?
      (fun line => nspidMarker.isPrefixOf line) = some (nspidLine hostPid inner) := by
    induction before with
    | nil =>
        have whole : Text.stripCarriageReturn (nspidLine hostPid inner) =
            nspidLine hostPid inner :=
          stripCarriageReturn_of_notMem (notMem_nspidLine (by decide) (by decide) (by decide))
        rw [List.nil_append, lines_renderStatus_cons
          (notMem_nspidLine (by decide) (by decide) (by decide)), whole]
        apply List.find?_cons_of_pos
        exact List.isPrefixOf_iff_prefix.mpr (List.prefix_append _ _)
    | cons line before inductionHypothesis =>
        obtain ⟨single, other⟩ := others line List.mem_cons_self
        rw [List.cons_append, lines_renderStatus_cons single, List.find?_cons_of_neg]
        · exact inductionHypothesis fun later member => others later (List.mem_cons_of_mem _ member)
        · intro starts
          exact other ((List.isPrefixOf_iff_prefix.mp starts).trans
            (stripCarriageReturn_initial line))
  rw [parseNspid, found, Option.bind_eq_bind, Option.bind_some, head_nspidLine]
  exact parseU32_toDigits hostPid

end Status

/-- A process of the agent's namespace, with the files that the kernel shows. -/
structure Runs (proc : Proc) (pid hostPid : UInt32) (name : String) : Prop where
  status : ∃ before inner after, (∀ line ∈ before, OtherField line) ∧
    proc.status pid = some (renderStatus (before ++ nspidLine hostPid inner :: after))
  comm : proc.comm pid = some (name.toList ++ ['\n'])

section Runs

variable {proc : Proc} {pid hostPid : UInt32} {name : String} (runs : Runs proc pid hostPid name)

include runs

theorem Runs.toHostPid : toHostPid proc pid = hostPid := by
  obtain ⟨before, inner, after, others, status⟩ := runs.status
  rw [Sca.toHostPid, status, Option.bind_some, parseNspid_renderStatus after others,
    Option.getD_some]

theorem Runs.commMatches (solid : Text.Solid name.toList) : commMatches proc pid name = true := by
  rw [Sca.commMatches, runs.comm]
  exact beq_iff_eq.mpr (Text.trim_append_blank rfl solid)

end Runs

end BpfAgent.Sca
