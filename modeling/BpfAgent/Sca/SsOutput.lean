import BpfAgent.Lib.Text
import BpfAgent.Lib.Word

/-!
# SCA: the sockets listed by `ss -xpH`

Discovery starts from the output of `ss`.  Every line is split at whitespace;
the owners of its socket are then searched for in the last column, which is
joined again since the names of processes may contain blanks.

A text is the list of its characters.
-/

namespace BpfAgent.Sca

/-- One established Unix stream socket. -/
structure UnixSockRec where
  pid : UInt32
  fd : UInt32
  inode : UInt64
  peerInode : UInt64
  path : Option String
  deriving DecidableEq

def parseU32 (text : List Char) : Option UInt32 :=
  (Text.parseUnsigned (2 ^ 32) text).map UInt32.ofNat

def parseU64 (text : List Char) : Option UInt64 :=
  (Text.parseUnsigned (2 ^ 64) text).map UInt64.ofNat

def pidMarker : List Char := ['p', 'i', 'd', '=']

def fdMarker : List Char := ['f', 'd', '=']

/-- One round of the scan: the next pid, the next fd behind it, and what follows.
The first surprise ends the scan. -/
def nextOwner (users : List Char) : Option ((UInt32 × UInt32) × List Char) := do
  let afterPid ← Text.afterFirst pidMarker users
  let pid ← parseU32 (afterPid.takeWhile Char.isDigit)
  let afterFd ← Text.afterFirst fdMarker afterPid
  let fd ← parseU32 (afterFd.takeWhile Char.isDigit)
  return ((pid, fd), afterFd)

theorem nextOwner_eq_some_iff {users rest : List Char} {owner : UInt32 × UInt32} :
    nextOwner users = some (owner, rest) ↔
      ∃ afterPid, Text.afterFirst pidMarker users = some afterPid ∧
        parseU32 (afterPid.takeWhile Char.isDigit) = some owner.1 ∧
        Text.afterFirst fdMarker afterPid = some rest ∧
        parseU32 (rest.takeWhile Char.isDigit) = some owner.2 := by
  simp only [nextOwner, Option.bind_eq_bind, Option.bind_eq_some_iff, Option.pure_def,
    Option.some.injEq]
  constructor
  · rintro ⟨afterPid, pidFound, pid, pidParsed, afterFd, fdFound, fd, fdParsed, same⟩
    cases same
    exact ⟨afterPid, pidFound, pidParsed, fdFound, fdParsed⟩
  · rintro ⟨afterPid, pidFound, pidParsed, fdFound, fdParsed⟩
    exact ⟨afterPid, pidFound, _, pidParsed, rest, fdFound, _, fdParsed, rfl⟩

theorem length_lt_of_nextOwner {users rest : List Char} {owner : UInt32 × UInt32}
    (found : nextOwner users = some (owner, rest)) : rest.length < users.length := by
  obtain ⟨afterPid, pidFound, -, fdFound, -⟩ := nextOwner_eq_some_iff.mp found
  exact Nat.lt_trans (Text.length_lt_of_afterFirst (by decide) fdFound)
    (Text.length_lt_of_afterFirst (by decide) pidFound)

/-- Parse the users:((...)) column into (pid, fd) pairs. -/
def parseSsUsers (users : List Char) : List (UInt32 × UInt32) :=
  match found : nextOwner users with
  | none => []
  | some (owner, rest) =>
      have _shorter := length_lt_of_nextOwner found
      owner :: parseSsUsers rest
  termination_by users.length

/-- The records of one line:
u_str ESTAB Recv-Q Send-Q <path|*> <inode> * <peer-inode> users:((...)) -/
def parseSsLine (line : List Char) : List UnixSockRec :=
  match Text.splitWhitespace line with
  | netid :: state :: _ :: _ :: path :: inode :: _ :: peerInode :: users :: more =>
      if netid = "u_str".toList ∧ state = "ESTAB".toList then
        match parseU64 inode, parseU64 peerInode with
        | some inode, some peerInode =>
            (parseSsUsers ([' '].intercalate (users :: more))).map fun (pid, fd) =>
              { pid, fd, inode, peerInode,
                path := if path = ['*'] then none else some (String.ofList path) }
        | _, _ => []
      else
        []
  | _ => []

def parseSsUnixStream (output : List Char) : List UnixSockRec :=
  (Text.lines output).flatMap parseSsLine

structure SsUser where
  name : String
  pid : UInt32
  fd : UInt32

namespace SsUser

def owner (user : SsUser) : UInt32 × UInt32 := (user.pid, user.fd)

def renderPair (user : SsUser) : List Char :=
  Nat.toDigits 10 user.pid.toNat ++ ',' :: (fdMarker ++ (Nat.toDigits 10 user.fd.toNat ++ [')']))

/-- One user, as in ("NAME",pid=123,fd=4). -/
def render (user : SsUser) : List Char :=
  '(' :: '"' :: (user.name.toList ++ '"' :: ',' :: (pidMarker ++ user.renderPair))

end SsUser

/-- The column, as in users:(("NAME",pid=123,fd=4),("NAME2",pid=456,fd=7)). -/
def renderUsers (users : List SsUser) : List Char :=
  ['u', 's', 'e', 'r', 's', ':', '('] ++ ([','].intercalate (users.map SsUser.render) ++ [')'])

theorem parseSsUsers_of_none {users : List Char} (ended : nextOwner users = none) :
    parseSsUsers users = [] := by
  rw [parseSsUsers]
  split
  next => rfl
  next owner rest found =>
    rw [ended] at found
    cases found

theorem parseSsUsers_of_some {users rest : List Char} {owner : UInt32 × UInt32}
    (found : nextOwner users = some (owner, rest)) :
    parseSsUsers users = owner :: parseSsUsers rest := by
  rw [parseSsUsers]
  split
  next ended =>
    rw [found] at ended
    cases ended
  next other tail scanned =>
    rw [found] at scanned
    cases scanned
    rfl

theorem parseU32_toDigits (number : UInt32) :
    parseU32 (Nat.toDigits 10 number.toNat) = some number := by
  rw [parseU32, Text.parseUnsigned_toDigits number.toNat_lt, Option.map_some,
    UInt32.ofNat_toNat]

theorem parseU64_toDigits (number : UInt64) :
    parseU64 (Nat.toDigits 10 number.toNat) = some number := by
  rw [parseU64, Text.parseUnsigned_toDigits number.toNat_lt, Option.map_some,
    UInt64.ofNat_toNat]

theorem not_infix_of_notMem {marker text : List Char} {character : Char}
    (inside : character ∈ marker) (outside : character ∉ text) : ¬marker <:+: text :=
  fun occurs => outside (occurs.subset inside)

theorem notMem_toDigits {character : Char} (other : character.isDigit = false) (number : Nat) :
    character ∉ Nat.toDigits 10 number := by
  intro member
  rw [Text.isDigit_toDigits member] at other
  cases other

theorem notMem_renderFd (user : SsUser) : 'p' ∉ Nat.toDigits 10 user.fd.toNat ++ [')'] := by
  simp [notMem_toDigits]

section Scan

variable {before : List Char} (user : SsUser) (rest : List Char)

/-- The scan stops at the first pid marker of the name, or else behind it. -/
theorem afterFirst_render (free : 'p' ∉ before) :
    Text.afterFirst pidMarker (before ++ (user.render ++ rest)) =
      ((Text.afterFirst pidMarker user.name.toList).map
        (· ++ '"' :: ',' :: (pidMarker ++ (user.renderPair ++ rest)))).or
        (some (user.renderPair ++ rest)) := by
  have absent : ¬pidMarker <:+: before := not_infix_of_notMem (by decide) free
  have nothing : ¬pidMarker <:+: [] := by decide
  have quoted : user.render ++ rest =
      '(' :: ([] ++ '"' :: (user.name.toList ++ '"' ::
        ([] ++ ',' :: (pidMarker ++ (user.renderPair ++ rest))))) := by
    simp [SsUser.render]
  rw [quoted, Text.afterFirst_append_cons_of_not_infix (by decide) (by decide) absent,
    Text.afterFirst_append_cons_of_not_infix (by decide) (by decide) nothing,
    Text.afterFirst_append_cons (by decide) (by decide),
    Text.afterFirst_append_cons_of_not_infix (by decide) (by decide) nothing,
    Text.afterFirst_append_self (by decide)]
  rfl

theorem nextOwner_render (free : 'p' ∉ before) (ordinary : ¬pidMarker <:+: user.name.toList) :
    nextOwner (before ++ (user.render ++ rest)) =
      some (user.owner, (Nat.toDigits 10 user.fd.toNat ++ [')']) ++ rest) := by
  have unnamed : Text.afterFirst pidMarker user.name.toList = none :=
    (Text.afterFirst_eq_none_iff (by decide)).mpr ordinary
  have noMark : 'f' ∉ Nat.toDigits 10 user.pid.toNat := notMem_toDigits rfl _
  have absent : ¬fdMarker <:+: Nat.toDigits 10 user.pid.toNat :=
    not_infix_of_notMem (by decide) noMark
  have pair : user.renderPair ++ rest =
      Nat.toDigits 10 user.pid.toNat ++ ',' ::
        (fdMarker ++ ((Nat.toDigits 10 user.fd.toNat ++ [')']) ++ rest)) := by
    simp [SsUser.renderPair]
  refine nextOwner_eq_some_iff.mpr ⟨user.renderPair ++ rest, ?_, ?_, ?_, ?_⟩
  · rw [afterFirst_render user rest free, unnamed]
    rfl
  · rw [pair, Text.takeWhile_toDigits _ (by decide)]
    exact parseU32_toDigits user.pid
  · rw [pair, Text.afterFirst_append_cons_of_not_infix (by decide) (by decide) absent,
      Text.afterFirst_append_self (by decide)]
  · rw [List.append_assoc, List.singleton_append, Text.takeWhile_toDigits _ (by decide)]
    exact parseU32_toDigits user.fd

end Scan

/-- The users after the first one, and the end of the column. -/
def renderMore (users : List SsUser) : List Char :=
  users.flatMap (fun user => ',' :: user.render) ++ [')']

theorem renderUsers_cons (user : SsUser) (users : List SsUser) :
    renderUsers (user :: users) =
      ['u', 's', 'e', 'r', 's', ':', '('] ++ (user.render ++ renderMore users) := by
  have tail : [','].intercalate ((user :: users).map SsUser.render) =
      user.render ++ users.flatMap (fun user => ',' :: user.render) := by
    induction users generalizing user with
    | nil => simp
    | cons next users inductionHypothesis =>
        rw [List.map_cons, List.map_cons, List.intercalate_cons_cons, ← List.map_cons,
          inductionHypothesis, List.append_assoc, List.flatMap_cons]
        rfl
  rw [renderUsers, tail, renderMore, List.append_assoc]

theorem parseSsUsers_renderMore {users : List SsUser}
    (ordinary : ∀ user ∈ users, ¬pidMarker <:+: user.name.toList) {before : List Char}
    (free : 'p' ∉ before) : parseSsUsers (before ++ renderMore users) = users.map SsUser.owner := by
  induction users generalizing before with
  | nil =>
      have absent : 'p' ∉ before ++ renderMore [] := by simp [free, renderMore]
      have ended : Text.afterFirst pidMarker (before ++ renderMore []) = none :=
        (Text.afterFirst_eq_none_iff (by decide)).mpr (not_infix_of_notMem (by decide) absent)
      apply parseSsUsers_of_none
      rw [nextOwner, ended]
      rfl
  | cons user users inductionHypothesis =>
      have shape : before ++ renderMore (user :: users) =
          (before ++ [',']) ++ (user.render ++ renderMore users) := by
        simp [renderMore]
      have freeNext : 'p' ∉ before ++ [','] := by simp [free]
      rw [shape, parseSsUsers_of_some
          (nextOwner_render user _ freeNext (ordinary user List.mem_cons_self)),
        inductionHypothesis (fun other member => ordinary other (List.mem_cons_of_mem _ member))
          (notMem_renderFd user)]
      rfl

/-- The scan stays in step with the users as long as no name has a pid marker. -/
theorem parseSsUsers_renderUsers {users : List SsUser}
    (ordinary : ∀ user ∈ users, ¬pidMarker <:+: user.name.toList) :
    parseSsUsers (renderUsers users) = users.map SsUser.owner := by
  cases users with
  | nil =>
      have free : 'p' ∉ ['u', 's', 'e', 'r', 's', ':', '('] := by decide
      exact parseSsUsers_renderMore ordinary free
  | cons user users =>
      rw [renderUsers_cons, parseSsUsers_of_some
          (nextOwner_render user _ (by decide) (ordinary user List.mem_cons_self)),
        parseSsUsers_renderMore (fun other member => ordinary other (List.mem_cons_of_mem _ member))
          (notMem_renderFd user)]
      rfl

/-- The owners found do not depend on the names, as long as these are allowed. -/
def NamesDoNotMatter (allowed : String → Prop) : Prop :=
  ∀ users others : List SsUser, (∀ user ∈ users, allowed user.name) →
    (∀ user ∈ others, allowed user.name) →
    users.map SsUser.owner = others.map SsUser.owner →
      parseSsUsers (renderUsers users) = parseSsUsers (renderUsers others)

/-- A pid marker in a name is taken for the one behind it, so that the number
following it is what is reported, if anything is. -/
theorem parseSsUsers_ne_of_forged {user : SsUser} {tail : List Char}
    (forged : Text.afterFirst pidMarker user.name.toList = some tail)
    (wrong : parseU32 (tail.takeWhile Char.isDigit) ≠ some user.pid) :
    parseSsUsers (renderUsers [user]) ≠ [user.owner] := by
  have first : Text.afterFirst pidMarker (renderUsers [user]) =
      some (tail ++ '"' :: ',' :: (pidMarker ++ (user.renderPair ++ renderMore []))) := by
    rw [renderUsers_cons, afterFirst_render user _ (by decide), forged]
    rfl
  cases next : nextOwner (renderUsers [user]) with
  | none =>
      rw [parseSsUsers_of_none next]
      exact (List.cons_ne_nil _ _).symm
  | some found =>
      obtain ⟨owner, rest⟩ := found
      obtain ⟨afterPid, pidFound, pidParsed, -⟩ := nextOwner_eq_some_iff.mp next
      rw [first, Option.some.injEq] at pidFound
      rw [← pidFound, Text.takeWhile_append_cons (by decide)] at pidParsed
      rw [parseSsUsers_of_some next]
      intro same
      have pid : owner.1 = user.pid := congrArg Prod.fst (List.cons.inj same).1
      exact wrong (pid ▸ pidParsed)

/-- Names matter as soon as one of them contains a pid marker, and only then. -/
theorem namesDoNotMatter_iff {allowed : String → Prop}
    (ordinary : ∃ name, allowed name ∧ ¬pidMarker <:+: name.toList) :
    NamesDoNotMatter allowed ↔ ∀ name, allowed name → ¬pidMarker <:+: name.toList := by
  constructor
  · intro independent name member occurs
    obtain ⟨plain, plainMember, plainFree⟩ := ordinary
    cases forged : Text.afterFirst pidMarker name.toList with
    | none => exact (Text.afterFirst_eq_none_iff (by decide)).mp forged occurs
    | some tail =>
        obtain ⟨pid, wrong⟩ :
            ∃ pid, parseU32 (tail.takeWhile Char.isDigit) ≠ some pid := by
          cases parseU32 (tail.takeWhile Char.isDigit) with
          | none => exact ⟨0, by simp⟩
          | some pid => exact ⟨pid + 1, by simp⟩
        have same := independent [⟨name, pid, 0⟩] [⟨plain, pid, 0⟩] (by simpa using member)
          (by simpa using plainMember) rfl
        have right : parseSsUsers (renderUsers [⟨plain, pid, 0⟩]) = [(pid, 0)] :=
          parseSsUsers_renderUsers (by simpa using plainFree)
        rw [right] at same
        exact parseSsUsers_ne_of_forged forged wrong same
  · intro free users others usersAllowed othersAllowed sameOwners
    rw [parseSsUsers_renderUsers fun user member => free _ (usersAllowed user member),
      parseSsUsers_renderUsers fun user member => free _ (othersAllowed user member), sameOwners]

theorem letters_do_not_matter :
    NamesDoNotMatter fun name => ∀ character ∈ name.toList, character.isAlpha = true := by
  refine (namesDoNotMatter_iff ⟨"", by simp, by decide⟩).mpr ?_
  intro name letters
  apply not_infix_of_notMem (show '=' ∈ pidMarker by decide)
  intro sign
  exact absurd (letters '=' sign) (by decide)

/-- A process called `pid=1,fd=2` makes process 1 an owner of its socket. -/
theorem names_without_quotes_matter :
    ¬NamesDoNotMatter fun name => '"' ∉ name.toList ∧ '\n' ∉ name.toList := by
  intro independent
  have same := independent [⟨"pid=1,fd=2", 5, 6⟩] [⟨"DATA_SOURCE", 5, 6⟩]
    (by decide) (by decide) rfl
  have forged : parseSsUsers (renderUsers [⟨"pid=1,fd=2", 5, 6⟩]) = [(1, 2), (5, 6)] := by
    decide +kernel
  have right : parseSsUsers (renderUsers [⟨"DATA_SOURCE", 5, 6⟩]) = [(5, 6)] := by
    decide +kernel
  rw [forged, right] at same
  cases same

end BpfAgent.Sca
