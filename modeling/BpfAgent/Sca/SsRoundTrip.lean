import BpfAgent.Sca.SsOutput

/-!
# SCA: reading back what `ss -xpH` lists

Whatever the spacing of the columns and whatever other lines stand between
them, every socket is read back with all its owners.
-/

namespace BpfAgent.Sca

/-- An established Unix stream socket as `ss` knows it. -/
structure SsSocket where
  recvQ : Nat
  sendQ : Nat
  path : Option String
  inode : UInt64
  peerInode : UInt64
  users : List SsUser
  pathField : ∀ name, path = some name → name ≠ "" ∧ name ≠ "*" ∧ Text.Solid name.toList
  names : ∀ user ∈ users, '\n' ∉ user.name.toList ∧ ¬pidMarker <:+: user.name.toList

/-- Whitespace in front of the first, between and behind the last of nine columns. -/
structure Spacing where
  lead : List Char
  gaps : Vector (List Char) 8
  trail : List Char
  blank : ∀ gap ∈ lead :: trail :: gaps.toList, Text.Blank gap ∧ '\n' ∉ gap
  apart : ∀ gap ∈ gaps.toList, gap ≠ []

namespace SsSocket

def columns (socket : SsSocket) : List (List Char) :=
  ["u_str".toList, "ESTAB".toList, Nat.toDigits 10 socket.recvQ, Nat.toDigits 10 socket.sendQ,
    socket.path.elim ['*'] String.toList, Nat.toDigits 10 socket.inode.toNat, ['*'],
    Nat.toDigits 10 socket.peerInode.toNat]

def render (socket : SsSocket) (spacing : Spacing) : List Char :=
  spacing.lead ++
    ((socket.columns.zip spacing.gaps.toList).flatMap (fun column => column.1 ++ column.2) ++
      (renderUsers socket.users ++ spacing.trail))

def records (socket : SsSocket) : List UnixSockRec :=
  socket.users.map fun user =>
    { pid := user.pid
      fd := user.fd
      inode := socket.inode
      peerInode := socket.peerInode
      path := socket.path }

end SsSocket

/-- Fewer than nine fields, or not an established stream socket. -/
def Ignored (line : List Char) : Prop :=
  (Text.splitWhitespace line).length < 9 ∨
    ¬["u_str".toList, "ESTAB".toList] <+: Text.splitWhitespace line

inductive SsLine where
  | socket (socket : SsSocket) (spacing : Spacing)
  | other (line : List Char) (single : '\n' ∉ line) (ignored : Ignored line)

namespace SsLine

def render : SsLine → List Char
  | .socket listed spacing => listed.render spacing
  | .other line _ _ => line

def records : SsLine → List UnixSockRec
  | .socket listed _ => listed.records
  | .other _ _ _ => []

end SsLine

def SsUser.collapsed (user : SsUser) : SsUser :=
  { user with name := String.ofList (Text.collapse user.name.toList) }

theorem solid_renderPair (user : SsUser) : Text.Solid user.renderPair := by
  have comma : Text.Solid (',' :: fdMarker) := by decide
  have closing : Text.Solid [')'] := by decide
  have pair : user.renderPair = Nat.toDigits 10 user.pid.toNat ++
      ((',' :: fdMarker) ++ (Nat.toDigits 10 user.fd.toNat ++ [')'])) := rfl
  rw [pair]
  exact Text.solid_append (Text.solid_toDigits _)
    (Text.solid_append comma (Text.solid_append (Text.solid_toDigits _) closing))

theorem collapse_render (user : SsUser) (rest : List Char) :
    Text.collapse (user.render ++ rest) = user.collapsed.render ++ Text.collapse rest := by
  have opening : Text.Solid ['(', '"'] := by decide
  have comma : Text.Solid (',' :: pidMarker) := by decide
  have owner : Text.Solid ((',' :: pidMarker) ++ user.renderPair) :=
    Text.solid_append comma (solid_renderPair user)
  have shape : user.render ++ rest =
      ['(', '"'] ++ (user.name.toList ++ '"' ::
        (((',' :: pidMarker) ++ user.renderPair) ++ rest)) := by
    simp [SsUser.render]
  rw [shape, Text.collapse_solid_append opening, Text.collapse_append_cons (by decide),
    Text.collapse_solid_append owner]
  simp [SsUser.render, SsUser.collapsed, SsUser.renderPair]

theorem collapse_renderMore (users : List SsUser) :
    Text.collapse (renderMore users) = renderMore (users.map SsUser.collapsed) := by
  induction users with
  | nil => rfl
  | cons user users inductionHypothesis =>
      have shape : ∀ (user : SsUser) users,
          renderMore (user :: users) = ',' :: (user.render ++ renderMore users) := by
        simp [renderMore]
      rw [shape, List.map_cons, shape, Text.collapse_cons_solid (by decide), collapse_render,
        inductionHypothesis]

theorem collapse_renderUsers (users : List SsUser) :
    Text.collapse (renderUsers users) = renderUsers (users.map SsUser.collapsed) := by
  cases users with
  | nil => rfl
  | cons user users =>
      have opening : Text.Solid ['u', 's', 'e', 'r', 's', ':', '('] := by decide
      rw [renderUsers_cons, Text.collapse_solid_append opening, collapse_render,
        collapse_renderMore, List.map_cons, renderUsers_cons]

/-- Splitting the column at whitespace and joining it again loses no owner. -/
theorem parseSsUsers_joined {users : List SsUser}
    (ordinary : ∀ user ∈ users, ¬pidMarker <:+: user.name.toList) :
    parseSsUsers ([' '].intercalate (Text.splitWhitespace (renderUsers users))) =
      users.map SsUser.owner := by
  have starts : Text.startsBlank (renderUsers users) = false := rfl
  have ends : ∀ last ∈ (renderUsers users).getLast?, Text.isWhitespace last = false := by
    intro last member
    rw [renderUsers, ← List.append_assoc, List.getLast?_concat, Option.mem_some] at member
    rw [← member]
    rfl
  have collapsed : ∀ user ∈ users.map SsUser.collapsed, ¬pidMarker <:+: user.name.toList := by
    intro user member
    obtain ⟨original, listed, rfl⟩ := List.mem_map.mp member
    rw [SsUser.collapsed, String.toList_ofList]
    intro occurs
    exact ordinary original listed (Text.infix_of_infix_collapse (by decide) (by decide) occurs)
  rw [Text.intercalate_splitWhitespace starts ends, collapse_renderUsers,
    parseSsUsers_renderUsers collapsed, List.map_map]
  rfl

theorem parseSsLine_of_ignored {line : List Char} (ignored : Ignored line) :
    parseSsLine line = [] := by
  unfold parseSsLine
  split
  next netid state recvQ sendQ path inode star peerInode users more fields =>
    rw [Ignored, fields] at ignored
    have long : ¬(netid :: state :: recvQ :: sendQ :: path :: inode :: star :: peerInode ::
        users :: more).length < 9 := by
      simp
    have different := ignored.resolve_left long
    rw [if_neg]
    rintro ⟨rfl, rfl⟩
    exact different ⟨_, rfl⟩
  next => rfl

section Socket

variable (socket : SsSocket) (spacing : Spacing)

theorem columns_solid : ∀ column ∈ socket.columns, Text.Solid column ∧ column ≠ [] := by
  intro column member
  simp only [SsSocket.columns, List.mem_cons, List.not_mem_nil, or_false] at member
  rcases member with rfl | rfl | rfl | rfl | rfl | rfl | rfl | rfl
  · decide
  · decide
  · exact ⟨Text.solid_toDigits _, Nat.toDigits_ne_nil⟩
  · exact ⟨Text.solid_toDigits _, Nat.toDigits_ne_nil⟩
  · cases path : socket.path with
    | none => decide
    | some name =>
        obtain ⟨nonempty, -, solid⟩ := socket.pathField name path
        refine ⟨solid, ?_⟩
        simpa using nonempty
  · exact ⟨Text.solid_toDigits _, Nat.toDigits_ne_nil⟩
  · decide
  · exact ⟨Text.solid_toDigits _, Nat.toDigits_ne_nil⟩

theorem splitWhitespace_render :
    Text.splitWhitespace (socket.render spacing) =
      socket.columns ++ Text.splitWhitespace (renderUsers socket.users) := by
  have columns : (socket.columns.zip spacing.gaps.toList).map Prod.fst = socket.columns := by
    apply List.map_fst_zip
    simp [SsSocket.columns]
  have leadBlank := (spacing.blank spacing.lead (by simp)).1
  have trailBlank := (spacing.blank spacing.trail (by simp)).1
  rw [SsSocket.render, Text.splitWhitespace_blank_append leadBlank, Text.splitWhitespace_columns,
    columns, Text.splitWhitespace_append_blank trailBlank]
  · intro column member
    exact columns_solid socket column.1 (List.of_mem_zip member).1
  · intro column member
    have gap := (List.of_mem_zip member).2
    exact ⟨(spacing.blank column.2 (by simp [gap])).1, spacing.apart column.2 gap⟩

/-- The star of a socket without a path is told apart from every path. -/
theorem path_read_back :
    (if socket.path.elim ['*'] String.toList = ['*'] then none
      else some (String.ofList (socket.path.elim ['*'] String.toList))) = socket.path := by
  cases path : socket.path with
  | none => rfl
  | some name =>
      have noStar : name.toList ≠ ['*'] := by
        intro star
        exact (socket.pathField name path).2.1 (String.toList_inj.mp star)
      rw [Option.elim_some, if_neg noStar, String.ofList_toList]

theorem parseSsLine_render : parseSsLine (socket.render spacing) = socket.records := by
  obtain ⟨first, more, fields⟩ : ∃ first more,
      Text.splitWhitespace (renderUsers socket.users) = first :: more :=
    List.exists_cons_of_ne_nil
      (Text.splitWhitespace_ne_nil (show Text.isWhitespace 'u' = false from rfl)
        List.mem_cons_self)
  have owners : parseSsUsers ([' '].intercalate (first :: more)) =
      socket.users.map SsUser.owner := by
    rw [← fields]
    exact parseSsUsers_joined fun user member => (socket.names user member).2
  rw [parseSsLine, splitWhitespace_render, fields]
  simp only [SsSocket.columns, List.cons_append, List.nil_append, parseU64_toDigits, and_self,
    if_true, owners, path_read_back, List.map_map]
  rfl

end Socket

theorem newline_notMem_of_solid {text : List Char} (solid : Text.Solid text) : '\n' ∉ text := by
  intro member
  exact absurd (solid '\n' member) (by decide)

theorem newline_notMem_render {user : SsUser} (name : '\n' ∉ user.name.toList) :
    '\n' ∉ user.render := by
  have pair := newline_notMem_of_solid (solid_renderPair user)
  simp [SsUser.render, pidMarker, name, pair]

theorem newline_notMem_renderUsers {users : List SsUser}
    (names : ∀ user ∈ users, '\n' ∉ user.name.toList) : '\n' ∉ renderUsers users := by
  have each : ∀ user ∈ users, '\n' ∉ user.render :=
    fun user member => newline_notMem_render (names user member)
  cases users with
  | nil => decide
  | cons user users =>
      rw [renderUsers_cons]
      simpa [renderMore] using each

theorem newline_notMem_socket (socket : SsSocket) (spacing : Spacing) :
    '\n' ∉ socket.render spacing := by
  have users := newline_notMem_renderUsers fun user member => (socket.names user member).1
  have lead := (spacing.blank spacing.lead (by simp)).2
  have trail := (spacing.blank spacing.trail (by simp)).2
  have columns : '\n' ∉ (socket.columns.zip spacing.gaps.toList).flatMap
      fun column => column.1 ++ column.2 := by
    intro member
    obtain ⟨column, listed, inside⟩ := List.mem_flatMap.mp member
    obtain ⟨field, gap⟩ := List.of_mem_zip listed
    rcases List.mem_append.mp inside with inField | inGap
    · exact newline_notMem_of_solid (columns_solid socket column.1 field).1 inField
    · exact (spacing.blank column.2 (by simp [gap])).2 inGap
  simp [SsSocket.render, users, lead, trail, columns]

/-- Every socket that is listed is read back with all its owners, in order, and
nothing else is. -/
theorem parseSsUnixStream_render (listing : List SsLine) :
    parseSsUnixStream (['\n'].intercalate (listing.map SsLine.render)) =
      listing.flatMap SsLine.records := by
  have single : ∀ line ∈ listing.map SsLine.render, '\n' ∉ line := by
    intro line member
    obtain ⟨entry, listed, rfl⟩ := List.mem_map.mp member
    cases entry with
    | socket socket spacing => exact newline_notMem_socket socket spacing
    | other line single ignored => exact single
  have stripped : ∀ line, parseSsLine (Text.stripCarriageReturn line) = parseSsLine line := by
    intro line
    rw [parseSsLine, Text.splitWhitespace_stripCarriageReturn, parseSsLine]
  have each : ∀ entry : SsLine, parseSsLine entry.render = entry.records := by
    intro entry
    cases entry with
    | socket socket spacing => exact parseSsLine_render socket spacing
    | other line single ignored => exact parseSsLine_of_ignored ignored
  rw [parseSsUnixStream, Text.flatMap_lines_intercalate rfl stripped single, List.flatMap_map]
  exact List.flatMap_congr fun entry _ => each entry

section Listing

/-- A socket two processes share; the name of the first has a blank and a marker in it. -/
def sharedSocket : SsSocket where
  recvQ := 0
  sendQ := 12
  path := some "/run/hop1.sock"
  inode := 11
  peerInode := 12
  users := [⟨"a  fd=", 3, 4⟩, ⟨"hop1", 5, 6⟩]
  pathField := by
    intro name named
    rw [← Option.some.inj named]
    decide +kernel
  names := by decide +kernel

def lonelySocket : SsSocket where
  recvQ := 3
  sendQ := 0
  path := none
  inode := 12
  peerInode := 11
  users := [⟨"hop2", 7, 8⟩]
  pathField := nofun
  names := by decide +kernel

def oddSpacing : Spacing where
  lead := [' ', '\t']
  gaps := #v[[' '], [' ', ' '], ['\t'], [' '], [' ', '\t'], [' '], [' ', ' ', ' '], [' ']]
  trail := [' ', '\r']
  blank := by decide +kernel
  apart := by decide +kernel

def plainSpacing : Spacing where
  lead := []
  gaps := Vector.replicate 8 [' ']
  trail := []
  blank := by decide +kernel
  apart := by decide +kernel

def mixedListing : List SsLine :=
  [.socket sharedSocket oddSpacing,
    .other "u_str UNCONN 0 0 * 14 * 0 users:((\"x\",pid=9,fd=9))".toList (by decide +kernel)
      (.inr (by decide +kernel)),
    .socket lonelySocket plainSpacing]

def mixedOutput : String :=
  " \tu_str ESTAB  0\t12 /run/hop1.sock \t11 *   12 " ++
    "users:((\"a  fd=\",pid=3,fd=4),(\"hop1\",pid=5,fd=6)) \r\n" ++
    "u_str UNCONN 0 0 * 14 * 0 users:((\"x\",pid=9,fd=9))\n" ++
    "u_str ESTAB 3 0 * 12 * 11 users:((\"hop2\",pid=7,fd=8))"

theorem parseSsUnixStream_render_mixedListing :
    parseSsUnixStream mixedOutput.toList =
      [⟨3, 4, 11, 12, some "/run/hop1.sock"⟩, ⟨5, 6, 11, 12, some "/run/hop1.sock"⟩,
        ⟨7, 8, 12, 11, none⟩] := by
  have rendered : ['\n'].intercalate (mixedListing.map SsLine.render) = mixedOutput.toList := by
    decide +kernel
  rw [← rendered]
  exact parseSsUnixStream_render mixedListing

end Listing

end BpfAgent.Sca
