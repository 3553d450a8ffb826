import BpfAgent.Lib.Table
import BpfAgent.Sca.Discovery
import BpfAgent.Sca.SsOutput

/-!
# SCA: which sockets belong to which hop

The accepted socket of a hop's receiver carries the path of the hop.  The
connected socket of its sender has no path; it is found through its peer, the
accepted socket.  Both count only if their owner has the expected name.

The check of the name and the translation of the process id read `/proc` and
are parameters.
-/

namespace BpfAgent.Sca

/-- Inode to path, to resolve the peer of sockets without a path. -/
def pathsByInode (sockets : List UnixSockRec) : Table UInt64 String :=
  Table.collect (sockets.filterMap fun sock => sock.path.map fun path => (sock.inode, path))

/-- Role 0 is the receiving end of the hop on `path`, role 1 the sending end. -/
def endpointRole (sock : UnixSockRec) (path : String) (pathByInode : Table UInt64 String) :
    Option UInt32 :=
  if sock.path = some path then
    some 0
  else if sock.path = none ∧ pathByInode.lookup sock.peerInode = some path then
    some 1
  else
    none

section Discovery

variable (commMatches : UInt32 → String → Bool) (toHostPid : UInt32 → UInt32)

/-- What one record contributes to one hop. -/
def discoverEndpoint (pathByInode : Table UInt64 String) (hopIndex : Nat)
    (hop : String × String × String) (sock : UnixSockRec) : Option DiscoveredHop :=
  let (path, sending, receiving) := hop
  match endpointRole sock path pathByInode with
  | none => none
  | some role =>
      let pname := if role = 1 then sending else receiving
      if commMatches sock.pid pname then
        some { hopIndex, hostPid := toHostPid sock.pid, fd := sock.fd, isSender := role, path, pname }
      else
        none

def discoverHopSockets (sockets : List UnixSockRec) : List DiscoveredHop :=
  let pathByInode := pathsByInode sockets
  dataFlow.zipIdx.flatMap fun (hop, hopIndex) =>
    sockets.filterMap (discoverEndpoint commMatches toHostPid pathByInode hopIndex hop)

/-- Records of one inode are owners of one socket. -/
def SameSocket (sockets : List UnixSockRec) : Prop :=
  ∀ sock ∈ sockets, ∀ other ∈ sockets, sock.inode = other.inode →
    sock.path = other.path ∧ sock.peerInode = other.peerInode

/-- The record carries the path and its owner is the receiving process. -/
def Receives (hop : String × String × String) (sock : UnixSockRec) : Prop :=
  sock.path = some hop.1 ∧ commMatches sock.pid hop.2.2 = true

/-- The record has no path, its peer carries the path and its owner is the
sending process. -/
def Sends (sockets : List UnixSockRec) (hop : String × String × String) (sock : UnixSockRec) :
    Prop :=
  sock.path = none ∧
    (∃ other ∈ sockets, other.inode = sock.peerInode ∧ other.path = some hop.1) ∧
    commMatches sock.pid hop.2.1 = true

instance decidableReceives (hop : String × String × String) (sock : UnixSockRec) :
    Decidable (Receives commMatches hop sock) :=
  inferInstanceAs (Decidable (_ ∧ _))

instance decidableSends (sockets : List UnixSockRec) (hop : String × String × String)
    (sock : UnixSockRec) : Decidable (Sends commMatches sockets hop sock) :=
  inferInstanceAs (Decidable (_ ∧ (∃ other ∈ sockets, _ ∧ _) ∧ _))

def HasRole (sockets : List UnixSockRec) (hop : String × String × String) (role : UInt32)
    (sock : UnixSockRec) : Prop :=
  role = 0 ∧ Receives commMatches hop sock ∨ role = 1 ∧ Sends commMatches sockets hop sock

def receiverEntry (hopIndex : Nat) (hop : String × String × String) (sock : UnixSockRec) :
    DiscoveredHop :=
  ⟨hopIndex, toHostPid sock.pid, sock.fd, 0, hop.1, hop.2.2⟩

def senderEntry (hopIndex : Nat) (hop : String × String × String) (sock : UnixSockRec) :
    DiscoveredHop :=
  ⟨hopIndex, toHostPid sock.pid, sock.fd, 1, hop.1, hop.2.1⟩

/-- Every hop has one entry per record of either role, in the order of the
records, and there are no other entries. -/
structure DiscoversExactly (sockets : List UnixSockRec) (found : List DiscoveredHop) : Prop where
  receivers : ∀ hopIndex hop, dataFlow[hopIndex]? = some hop →
    found.filter (fun entry => entry.hopIndex = hopIndex ∧ entry.isSender = 0) =
      (sockets.filter fun sock => Receives commMatches hop sock).map
        (receiverEntry toHostPid hopIndex hop)
  senders : ∀ hopIndex hop, dataFlow[hopIndex]? = some hop →
    found.filter (fun entry => entry.hopIndex = hopIndex ∧ entry.isSender = 1) =
      (sockets.filter fun sock => Sends commMatches sockets hop sock).map
        (senderEntry toHostPid hopIndex hop)
  only : ∀ entry ∈ found,
    entry.hopIndex < dataFlow.length ∧ (entry.isSender = 0 ∨ entry.isSender = 1)
  once : ∀ (sock : UnixSockRec) (hopIndex otherIndex : Nat) hop other role otherRole,
    dataFlow[hopIndex]? = some hop → dataFlow[otherIndex]? = some other →
    HasRole commMatches sockets hop role sock → HasRole commMatches sockets other otherRole sock →
      hopIndex = otherIndex ∧ role = otherRole

variable {sockets : List UnixSockRec}

theorem lookup_pathsByInode (same : SameSocket sockets) {inode : UInt64} {path : String} :
    (pathsByInode sockets).lookup inode = some path ↔
      ∃ other ∈ sockets, other.inode = inode ∧ other.path = some path := by
  have listed : ∀ entry, (entry ∈ sockets.filterMap fun sock =>
      sock.path.map fun path => (sock.inode, path)) ↔
        ∃ sock ∈ sockets, sock.inode = entry.1 ∧ sock.path = some entry.2 := by
    intro entry
    simp only [List.mem_filterMap, Option.map_eq_some_iff]
    constructor
    · rintro ⟨sock, member, path, found, rfl⟩
      exact ⟨sock, member, rfl, found⟩
    · rintro ⟨sock, member, inode, found⟩
      exact ⟨sock, member, entry.2, found, by rw [inode]⟩
  rw [pathsByInode, Table.lookup_collect_iff, listed]
  intro entry entryListed other otherListed sameKey
  obtain ⟨sock, member, inode, path⟩ := (listed entry).mp entryListed
  obtain ⟨otherSock, otherMember, otherInode, otherPath⟩ := (listed other).mp otherListed
  have paths := (same sock member otherSock otherMember
    (inode.trans (sameKey.trans otherInode.symm))).1
  rw [path, otherPath] at paths
  exact Option.some.inj paths

theorem sends_inj (same : SameSocket sockets) {hop other : String × String × String}
    {sock : UnixSockRec} (sends : Sends commMatches sockets hop sock)
    (sendsOther : Sends commMatches sockets other sock) : hop.1 = other.1 := by
  obtain ⟨-, peer, -⟩ := sends
  obtain ⟨-, otherPeer, -⟩ := sendsOther
  rw [← lookup_pathsByInode same] at peer otherPeer
  rw [peer] at otherPeer
  exact Option.some.inj otherPeer

theorem dataFlow_path_inj {hopIndex otherIndex : Nat} {hop other : String × String × String}
    (found : dataFlow[hopIndex]? = some hop) (otherFound : dataFlow[otherIndex]? = some other)
    (path : hop.1 = other.1) : hopIndex = otherIndex := by
  have distinct : (dataFlow.map Prod.fst).Nodup := by decide +kernel
  have inside : hopIndex < (dataFlow.map Prod.fst).length := by
    rw [List.length_map]
    exact (List.getElem?_eq_some_iff.mp found).1
  apply (List.getElem?_inj inside distinct).mp
  rw [List.getElem?_map, List.getElem?_map, found, otherFound, Option.map_some, Option.map_some,
    path]

theorem hasRole_once (same : SameSocket sockets) {sock : UnixSockRec} {hopIndex otherIndex : Nat}
    {hop other : String × String × String} {role otherRole : UInt32}
    (found : dataFlow[hopIndex]? = some hop) (otherFound : dataFlow[otherIndex]? = some other)
    (hasRole : HasRole commMatches sockets hop role sock)
    (hasOther : HasRole commMatches sockets other otherRole sock) :
    hopIndex = otherIndex ∧ role = otherRole := by
  rcases hasRole with ⟨rfl, path, -⟩ | ⟨rfl, sends⟩ <;>
    rcases hasOther with ⟨rfl, otherPath, -⟩ | ⟨rfl, sendsOther⟩
  · rw [path] at otherPath
    exact ⟨dataFlow_path_inj found otherFound (Option.some.inj otherPath), rfl⟩
  · rw [sendsOther.1] at path
    cases path
  · rw [sends.1] at otherPath
    cases otherPath
  · exact ⟨dataFlow_path_inj found otherFound (sends_inj commMatches same sends sendsOther), rfl⟩

section Endpoint

variable {commMatches} {hopIndex : Nat} {hop : String × String × String} {sock : UnixSockRec}

theorem not_receives_of_sends (sends : Sends commMatches sockets hop sock) :
    ¬Receives commMatches hop sock := by
  rintro ⟨path, -⟩
  rw [sends.1] at path
  cases path

theorem discoverEndpoint_eq (same : SameSocket sockets) :
    discoverEndpoint commMatches toHostPid (pathsByInode sockets) hopIndex hop sock =
      if Receives commMatches hop sock then some (receiverEntry toHostPid hopIndex hop sock)
      else if Sends commMatches sockets hop sock then some (senderEntry toHostPid hopIndex hop sock)
      else none := by
  obtain ⟨path, sending, receiving⟩ := hop
  by_cases carries : sock.path = some path
  · have noSends : ¬Sends commMatches sockets (path, sending, receiving) sock := by
      rintro ⟨nothing, -⟩
      rw [carries] at nothing
      cases nothing
    have receives : Receives commMatches (path, sending, receiving) sock ↔
        commMatches sock.pid receiving = true := and_iff_right carries
    simp only [discoverEndpoint, endpointRole, carries, if_true, receives, noSends, if_false]
    rfl
  · have noReceives : ¬Receives commMatches (path, sending, receiving) sock :=
      fun receives => carries receives.1
    by_cases peer : sock.path = none ∧ (pathsByInode sockets).lookup sock.peerInode = some path
    · have sends : Sends commMatches sockets (path, sending, receiving) sock ↔
          commMatches sock.pid sending = true := by
        rw [Sends, ← lookup_pathsByInode same, and_iff_right peer.1, and_iff_right peer.2]
      simp only [discoverEndpoint, endpointRole, if_neg carries, if_pos peer, if_neg noReceives,
        sends]
      rfl
    · have noSends : ¬Sends commMatches sockets (path, sending, receiving) sock := by
        rintro ⟨nothing, other, -⟩
        exact peer ⟨nothing, (lookup_pathsByInode same).mpr other⟩
      simp only [discoverEndpoint, endpointRole, if_neg carries, if_neg peer, if_neg noReceives,
        if_neg noSends]

theorem filter_discoverEndpoint (records : List UnixSockRec) (role : UInt32)
    (belongs : UnixSockRec → Prop) [DecidablePred belongs] (made : UnixSockRec → DiscoveredHop)
    (contributes : ∀ sock,
      (discoverEndpoint commMatches toHostPid (pathsByInode sockets) hopIndex hop sock).filter
        (fun entry => entry.isSender = role) = if belongs sock then some (made sock) else none) :
    (records.filterMap
        (discoverEndpoint commMatches toHostPid (pathsByInode sockets) hopIndex hop)).filter
      (fun entry => entry.isSender = role) = (records.filter fun sock => belongs sock).map made := by
  rw [List.filter_filterMap]
  induction records with
  | nil => rfl
  | cons sock records inductionHypothesis =>
      rw [List.filterMap_cons, contributes, inductionHypothesis, List.filter_cons]
      by_cases member : belongs sock <;> simp [member]

end Endpoint

theorem filter_flatMap_zipIdx {Item Entry : Type} {items : List Item} {position : Nat}
    {item : Item} (found : items[position]? = some item) {body : Item × Nat → List Entry}
    {index : Entry → Nat} (own : ∀ item, ∀ entry ∈ body item, index entry = item.2)
    (keep : Entry → Prop) [DecidablePred keep] :
    (items.zipIdx.flatMap body).filter (fun entry => index entry = position ∧ keep entry) =
      (body (item, position)).filter (fun entry => keep entry) := by
  have at_offset : ∀ offset, ((items.zipIdx offset).flatMap body).filter
      (fun entry => index entry = offset + position ∧ keep entry) =
        (body (item, offset + position)).filter (fun entry => keep entry) := by
    induction items generalizing position with
    | nil => cases found
    | cons first items inductionHypothesis =>
        intro offset
        rw [List.zipIdx_cons, List.flatMap_cons, List.filter_append]
        cases position with
        | zero =>
            cases found
            have later : ((items.zipIdx (offset + 1)).flatMap body).filter
                (fun entry => index entry = offset + 0 ∧ keep entry) = [] := by
              apply List.filter_eq_nil_iff.mpr
              intro entry member
              obtain ⟨pair, listed, made⟩ := List.mem_flatMap.mp member
              have behind := List.le_snd_of_mem_zipIdx listed
              rw [own pair entry made, decide_eq_true_eq]
              omega
            rw [later, List.append_nil]
            apply List.filter_congr
            intro entry made
            simp [own _ entry made]
        | succ position =>
            have earlier : (body (first, offset)).filter
                (fun entry => index entry = offset + (position + 1) ∧ keep entry) = [] := by
              apply List.filter_eq_nil_iff.mpr
              intro entry made
              rw [own _ entry made, decide_eq_true_eq]
              omega
            rw [earlier, List.nil_append, show offset + (position + 1) = offset + 1 + position by omega]
            exact inductionHypothesis found (offset + 1)
  have start := at_offset 0
  rw [Nat.zero_add] at start
  exact start

variable {commMatches toHostPid}

theorem discoverEndpoint_own (same : SameSocket sockets) {hopIndex : Nat}
    {hop : String × String × String} {sock : UnixSockRec} {entry : DiscoveredHop}
    (made : discoverEndpoint commMatches toHostPid (pathsByInode sockets) hopIndex hop sock =
      some entry) :
    entry.hopIndex = hopIndex ∧ (entry.isSender = 0 ∨ entry.isSender = 1) := by
  rw [discoverEndpoint_eq toHostPid same] at made
  split at made
  next =>
    cases made
    exact ⟨rfl, .inl rfl⟩
  next =>
    split at made
    next =>
      cases made
      exact ⟨rfl, .inr rfl⟩
    next => cases made

theorem discoverHopSockets_exact (same : SameSocket sockets) :
    DiscoversExactly commMatches toHostPid sockets
      (discoverHopSockets commMatches toHostPid sockets) := by
  have own : ∀ item : (String × String × String) × Nat,
      ∀ entry ∈ sockets.filterMap
        (discoverEndpoint commMatches toHostPid (pathsByInode sockets) item.2 item.1),
        entry.hopIndex = item.2 := by
    intro item entry member
    obtain ⟨sock, -, made⟩ := List.mem_filterMap.mp member
    exact (discoverEndpoint_own same made).1
  constructor
  case receivers =>
    intro hopIndex hop found
    refine (filter_flatMap_zipIdx found own fun entry => entry.isSender = 0).trans ?_
    apply filter_discoverEndpoint
    intro sock
    rw [discoverEndpoint_eq toHostPid same]
    split
    next => rfl
    next =>
      split
      next => rfl
      next => rfl
  case senders =>
    intro hopIndex hop found
    refine (filter_flatMap_zipIdx found own fun entry => entry.isSender = 1).trans ?_
    apply filter_discoverEndpoint
    intro sock
    rw [discoverEndpoint_eq toHostPid same]
    split
    next receives =>
      rw [if_neg fun sends => not_receives_of_sends sends receives]
      rfl
    next =>
      split
      next => rfl
      next => rfl
  case only =>
    intro entry member
    obtain ⟨item, listed, contributed⟩ := List.mem_flatMap.mp member
    obtain ⟨sock, -, made⟩ := List.mem_filterMap.mp contributed
    obtain ⟨index, role⟩ := discoverEndpoint_own same made
    have inside := List.snd_lt_of_mem_zipIdx listed
    rw [Nat.add_zero] at inside
    exact ⟨index ▸ inside, role⟩
  case once =>
    intro sock hopIndex otherIndex hop other role otherRole found otherFound hasRole hasOther
    exact hasRole_once commMatches same found otherFound hasRole hasOther

theorem discoverHopSockets_perm (same : SameSocket sockets) {others : List UnixSockRec}
    (permuted : others.Perm sockets) :
    (discoverHopSockets commMatches toHostPid others).Perm
      (discoverHopSockets commMatches toHostPid sockets) := by
  have sameOthers : SameSocket others := by
    intro sock member other otherMember
    exact same sock (permuted.mem_iff.mp member) other (permuted.mem_iff.mp otherMember)
  have lookups : ∀ inode,
      (pathsByInode others).lookup inode = (pathsByInode sockets).lookup inode := by
    intro inode
    apply Option.ext
    intro path
    rw [lookup_pathsByInode sameOthers, lookup_pathsByInode same]
    simp only [permuted.mem_iff]
  have contributions : ∀ hopIndex hop,
      discoverEndpoint commMatches toHostPid (pathsByInode others) hopIndex hop =
        discoverEndpoint commMatches toHostPid (pathsByInode sockets) hopIndex hop := by
    intro hopIndex hop
    funext sock
    simp only [discoverEndpoint, endpointRole, lookups]
  refine List.Perm.flatMap_left _ ?_
  rintro ⟨hop, hopIndex⟩ -
  change (others.filterMap (discoverEndpoint commMatches toHostPid (pathsByInode others)
    hopIndex hop)).Perm _
  rw [contributions]
  exact permuted.filterMap _

variable (commMatches toHostPid)

/-- Discovery finds both ends of every hop, each of their owners once, nobody
else, and the same whatever the order of the records. -/
theorem discoverHopSockets_discovers (sockets : List UnixSockRec) (same : SameSocket sockets) :
    DiscoversExactly commMatches toHostPid sockets
        (discoverHopSockets commMatches toHostPid sockets) ∧
      ∀ others : List UnixSockRec, others.Perm sockets →
        (discoverHopSockets commMatches toHostPid others).Perm
          (discoverHopSockets commMatches toHostPid sockets) :=
  ⟨discoverHopSockets_exact same, fun _ permuted => discoverHopSockets_perm same permuted⟩

end Discovery

def hopZeroSockets : List UnixSockRec :=
  [⟨200, 5, 5000, 6000, some "/tmp/DATA_L3_TO_INTERNAL_ROUTER"⟩, ⟨100, 3, 6000, 5000, none⟩,
    ⟨150, 3, 6000, 5000, none⟩]

def hopZeroNames (pid : UInt32) (pname : String) : Bool :=
  (pid, pname) ∈ [((200 : UInt32), "INTERNAL_ROUTER"), (100, "DATA_SOURCE"), (150, "sh")]

theorem hopZeroSockets_discovered :
    DiscoversExactly hopZeroNames (· + 1000) hopZeroSockets
        [⟨0, 1200, 5, 0, "/tmp/DATA_L3_TO_INTERNAL_ROUTER", "INTERNAL_ROUTER"⟩,
          ⟨0, 1100, 3, 1, "/tmp/DATA_L3_TO_INTERNAL_ROUTER", "DATA_SOURCE"⟩] := by
  have found : discoverHopSockets hopZeroNames (· + 1000) hopZeroSockets =
      [⟨0, 1200, 5, 0, "/tmp/DATA_L3_TO_INTERNAL_ROUTER", "INTERNAL_ROUTER"⟩,
        ⟨0, 1100, 3, 1, "/tmp/DATA_L3_TO_INTERNAL_ROUTER", "DATA_SOURCE"⟩] := by decide +kernel
  have same : SameSocket hopZeroSockets := by
    unfold SameSocket
    decide +kernel
  rw [← found]
  exact (discoverHopSockets_discovers hopZeroNames (· + 1000) hopZeroSockets same).1

end BpfAgent.Sca
