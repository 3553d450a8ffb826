import BpfAgent.Lib.BoundedMap
import BpfAgent.Lib.SlidingWindow
import BpfAgent.Lib.Table
import BpfAgent.Lib.Word
import Mathlib.Algebra.BigOperators.Group.List.Basic
import Mathlib.Algebra.Field.Rat

/-!
# KFREE_SKB: drop counters and drop rates

The tracepoint counts packet drops by reason.  Every tick turns the counters
into deltas since the previous tick, keeps the deltas of the last ten seconds
and exports their rate by reason, and the total.  The series of a reason that
has had no drops for that long is removed.

Times are nanoseconds, rates are exact.  The rows a tick logs are sorted first;
the order is of no consequence here.
-/

namespace BpfAgent.KfreeSkb

/-- DROP_COUNTS: drops by reason since the program was loaded. -/
abbrev DropCounts := BoundedMap UInt32 UInt64 128

/-- The tracepoint handler.  The reason is absent when it cannot be read. -/
def tryKfreeSkb (dropCounts : DropCounts) (reasonRaw : Option UInt32) : DropCounts :=
  match reasonRaw with
  | none => dropCounts
  | some reason =>
      match dropCounts.get reason with
      | some count => dropCounts.insert reason (count + 1)
      | none => dropCounts.insert reason 1

def reasonNames : List String :=
  ["NOT_SPECIFIED", "CONSUMED", "NOT_SPECIFIED", "NO_SOCKET", "SOCKET_CLOSE", "SOCKET_FILTER",
    "SOCKET_RCVBUFF", "UNIX_DISCONNECT", "UNIX_SKIP_OOB", "PKT_TOO_SMALL", "TCP_CSUM",
    "UDP_CSUM", "NETFILTER_DROP", "OTHERHOST", "IP_CSUM", "IP_INHDR", "IP_RPFILTER",
    "UNICAST_IN_L2_MULTICAST", "XFRM_POLICY", "IP_NOPROTO", "PROTO_MEM", "TCP_AUTH_HDR",
    "TCP_MD5NOTFOUND", "TCP_MD5UNEXPECTED", "TCP_MD5FAILURE", "TCP_AONOTFOUND",
    "TCP_AOUNEXPECTED", "TCP_AOKEYNOTFOUND", "TCP_AOFAILURE", "SOCKET_BACKLOG", "TCP_FLAGS",
    "TCP_ABORT_ON_DATA", "TCP_ZEROWINDOW", "TCP_OLD_DATA", "TCP_OVERWINDOW", "TCP_OFOMERGE",
    "TCP_RFC7323_PAWS", "TCP_RFC7323_PAWS_ACK", "TCP_RFC7323_TW_PAWS", "TCP_RFC7323_TSECR",
    "TCP_LISTEN_OVERFLOW", "TCP_OLD_SEQUENCE", "TCP_INVALID_SEQUENCE",
    "TCP_INVALID_END_SEQUENCE", "TCP_INVALID_ACK_SEQUENCE", "TCP_RESET", "TCP_INVALID_SYN",
    "TCP_CLOSE", "TCP_FASTOPEN", "TCP_OLD_ACK", "TCP_TOO_OLD_ACK", "TCP_ACK_UNSENT_DATA",
    "TCP_OFO_QUEUE_PRUNE", "TCP_OFO_DROP", "IP_OUTNOROUTES", "BPF_CGROUP_EGRESS",
    "IPV6DISABLED", "NEIGH_CREATEFAIL", "NEIGH_FAILED", "NEIGH_QUEUEFULL", "NEIGH_DEAD",
    "NEIGH_HH_FILLFAIL", "TC_EGRESS", "SECURITY_HOOK", "QDISC_DROP", "QDISC_BURST_DROP",
    "QDISC_OVERLIMIT", "QDISC_CONGESTED", "MACVLAN_BROADCAST_BACKLOG",
    "IPVLAN_MULTICAST_BACKLOG", "XDP", "TC_INGRESS", "UNHANDLED_PROTO", "SKB_CSUM",
    "SKB_GSO_SEG", "SKB_BAD_GSO", "SKB_UCOPY_FAULT", "DEV_HDR", "DEV_READY", "FULL_RING",
    "NOMEM", "HDR_TRUNC", "TAP_FILTER", "TAP_TXFILTER", "ICMP_CSUM", "INVALID_PROTO",
    "IP_INADDRERRORS", "IP_INNOROUTES", "IP_LOCAL_SOURCE", "IP_INVALID_SOURCE", "IP_LOCALNET",
    "IP_INVALID_DEST", "PKT_TOO_BIG", "DUP_FRAG", "FRAG_REASM_TIMEOUT", "FRAG_TOO_FAR",
    "TCP_MINTTL", "IPV6_BAD_EXTHDR", "IPV6_TOO_MANY_EXTHDRS", "IPV6_NDISC_FRAG",
    "IPV6_NDISC_HOP_LIMIT", "IPV6_NDISC_BAD_CODE", "IPV6_NDISC_BAD_OPTIONS",
    "IPV6_NDISC_NS_OTHERHOST", "QUEUE_PURGE", "TC_COOKIE_ERROR", "PACKET_SOCK_ERROR",
    "TC_CHAIN_NOTFOUND", "TC_RECLASSIFY_LOOP", "VXLAN_INVALID_HDR", "VXLAN_VNI_NOT_FOUND",
    "MAC_INVALID_SOURCE", "VXLAN_ENTRY_EXISTS", "NO_TX_TARGET", "IP_TUNNEL_ECN",
    "TUNNEL_TXINFO", "LOCAL_MAC", "ARP_PVLAN_DISABLE", "MAC_IEEE_MAC_CONTROL",
    "BRIDGE_INGRESS_STP_STATE", "CAN_RX_INVALID_FRAME", "CANFD_RX_INVALID_FRAME",
    "CANXL_RX_INVALID_FRAME", "PFMEMALLOC", "PSP_INPUT", "PSP_OUTPUT", "RECURSION_LIMIT", "MAX"]

/-- Codes beyond the last one are taken for it. -/
def reasonName (reason : UInt32) : String := reasonNames.getD reason.toNat "MAX"

def seriesLabels (reason : UInt32) : String × String := (toString reason, reasonName reason)

def rateWindow : Nat := 10000000000

/-- Drops per second when `sum` drops fall into the window. -/
def rateOf (sum : UInt64) : Rat := sum.toNat / 10

abbrev DeltaWindow := List (Nat × UInt64)

structure Program where
  lastCounts : Table UInt32 UInt64
  /-- Deltas of the ticks within the window, by reason. -/
  deltaWindows : Table UInt32 DeltaWindow
  dropsPerSec : Table (String × String) Rat
  totalDropsPerSec : Table String Rat

def Program.new : Program := ⟨∅, ∅, ∅, ∅⟩

def counterDelta (lastCounts : Table UInt32 UInt64) (reason : UInt32) (count : UInt64) :
    UInt64 × Table UInt32 UInt64 :=
  (Word.saturatingSub count ((lastCounts.lookup reason).getD 0), lastCounts.insert reason count)

/-- Push a delta, evict what has expired and add up the rest. -/
def updateWindow (window : DeltaWindow) (now : Nat) (delta : UInt64) : DeltaWindow × UInt64 :=
  let pushed := if 0 < delta then window ++ [(now, delta)] else window
  let kept := pushed.dropWhile fun entry => rateWindow < now - entry.1
  (kept, (kept.map Prod.snd).sum)

/-- One round of the loop over the counters, with the rates of the rows so far. -/
def reportReason (now : Nat) (state : Program × List Rat) (entry : (_ : UInt32) × UInt64) :
    Program × List Rat :=
  let ⟨reason, count⟩ := entry
  let (program, rows) := state
  let (delta, lastCounts) := counterDelta program.lastCounts reason count
  let (window, sum) :=
    updateWindow ((program.deltaWindows.lookup reason).getD []) now delta
  if sum = 0 then
    ({ program with
       lastCounts
       deltaWindows := program.deltaWindows.erase reason
       dropsPerSec := program.dropsPerSec.erase (seriesLabels reason) },
      rows)
  else
    ({ program with
       lastCounts
       deltaWindows := program.deltaWindows.insert reason window
       dropsPerSec := program.dropsPerSec.insert (seriesLabels reason) (rateOf sum) },
      rows ++ [rateOf sum])

def displayMetrics (program : Program) (dropCounts : DropCounts) (now : Nat) : Program :=
  let (program, rows) := dropCounts.entries.foldl (reportReason now) (program, [])
  if rows.isEmpty then
    program
  else
    { program with totalDropsPerSec := program.totalDropsPerSec.insert "all" rows.sum }

theorem seriesLabels_inj {reason other : UInt32}
    (same : seriesLabels reason = seriesLabels other) : reason = other :=
  Word.toString_inj (Prod.mk.inj same).1

/-- Everything the program knows about one reason. -/
structure View where
  lastCount : Option UInt64
  window : Option DeltaWindow
  rate : Option Rat

def view (program : Program) (reason : UInt32) : View where
  lastCount := program.lastCounts.lookup reason
  window := program.deltaWindows.lookup reason
  rate := program.dropsPerSec.lookup (seriesLabels reason)

/-- The same after a tick that reads `count`. -/
def View.next (now : Nat) (view : View) (count : UInt64) : View :=
  let delta := Word.saturatingSub count (view.lastCount.getD 0)
  let (window, sum) := updateWindow (view.window.getD []) now delta
  if sum = 0 then ⟨some count, none, none⟩ else ⟨some count, some window, some (rateOf sum)⟩

theorem reportReason_view (now : Nat) (state : Program × List Rat) (reason : UInt32)
    (count : UInt64) (other : UInt32) :
    view (reportReason now state ⟨reason, count⟩).1 other =
      if other = reason then (view state.1 reason).next now count else view state.1 other := by
  unfold reportReason View.next counterDelta
  dsimp only [view]
  by_cases same : other = reason
  · subst same
    rw [if_pos rfl]
    split
    · simp [AList.lookup_erase]
    · simp
  · have labels : seriesLabels other ≠ seriesLabels reason := fun equal =>
      same (seriesLabels_inj equal)
    rw [if_neg same]
    split
    · simp [same, labels]
    · simp [same, labels]

theorem displayMetrics_view (program : Program) (dropCounts : DropCounts) (now : Nat)
    (reason : UInt32) :
    view (displayMetrics program dropCounts now) reason =
      (dropCounts.get reason).elim (view program reason)
        ((view program reason).next now) := by
  have looped := Table.foldl_entries
    (fun (state : Program × List Rat) reason => view state.1 reason)
    (fun previous count => previous.next now count)
    (fun state reason count other => reportReason_view now state reason count other)
    dropCounts.table.nodupKeys (program, []) reason
  have total : view (displayMetrics program dropCounts now) reason =
      view (dropCounts.entries.foldl (reportReason now) (program, [])).1 reason := by
    unfold displayMetrics
    dsimp only
    split <;> rfl
  rw [total]
  exact looped

end BpfAgent.KfreeSkb
