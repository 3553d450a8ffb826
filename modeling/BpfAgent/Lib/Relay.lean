import Mathlib.Data.List.Basic
import Mathlib.Tactic.Common

/-!
# A request that is relayed along a chain

A request goes from hop to hop to the end of a chain and its answer goes all
the way back, before the next request starts.  There is one token: where the
request or the answer is.  What is sent of a request, in order, is its cycle.
-/

namespace Relay

universe u

variable {Message : Type u}

structure Send (Message : Type u) where
  hop : Nat
  reply : Bool
  message : Message
  deriving DecidableEq

inductive Place (Message : Type u) where
  | rest
  /-- The request is on its way along the hop. -/
  | down (hop : Nat) (message : Message)
  /-- The request has arrived. -/
  | work (hop : Nat) (message : Message)
  /-- The hop behind has been answered. -/
  | answer (hop : Nat) (message : Message)
  /-- The answer is on its way back along the hop. -/
  | up (hop : Nat) (message : Message)

section Chain

variable (hops : Nat) (reply : Message → Message)

def Place.Inside : Place Message → Prop
  | .rest => True
  | .down hop _ | .work hop _ | .answer hop _ | .up hop _ => hop < hops

inductive Move : Place Message → Option (Send Message) → Place Message → Prop where
  | start (message : Message) : Move .rest (some ⟨0, false, message⟩) (.down 0 message)
  | arrive (hop : Nat) (message : Message) : Move (.down hop message) none (.work hop message)
  | forward (hop : Nat) (message : Message) (more : hop + 1 < hops) :
      Move (.work hop message) (some ⟨hop + 1, false, message⟩) (.down (hop + 1) message)
  | turn (hop : Nat) (message : Message) (last : hop + 1 = hops) :
      Move (.work hop message) (some ⟨hop, true, reply message⟩) (.up hop message)
  | collect (hop : Nat) (message : Message) :
      Move (.up (hop + 1) message) none (.answer hop message)
  | back (hop : Nat) (message : Message) :
      Move (.answer hop message) (some ⟨hop, true, reply message⟩) (.up hop message)
  | finish (message : Message) : Move (.up 0 message) none .rest

/-- Everything that is sent for one request. -/
def cycle (message : Message) : List (Send Message) :=
  (List.range hops).map (fun hop => ⟨hop, false, message⟩) ++
    (List.range hops).reverse.map fun hop => ⟨hop, true, reply message⟩

def Place.current : Place Message → List (Send Message)
  | .rest => []
  | .down hop message | .work hop message => (cycle hops reply message).take (hop + 1)
  | .answer hop message => (cycle hops reply message).take (2 * hops - hop - 1)
  | .up hop message => (cycle hops reply message).take (2 * hops - hop)

/-- Whole cycles have been sent, and part of one more. -/
structure Lockstep (completed : List Message) (place : Place Message)
    (sent : List (Send Message)) : Prop where
  inside : place.Inside hops
  sent : sent = completed.flatMap (cycle hops reply) ++ place.current hops reply

end Chain

section Cycle

variable {hops : Nat} {reply : Message → Message}

theorem length_cycle (message : Message) : (cycle hops reply message).length = 2 * hops := by
  simp only [cycle, List.length_append, List.length_map, List.length_reverse, List.length_range]
  omega

theorem cycle_request {hop : Nat} (inside : hop < hops) (message : Message) :
    (cycle hops reply message)[hop]? = some ⟨hop, false, message⟩ := by
  rw [cycle, List.getElem?_append_left (by simpa using inside)]
  simp [inside]

theorem cycle_reply {hop : Nat} (inside : hop < hops) (message : Message) :
    (cycle hops reply message)[2 * hops - hop - 1]? = some ⟨hop, true, reply message⟩ := by
  have beyond : hops ≤ 2 * hops - hop - 1 := by omega
  have position : hops - 1 - (2 * hops - hop - 1 - hops) = hop := by omega
  rw [cycle, List.getElem?_append_right (by simpa using beyond), List.length_map,
    List.length_range, List.getElem?_map, List.getElem?_reverse (by simp; omega),
    List.length_range, position, List.getElem?_range inside]
  rfl

theorem take_cycle_succ {position : Nat} {message : Message} {send : Send Message}
    (next : (cycle hops reply message)[position]? = some send) :
    (cycle hops reply message).take (position + 1) =
      (cycle hops reply message).take position ++ [send] := by
  rw [List.take_add_one, next]
  rfl

theorem take_cycles (cycles : List Message) (count : Nat) :
    (cycles.flatMap (cycle hops reply)).take (2 * hops * count) =
      (cycles.take count).flatMap (cycle hops reply) := by
  induction cycles generalizing count with
  | nil => simp
  | cons message cycles inductionHypothesis =>
      cases count with
      | zero => simp
      | succ count =>
          have split : 2 * hops * (count + 1) = (cycle hops reply message).length +
              2 * hops * count := by
            rw [length_cycle, Nat.mul_succ, Nat.add_comm]
          rw [List.flatMap_cons, split, List.take_length_add_append, inductionHypothesis,
            List.take_succ_cons, List.flatMap_cons]

theorem drop_cycles (cycles : List Message) (count : Nat) :
    (cycles.flatMap (cycle hops reply)).drop (2 * hops * count) =
      (cycles.drop count).flatMap (cycle hops reply) := by
  induction cycles generalizing count with
  | nil => simp
  | cons message cycles inductionHypothesis =>
      cases count with
      | zero => simp
      | succ count =>
          have split : 2 * hops * (count + 1) = (cycle hops reply message).length +
              2 * hops * count := by
            rw [length_cycle, Nat.mul_succ, Nat.add_comm]
          rw [List.flatMap_cons, split, List.drop_length_add_append, inductionHypothesis,
            List.drop_succ_cons]

/-- A move sends what comes next in the cycle, or ends the cycle. -/
theorem Move.current {place next : Place Message} {sent : Option (Send Message)}
    (moved : Move hops reply place sent next) (inside : place.Inside hops) (some : 0 < hops) :
    next.Inside hops ∧
      (next.current hops reply = place.current hops reply ++ sent.toList ∨
        ∃ message, next = .rest ∧ sent = none ∧
          place.current hops reply = cycle hops reply message) := by
  cases moved with
  | start message =>
      refine ⟨some, .inl ?_⟩
      exact take_cycle_succ (cycle_request some message)
  | arrive hop message => exact ⟨inside, .inl (List.append_nil _).symm⟩
  | forward hop message more =>
      refine ⟨more, .inl ?_⟩
      exact take_cycle_succ (cycle_request more message)
  | turn hop message last =>
      refine ⟨inside, .inl ?_⟩
      have position : hop + 1 = 2 * hops - hop - 1 := by omega
      have next : 2 * hops - hop = 2 * hops - hop - 1 + 1 := by omega
      rw [Place.current, Place.current, next, position]
      exact take_cycle_succ (cycle_reply inside message)
  | collect hop message =>
      have earlier : hop < hops := by
        simp only [Place.Inside] at inside
        omega
      refine ⟨earlier, .inl ?_⟩
      simp only [Place.current, Option.toList_none, List.append_nil]
      rfl
  | back hop message =>
      refine ⟨inside, .inl ?_⟩
      have next : 2 * hops - hop = 2 * hops - hop - 1 + 1 := by
        simp only [Place.Inside] at inside
        omega
      rw [Place.current, Place.current, next]
      exact take_cycle_succ (cycle_reply inside message)
  | finish message =>
      refine ⟨trivial, .inr ⟨message, rfl, rfl, ?_⟩⟩
      exact List.take_of_length_le (by rw [length_cycle]; omega)

theorem Lockstep.move {completed : List Message} {place next : Place Message}
    {before : List (Send Message)} {sent : Option (Send Message)}
    (lockstep : Lockstep hops reply completed place before)
    (moved : Move hops reply place sent next) (some : 0 < hops) :
    ∃ completed, Lockstep hops reply completed next (before ++ sent.toList) := by
  obtain ⟨inside, grows | ⟨message, rfl, rfl, whole⟩⟩ := moved.current lockstep.inside some
  · refine ⟨completed, inside, ?_⟩
    rw [lockstep.sent, List.append_assoc, grows]
  · refine ⟨completed ++ [message], trivial, ?_⟩
    rw [lockstep.sent, whole]
    simp [Place.current]

end Cycle

end Relay
