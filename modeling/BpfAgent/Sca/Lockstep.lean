import BpfAgent.Lib.Run
import BpfAgent.Sca.Simulator

/-!
# SCA simulator: one request at a time

Whatever order the threads take their steps in and however the streams cut the
messages, the simulator is a chain with one token.  The state is determined by
where the token is and by how much of the message in flight has been read.
-/

namespace BpfAgent.Sca.Simulator

open Relay

def initiatorAt (got : List UInt8) : Place Header → Option (List UInt8)
  | .rest => none
  | .up 0 _ => some got
  | _ => some []

def phaseAt (got : List UInt8) (place : Place Header) (session : Nat) : Phase :=
  match place with
  | .rest => .receiving []
  | .down hop header =>
      if session < hop then .waiting header []
      else if session = hop then .receiving got else .receiving []
  | .work hop header =>
      if session < hop then .waiting header []
      else if session = hop then .processing header else .receiving []
  | .answer hop header =>
      if session < hop then .waiting header []
      else if session = hop then .replying header else .receiving []
  | .up hop header =>
      if session + 1 < hop then .waiting header []
      else if session + 1 = hop then .waiting header got else .receiving []

def downAt (stream : List UInt8) (place : Place Header) (other : Nat) : List UInt8 :=
  match place with
  | .down hop _ => if other = hop then stream else []
  | _ => []

def upAt (stream : List UInt8) (place : Place Header) (other : Nat) : List UInt8 :=
  match place with
  | .up hop _ => if other = hop then stream else []
  | _ => []

def snapshot (place : Place Header) (got stream : List UInt8) (sent : List (Send Header)) :
    State where
  initiator := initiatorAt got place
  sessions := phaseAt got place
  down := downAt stream place
  up := upAt stream place
  sent := sent

/-- The message in flight is the one that the token stands for. -/
def Carries (got stream : List UInt8) : Place Header → Prop
  | .down _ header =>
      got ++ stream = buildMessage header.2 header.1 ∧ got.length < msgSize
  | .up _ header =>
      got ++ stream = buildMessage (header.2 + 1) header.1 ∧ got.length < msgSize
  | _ => got = [] ∧ stream = []

section Enabled

variable {got stream : List UInt8} {place : Place Header} {hop : Nat} {header : Header}

theorem rest_of_initiator (ready : initiatorAt got place = none) : place = .rest := by
  cases place with
  | rest => rfl
  | up hop header => cases hop <;> cases ready
  | down hop header => cases ready
  | work hop header => cases ready
  | answer hop header => cases ready

theorem down_of_stream (flows : downAt stream place hop ≠ []) :
    ∃ header, place = .down hop header := by
  cases place with
  | down other header =>
      by_cases same : hop = other
      · exact ⟨header, by rw [same]⟩
      · exact absurd (if_neg same) flows
  | rest => exact absurd rfl flows
  | work other header => exact absurd rfl flows
  | answer other header => exact absurd rfl flows
  | up other header => exact absurd rfl flows

theorem up_of_stream (flows : upAt stream place hop ≠ []) : ∃ header, place = .up hop header := by
  cases place with
  | up other header =>
      by_cases same : hop = other
      · exact ⟨header, by rw [same]⟩
      · exact absurd (if_neg same) flows
  | rest => exact absurd rfl flows
  | work other header => exact absurd rfl flows
  | answer other header => exact absurd rfl flows
  | down other header => exact absurd rfl flows

theorem work_of_phase (processes : phaseAt got place hop = .processing header) :
    place = .work hop header := by
  unfold phaseAt at processes
  split at processes
  · cases processes
  · split_ifs at processes
  · split_ifs at processes with before here
    cases processes
    rw [here]
  · split_ifs at processes
  · split_ifs at processes

theorem answer_of_phase (replies : phaseAt got place hop = .replying header) :
    place = .answer hop header := by
  unfold phaseAt at replies
  split at replies
  · cases replies
  · split_ifs at replies
  · split_ifs at replies
  · split_ifs at replies with before here
    cases replies
    rw [here]
  · split_ifs at replies

end Enabled

/-- A bound on the number of steps until the request is answered. -/
def budget (stream : List UInt8) : Place Header → Nat
  | .rest => 0
  | .down hop _ => stream.length + (6 - hop) * (msgSize + 1) + 7 * (msgSize + 1)
  | .work hop _ => (6 - hop) * (msgSize + 1) + 7 * (msgSize + 1)
  | .answer hop _ => (hop + 1) * (msgSize + 1)
  | .up hop _ => stream.length + hop * (msgSize + 1)

/-- A piece of a message is read, and perhaps the last one. -/
theorem recv_carried {bytes got stream rest read : List UInt8} {count : Nat}
    (whole : got ++ stream = bytes) (size : bytes.length = msgSize)
    (received : recv stream got count = some (rest, read)) :
    rest.length < stream.length ∧
      (read.length = msgSize ∧ read = bytes ∧ rest = [] ∨
        read.length < msgSize ∧ read ++ rest = bytes) := by
  obtain ⟨positive, available, fits, rfl, rfl⟩ := recv_eq_some_iff.mp received
  have joined : got ++ stream.take count ++ stream.drop count = bytes := by
    rw [List.append_assoc, List.take_append_drop, whole]
  have lengths := congrArg List.length joined
  simp only [List.length_append, List.length_take, List.length_drop] at lengths
  refine ⟨by rw [List.length_drop]; omega, ?_⟩
  by_cases last : (got ++ stream.take count).length = msgSize
  · have nothing : stream.drop count = [] := by
      apply List.eq_nil_of_length_eq_zero
      simp only [List.length_append, List.length_take] at last
      rw [List.length_drop]
      omega
    rw [nothing, List.append_nil] at joined
    exact .inl ⟨last, joined, nothing⟩
  · refine .inr ⟨?_, joined⟩
    simp only [List.length_append, List.length_take] at last ⊢
    omega

structure Advances (place : Place Header) (stream : List UInt8) (sent : List (Send Header))
    (act : Act) (state : State) : Prop where
  result : ∃ next got rest new, state = snapshot next got rest (sent ++ new.toList) ∧
    Carries got rest next ∧ (Move 7 replyTo place new next ∨ next = place ∧ new = none) ∧
    ((∀ header, act ≠ .request header) → budget rest next < budget stream place)

theorem eq_snapshot {state : State} {place : Place Header} {got stream : List UInt8}
    {sent : List (Send Header)} (initiator : state.initiator = initiatorAt got place)
    (sessions : ∀ session, state.sessions session = phaseAt got place session)
    (down : ∀ hop, state.down hop = downAt stream place hop)
    (up : ∀ hop, state.up hop = upAt stream place hop) (same : state.sent = sent) :
    state = snapshot place got stream sent := by
  obtain ⟨_, _, _, _, _⟩ := state
  rw [snapshot, State.mk.injEq]
  exact ⟨initiator, funext sessions, funext down, funext up, same⟩

section Advance

variable {place : Place Header} {got stream : List UInt8} {sent : List (Send Header)}
  {next : State} {header : Header} {hop count : Nat}

theorem advances_request
    (stepped : step (snapshot place got stream sent) (.request header) = some next) :
    Advances place stream sent (.request header) next := by
  obtain ⟨ready, rfl⟩ := step_request stepped
  cases rest_of_initiator ready
  refine ⟨.down 0 header, [], buildMessage header.2 header.1, some ⟨0, false, header⟩, ?_,
    ⟨rfl, by decide⟩, .inl (.start header), fun other => absurd rfl (other header)⟩
  apply eq_snapshot
  · rfl
  · intro session
    simp only [snapshot, phaseAt]
    split_ifs <;> first | rfl | omega
  · intro other
    simp only [snapshot, downAt, Function.update_apply, List.nil_append]
  · intro other
    rfl
  · rfl

theorem phaseAt_up_zero (session : Nat) : phaseAt got (.up 0 header) session = .receiving [] := by
  simp [phaseAt]

theorem advances_finish (carries : Carries got stream place)
    (stepped : step (snapshot place got stream sent) (.finish count) = some next) :
    Advances place stream sent (.finish count) next := by
  obtain ⟨before, rest, read, waits, received, rfl⟩ := step_finish stepped
  have flows : upAt stream place 0 ≠ [] := by
    intro nothing
    have bound := recv_eq_some_iff.mp received
    simp only [snapshot, nothing, List.length_nil] at bound
    omega
  obtain ⟨header, rfl⟩ := up_of_stream flows
  cases waits
  simp only [snapshot, upAt, if_pos] at received
  obtain ⟨fewer, ⟨last, -, rfl⟩ | ⟨more, whole⟩⟩ :=
    recv_carried carries.1 (length_buildMessage _ _) received
  · refine ⟨.rest, [], [], none, ?_, ⟨rfl, rfl⟩, .inl (.finish header), fun _ => ?_⟩
    · apply eq_snapshot
      · exact if_pos last
      · intro session
        exact @phaseAt_up_zero got header session
      · intro other
        rfl
      · intro other
        simp only [snapshot, upAt, Function.update_apply]
        split_ifs <;> rfl
      · exact (List.append_nil _).symm
    · simp only [budget]
      omega
  · refine ⟨.up 0 header, read, rest, none, ?_, ⟨whole, more⟩, .inr ⟨rfl, rfl⟩, fun _ => ?_⟩
    · apply eq_snapshot
      · exact if_neg (by omega)
      · intro session
        rw [phaseAt_up_zero]
        exact @phaseAt_up_zero got header session
      · intro other
        rfl
      · intro other
        simp only [snapshot, upAt, Function.update_apply]
        split_ifs <;> rfl
      · exact (List.append_nil _).symm
    · simp only [budget]
      omega

theorem advances_receive (carries : Carries got stream place)
    (stepped : step (snapshot place got stream sent) (.receive hop count) = some next) :
    Advances place stream sent (.receive hop count) next := by
  obtain ⟨-, before, rest, read, listens, received, rfl⟩ := step_receive stepped
  have flows : downAt stream place hop ≠ [] := by
    intro nothing
    have bound := recv_eq_some_iff.mp received
    simp only [snapshot, nothing, List.length_nil] at bound
    omega
  obtain ⟨header, rfl⟩ := down_of_stream flows
  have same : before = got := by
    simpa [snapshot, phaseAt, eq_comm] using listens
  subst same
  simp only [snapshot, downAt, if_pos] at received
  obtain ⟨fewer, ⟨last, rfl, rfl⟩ | ⟨more, whole⟩⟩ :=
    recv_carried carries.1 (length_buildMessage _ _) received
  · refine ⟨.work hop header, [], [], none, ?_, ⟨rfl, rfl⟩, .inl (.arrive hop header),
      fun _ => ?_⟩
    · apply eq_snapshot
      · rfl
      · intro session
        simp only [snapshot, phaseAt, Function.update_apply, if_pos last,
          parseMessage_buildMessage]
        split_ifs <;> first | rfl | omega
      · intro other
        simp only [snapshot, downAt, Function.update_apply]
        split_ifs <;> rfl
      · intro other
        rfl
      · exact (List.append_nil _).symm
    · simp only [budget]
      omega
  · refine ⟨.down hop header, read, rest, none, ?_, ⟨whole, more⟩, .inr ⟨rfl, rfl⟩, fun _ => ?_⟩
    · apply eq_snapshot
      · rfl
      · intro session
        simp only [snapshot, phaseAt, Function.update_apply,
          if_neg (show ¬read.length = msgSize by omega)]
        split_ifs <;> first | rfl | omega
      · intro other
        simp only [snapshot, downAt, Function.update_apply]
        split_ifs <;> rfl
      · intro other
        rfl
      · exact (List.append_nil _).symm
    · simp only [budget]
      omega

theorem advances_forward
    (stepped : step (snapshot place got stream sent) (.forward hop) = some next) :
    Advances place stream sent (.forward hop) next := by
  obtain ⟨more, header, processes, rfl⟩ := step_forward stepped
  cases work_of_phase processes
  refine ⟨.down (hop + 1) header, [], buildMessage header.2 header.1,
    some ⟨hop + 1, false, header⟩, ?_, ⟨rfl, by decide⟩, .inl (.forward hop header more),
    fun _ => ?_⟩
  · apply eq_snapshot
    · rfl
    · intro session
      simp only [snapshot, phaseAt, Function.update_apply]
      split_ifs <;> first | rfl | omega
    · intro other
      simp only [snapshot, downAt, Function.update_apply, List.nil_append]
    · intro other
      rfl
    · rfl
  · simp only [budget, length_buildMessage, msgSize]
    omega

theorem advances_collect (carries : Carries got stream place)
    (stepped : step (snapshot place got stream sent) (.collect hop count) = some next) :
    Advances place stream sent (.collect hop count) next := by
  obtain ⟨-, header, before, rest, read, waits, received, rfl⟩ := step_collect stepped
  have flows : upAt stream place (hop + 1) ≠ [] := by
    intro nothing
    have bound := recv_eq_some_iff.mp received
    simp only [snapshot, nothing, List.length_nil] at bound
    omega
  obtain ⟨answered, rfl⟩ := up_of_stream flows
  have same : answered = header ∧ got = before := by
    simpa [snapshot, phaseAt] using waits
  obtain ⟨rfl, rfl⟩ := same
  simp only [snapshot, upAt, if_pos] at received
  obtain ⟨fewer, ⟨last, -, rfl⟩ | ⟨more, whole⟩⟩ :=
    recv_carried carries.1 (length_buildMessage _ _) received
  · refine ⟨.answer hop answered, [], [], none, ?_, ⟨rfl, rfl⟩, .inl (.collect hop answered),
      fun _ => ?_⟩
    · apply eq_snapshot
      · rfl
      · intro session
        simp only [snapshot, phaseAt, Function.update_apply, if_pos last]
        split_ifs <;> first | rfl | omega
      · intro other
        rfl
      · intro other
        simp only [snapshot, upAt, Function.update_apply]
        split_ifs <;> rfl
      · exact (List.append_nil _).symm
    · simp only [budget]
      omega
  · refine ⟨.up (hop + 1) answered, read, rest, none, ?_, ⟨whole, more⟩, .inr ⟨rfl, rfl⟩,
      fun _ => ?_⟩
    · apply eq_snapshot
      · rfl
      · intro session
        simp only [snapshot, phaseAt, Function.update_apply,
          if_neg (show ¬read.length = msgSize by omega)]
        split_ifs <;> first | rfl | omega
      · intro other
        rfl
      · intro other
        simp only [snapshot, upAt, Function.update_apply]
        split_ifs <;> rfl
      · exact (List.append_nil _).symm
    · simp only [budget]
      omega

variable (place got stream) in
/-- Once a session has replied, only those before it wait. -/
theorem snapshot_replied (initiator : initiatorAt got place = some [])
    (others : ∀ session, session ≠ hop → phaseAt got place session =
      if session < hop then .waiting header [] else .receiving [])
    (down : ∀ other, downAt stream place other = [])
    (up : ∀ other, upAt stream place other = []) :
    State.mk (initiatorAt got place) (Function.update (phaseAt got place) hop (.receiving []))
      (downAt stream place)
      (Function.update (upAt stream place) hop
        (upAt stream place hop ++ buildMessage (header.2 + 1) header.1))
      (sent ++ [⟨hop, true, replyTo header⟩]) =
    snapshot (.up hop header) [] (buildMessage (header.2 + 1) header.1)
      (sent ++ [⟨hop, true, replyTo header⟩]) := by
  apply eq_snapshot
  · rw [initiator]
    cases hop <;> rfl
  · intro session
    have after : phaseAt [] (.up hop header) session =
        if session < hop then .waiting header [] else .receiving [] := by
      simp only [phaseAt]
      split_ifs <;> first | rfl | omega
    rw [after]
    dsimp only
    by_cases here : session = hop
    · rw [here, Function.update_self, if_neg (Nat.lt_irrefl hop)]
    · rw [Function.update_of_ne here, others session here]
  · exact down
  · intro other
    dsimp only
    by_cases here : other = hop
    · rw [here, Function.update_self, up hop, List.nil_append]
      exact (if_pos rfl).symm
    · rw [Function.update_of_ne here, up other]
      exact (if_neg here).symm
  · rfl

theorem advances_reply
    (stepped : step (snapshot place got stream sent) (.reply hop) = some next) :
    Advances place stream sent (.reply hop) next := by
  obtain ⟨header, ⟨last, processes⟩ | ⟨inside, replies⟩, rfl⟩ := step_reply stepped
  · cases work_of_phase processes
    refine ⟨.up hop header, [], buildMessage (header.2 + 1) header.1,
      some ⟨hop, true, replyTo header⟩, ?_, ⟨rfl, by decide⟩, .inl (.turn hop header last),
      fun _ => ?_⟩
    · refine snapshot_replied (.work hop header) got stream rfl ?_ (fun _ => rfl) fun _ => rfl
      intro session other
      simp only [phaseAt, if_neg other]
    · simp only [budget, length_buildMessage, msgSize]
      omega
  · cases answer_of_phase replies
    refine ⟨.up hop header, [], buildMessage (header.2 + 1) header.1,
      some ⟨hop, true, replyTo header⟩, ?_, ⟨rfl, by decide⟩, .inl (.back hop header),
      fun _ => ?_⟩
    · refine snapshot_replied (.answer hop header) got stream rfl ?_ (fun _ => rfl) fun _ => rfl
      intro session other
      simp only [phaseAt, if_neg other]
    · simp only [budget, length_buildMessage, msgSize]
      omega

/-- Every step of every thread is a move of the token, or part of one. -/
theorem step_advances (carries : Carries got stream place) {act : Act}
    (stepped : step (snapshot place got stream sent) act = some next) :
    Advances place stream sent act next := by
  cases act with
  | request header => exact advances_request stepped
  | finish count => exact advances_finish carries stepped
  | receive hop count => exact advances_receive carries stepped
  | forward hop => exact advances_forward stepped
  | collect hop count => exact advances_collect carries stepped
  | reply hop => exact advances_reply stepped

end Advance

/-- The state is that of a chain with one token. -/
structure Reached (completed : List Header) (place : Place Header) (got stream : List UInt8)
    (state : State) : Prop where
  shape : state = snapshot place got stream state.sent
  carries : Carries got stream place
  lockstep : Lockstep 7 replyTo completed place state.sent

theorem reached_initial : Reached [] .rest [] [] State.initial where
  shape := rfl
  carries := ⟨rfl, rfl⟩
  lockstep := ⟨trivial, rfl⟩

section Reached

variable {completed : List Header} {place : Place Header} {got stream : List UInt8}
  {state next : State}

theorem Reached.step {act : Act} (reached : Reached completed place got stream state)
    (stepped : step state act = some next) :
    ∃ completed place' got' stream', Reached completed place' got' stream' next ∧
      ((∀ header, act ≠ .request header) → budget stream' place' < budget stream place) := by
  rw [reached.shape] at stepped
  obtain ⟨place', got', stream', new, rfl, carries, moved, fewer⟩ :=
    (step_advances reached.carries stepped).result
  rcases moved with moved | ⟨rfl, rfl⟩
  · obtain ⟨completed, lockstep⟩ := reached.lockstep.move moved (by decide)
    exact ⟨completed, place', got', stream', ⟨rfl, carries, lockstep⟩, fewer⟩
  · refine ⟨completed, place', got', stream', ⟨rfl, carries, ?_⟩, fewer⟩
    simpa [snapshot] using reached.lockstep

/-- Without further requests, the steps are bounded. -/
theorem Reached.length_le (reached : Reached completed place got stream state)
    {acts : List Act} (quiet : ∀ act ∈ acts, ∀ header, act ≠ .request header)
    (ran : acts.foldlM Simulator.step state ≠ none) : acts.length ≤ budget stream place := by
  induction acts generalizing state completed place got stream with
  | nil => exact Nat.zero_le _
  | cons act acts inductionHypothesis =>
      rw [List.foldlM_cons] at ran
      cases stepped : Simulator.step state act with
      | none => simp [stepped] at ran
      | some next =>
          obtain ⟨completed', place', got', stream', reached', fewer⟩ := reached.step stepped
          have rest := inductionHypothesis reached'
            (fun other member => quiet other (List.mem_cons_of_mem act member))
            (by simpa [stepped] using ran)
          have less := fewer (quiet act List.mem_cons_self)
          rw [List.length_cons]
          omega

theorem Reached.length_stream (reached : Reached completed place got stream state) :
    stream.length ≤ msgSize := by
  have carries := reached.carries
  cases place with
  | down hop header =>
      have length := congrArg List.length carries.1
      rw [List.length_append, length_buildMessage] at length
      omega
  | up hop header =>
      have length := congrArg List.length carries.1
      rw [List.length_append, length_buildMessage] at length
      omega
  | rest => simp [carries.2]
  | work hop header => simp [carries.2]
  | answer hop header => simp [carries.2]

theorem Reached.budget_le (reached : Reached completed place got stream state) :
    budget stream place ≤ 909 := by
  have short := reached.length_stream
  have inside := reached.lockstep.inside
  unfold msgSize at short
  cases place <;> simp only [budget, msgSize, Place.Inside] at inside ⊢ <;> omega

theorem recv_one {stream got : List UInt8} (flows : stream ≠ []) (more : got.length < msgSize) :
    recv stream got 1 = some (stream.drop 1, got ++ stream.take 1) := by
  have available := List.length_pos_iff.mpr flows
  exact recv_eq_some_iff.mpr ⟨by decide, available, more, rfl, rfl⟩

theorem stream_ne_nil {bytes got stream : List UInt8} (whole : got ++ stream = bytes)
    (size : bytes.length = msgSize) (more : got.length < msgSize) : stream ≠ [] := by
  rintro rfl
  rw [List.append_nil] at whole
  rw [whole] at more
  omega

/-- While a request is on its way, some thread can take a step. -/
theorem Reached.live (reached : Reached completed place got stream state)
    (outstanding : state.initiator ≠ none) :
    ∃ act, (∀ header, act ≠ .request header) ∧ Simulator.step state act ≠ none := by
  have inside := reached.lockstep.inside
  have carries := reached.carries
  rw [reached.shape] at outstanding ⊢
  cases place with
  | rest => exact absurd rfl outstanding
  | down hop header =>
      have flows := stream_ne_nil carries.1 (length_buildMessage _ _) carries.2
      obtain ⟨beyond, -⟩ | ⟨-, session, served, -⟩ := sessionOn_cases hop
      · exact absurd inside (Nat.not_lt.mpr beyond)
      · refine ⟨.receive hop 1, ?_, ?_⟩
        · intro header same
          cases same
        · simp only [Simulator.step, served, snapshot, phaseAt, downAt, Nat.lt_irrefl, if_true,
            if_false, recv_one flows carries.2]
          exact Option.some_ne_none _
  | work hop header =>
      obtain ⟨beyond, -⟩ | ⟨-, session, served, out⟩ := sessionOn_cases hop
      · exact absurd inside (Nat.not_lt.mpr beyond)
      · by_cases more : hop + 1 < 7
        · refine ⟨.forward hop, ?_, ?_⟩
          · intro header same
            cases same
          · simp only [Simulator.step, served, snapshot, phaseAt, Nat.lt_irrefl, if_true, if_false,
              Option.bind_some, out, if_pos more]
            exact Option.some_ne_none _
        · refine ⟨.reply hop, ?_, ?_⟩
          · intro header same
            cases same
          · simp only [Simulator.step, served, snapshot, phaseAt, Nat.lt_irrefl, if_true, if_false,
              out, if_neg more]
            exact Option.some_ne_none _
  | answer hop header =>
      obtain ⟨beyond, -⟩ | ⟨-, session, served, -⟩ := sessionOn_cases hop
      · exact absurd inside (Nat.not_lt.mpr beyond)
      · refine ⟨.reply hop, ?_, ?_⟩
        · intro header same
          cases same
        · simp only [Simulator.step, served, snapshot, phaseAt, Nat.lt_irrefl, if_true, if_false]
          exact Option.some_ne_none _
  | up hop header =>
      have flows := stream_ne_nil carries.1 (length_buildMessage _ _) carries.2
      cases hop with
      | zero =>
          refine ⟨.finish 1, ?_, ?_⟩
          · intro header same
            cases same
          · simp only [Simulator.step, firstHop_eq, snapshot, initiatorAt, upAt, if_true,
              recv_one flows carries.2]
            exact Option.some_ne_none _
      | succ hop =>
          have more : hop + 1 < 7 := inside
          obtain ⟨beyond, -⟩ | ⟨-, session, served, out⟩ := sessionOn_cases hop
          · omega
          · refine ⟨.collect hop 1, ?_, ?_⟩
            · intro header same
              cases same
            · simp only [Simulator.step, served, snapshot, phaseAt, upAt, Option.bind_some, out,
                if_pos more, Nat.lt_irrefl, if_true, if_false, recv_one flows carries.2]
              exact Option.some_ne_none _

end Reached

/-- The sends are whole cycles, REQ on hop 0 to 6 and REP on hop 6 to 0, and the
part of one more while a request is on its way.  The request is answered: some
thread can always go on, and they have a bounded number of steps to take. -/
structure Serves (state : State) : Prop where
  lockstep : ∃ completed : List Header,
    (state.initiator = none → state.sent = completed.flatMap (cycle 7 replyTo)) ∧
    (state.initiator ≠ none → ∃ header count, 0 < count ∧ count ≤ 14 ∧
      state.sent = completed.flatMap (cycle 7 replyTo) ++ (cycle 7 replyTo header).take count)
  live : state.initiator ≠ none →
    ∃ act, (∀ header, act ≠ .request header) ∧ step state act ≠ none
  bounded : ∀ acts : List Act, (∀ act ∈ acts, ∀ header, act ≠ .request header) →
    acts.foldlM step state ≠ none → acts.length ≤ 909

theorem Reached.serves {completed : List Header} {place : Place Header}
    {got stream : List UInt8} {state : State} (reached : Reached completed place got stream state) :
    Serves state where
  lockstep := by
    refine ⟨completed, ?_, ?_⟩
    · intro ready
      rw [reached.shape] at ready
      cases rest_of_initiator ready
      rw [reached.lockstep.sent, Place.current, List.append_nil]
    · intro outstanding
      have inside := reached.lockstep.inside
      rw [reached.shape] at outstanding
      cases place with
      | rest => exact absurd rfl outstanding
      | down hop header =>
          have within : hop < 7 := inside
          exact ⟨header, hop + 1, by omega, by omega, reached.lockstep.sent⟩
      | work hop header =>
          have within : hop < 7 := inside
          exact ⟨header, hop + 1, by omega, by omega, reached.lockstep.sent⟩
      | answer hop header =>
          have within : hop < 7 := inside
          exact ⟨header, 2 * 7 - hop - 1, by omega, by omega, reached.lockstep.sent⟩
      | up hop header =>
          have within : hop < 7 := inside
          exact ⟨header, 2 * 7 - hop, by omega, by omega, reached.lockstep.sent⟩
  live := reached.live
  bounded _ quiet ran := (reached.length_le quiet ran).trans reached.budget_le

theorem reached_of_run {acts : List Act} {state : State}
    (ran : acts.foldlM step State.initial = some state) :
    ∃ completed place got stream, Reached completed place got stream state := by
  apply Run.foldlM_invariant (fun state => ∃ completed place got stream,
    Reached completed place got stream state) ?_ ran
  · exact ⟨_, _, _, _, reached_initial⟩
  · rintro act - state next stepped ⟨completed, place, got, stream, reached⟩
    obtain ⟨completed, place, got, stream, reached, -⟩ := reached.step stepped
    exact ⟨completed, place, got, stream, reached⟩

/-- In every interleaving of the threads and for every way the streams cut the
messages. -/
theorem serves_of_run (acts : List Act) (state : State)
    (ran : acts.foldlM step State.initial = some state) : Serves state := by
  obtain ⟨completed, place, got, stream, reached⟩ := reached_of_run ran
  exact reached.serves

def wholeCycle : List Act :=
  .request (7, 41) ::
    ((List.range 7).flatMap fun hop =>
      [.receive hop 20, .receive hop 44] ++ if hop < 6 then [.forward hop] else []) ++
    (List.range 7).reverse.flatMap fun hop =>
      .reply hop :: if hop = 0 then [.finish 64] else [.collect (hop - 1) 64]

theorem serves_wholeCycle :
    ∃ state, wholeCycle.foldlM step State.initial = some state ∧
      state.sent = cycle 7 replyTo (7, 41) ∧ Serves state := by
  have ran : (wholeCycle.foldlM step State.initial).map State.sent =
      some (cycle 7 replyTo (7, 41)) := by
    decide +kernel
  obtain ⟨state, reached, sent⟩ := Option.map_eq_some_iff.mp ran
  exact ⟨state, reached, sent, serves_of_run wholeCycle state reached⟩

end BpfAgent.Sca.Simulator
