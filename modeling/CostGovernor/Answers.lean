import CostGovernor.CoordinatorCalls

/-!
# What a handler answers

A handler may take several steps, and other sessions step between them. `answer` is the
reply as a function of the states its own steps find: the one that takes the message and
the ones in which it is resumed. COMMIT, RELEASE, REALIZE and REVALIDATE read two states
and GET_STATE five; the other handlers have their reply after the first step.
-/

namespace CostGovernor

namespace CoordinatorReply

/-- The reply of the session loop to an exception. -/
def failed : CoordinatorReply := .status .interventionFailed

def ofStatus : Except Exn Status → CoordinatorReply
  | .error _ => failed
  | .ok st => .status st

def ofDecision : Except Exn CostDecision → CoordinatorReply
  | .error _ => failed
  | .ok d => .decision d

def ofReserve : Governor.ReserveResult → CoordinatorReply
  | (.error _, _, _) => failed
  | (.ok .ok, some r, _) => .reservation .ok (some r)
  | (.ok st, _, _) => .reservation st none

def ofCost (st : Status) : Except Exn MoneyMicros → CoordinatorReply
  | .error _ => failed
  | .ok cost => .realized st cost

end CoordinatorReply

open CoordinatorReply

/-- The reply to a message that is taken in one state and resumed in the `later` ones. QUIT
has none. -/
def answer (taken : Coordinator) (later : List Coordinator) : Message → Option CoordinatorReply
  | .hello _ boot => some (.welcome taken.gov.epoch boot)
  | .publishPrice obs => some (.status (taken.gov.publishPrice obs).1)
  | .requestEval workload workloadGen plans =>
    if maxPlans < plans.length then some failed
    else some (ofDecision (taken.gov.evaluate workload workloadGen plans))
  | .recordAttempt e => some (.status (taken.gov.recordAttempt e).1)
  | .reserve budget gen epoch amount => some (ofReserve (taken.gov.reserve budget gen epoch amount))
  | .settle kind token =>
    match taken.reservations.find? token with
    | none => some (.status .invalidInput)
    | some r => later.head?.map fun c => ofStatus (Coordinator.settleCall c.gov kind r).1
  | .realize request workload =>
    match (taken.gov.finalizeRequest request workload).1 with
    | .error _ => some failed
    | .ok st => later.head?.map fun c => ofCost st (c.gov.realizedRequestCost request)
  | .getState =>
    match later with
    | c₁ :: c₂ :: c₃ :: c₄ :: _ =>
      some (.report taken.gov.epoch c₁.gov.schedule.generation c₂.gov.policy.generation
        c₃.gov.budgets.values.length c₄.gov.schedule.observations.length)
    | _ => none
  | .revalidate plans =>
    if maxPlans < plans.length then some failed
    else later.head?.map fun c => ofStatus (c.gov.validateForDispatch taken.lastDecision plans)
  | .quit => none
  | .malformed => some failed
  | .unknown => some (.status .protocolError)

/-- GET_STATE has no reply before its five reads. -/
theorem five_states_of_answer {taken : Coordinator} {later : List Coordinator}
    {reply : CoordinatorReply} (h : answer taken later .getState = some reply) :
    ∃ c₁ c₂ c₃ c₄ rest, later = c₁ :: c₂ :: c₃ :: c₄ :: rest := by
  rcases later with _ | ⟨c₁, _ | ⟨c₂, _ | ⟨c₃, _ | ⟨c₄, rest⟩⟩⟩⟩
  · cases h
  · cases h
  · cases h
  · cases h
  · exact ⟨c₁, c₂, c₃, c₄, rest, rfl⟩

/-- A reply that is settled does not depend on what comes after. -/
theorem answer_append {taken : Coordinator} {later : List Coordinator} {m : Message}
    {reply : CoordinatorReply} (h : answer taken later m = some reply) (more : List Coordinator) :
    answer taken (later ++ more) m = some reply := by
  cases m with
  | settle kind token =>
      rw [answer] at h ⊢
      cases hfound : taken.reservations.find? token with
      | none =>
          rw [hfound] at h
          exact h
      | some r =>
          rw [hfound] at h
          cases later with
          | nil => cases h
          | cons c later => exact h
  | realize request workload =>
      rw [answer] at h ⊢
      cases hresult : (taken.gov.finalizeRequest request workload).1 with
      | error e =>
          rw [hresult] at h
          exact h
      | ok st =>
          rw [hresult] at h
          cases later with
          | nil => cases h
          | cons c later => exact h
  | getState =>
      obtain ⟨c₁, c₂, c₃, c₄, rest, rfl⟩ := five_states_of_answer h
      exact h
  | revalidate plans =>
      rw [answer] at h ⊢
      split_ifs at h ⊢ with hcount
      · exact h
      · cases later with
        | nil => cases h
        | cons c later => exact h
  | _ => exact h

section Answer

variable {taken : Coordinator} (c : Coordinator) (later : List Coordinator)

theorem answer_settle (kind : SettleKind) {token : ReservationId} {r : BudgetReservation}
    (h : taken.reservations.find? token = some r) :
    answer taken (c :: later) (.settle kind token) =
      some (ofStatus (Coordinator.settleCall c.gov kind r).1) := by
  rw [answer, h]
  rfl

theorem answer_realize {request : RequestId} {workload : WorkloadId} {st : Status}
    (h : (taken.gov.finalizeRequest request workload).1 = .ok st) :
    answer taken (c :: later) (.realize request workload) =
      some (ofCost st (c.gov.realizedRequestCost request)) := by
  rw [answer, h]
  rfl

end Answer

inductive ReadFrom (taken : Coordinator) : List Coordinator → StateReads → Prop
  | epoch : ReadFrom taken [] (.epoch taken.gov.epoch)
  | prices (c₁ : Coordinator) :
      ReadFrom taken [c₁] (.prices taken.gov.epoch c₁.gov.schedule.generation)
  | policy (c₁ c₂ : Coordinator) :
      ReadFrom taken [c₁, c₂]
        (.policy taken.gov.epoch c₁.gov.schedule.generation c₂.gov.policy.generation)
  | budgets (c₁ c₂ c₃ : Coordinator) :
      ReadFrom taken [c₁, c₂, c₃]
        (.budgets taken.gov.epoch c₁.gov.schedule.generation c₂.gov.policy.generation
          c₃.gov.budgets.values.length)

def InHand (taken : Coordinator) (later : List Coordinator) (m : Message) : SessionState → Prop
  | .idle => False
  | .persisting st | .saving st _ => answer taken later m = some (.status st)
  | .evaluated d => answer taken later m = some (.decision d)
  | .granted r => answer taken later m = some (.reservation .ok (some r))
  | .copied kind token r =>
    later = [] ∧ m = .settle kind token ∧ taken.reservations.find? token = some r
  | .settled _ _ st => answer taken later m = some (.status st)
  | .finalized request st => later = [] ∧ ∃ workload, m = .realize request workload ∧
    (taken.gov.finalizeRequest request workload).1 = .ok st
  | .reading reads => m = .getState ∧ ReadFrom taken later reads
  | .revalidating last plans => later = [] ∧ m = .revalidate plans ∧ plans.length ≤ maxPlans ∧
    last = taken.lastDecision

end CostGovernor
