import CostGovernor.CoordinatorSteps
import CostGovernor.EvidenceEffects

/-!
# The governor calls of a coordinator

A step of the coordinator makes at most one call that writes governor state, so its
runs are runs of the governor's own state machine, and a step moves the session it
is for and no other. What a call may do to prices, budgets and history is taken
from the lemmas about the governor.
-/

namespace CostGovernor

open CheckOut

def Event.session : Event → ℕ
  | .message s _ => s
  | .resume s _ => s

namespace Coordinator

def callOf : Message → Option Op
  | .hello worker boot => some (.setWorkerBoot worker boot)
  | .publishPrice obs => some (.publishPrice obs)
  | .recordAttempt e => some (.recordAttempt e)
  | .reserve budget gen epoch amount => some (.reserve budget gen epoch amount)
  | .realize request workload => some (.finalizeRequest request workload)
  | _ => none

def pendingCall : SessionState → Option Op
  | .copied .commit _ r => some (.commit r)
  | .copied .release _ r => some (.release r)
  | _ => none

def governorCall (c : Coordinator) : Event → Option Op
  | .message s m =>
    match c.sessions s with
    | .idle => callOf m
    | _ => none
  | .resume s _ => pendingCall (c.sessions s)

def applyCall (g : Governor) : Option Op → Governor
  | some op => g.apply op
  | none => g

theorem afterReserve_gov (c : Coordinator) (s : ℕ) (x : Governor.ReserveResult) :
    (c.afterReserve s x).gov = x.2.2 := by
  obtain ⟨result, r, g⟩ := x
  cases result with
  | error e => rfl
  | ok st => cases st <;> cases r <;> rfl

theorem receive_gov (c : Coordinator) (s : ℕ) (m : Message) :
    (c.receive s m).gov = applyCall c.gov (callOf m) := by
  cases m with
  | publishPrice obs =>
      dsimp only [receive, afterWrite]
      split_ifs <;> rfl
  | recordAttempt e =>
      dsimp only [receive, afterWrite]
      split_ifs <;> rfl
  | requestEval workload workloadGen plans =>
      dsimp only [receive]
      split_ifs
      · rfl
      · cases c.gov.evaluate workload workloadGen plans <;> rfl
  | reserve budget gen epoch amount => exact c.afterReserve_gov s _
  | settle kind token =>
      dsimp only [receive]
      cases c.reservations.find? token <;> rfl
  | realize request workload =>
      change _ = (c.gov.finalizeRequest request workload).2
      dsimp only [receive]
      generalize c.gov.finalizeRequest request workload = x
      obtain ⟨result, g⟩ := x
      cases result <;> rfl
  | revalidate plans =>
      dsimp only [receive]
      split_ifs <;> rfl
  | _ => rfl

theorem proceed_gov (c : Coordinator) (s : ℕ) (saved : Bool) (st : SessionState) :
    (c.proceed s saved st).gov = applyCall c.gov (pendingCall st) := by
  cases st with
  | copied kind token r =>
      change (c.afterSettle s token (settleCall c.gov kind r)).gov = _
      rw [afterSettle_gov]
      cases kind <;> rfl
  | finalized request st =>
      dsimp only [proceed]
      cases c.gov.realizedRequestCost request <;> rfl
  | reading reads => cases reads <;> rfl
  | revalidating last plans =>
      dsimp only [proceed]
      cases c.gov.validateForDispatch last plans <;> rfl
  | _ => rfl

/-- A run of the coordinator is a run of the governor's state machine. -/
theorem step_gov (c : Coordinator) (e : Event) :
    (c.step e).gov = applyCall c.gov (c.governorCall e) := by
  cases e with
  | message s m =>
      by_cases hidle : c.sessions s = .idle
      · rw [step_message_of_idle hidle, receive_gov, governorCall, hidle]
      · rw [step_message_of_busy hidle, governorCall]
        split
        · contradiction
        · rfl
  | resume s saved => exact c.proceed_gov s saved _

theorem governorCall_eq_some {c : Coordinator} {e : Event} {op : Op}
    (h : c.governorCall e = some op) :
    (∃ s m, e = .message s m ∧ c.sessions s = .idle ∧ callOf m = some op) ∨
      ∃ s saved, e = .resume s saved ∧ pendingCall (c.sessions s) = some op := by
  cases e with
  | message s m =>
      dsimp only [governorCall] at h
      split at h
      · exact Or.inl ⟨s, m, rfl, ‹_›, h⟩
      · cases h
  | resume s saved => exact Or.inr ⟨s, saved, rfl, h⟩

/-- Where the first step of a handler can leave its session. -/
structure FirstState (c : Coordinator) (m : Message) (st : SessionState) : Prop where
  pending : st.pending = none
  finalized : ∀ request, st = .finalized request .ok → ∃ workload, m = .realize request workload ∧
    (c.gov.finalizeRequest request workload).1 = .ok .ok

theorem receive_sessions {c : Coordinator} {s : ℕ} (hidle : c.sessions s = .idle) (m : Message) :
    ∃ st, (c.receive s m).sessions = Function.update c.sessions s st ∧ FirstState c m st := by
  cases m with
  | publishPrice obs =>
      dsimp only [receive, afterWrite]
      split_ifs <;> exact ⟨_, rfl, rfl, by simp⟩
  | recordAttempt e =>
      dsimp only [receive, afterWrite]
      split_ifs <;> exact ⟨_, rfl, rfl, by simp⟩
  | requestEval workload workloadGen plans =>
      dsimp only [receive]
      split_ifs
      · exact ⟨_, rfl, rfl, by simp⟩
      · cases c.gov.evaluate workload workloadGen plans <;> exact ⟨_, rfl, rfl, by simp⟩
  | reserve budget gen epoch amount =>
      change ∃ st, (c.afterReserve s (c.gov.reserve budget gen epoch amount)).sessions = _ ∧ _
      generalize c.gov.reserve budget gen epoch amount = x
      obtain ⟨result, r, g⟩ := x
      cases result with
      | error e => exact ⟨_, rfl, rfl, by simp⟩
      | ok st => cases st <;> cases r <;> exact ⟨_, rfl, rfl, by simp⟩
  | settle kind token =>
      dsimp only [receive]
      cases c.reservations.find? token <;> exact ⟨_, rfl, rfl, by simp⟩
  | realize request workload =>
      dsimp only [receive]
      cases hx : c.gov.finalizeRequest request workload with
      | mk result g =>
          cases result with
          | error e => exact ⟨_, rfl, rfl, by simp⟩
          | ok st =>
              refine ⟨_, rfl, rfl, fun request' h => ?_⟩
              cases h
              exact ⟨workload, rfl, congrArg Prod.fst hx⟩
  | revalidate plans =>
      dsimp only [receive]
      split_ifs <;> exact ⟨_, rfl, rfl, by simp⟩
  | quit =>
      have hself := Function.update_eq_self s c.sessions
      rw [hidle] at hself
      exact ⟨.idle, hself.symm, rfl, by simp⟩
  | _ => exact ⟨_, rfl, rfl, by simp⟩

structure NextState (c : Coordinator) (st : SessionState) : Prop where
  pending : st.pending = none ∨ st.pending = some c.gov.snapshot
  finalized : ∀ request, st ≠ .finalized request .ok

theorem proceed_sessions (c : Coordinator) (s : ℕ) (saved : Bool) :
    ∃ st, (c.proceed s saved (c.sessions s)).sessions = Function.update c.sessions s st ∧
      NextState c st := by
  cases hst : c.sessions s with
  | idle =>
      have hself := Function.update_eq_self s c.sessions
      rw [hst] at hself
      exact ⟨.idle, hself.symm, Or.inl rfl, by simp⟩
  | persisting st => exact ⟨_, rfl, Or.inr rfl, by simp⟩
  | copied kind token r =>
      change ∃ st, (c.afterSettle s token (settleCall c.gov kind r)).sessions = _ ∧ _
      generalize settleCall c.gov kind r = x
      obtain ⟨result, r', g⟩ := x
      cases result <;> exact ⟨_, rfl, Or.inl rfl, by simp⟩
  | finalized request st =>
      dsimp only [proceed]
      cases c.gov.realizedRequestCost request <;> exact ⟨_, rfl, Or.inl rfl, by simp⟩
  | reading reads => cases reads <;> exact ⟨_, rfl, Or.inl rfl, by simp⟩
  | revalidating last plans =>
      dsimp only [proceed]
      cases c.gov.validateForDispatch last plans <;> exact ⟨_, rfl, Or.inl rfl, by simp⟩
  | _ => exact ⟨_, rfl, Or.inl rfl, by simp⟩

/-- What a step does to a session: nothing, the first step of a handler, or a later one. -/
theorem step_session (c : Coordinator) (e : Event) (s : ℕ) :
    (c.step e).sessions s = c.sessions s ∨
      (∃ m, e = .message s m ∧ c.sessions s = .idle ∧ FirstState c m ((c.step e).sessions s)) ∨
      ∃ saved, e = .resume s saved ∧ NextState c ((c.step e).sessions s) := by
  cases e with
  | message s' m =>
      by_cases hidle : c.sessions s' = .idle
      · obtain ⟨st, hst, hfirst⟩ := receive_sessions hidle m
        rw [step_message_of_idle hidle, hst]
        by_cases hs : s = s'
        · subst hs
          rw [Function.update_self]
          exact Or.inr (Or.inl ⟨m, rfl, hidle, hfirst⟩)
        · exact Or.inl (Function.update_of_ne hs _ _)
      · exact Or.inl (by rw [step_message_of_busy hidle])
  | resume s' saved =>
      obtain ⟨st, hst, hnext⟩ := c.proceed_sessions s' saved
      have hsessions : (c.step (.resume s' saved)).sessions = Function.update c.sessions s' st := hst
      rw [hsessions]
      by_cases hs : s = s'
      · subst hs
        rw [Function.update_self]
        exact Or.inr (Or.inr ⟨saved, rfl, hnext⟩)
      · exact Or.inl (Function.update_of_ne hs _ _)

/-- A session holds the snapshot it held before, or has just copied it. -/
theorem step_pending {c : Coordinator} {e : Event} {s : ℕ} {snap : DurableSnapshot}
    (h : ((c.step e).sessions s).pending = some snap) :
    (c.sessions s).pending = some snap ∨ snap = c.gov.snapshot := by
  rcases c.step_session e s with hsame | ⟨m, _, _, hfirst⟩ | ⟨saved, _, hnext⟩
  · exact Or.inl (hsame ▸ h)
  · rw [hfirst.pending] at h
    cases h
  · rcases hnext.pending with hnone | hcopied
    · rw [hnone] at h
      cases h
    · exact Or.inr (Option.some.inj (h.symm.trans hcopied))

/-- A session answers a REALIZE it has just handed to the governor, or had before. -/
theorem step_finalized {c : Coordinator} {e : Event} {s : ℕ} {request : RequestId}
    (h : (c.step e).sessions s = .finalized request .ok) :
    c.sessions s = .finalized request .ok ∨
      ∃ workload, c.governorCall e = some (.finalizeRequest request workload) ∧
        (c.gov.finalizeRequest request workload).1 = .ok .ok := by
  rcases c.step_session e s with hsame | ⟨m, rfl, hidle, hfirst⟩ | ⟨saved, _, hnext⟩
  · exact Or.inl (hsame ▸ h)
  · obtain ⟨workload, rfl, hok⟩ := hfirst.finalized request h
    refine Or.inr ⟨workload, ?_, hok⟩
    rw [governorCall, hidle]
    rfl
  · exact absurd h (hnext.finalized request)

end Coordinator

end CostGovernor
