import CostGovernor.Answers

/-!
# The steps of a handler

One step of a handler sends the reply that `answer` gives for the states found so far, or
leaves its session with what `InHand` says, which is enough to go on from.
-/

namespace CostGovernor

open CoordinatorReply

namespace Coordinator

structure Advances (c c' : Coordinator) (s : ℕ) (st : SessionState) (sent : List CoordinatorReply) :
    Prop where
  sessions : c'.sessions = Function.update c.sessions s st
  replies : c'.replies = c.replies ++ sent.map (Prod.mk s)

theorem advances_finish (c : Coordinator) (g : Governor) (s : ℕ) (reply : CoordinatorReply) :
    Advances c ({ c with gov := g }.finish s reply) s .idle [reply] := ⟨rfl, rfl⟩

theorem advances_setSession (c : Coordinator) (g : Governor) (s : ℕ) (st : SessionState) :
    Advances c ({ c with gov := g }.setSession s st) s st [] := ⟨rfl, (List.append_nil _).symm⟩

/-- What a step of the handler of `m` comes to; `later` has the state of the step. -/
inductive Handled (c : Coordinator) (s : ℕ) (taken : Coordinator) (later : List Coordinator)
    (m : Message) (c' : Coordinator) : Prop
  | answered (reply : CoordinatorReply) (hmoves : Advances c c' s .idle [reply])
      (hready : answer taken later m = some reply)
  | begun (st : SessionState) (hmoves : Advances c c' s st []) (hhand : InHand taken later m st)

section Received

variable {c : Coordinator} {s : ℕ} {m : Message}

theorem handled_write (x : Status × Governor) (h : answer c [] m = some (.status x.1)) :
    Handled c s c [] m (c.afterWrite s x) := by
  unfold afterWrite
  split_ifs
  · exact .begun (.persisting x.1) (c.advances_setSession x.2 s _) h
  · exact .answered (.status x.1) (c.advances_finish x.2 s _) h

theorem handled_reserve (x : Governor.ReserveResult) (h : answer c [] m = some (ofReserve x)) :
    Handled c s c [] m (c.afterReserve s x) := by
  obtain ⟨result, r, g⟩ := x
  cases result with
  | error e => exact .answered failed (c.advances_finish g s _) h
  | ok st =>
      by_cases hgranted : st = .ok ∧ r.isSome
      · obtain ⟨rfl, hsome⟩ := hgranted
        obtain ⟨r, rfl⟩ := Option.isSome_iff_exists.1 hsome
        exact .begun (.granted r) (c.advances_setSession g s _) h
      · have hfinish : c.afterReserve s (.ok st, r, g) =
            { c with gov := g }.finish s (.reservation st none) := by
          cases st <;> cases r <;> first | rfl | simp at hgranted
        have hreply : ofReserve (.ok st, r, g) = .reservation st none := by
          cases st <;> cases r <;> first | rfl | simp at hgranted
        rw [hfinish]
        exact .answered _ (c.advances_finish g s _) (hreply ▸ h)

theorem handled_settle (kind : SettleKind) (token : ReservationId) :
    Handled c s c [] (.settle kind token) (c.receive s (.settle kind token)) := by
  cases hfound : c.reservations.find? token with
  | none =>
      have hanswer : answer c [] (.settle kind token) = some (.status .invalidInput) := by
        rw [answer, hfound]
      rw [receive, hfound]
      exact .answered _ (c.advances_finish c.gov s _) hanswer
  | some r =>
      rw [receive, hfound]
      exact .begun _ (c.advances_setSession c.gov s _) ⟨rfl, rfl, hfound⟩

theorem handled_realize (request : RequestId) (workload : WorkloadId) :
    Handled c s c [] (.realize request workload) (c.receive s (.realize request workload)) := by
  cases hx : c.gov.finalizeRequest request workload with
  | mk result g =>
      have hresult : (c.gov.finalizeRequest request workload).1 = result := by rw [hx]
      rw [receive, hx]
      cases result with
      | error e =>
          refine .answered failed (c.advances_finish g s _) ?_
          rw [answer, hresult]
      | ok st => exact .begun _ (c.advances_setSession g s _) ⟨rfl, workload, rfl, hresult⟩

theorem handled_requestEval (workload : WorkloadId) (workloadGen : WorkloadGeneration)
    (plans : List ExecutionPlan) :
    Handled c s c [] (.requestEval workload workloadGen plans)
      (c.receive s (.requestEval workload workloadGen plans)) := by
  by_cases hcount : maxPlans < plans.length
  · rw [receive, if_pos hcount]
    exact .answered failed (c.advances_finish c.gov s _) (if_pos hcount)
  · have hanswer : answer c [] (.requestEval workload workloadGen plans) =
        some (ofDecision (c.gov.evaluate workload workloadGen plans)) := if_neg hcount
    rw [receive, if_neg hcount]
    cases hd : c.gov.evaluate workload workloadGen plans with
    | error e =>
        rw [hd] at hanswer
        exact .answered failed (c.advances_finish c.gov s _) hanswer
    | ok d =>
        rw [hd] at hanswer
        exact .begun (.evaluated d) (c.advances_setSession c.gov s _) hanswer

end Received

theorem receive_handled (c : Coordinator) (s : ℕ) {m : Message} (hm : m ≠ .quit) :
    Handled c s c [] m (c.receive s m) := by
  cases m with
  | hello worker boot =>
      exact .answered _ (c.advances_finish (c.gov.setWorkerBoot worker boot) s _) rfl
  | publishPrice obs => exact handled_write _ rfl
  | requestEval workload workloadGen plans => exact handled_requestEval _ _ _
  | recordAttempt e => exact handled_write _ rfl
  | reserve budget gen epoch amount => exact handled_reserve _ rfl
  | settle kind token => exact handled_settle _ _
  | realize request workload => exact handled_realize _ _
  | getState => exact .begun _ (c.advances_setSession c.gov s _) ⟨rfl, .epoch⟩
  | revalidate plans =>
      by_cases hcount : maxPlans < plans.length
      · rw [receive, if_pos hcount]
        exact .answered failed (c.advances_finish c.gov s _) (if_pos hcount)
      · rw [receive, if_neg hcount]
        exact .begun _ (c.advances_setSession c.gov s _) ⟨rfl, rfl, not_lt.1 hcount, rfl⟩
  | quit => exact absurd rfl hm
  | malformed => exact .answered _ (c.advances_finish c.gov s _) rfl
  | unknown => exact .answered _ (c.advances_finish c.gov s _) rfl

theorem afterRead_handled {c taken : Coordinator} {s : ℕ} {later : List Coordinator}
    {reads : StateReads} (h : ReadFrom taken later reads) :
    Handled c s taken (later ++ [c]) .getState (c.afterRead s reads) := by
  cases h with
  | epoch => exact .begun _ (c.advances_setSession c.gov s _) ⟨rfl, .prices c⟩
  | prices c₁ => exact .begun _ (c.advances_setSession c.gov s _) ⟨rfl, .policy c₁ c⟩
  | policy c₁ c₂ => exact .begun _ (c.advances_setSession c.gov s _) ⟨rfl, .budgets c₁ c₂ c⟩
  | budgets c₁ c₂ c₃ => exact .answered _ (c.advances_finish c.gov s _) rfl

theorem proceed_handled {c taken : Coordinator} {s : ℕ} {later : List Coordinator} {m : Message}
    {st : SessionState} (h : InHand taken later m st) (saved : Bool) :
    Handled c s taken (later ++ [c]) m (c.proceed s saved st) := by
  cases st with
  | idle => exact h.elim
  | persisting st => exact .begun _ (c.advances_setSession c.gov s _) (answer_append h [c])
  | saving st snap => exact .answered _ ⟨rfl, rfl⟩ (answer_append h [c])
  | evaluated d => exact .answered _ ⟨rfl, rfl⟩ (answer_append h [c])
  | granted r => exact .answered _ ⟨rfl, rfl⟩ (answer_append h [c])
  | copied kind token r =>
      obtain ⟨rfl, rfl, hfound⟩ := h
      have hanswer := answer_settle c [] kind hfound
      change Handled c s taken [c] _ (c.afterSettle s token (settleCall c.gov kind r))
      generalize settleCall c.gov kind r = x at hanswer ⊢
      obtain ⟨result, r', g⟩ := x
      cases result with
      | error e => exact .answered failed (c.advances_finish g s _) hanswer
      | ok st => exact .begun _ (c.advances_setSession g s _) hanswer
  | settled token r st => exact .answered _ ⟨rfl, rfl⟩ (answer_append h [c])
  | finalized request st =>
      obtain ⟨rfl, workload, rfl, hfinal⟩ := h
      have hanswer := answer_realize c [] hfinal
      rw [proceed]
      cases hcost : c.gov.realizedRequestCost request with
      | error e =>
          rw [hcost] at hanswer
          exact .answered failed (c.advances_finish c.gov s _) hanswer
      | ok cost =>
          rw [hcost] at hanswer
          exact .answered _ (c.advances_finish c.gov s _) hanswer
  | reading reads =>
      obtain ⟨rfl, hreads⟩ := h
      exact afterRead_handled hreads
  | revalidating last plans =>
      obtain ⟨rfl, rfl, hcount, rfl⟩ := h
      have hanswer : answer taken [c] (.revalidate plans) =
          some (ofStatus (c.gov.validateForDispatch taken.lastDecision plans)) :=
        if_neg (not_lt.2 hcount)
      rw [proceed]
      cases hst : c.gov.validateForDispatch taken.lastDecision plans with
      | error e =>
          rw [hst] at hanswer
          exact .answered failed (c.advances_finish c.gov s _) hanswer
      | ok st =>
          rw [hst] at hanswer
          exact .answered _ (c.advances_finish c.gov s _) hanswer

end Coordinator

end CostGovernor
