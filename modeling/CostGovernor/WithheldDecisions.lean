import CostGovernor.CoordinatorSteps

/-!
# Decisions while revalidation is needed

Until a price is published, `evaluate` answers REVALIDATE whatever it is asked. No session
then holds a decision that authorizes and neither does the shared slot, so a REVALIDATE
message has nothing to judge and is answered OK.
-/

namespace CostGovernor

open Coordinator

def SessionState.Withheld : SessionState → Prop
  | .evaluated d => d.kind = .revalidate
  | .revalidating last _ => last.kind ≠ .authorize
  | _ => True

/-- Since its start the coordinator has returned REVALIDATE decisions only. -/
structure Withheld (c : Coordinator) : Prop where
  last : c.lastDecision.kind ≠ .authorize
  sessions : ∀ s, (c.sessions s).Withheld
  replies : ∀ s d, (s, .decision d) ∈ c.replies → d.kind = .revalidate

theorem withheld_boot (file : Option DurableSnapshot) : Withheld (boot file) := by
  refine ⟨?_, fun s => ?_, fun s d h => ?_⟩
  · cases file <;> exact fun h => nomatch h
  · rw [boot_sessions]
    trivial
  · cases file <;> cases h

variable {c c' : Coordinator} {s : ℕ} {st : SessionState} {reply : CoordinatorReply}

theorem Withheld.setSession (h : Withheld c) (hlast : c'.lastDecision = c.lastDecision)
    (hsessions : c'.sessions = c.sessions) (hreplies : c'.replies = c.replies)
    (hst : st.Withheld) : Withheld (c'.setSession s st) := by
  refine ⟨?_, fun t => ?_, ?_⟩
  · change c'.lastDecision.kind ≠ _
    rw [hlast]
    exact h.last
  · change (Function.update c'.sessions s st t).Withheld
    rw [hsessions, Function.update_apply]
    split_ifs
    · exact hst
    · exact h.sessions t
  · change ∀ s d, (s, .decision d) ∈ c'.replies → _
    rw [hreplies]
    exact h.replies

theorem Withheld.finish (h : Withheld c) (hlast : c'.lastDecision.kind ≠ .authorize)
    (hsessions : c'.sessions = c.sessions) (hreplies : c'.replies = c.replies)
    (hreply : ∀ d, reply = .decision d → d.kind = .revalidate) :
    Withheld (c'.finish s reply) := by
  refine ⟨hlast, fun t => ?_, fun t d hd => ?_⟩
  · change (Function.update c'.sessions s .idle t).Withheld
    rw [hsessions, Function.update_apply]
    split_ifs
    · trivial
    · exact h.sessions t
  · change _ ∈ c'.replies ++ [(s, reply)] at hd
    rw [hreplies] at hd
    rcases List.mem_append.1 hd with hold | hnew
    · exact h.replies t d hold
    · exact hreply d (congrArg Prod.snd (List.mem_singleton.1 hnew)).symm

theorem Withheld.afterWrite (h : Withheld c) (x : Status × Governor) :
    Withheld (c.afterWrite s x) := by
  unfold Coordinator.afterWrite
  split_ifs
  · exact h.setSession rfl rfl rfl trivial
  · exact h.finish h.last rfl rfl (fun d hd => nomatch hd)

theorem Withheld.afterReserve (h : Withheld c) (x : Governor.ReserveResult) :
    Withheld (c.afterReserve s x) := by
  obtain ⟨result, r, g⟩ := x
  cases result with
  | error e => exact h.finish h.last rfl rfl (fun d hd => nomatch hd)
  | ok st =>
      cases r with
      | none => cases st <;> exact h.finish h.last rfl rfl (fun d hd => nomatch hd)
      | some r =>
          cases st with
          | ok => exact h.setSession rfl rfl rfl trivial
          | _ => exact h.finish h.last rfl rfl (fun d hd => nomatch hd)

/-- What `evaluate` answers until a price is published. -/
theorem evaluate_of_revalidationNeeded {g : Governor} (h : g.revalidationNeeded = true)
    (workload : WorkloadId) (gen : WorkloadGeneration) (plans : List ExecutionPlan) :
    ∃ d, g.evaluate workload gen plans = .ok d ∧ d.kind = .revalidate :=
  ⟨_, if_pos h, rfl⟩

theorem Withheld.receive (h : Withheld c) (hneeded : c.gov.revalidationNeeded = true)
    (m : Message) : Withheld (c.receive s m) := by
  cases m with
  | publishPrice obs => exact h.afterWrite _
  | recordAttempt e => exact h.afterWrite _
  | reserve budget gen epoch amount => exact h.afterReserve _
  | requestEval workload gen plans =>
      obtain ⟨d, hd, hkind⟩ := evaluate_of_revalidationNeeded hneeded workload gen plans
      dsimp only [Coordinator.receive]
      split_ifs
      · exact h.finish h.last rfl rfl (fun d hd => nomatch hd)
      · rw [hd]
        exact h.setSession rfl rfl rfl hkind
  | settle kind token =>
      dsimp only [Coordinator.receive]
      cases c.reservations.find? token with
      | none => exact h.finish h.last rfl rfl (fun d hd => nomatch hd)
      | some r => exact h.setSession rfl rfl rfl trivial
  | realize request workload =>
      dsimp only [Coordinator.receive]
      generalize c.gov.finalizeRequest request workload = x
      obtain ⟨result, g⟩ := x
      cases result with
      | error e => exact h.finish h.last rfl rfl (fun d hd => nomatch hd)
      | ok st => exact h.setSession rfl rfl rfl trivial
  | revalidate plans =>
      dsimp only [Coordinator.receive]
      split_ifs
      · exact h.finish h.last rfl rfl (fun d hd => nomatch hd)
      · exact h.setSession rfl rfl rfl h.last
  | getState => exact h.setSession rfl rfl rfl trivial
  | quit => exact h
  | _ => exact h.finish h.last rfl rfl (fun d hd => nomatch hd)

theorem Withheld.proceed (h : Withheld c) (saved : Bool) :
    Withheld (c.proceed s saved (c.sessions s)) := by
  have hst := h.sessions s
  cases hs : c.sessions s with
  | idle => exact h
  | persisting st => exact h.setSession rfl rfl rfl trivial
  | copied kind token r =>
      change Withheld (c.afterSettle s token (settleCall c.gov kind r))
      generalize settleCall c.gov kind r = x
      obtain ⟨result, r', g⟩ := x
      cases result with
      | error e => exact h.finish h.last rfl rfl (fun d hd => nomatch hd)
      | ok st => exact h.setSession rfl rfl rfl trivial
  | evaluated d =>
      -- The decision that is returned is the one the shared slot holds next.
      rw [hs] at hst
      have hkind : d.kind = .revalidate := hst
      have hlast : d.kind ≠ .authorize := by
        rw [hkind]
        exact fun hno => nomatch hno
      refine h.finish hlast rfl rfl (fun d' hd => ?_)
      cases hd
      exact hkind
  | finalized request st =>
      dsimp only [Coordinator.proceed]
      cases c.gov.realizedRequestCost request <;>
        exact h.finish h.last rfl rfl (fun d hd => nomatch hd)
  | reading reads =>
      cases reads with
      | budgets => exact h.finish h.last rfl rfl (fun d hd => nomatch hd)
      | _ => exact h.setSession rfl rfl rfl trivial
  | revalidating last plans =>
      dsimp only [Coordinator.proceed]
      cases c.gov.validateForDispatch last plans <;>
        exact h.finish h.last rfl rfl (fun d hd => nomatch hd)
  | _ => exact h.finish h.last rfl rfl (fun d hd => nomatch hd)

theorem Withheld.step (h : Withheld c) (hneeded : c.gov.revalidationNeeded = true) (e : Event) :
    Withheld (c.step e) := by
  cases e with
  | message s m =>
      by_cases hidle : c.sessions s = .idle
      · rw [step_message_of_idle hidle]
        exact h.receive hneeded m
      · rw [step_message_of_busy hidle]
        exact h
  | resume s saved => exact h.proceed saved

theorem Withheld.revalidated (h : Withheld c) {last : CostDecision} {plans : List ExecutionPlan}
    (hs : c.sessions s = .revalidating last plans) (saved : Bool) :
    c.step (.resume s saved) = c.finish s (.status .ok) := by
  have hlast := h.sessions s
  rw [hs] at hlast
  have hok : c.gov.validateForDispatch last plans = .ok .ok := if_pos hlast
  change c.proceed s saved (c.sessions s) = _
  rw [hs, Coordinator.proceed, hok]

end CostGovernor
