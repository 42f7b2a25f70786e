import CostGovernor.PriceQuotes

/-!
# The cost of a finalized request

`finalizeRequest` writes the cost of a request into the history once;
`realizedRequestCost` computes it anew from the attempts, the prices and the clock of the
moment. The two agree for as long as no attempt is added and find_price goes on selecting
the same amounts.
-/

namespace CostGovernor

open Executions ScanSelection

/-- A process and the entries that finalizations have appended so far. -/
structure Accounts where
  proc : Process
  settled : List HistoryEntry := []

namespace Accounts

def appended (p : Process) : Call → List HistoryEntry
  | .write (.finalizeRequest request workload) =>
    (p.step (.write (.finalizeRequest request workload))).gov.history.drop p.gov.history.length
  | _ => []

def step (a : Accounts) (c : Call) : Accounts :=
  { proc := a.proc.step c, settled := a.settled ++ appended a.proc c }

/-- Every entry appended so far is the only one of its request, and a REALIZE of that
request reports its cost. -/
def CostsFrozen (a : Accounts) : Prop :=
  ∀ e ∈ a.settled, a.proc.gov.history.filter (fun h => h.request = e.request) = [e] ∧
    a.proc.gov.Realizes e.request e.realizedCost

/-- The call has no attempt of a finalized request accepted, selects the same price for
every amount of its attempts, and loads no other entries for it. -/
structure Undisturbed (a : Accounts) (c : Call) : Prop where
  attempts : ∀ ev, c = .write (.recordAttempt ev) → (a.proc.gov.recordAttempt ev).1 = .ok →
    ∀ e ∈ a.settled, ev.request ≠ e.request
  prices : ∀ e ∈ a.settled, ∀ ev ∈ a.proc.gov.attemptsOf e.request, ∀ u ∈ ev.charges,
    u.amount ≠ 0 →
    u.quote (a.proc.step c).gov.schedule (a.proc.step c).gov.policy.currency
        (a.proc.step c).gov.now =
      u.quote a.proc.gov.schedule a.proc.gov.policy.currency a.proc.gov.now
  history : c = .load → ∀ bytes snap, a.proc.file = some bytes →
    SnapshotCodec.decode bytes = .ok snap → ∀ e ∈ a.settled,
      snap.history.filter (fun h => h.request = e.request) =
        a.proc.gov.history.filter (fun h => h.request = e.request)

def Kept (a : Accounts) : Prop := ∀ e ∈ a.settled, a.proc.gov.Frozen e

theorem Kept.costsFrozen {a : Accounts} (h : a.Kept) : a.CostsFrozen :=
  fun e he => ⟨(h e he).single, (h e he).realizes⟩

/-- A call that leaves the history and the attempts of finalized requests alone. -/
theorem Kept.quiet {a : Accounts} {c : Call} (h : a.Kept) (hc : a.Undisturbed c)
    (hnone : appended a.proc c = [])
    (hhistory : ∀ e ∈ a.settled,
      (a.proc.step c).gov.history.filter (fun h => h.request = e.request) =
        a.proc.gov.history.filter (fun h => h.request = e.request))
    (hattempts : ∀ e ∈ a.settled,
      (a.proc.step c).gov.attemptsOf e.request = a.proc.gov.attemptsOf e.request) :
    (a.step c).Kept := by
  intro e he
  change e ∈ a.settled ++ appended a.proc c at he
  rw [hnone, List.append_nil] at he
  exact (h e he).step (hhistory e he) (hattempts e he) (hc.prices e he)

theorem Kept.finalize {a : Accounts} {request : RequestId} {workload : WorkloadId} (h : a.Kept) :
    (a.step (.write (.finalizeRequest request workload))).Kept := by
  intro e he
  change e ∈ a.settled ++
    ((a.proc.gov.finalizeRequest request workload).2.history.drop a.proc.gov.history.length) at he
  change (a.proc.gov.finalizeRequest request workload).2.Frozen e
  rcases a.proc.gov.finalizeRequest_entry request workload with hsame |
    ⟨new, happended, hrequest, hfirst, hcost⟩
  · rw [hsame] at he ⊢
    rw [List.drop_length, List.append_nil] at he
    exact h e he
  · rw [happended] at he ⊢
    rw [List.drop_left] at he
    rcases List.mem_append.mp he with hold | hnew
    · -- an entry that is in the history already is of another request
      have hne : new.request ≠ e.request := by
        rw [hrequest]
        exact (hfirst e (h e hold).mem).symm
      refine (h e hold).step ?_ rfl fun _ _ _ _ _ => rfl
      rw [List.filter_append, List.filter_cons_of_neg (by simpa using hne), List.filter_nil,
        List.append_nil]
    · rw [List.mem_singleton.mp hnew]
      refine ⟨?_, hrequest.symm ▸ hcost⟩
      rw [List.filter_append, List.filter_eq_nil_iff.mpr, List.filter_cons_of_pos (by simp)]
      · rfl
      · intro x hx
        rw [hrequest]
        simpa using hfirst x hx

theorem Kept.step {a : Accounts} {c : Call} (h : a.Kept) (hc : a.Undisturbed c) :
    (a.step c).Kept := by
  cases c with
  | write op =>
      by_cases hfinalize : ∃ request workload, op = .finalizeRequest request workload
      · obtain ⟨request, workload, rfl⟩ := hfinalize
        exact h.finalize
      · push Not at hfinalize
        refine h.quiet hc ?_
          (fun e _ => congrArg (List.filter _) (a.proc.gov.apply_history hfinalize))
          fun e he => a.proc.gov.apply_attemptsOf fun ev hev hok =>
            hc.attempts ev (congrArg Call.write hev) hok e he
        cases op with
        | finalizeRequest request workload => exact absurd rfl (hfinalize request workload)
        | _ => rfl
  | load =>
      have hload := a.proc.gov.load_cases a.proc.file
      have hstep : (a.proc.step .load).gov = (a.proc.gov.load a.proc.file).2 := rfl
      generalize a.proc.gov.load a.proc.file = x at hload hstep
      cases hload with
      | refused st _ =>
          exact h.quiet hc rfl
            (fun e _ => congrArg (List.filter _) (congrArg Governor.history hstep))
            fun e _ => congrArg (Governor.attemptsOf · e.request) hstep
      | restored bytes snap _ hfile hsnap =>
          refine h.quiet hc rfl (fun e he => ?_) fun e _ => ?_
          · rw [hstep]
            exact hc.history rfl bytes snap hfile hsnap e he
          · rw [hstep]
            rfl
  | _ => exact h.quiet hc rfl (fun _ _ => rfl) fun _ _ => rfl

end Accounts

/-- In every run of a process whose steps leave the finalized requests undisturbed, every
finalized cost stays frozen. -/
theorem finalized_cost_stays_frozen (p : Process) (cs : List Call)
    (h : Along Accounts.step Accounts.Undisturbed { proc := p } cs) :
    (run Accounts.step { proc := p } cs).CostsFrozen := by
  have hkept : (run Accounts.step { proc := p } cs).Kept :=
    run_invariant (fun _ _ ha hc => ha.step hc) (fun e he => by cases he) h
  exact hkept.costsFrozen

/-- One second of accelerator time at a price of 3, finalized. -/
def finalizedRun : List Call :=
  [.write (.setPriceSchedule { observations := [{ id := ⟨1⟩, amount := ⟨3⟩ }] }),
    .write (.recordAttempt {
      request := ⟨1⟩, attempt := ⟨1⟩, epoch := ⟨1⟩, acceleratorTime := 1000000000 }),
    .write (.finalizeRequest ⟨1⟩ ⟨1⟩)]

theorem finalized_cost_stays_frozen_later :
    (run Accounts.step { proc := { gov := Governor.fresh 0 } }
      (finalizedRun ++ [.write (.setClock 5)])).settled.map HistoryEntry.realizedCost = [⟨3⟩] ∧
    (run Accounts.step { proc := { gov := Governor.fresh 0 } }
      (finalizedRun ++ [.write (.setClock 5)])).CostsFrozen := by
  refine ⟨by decide +kernel, finalized_cost_stays_frozen _ _ ⟨?_, ?_, ?_, ?_, trivial⟩⟩
  · exact ⟨(fun _ h => nomatch h), by decide +kernel, (fun h => nomatch h)⟩
  · exact ⟨by rintro ev ⟨⟩ -; decide +kernel, by decide +kernel, (fun h => nomatch h)⟩
  · exact ⟨(fun _ h => nomatch h), by decide +kernel, (fun h => nomatch h)⟩
  · exact ⟨(fun _ h => nomatch h), by decide +kernel, (fun h => nomatch h)⟩

/-- A price published after the finalization changes what a REALIZE reports. -/
theorem published_price_changes_finalized_cost :
    (run Accounts.step { proc := { gov := Governor.fresh 0 } }
      (finalizedRun ++ [.write (.publishPrice { id := ⟨1⟩, epoch := ⟨1⟩, amount := ⟨5⟩ })])
        ).settled.map HistoryEntry.realizedCost = [⟨3⟩] ∧
    (run Accounts.step { proc := { gov := Governor.fresh 0 } }
      (finalizedRun ++ [.write (.publishPrice { id := ⟨1⟩, epoch := ⟨1⟩, amount := ⟨5⟩ })])
        ).proc.gov.realizedRequestCost ⟨1⟩ = .ok ⟨5⟩ ∧
    ¬ (run Accounts.step { proc := { gov := Governor.fresh 0 } }
      (finalizedRun ++ [.write (.publishPrice { id := ⟨1⟩, epoch := ⟨1⟩, amount := ⟨5⟩ })])
        ).CostsFrozen := by
  refine ⟨by decide +kernel, by rfl, fun hfrozen => ?_⟩
  have hcost := ((hfrozen { request := ⟨1⟩, workload := ⟨1⟩, realizedCost := ⟨3⟩, attempts := 1 }
    (by decide +kernel)).2 ⟨1⟩).2
  revert hcost
  decide +kernel

end CostGovernor
