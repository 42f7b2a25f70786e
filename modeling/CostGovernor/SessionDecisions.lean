import CostGovernor.CoordinatorSteps
import CostGovernor.DispatchValidation

/-!
# Decisions returned to sessions

All sessions store the decision they return in one shared slot, and a REVALIDATE
judges what it finds there. Between the copy out of the slot and the judgement a
session is busy, so nothing is returned to it meanwhile: it judges its own decision
as long as the slot still holds it when the message arrives.
-/

namespace CostGovernor

open Executions

def CoordinatorReply.decision? : CoordinatorReply → Option CostDecision
  | .decision d => some d
  | _ => none

/-- Two decisions that dispatch validation cannot tell apart. -/
structure CostDecision.SameGrant (d d' : CostDecision) : Prop where
  kind : d.kind = d'.kind
  selectedPlan : d.selectedPlan = d'.selectedPlan
  authority : d.authority = d'.authority

theorem CostDecision.SameGrant.validateForDispatch {d d' : CostDecision} (h : d.SameGrant d')
    (g : Governor) (plans : List ExecutionPlan) :
    g.validateForDispatch d plans = g.validateForDispatch d' plans := by
  unfold Governor.validateForDispatch
  rw [h.kind, h.selectedPlan, h.authority]

namespace Coordinator

def lastReturned (c : Coordinator) (s : ℕ) : Option CostDecision :=
  (c.replies.filterMap (fun r => if r.1 = s then r.2.decision? else none)).getLast?

/-- A step that returns no decision to the session. -/
theorem lastReturned_of_replies {c c' : Coordinator} {s : ℕ} {rs : List (ℕ × CoordinatorReply)}
    (h : c'.replies = c.replies ++ rs) (hrs : ∀ r ∈ rs, r.1 = s → r.2.decision? = none) :
    c'.lastReturned s = c.lastReturned s := by
  have hnone : rs.filterMap (fun r => if r.1 = s then r.2.decision? else none) = [] := by
    rw [List.filterMap_eq_nil_iff]
    intro r hr
    split_ifs with hs
    · exact hrs r hr hs
    · rfl
  rw [lastReturned, h, List.filterMap_append, hnone, List.append_nil]
  rfl

structure Moves (c : Coordinator) (s : ℕ) (mayReply : CoordinatorReply → Prop)
    (mayEnter : SessionState → Prop) (c' : Coordinator) : Prop where
  replies : ∃ rs, c'.replies = c.replies ++ rs ∧ ∀ r ∈ rs, r.1 = s ∧ mayReply r.2
  others : ∀ t, t ≠ s → c'.sessions t = c.sessions t
  own : mayEnter (c'.sessions s)

section Moves

variable {c c' : Coordinator} {s : ℕ} {mayReply : CoordinatorReply → Prop}
  {mayEnter : SessionState → Prop}

/-- The handler waits for its next step. -/
theorem moves_setSession {st : SessionState} (hsessions : c'.sessions = c.sessions)
    (hreplies : c'.replies = c.replies) (hst : mayEnter st) :
    Moves c s mayReply mayEnter (c'.setSession s st) where
  replies := ⟨[], by rw [List.append_nil]; exact hreplies, by simp⟩
  others := by
    intro t ht
    rw [← hsessions]
    exact Function.update_of_ne ht _ _
  own := by
    change mayEnter (Function.update c'.sessions s st s)
    rwa [Function.update_self]

/-- The handler answers. -/
theorem moves_finish {reply : CoordinatorReply} (hsessions : c'.sessions = c.sessions)
    (hreplies : c'.replies = c.replies) (hreply : mayReply reply) (hidle : mayEnter .idle) :
    Moves c s mayReply mayEnter (c'.finish s reply) where
  replies := ⟨[(s, reply)], by rw [← hreplies]; rfl, by simp [hreply]⟩
  others := by
    intro t ht
    rw [← hsessions]
    exact Function.update_of_ne ht _ _
  own := by
    change mayEnter (Function.update c'.sessions s .idle s)
    rwa [Function.update_self]

theorem moves_refl (h : mayEnter (c.sessions s)) : Moves c s mayReply mayEnter c :=
  ⟨⟨[], (List.append_nil _).symm, by simp⟩, fun _ _ => rfl, h⟩

end Moves

def EntersWithSlot (c : Coordinator) (m : Message) (st : SessionState) : Prop :=
  ∀ last plans, st = .revalidating last plans → m = .revalidate plans ∧ last = c.lastDecision

abbrev FirstDecision (c : Coordinator) (s : ℕ) (m : Message) : Coordinator → Prop :=
  Moves c s (fun reply => reply.decision? = none) (c.EntersWithSlot m)

theorem afterWrite_firstDecision (c : Coordinator) (s : ℕ) (m : Message) (x : Status × Governor) :
    FirstDecision c s m (c.afterWrite s x) := by
  unfold afterWrite
  split_ifs
  · exact moves_setSession rfl rfl (by simp [EntersWithSlot])
  · exact moves_finish rfl rfl rfl (by simp [EntersWithSlot])

theorem afterReserve_firstDecision (c : Coordinator) (s : ℕ) (m : Message)
    (x : Governor.ReserveResult) : FirstDecision c s m (c.afterReserve s x) := by
  have hidle : c.EntersWithSlot m .idle := by simp [EntersWithSlot]
  obtain ⟨result, r, g⟩ := x
  cases result with
  | error e => exact moves_finish rfl rfl rfl hidle
  | ok st =>
      cases r with
      | none => cases st <;> exact moves_finish rfl rfl rfl hidle
      | some r =>
          cases st with
          | ok => exact moves_setSession rfl rfl (by simp [EntersWithSlot])
          | _ => exact moves_finish rfl rfl rfl hidle

theorem receive_firstDecision {c : Coordinator} {s : ℕ} (hs : c.sessions s = .idle)
    (m : Message) : FirstDecision c s m (c.receive s m) := by
  have hidle : c.EntersWithSlot m .idle := by simp [EntersWithSlot]
  cases m with
  | publishPrice obs => exact c.afterWrite_firstDecision s _ _
  | recordAttempt e => exact c.afterWrite_firstDecision s _ _
  | reserve budget gen epoch amount => exact c.afterReserve_firstDecision s _ _
  | requestEval workload workloadGen plans =>
      dsimp only [receive]
      split_ifs
      · exact moves_finish rfl rfl rfl hidle
      · cases c.gov.evaluate workload workloadGen plans with
        | error e => exact moves_finish rfl rfl rfl hidle
        | ok d => exact moves_setSession rfl rfl (by simp [EntersWithSlot])
  | settle kind token =>
      dsimp only [receive]
      cases c.reservations.find? token with
      | none => exact moves_finish rfl rfl rfl hidle
      | some r => exact moves_setSession rfl rfl (by simp [EntersWithSlot])
  | realize request workload =>
      dsimp only [receive]
      generalize c.gov.finalizeRequest request workload = x
      obtain ⟨result, g⟩ := x
      cases result with
      | error e => exact moves_finish rfl rfl rfl hidle
      | ok st => exact moves_setSession rfl rfl (by simp [EntersWithSlot])
  | revalidate plans =>
      dsimp only [receive]
      split_ifs
      · exact moves_finish rfl rfl rfl hidle
      · refine moves_setSession rfl rfl ?_
        intro last plans' h
        cases h
        exact ⟨rfl, rfl⟩
  | getState => exact moves_setSession rfl rfl (by simp [EntersWithSlot])
  | quit => exact moves_refl (hs ▸ hidle)
  | _ => exact moves_finish rfl rfl rfl hidle

abbrev NextDecision (c : Coordinator) (s : ℕ) : Coordinator → Prop :=
  Moves c s (fun _ => True) (fun st => ∀ last plans, st ≠ .revalidating last plans)

theorem proceed_nextDecision (c : Coordinator) (s : ℕ) (saved : Bool) :
    NextDecision c s (c.proceed s saved (c.sessions s)) := by
  cases hst : c.sessions s with
  | idle => exact moves_refl (by simp [hst])
  | persisting st => exact moves_setSession rfl rfl (by simp)
  | copied kind token r =>
      change NextDecision c s (c.afterSettle s token (settleCall c.gov kind r))
      generalize settleCall c.gov kind r = x
      obtain ⟨result, r', g⟩ := x
      cases result with
      | error e => exact moves_finish rfl rfl trivial (by simp)
      | ok st => exact moves_setSession rfl rfl (by simp)
  | finalized request st =>
      dsimp only [proceed]
      cases c.gov.realizedRequestCost request <;> exact moves_finish rfl rfl trivial (by simp)
  | reading reads =>
      cases reads with
      | budgets => exact moves_finish rfl rfl trivial (by simp)
      | _ => exact moves_setSession rfl rfl (by simp)
  | revalidating last plans =>
      dsimp only [proceed]
      cases c.gov.validateForDispatch last plans <;> exact moves_finish rfl rfl trivial (by simp)
  | _ => exact moves_finish rfl rfl trivial (by simp)

/-- Every copy in a REVALIDATE handler is the session's own last decision, as far as
validation can tell. -/
def OwnCopies (c : Coordinator) : Prop :=
  ∀ s last plans, c.sessions s = .revalidating last plans →
    ∀ d, c.lastReturned s = some d → last.SameGrant d

/-- A REVALIDATE finds the session's own last decision in the slot. -/
def SlotIsOwn (c : Coordinator) : Event → Prop
  | .message s (.revalidate _) => ∀ d, c.lastReturned s = some d → c.lastDecision.SameGrant d
  | _ => True

theorem OwnCopies.of_others {c c' : Coordinator} (h : c.OwnCopies) {s t : ℕ} (ht : t ≠ s)
    {mayReply : CoordinatorReply → Prop} {mayEnter : SessionState → Prop}
    (hmoves : Moves c s mayReply mayEnter c') {last : CostDecision} {plans : List ExecutionPlan}
    (hst : c'.sessions t = .revalidating last plans) {d : CostDecision}
    (hd : c'.lastReturned t = some d) : last.SameGrant d := by
  obtain ⟨rs, hreplies, hrs⟩ := hmoves.replies
  rw [hmoves.others t ht] at hst
  rw [lastReturned_of_replies hreplies] at hd
  · exact h t last plans hst d hd
  · intro r hr hrt
    exact absurd (hrt.symm.trans (hrs r hr).1) ht

theorem OwnCopies.step {c : Coordinator} (h : c.OwnCopies) (e : Event) (he : c.SlotIsOwn e) :
    (c.step e).OwnCopies := by
  intro t last plans hst d hd
  cases e with
  | message s m =>
      by_cases hidle : c.sessions s = .idle
      · rw [step_message_of_idle hidle] at hst hd
        have hfirst := receive_firstDecision hidle m
        by_cases ht : t = s
        · subst ht
          obtain ⟨rfl, rfl⟩ := hfirst.own last plans hst
          obtain ⟨rs, hreplies, hrs⟩ := hfirst.replies
          rw [lastReturned_of_replies hreplies (fun r hr _ => (hrs r hr).2)] at hd
          exact he d hd
        · exact h.of_others ht hfirst hst hd
      · rw [step_message_of_busy hidle] at hst hd
        exact h t last plans hst d hd
  | resume s saved =>
      have hnext := c.proceed_nextDecision s saved
      by_cases ht : t = s
      · subst ht
        exact absurd hst (hnext.own last plans)
      · exact h.of_others ht hnext hst hd

theorem ownCopies_boot (file : Option DurableSnapshot) : (boot file).OwnCopies := by
  intro s last plans hst
  rw [boot_sessions] at hst
  cases hst

/-- A session that gets OK for a REVALIDATE and has been returned a decision gets OK
for that decision. -/
def JudgesOwn (c : Coordinator) : Event → Prop
  | .resume s saved => ∀ last plans, c.sessions s = .revalidating last plans →
      (c.step (.resume s saved)).replies = c.replies ++ [(s, .status .ok)] →
      ∀ d, c.lastReturned s = some d → c.gov.validateForDispatch d plans = .ok .ok
  | .message _ _ => True

/-- The reply of a REVALIDATE is the verdict on its copy. -/
theorem verdict_of_ok {c : Coordinator} {s : ℕ} {saved : Bool} {last : CostDecision}
    {plans : List ExecutionPlan} (hst : c.sessions s = .revalidating last plans)
    (h : (c.step (.resume s saved)).replies = c.replies ++ [(s, .status .ok)]) :
    c.gov.validateForDispatch last plans = .ok .ok := by
  change (c.proceed s saved (c.sessions s)).replies = _ at h
  rw [hst] at h
  dsimp only [proceed] at h
  cases hv : c.gov.validateForDispatch last plans with
  | error e =>
      rw [hv] at h
      have hreply := List.append_cancel_left (show c.replies ++ [(s, .status .interventionFailed)] =
        c.replies ++ [(s, .status .ok)] from h)
      simp at hreply
  | ok st =>
      rw [hv] at h
      have hreply := List.append_cancel_left (show c.replies ++ [(s, .status st)] =
        c.replies ++ [(s, .status .ok)] from h)
      simp only [List.cons.injEq, Prod.mk.injEq, CoordinatorReply.status.injEq, true_and,
        and_true] at hreply
      rw [hreply]

theorem OwnCopies.judgesOwn {c : Coordinator} (h : c.OwnCopies) (e : Event) : c.JudgesOwn e := by
  cases e with
  | message s m => trivial
  | resume s saved =>
      intro last plans hst hok d hd
      rw [← (h s last plans hst d hd).validateForDispatch]
      exact verdict_of_ok hst hok

end Coordinator

open Coordinator

/-- In every interleaving in which each REVALIDATE finds its session's own decision in
the shared slot, every OK is an OK for the session's own decision. -/
theorem revalidation_judges_own_decision (file : Option DurableSnapshot) (events : List Event)
    (hown : Along Coordinator.step SlotIsOwn (boot file) events) :
    Along Coordinator.step JudgesOwn (boot file) events :=
  along_of_invariant (I := OwnCopies) (fun _ e h he => h.step e he) (fun _ e h _ => h.judgesOwn e)
    (ownCopies_boot file) hown

def soleSession : List Event :=
  [.message 0 (.requestEval ⟨1⟩ ⟨1⟩ [{ id := ⟨1⟩ }]), .resume 0 true,
    .message 0 (.revalidate [{ id := ⟨1⟩ }]), .resume 0 true]

theorem revalidation_judges_own_decision_soleSession :
    Along Coordinator.step SlotIsOwn (boot none) soleSession ∧
      Along Coordinator.step JudgesOwn (boot none) soleSession := by
  have hown : Along Coordinator.step SlotIsOwn (boot none) soleSession := by
    refine ⟨trivial, trivial, ?_, trivial, trivial⟩
    intro d hd
    cases hd
    exact ⟨rfl, rfl, rfl⟩
  exact ⟨hown, revalidation_judges_own_decision none soleSession hown⟩

/-- Two sessions evaluate different plans, then the first one asks about the second
one's plan. -/
def crossedSessions : List Event :=
  [.message 0 (.requestEval ⟨1⟩ ⟨1⟩ [{ id := ⟨1⟩ }]), .resume 0 true,
    .message 1 (.requestEval ⟨2⟩ ⟨1⟩ [{ id := ⟨2⟩ }]), .resume 1 true,
    .message 0 (.revalidate [{ id := ⟨2⟩ }])]

theorem revalidation_judges_other_sessions_decision :
    let c := run Coordinator.step (boot none) crossedSessions
    (c.step (.resume 0 true)).replies = c.replies ++ [(0, .status .ok)] ∧
      ∃ last d, c.sessions 0 = .revalidating last [{ id := ⟨2⟩ }] ∧ c.lastReturned 0 = some d ∧
        c.gov.validateForDispatch d [{ id := ⟨2⟩ }] = .ok .planSuperseded :=
  ⟨rfl, _, _, rfl, rfl, rfl⟩

end CostGovernor
