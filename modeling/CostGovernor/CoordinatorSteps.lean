import CostGovernor.CheckOut
import CostGovernor.Coordinator

/-!
# What a step of the coordinator does

`Change` lists everything one step can do to the shared reservation map, to the
copies that sessions hold, to the state file and to the snapshots on their way to
it. `granting` and `settling` say which handle a step is granted and which settle
call it makes. Invariants of runs are proved from this list.
-/

namespace CostGovernor

open CheckOut

/-- One call of `commit` or `release` by a session, and its budget around the call. -/
structure SettleCall where
  token : ReservationId
  handle : BudgetReservation
  before : Option Budget
  after : Option Budget

def SettleCall.ofResult (g : Governor) (token : ReservationId) (r : BudgetReservation)
    (x : Governor.HandleResult) : SettleCall :=
  ⟨token, r, g.budgets.find? r.budget, x.2.2.budgets.find? r.budget⟩

/-- What a session holds of the reservation of a token. -/
def SessionState.use (token : ReservationId) : SessionState → Option (Use BudgetReservation)
  | .granted r => if r.id = token then some (.issued r) else none
  | .copied _ t r => if t = token then some (.copied r) else none
  | .settled t r _ => if t = token then some (.used r) else none
  | _ => none

def SessionState.pending : SessionState → Option DurableSnapshot
  | .saving _ snap => some snap
  | _ => none

structure SessionState.Plain (st : SessionState) : Prop where
  use : ∀ token, st.use token = none
  pending : st.pending = none

namespace Coordinator

def granting (c : Coordinator) : Event → List BudgetReservation
  | .message s (.reserve budget gen epoch amount) =>
    match c.sessions s with
    | .idle => (c.gov.reserve budget gen epoch amount).2.1.toList
    | _ => []
  | _ => []

def settleCalls (g : Governor) : SessionState → List SettleCall
  | .copied kind token r => [.ofResult g token r (settleCall g kind r)]
  | _ => []

def settling (c : Coordinator) : Event → List SettleCall
  | .resume s _ => settleCalls c.gov (c.sessions s)
  | _ => []

theorem settling_resume {c : Coordinator} {s : ℕ} {st : SessionState} (h : c.sessions s = st)
    (saved : Bool) : c.settling (.resume s saved) = settleCalls c.gov st := by
  rw [settling, h]

theorem afterSettle_gov (c : Coordinator) (s : ℕ) (token : ReservationId)
    (x : Governor.HandleResult) : (c.afterSettle s token x).gov = x.2.2 := by
  obtain ⟨result, r, g⟩ := x
  cases result <;> rfl

/-- Everything a step can do. -/
inductive Change (c : Coordinator) : Event → Coordinator → Prop
  | same (e : Event) (hgrant : c.granting e = []) (hsettle : c.settling e = []) : Change c e c
  | quiet (e : Event) (c' : Coordinator) (s : ℕ) (st : SessionState)
      (hgrant : c.granting e = []) (hsettle : c.settling e = [])
      (hold : (c.sessions s).Plain) (hnew : st.Plain)
      (hsessions : c'.sessions = Function.update c.sessions s st)
      (hreservations : c'.reservations = c.reservations) (hfile : c'.file = c.file)
      (hgov : c.gov.Steady c'.gov) : Change c e c'
  | snapshot (s : ℕ) (saved : Bool) (st : Status) (h : c.sessions s = .persisting st) :
      Change c (.resume s saved) (c.setSession s (.saving st c.gov.snapshot))
  | save (s : ℕ) (saved : Bool) (st : Status) (snap : DurableSnapshot)
      (h : c.sessions s = .saving st snap) :
      Change c (.resume s saved)
        ({ c with file := if saved then some snap else c.file }.finish s (.status st))
  | grant (s : ℕ) (budget : BudgetId) (gen : BudgetGeneration) (epoch : CoordinatorEpoch)
      (amount : MoneyMicros) (r : BudgetReservation) (g : Governor) (hidle : c.sessions s = .idle)
      (hgrant : c.granting (.message s (.reserve budget gen epoch amount)) = [r])
      (hid : r.id = ⟨c.gov.nextReservation⟩)
      (hnext : g.nextReservation = c.gov.nextReservation + 1) (hepoch : g.epoch = c.gov.epoch) :
      Change c (.message s (.reserve budget gen epoch amount))
        ({ c with gov := g }.setSession s (.granted r))
  | store (s : ℕ) (saved : Bool) (r : BudgetReservation) (h : c.sessions s = .granted r) :
      Change c (.resume s saved)
        ({ c with reservations := c.reservations.set r.id r }.finish s (.reservation .ok (some r)))
  | copy (s : ℕ) (kind : SettleKind) (token : ReservationId) (r : BudgetReservation)
      (hidle : c.sessions s = .idle) (hfound : c.reservations.find? token = some r) :
      Change c (.message s (.settle kind token)) (c.setSession s (.copied kind token r))
  | settle (s : ℕ) (saved : Bool) (kind : SettleKind) (token : ReservationId)
      (r : BudgetReservation) (h : c.sessions s = .copied kind token r) :
      Change c (.resume s saved) (c.afterSettle s token (settleCall c.gov kind r))
  | putBack (s : ℕ) (saved : Bool) (token : ReservationId) (r : BudgetReservation) (st : Status)
      (h : c.sessions s = .settled token r st) :
      Change c (.resume s saved)
        ({ c with reservations := c.reservations.set token r }.finish s (.status st))

/-- A message that neither grants nor copies a reservation. -/
theorem quiet_message {c c' : Coordinator} {s : ℕ} {m : Message} (st : SessionState)
    (hidle : c.sessions s = .idle) (hgrant : c.granting (.message s m) = []) (hnew : st.Plain)
    (hsessions : c'.sessions = Function.update c.sessions s st)
    (hreservations : c'.reservations = c.reservations) (hfile : c'.file = c.file)
    (hgov : c.gov.Steady c'.gov) : Change c (.message s m) c' :=
  .quiet _ _ s st hgrant rfl (hidle ▸ ⟨fun _ => rfl, rfl⟩) hnew hsessions hreservations hfile hgov

/-- A message answered at once. -/
theorem finish_message {c : Coordinator} {s : ℕ} {m : Message} (hidle : c.sessions s = .idle)
    (hgrant : c.granting (.message s m) = []) {g : Governor} (hgov : c.gov.Steady g)
    (reply : CoordinatorReply) : Change c (.message s m) ({ c with gov := g }.finish s reply) :=
  quiet_message .idle hidle hgrant ⟨fun _ => rfl, rfl⟩ rfl rfl rfl hgov

/-- The reply of a handler that holds nothing. -/
theorem finish_resume {c : Coordinator} {s : ℕ} {saved : Bool}
    (hsettle : c.settling (.resume s saved) = []) (hold : (c.sessions s).Plain)
    (reply : CoordinatorReply) : Change c (.resume s saved) (c.finish s reply) :=
  .quiet _ _ s .idle rfl hsettle hold ⟨fun _ => rfl, rfl⟩ rfl rfl rfl c.gov.steady_refl

theorem afterWrite_change {c : Coordinator} {s : ℕ} {m : Message} (hidle : c.sessions s = .idle)
    (hgrant : c.granting (.message s m) = []) {x : Status × Governor} (hx : c.gov.Steady x.2) :
    Change c (.message s m) (c.afterWrite s x) := by
  unfold afterWrite
  split_ifs
  · exact quiet_message (.persisting x.1) hidle hgrant ⟨fun _ => rfl, rfl⟩ rfl rfl rfl hx
  · exact finish_message hidle hgrant hx _

theorem afterReserve_change {c : Coordinator} {s : ℕ} (hidle : c.sessions s = .idle)
    (budget : BudgetId) (gen : BudgetGeneration) (epoch : CoordinatorEpoch) (amount : MoneyMicros) :
    Change c (.message s (.reserve budget gen epoch amount))
      (c.afterReserve s (c.gov.reserve budget gen epoch amount)) := by
  have h := c.gov.reserve_cases budget gen epoch amount
  have hgrant : c.granting (.message s (.reserve budget gen epoch amount)) =
      (c.gov.reserve budget gen epoch amount).2.1.toList := by
    simp only [granting, hidle]
  generalize c.gov.reserve budget gen epoch amount = x at h hgrant ⊢
  cases h with
  | refused st =>
      have hfinish : c.afterReserve s (.ok st, none, c.gov) =
          { c with gov := c.gov }.finish s (.reservation st none) := by
        cases st <;> rfl
      rw [hfinish]
      exact finish_message hidle hgrant c.gov.steady_refl _
  | threw e => exact finish_message hidle hgrant c.gov.steady_refl _
  | expired b =>
      exact quiet_message .idle hidle hgrant ⟨fun _ => rfl, rfl⟩ rfl rfl rfl ⟨rfl, rfl⟩
  | granted b reservedAfter hg =>
      exact .grant s budget gen epoch amount _ _ hidle hgrant rfl rfl rfl

theorem receive_change {c : Coordinator} {s : ℕ} (hidle : c.sessions s = .idle) (m : Message) :
    Change c (.message s m) (c.receive s m) := by
  have hsame := c.gov.steady_refl
  cases m with
  | hello worker boot =>
      exact quiet_message .idle hidle rfl ⟨fun _ => rfl, rfl⟩ rfl rfl rfl ⟨rfl, rfl⟩
  | publishPrice obs => exact afterWrite_change hidle rfl (c.gov.publishPrice_steady obs)
  | requestEval workload workloadGen plans =>
      dsimp only [receive]
      split_ifs
      · exact finish_message hidle rfl hsame _
      · cases c.gov.evaluate workload workloadGen plans with
        | error e => exact finish_message hidle rfl hsame _
        | ok d =>
            exact quiet_message (.evaluated d) hidle rfl ⟨fun _ => rfl, rfl⟩ rfl rfl rfl hsame
  | recordAttempt e => exact afterWrite_change hidle rfl (c.gov.recordAttempt_steady e)
  | reserve budget gen epoch amount => exact afterReserve_change hidle budget gen epoch amount
  | settle kind token =>
      dsimp only [receive]
      cases hfound : c.reservations.find? token with
      | none => exact finish_message hidle rfl hsame _
      | some r => exact .copy s kind token r hidle hfound
  | realize request workload =>
      have hsteady := c.gov.finalizeRequest_steady request workload
      dsimp only [receive]
      generalize c.gov.finalizeRequest request workload = x at hsteady ⊢
      obtain ⟨result, g⟩ := x
      cases result with
      | error e => exact finish_message hidle rfl hsteady _
      | ok st =>
          exact quiet_message (.finalized request st) hidle rfl ⟨fun _ => rfl, rfl⟩ rfl rfl rfl
            hsteady
  | getState =>
      exact quiet_message (.reading (.epoch c.gov.epoch)) hidle rfl ⟨fun _ => rfl, rfl⟩
        rfl rfl rfl hsame
  | revalidate plans =>
      dsimp only [receive]
      split_ifs
      · exact finish_message hidle rfl hsame _
      · exact quiet_message (.revalidating c.lastDecision plans) hidle rfl ⟨fun _ => rfl, rfl⟩
          rfl rfl rfl hsame
  | quit => exact .same _ rfl rfl
  | malformed => exact finish_message hidle rfl hsame _
  | unknown => exact finish_message hidle rfl hsame _

theorem proceed_change {c : Coordinator} {s : ℕ} {saved : Bool} {st : SessionState}
    (hst : c.sessions s = st) : Change c (.resume s saved) (c.proceed s saved st) := by
  have hsettle := settling_resume hst saved
  have hold : st.Plain → (c.sessions s).Plain := fun h => hst ▸ h
  cases st with
  | idle => exact .same _ rfl hsettle
  | persisting st => exact .snapshot s saved st hst
  | saving st snap => exact .save s saved st snap hst
  | evaluated d =>
      exact .quiet _ _ s .idle rfl hsettle (hold ⟨fun _ => rfl, rfl⟩) ⟨fun _ => rfl, rfl⟩
        rfl rfl rfl c.gov.steady_refl
  | granted r => exact .store s saved r hst
  | copied kind token r => exact .settle s saved kind token r hst
  | settled token r st => exact .putBack s saved token r st hst
  | finalized request st =>
      have hplain := hold ⟨fun _ => rfl, rfl⟩
      dsimp only [proceed]
      cases c.gov.realizedRequestCost request with
      | error e => exact finish_resume hsettle hplain _
      | ok cost => exact finish_resume hsettle hplain _
  | reading reads =>
      have hplain := hold ⟨fun _ => rfl, rfl⟩
      cases reads with
      | budgets => exact finish_resume hsettle hplain _
      | _ =>
          exact .quiet _ _ s (.reading _) rfl hsettle hplain ⟨fun _ => rfl, rfl⟩ rfl rfl rfl
            c.gov.steady_refl
  | revalidating last plans =>
      have hplain := hold ⟨fun _ => rfl, rfl⟩
      dsimp only [proceed]
      cases c.gov.validateForDispatch last plans with
      | error e => exact finish_resume hsettle hplain _
      | ok st => exact finish_resume hsettle hplain _

theorem step_message_of_idle {c : Coordinator} {s : ℕ} (h : c.sessions s = .idle) (m : Message) :
    c.step (.message s m) = c.receive s m := by
  simp only [step, h]

theorem step_message_of_busy {c : Coordinator} {s : ℕ} (h : c.sessions s ≠ .idle) (m : Message) :
    c.step (.message s m) = c := by
  dsimp only [step]
  split
  · contradiction
  · rfl

theorem step_change (c : Coordinator) (e : Event) : Change c e (c.step e) := by
  cases e with
  | message s m =>
      by_cases hidle : c.sessions s = .idle
      · rw [step_message_of_idle hidle]
        exact receive_change hidle m
      · have hgrant : c.granting (.message s m) = [] := by
          cases m with
          | reserve =>
              dsimp only [granting]
              split
              · contradiction
              · rfl
          | _ => rfl
        rw [step_message_of_busy hidle]
        exact .same _ hgrant rfl
  | resume s saved => exact proceed_change rfl

end Coordinator

end CostGovernor
