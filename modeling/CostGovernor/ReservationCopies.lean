import CostGovernor.CoordinatorSteps

/-!
# What is true of every copy of a reservation

Reservations live in the shared map and as copies in sessions. A property of granted
handles that does not depend on their state is true of all of them, since a settle
call changes the state of its copy and nothing else.
-/

namespace CostGovernor

open CheckOut

theorem use_granted {r : BudgetReservation} {token : ReservationId} {u : Use BudgetReservation} :
    (SessionState.granted r).use token = some u ↔ r.id = token ∧ u = .issued r := by
  simp [SessionState.use, eq_comm]

theorem use_copied {kind : SettleKind} {t token : ReservationId} {r : BudgetReservation}
    {u : Use BudgetReservation} :
    (SessionState.copied kind t r).use token = some u ↔ t = token ∧ u = .copied r := by
  simp [SessionState.use, eq_comm]

theorem use_settled {st : Status} {t token : ReservationId} {r : BudgetReservation}
    {u : Use BudgetReservation} :
    (SessionState.settled t r st).use token = some u ↔ t = token ∧ u = .used r := by
  simp [SessionState.use, eq_comm]

theorem use_update {sessions : ℕ → SessionState} {s : ℕ} {st : SessionState}
    {P : ReservationId → Use BudgetReservation → Prop}
    (hold : ∀ s token u, (sessions s).use token = some u → P token u)
    (hnew : ∀ token u, st.use token = some u → P token u) (s' : ℕ) (token : ReservationId)
    (u : Use BudgetReservation)
    (h : (Function.update sessions s st s').use token = some u) : P token u := by
  by_cases hs : s' = s
  · rw [hs, Function.update_self] at h
    exact hnew token u h
  · rw [Function.update_of_ne hs] at h
    exact hold s' token u h

namespace Coordinator

structure Handles (P : ReservationId → BudgetReservation → Prop) (c : Coordinator) : Prop where
  stored : ∀ token r, c.reservations.find? token = some r → P token r
  held : ∀ s token u, (c.sessions s).use token = some u → P token u.value

theorem handles_boot (P : ReservationId → BudgetReservation → Prop)
    (file : Option DurableSnapshot) : Handles P (boot file) := by
  constructor
  · rw [boot_reservations]
    exact fun token r h => nomatch h
  · intro s token u h
    rw [boot_sessions] at h
    cases h

/-- A settle call changes nothing of its copy but the state. -/
theorem settleCall_handle (g : Governor) (kind : SettleKind) (r : BudgetReservation) :
    ∃ state, (settleCall g kind r).2.1 = { r with state := state } := by
  cases kind with
  | commit => exact g.commit_handle r
  | release => exact g.release_handle r

variable {P : ReservationId → BudgetReservation → Prop} {c c' : Coordinator}

theorem Handles.session (h : Handles P c) {s : ℕ} {st : SessionState}
    (hsessions : c'.sessions = Function.update c.sessions s st)
    (hreservations : c'.reservations = c.reservations)
    (hnew : ∀ token u, st.use token = some u → P token u.value) : Handles P c' := by
  refine ⟨fun token r hr => h.stored token r (hreservations ▸ hr), ?_⟩
  rw [hsessions]
  exact use_update h.held hnew

/-- A session writes a copy to the map and is done. -/
theorem Handles.write (h : Handles P c) {token : ReservationId} {r : BudgetReservation}
    (hr : P token r) (s : ℕ) (reply : CoordinatorReply) :
    Handles P ({ c with reservations := c.reservations.set token r }.finish s reply) := by
  refine ⟨?_, use_update h.held (fun _ _ hu => nomatch hu)⟩
  intro token' r' hr'
  change (c.reservations.set token r).find? token' = some r' at hr'
  rw [OrderedMap.find?_set] at hr'
  split_ifs at hr' with ht
  · rw [ht, ← Option.some.inj hr']
    exact hr
  · exact h.stored token' r' hr'

theorem Change.handles {e : Event} (hchange : Change c e c')
    (hstate : ∀ token r state, P token r → P token { r with state := state })
    (hgrant : ∀ r ∈ c.granting e, P r.id r) (h : Handles P c) : Handles P c' := by
  cases hchange with
  | same => exact h
  | quiet e c' s st _ _ _ hnew hsessions hreservations =>
      refine h.session hsessions hreservations (fun token u hu => ?_)
      rw [hnew.use token] at hu
      cases hu
  | snapshot => exact h.session rfl rfl (fun _ _ hu => nomatch hu)
  | save => exact h.session rfl rfl (fun _ _ hu => nomatch hu)
  | grant s budget gen epoch amount r g _ hgranted =>
      refine h.session rfl rfl (fun token u hu => ?_)
      obtain ⟨rfl, rfl⟩ := use_granted.1 hu
      exact hgrant r (by rw [hgranted]; simp)
  | store s saved r hst =>
      exact h.write (h.held s r.id (.issued r) (by rw [hst]; exact use_granted.2 ⟨rfl, rfl⟩)) _ _
  | copy s kind token r _ hfound =>
      refine h.session rfl rfl (fun token' u hu => ?_)
      obtain ⟨rfl, rfl⟩ := use_copied.1 hu
      exact h.stored token r hfound
  | settle s saved kind token r hst =>
      have hr := h.held s token (.copied r) (by rw [hst]; exact use_copied.2 ⟨rfl, rfl⟩)
      obtain ⟨state, hhandle⟩ := settleCall_handle c.gov kind r
      generalize settleCall c.gov kind r = x at hhandle ⊢
      obtain ⟨result, r', g⟩ := x
      cases result with
      | error e => exact h.session rfl rfl (fun _ _ hu => nomatch hu)
      | ok st =>
          refine h.session rfl rfl (fun token' u hu => ?_)
          obtain ⟨rfl, rfl⟩ := use_settled.1 hu
          change P token r'
          rw [show r' = { r with state := state } from hhandle]
          exact hstate token r state hr
  | putBack s saved token r st hst =>
      exact h.write (h.held s token (.used r) (by rw [hst]; exact use_settled.2 ⟨rfl, rfl⟩)) _ _

end Coordinator

end CostGovernor
