import CostGovernor.CoordinatorSteps

/-!
# Reservations as shared cells

COMMIT and RELEASE copy a reservation out of the shared map, settle the copy and
write it back, under two different locks. A step in a run that keeps to `Careful`
is a step of the `CheckOut` protocol on the cell of every token, where spending a
reservation is a settle call that moves its amount.
-/

namespace CostGovernor

open CheckOut Coordinator

def Budget.totals (b : Budget) : MoneyMicros × MoneyMicros × MoneyMicros :=
  (b.reserved, b.consumed, b.released)

def SettleCall.Moves (k : SettleCall) : Prop :=
  k.after.map Budget.totals ≠ k.before.map Budget.totals

instance : DecidablePred SettleCall.Moves := fun _ => inferInstanceAs (Decidable (_ ≠ _))

/-- The amount leaves `reserved` for exactly one of `consumed` and `released`. -/
structure Transfer (amount : MoneyMicros) (b b' : Budget) : Prop where
  reserved : b'.reserved.toInt = b.reserved.toInt - amount.toInt
  target : b'.consumed.toInt = b.consumed.toInt + amount.toInt ∧ b'.released = b.released ∨
    b'.released.toInt = b.released.toInt + amount.toInt ∧ b'.consumed = b.consumed

def SettleCall.Transfers (k : SettleCall) (amount : MoneyMicros) : Prop :=
  ∃ b b', k.before = some b ∧ k.after = some b' ∧ Transfer amount b b'

def moveCount (calls : List SettleCall) (token : ReservationId) : ℕ :=
  calls.countP (fun k => k.token = token ∧ k.Moves)

namespace Coordinator

/-- The release of an active handle cannot stop half way. -/
def ReleaseFits (g : Governor) (kind : SettleKind) (r : BudgetReservation) : Prop :=
  ∀ b, g.budgets.find? r.budget = some b → r.state = .active →
    kind = .release ∨ r.pastExpiry g.now = true →
    MoneyMicros.Fits (b.released.toInt + r.amount.toInt)

/-- An ACTIVE reservation is copied only while no copy of it is out, a release does
not overflow, and the reservation counter does not wrap. -/
def Careful (c : Coordinator) : Event → Prop
  | .message s (.settle _ token) => c.sessions s = .idle →
    ∀ r, c.reservations.find? token = some r → r.state = .active →
      ∀ s' r', ¬ IsOut ((c.sessions s').use token) r'
  | .message _ (.reserve _ _ _ _) => c.gov.nextReservation.toNat + 1 < 2 ^ 64
  | .resume s _ => ∀ kind token r, c.sessions s = .copied kind token r → ReleaseFits c.gov kind r
  | _ => True

end Coordinator

structure SettleSpec (g : Governor) (token : ReservationId) (r : BudgetReservation)
    (x : Governor.HandleResult) : Prop where
  handle : ∃ state, x.2.1 = { r with state := state }
  revives : x.2.1.state = .active → r.state = .active
  moves : (SettleCall.ofResult g token r x).Moves →
    (∃ st, x.1 = .ok st) ∧ r.state = .active ∧ x.2.1.state ≠ .active ∧
      (SettleCall.ofResult g token r x).Transfers r.amount

theorem settleSpec_unchanged {g : Governor} {token : ReservationId} {r r' : BudgetReservation}
    {result : Except Exn Status} (hhandle : ∃ state, r' = { r with state := state })
    (hrevives : r'.state = .active → r.state = .active) : SettleSpec g token r (result, r', g) :=
  ⟨hhandle, hrevives, fun h => absurd rfl h⟩

theorem settleSpec_moved {g g' : Governor} {token : ReservationId} {r : BudgetReservation}
    {b b' : Budget} {st : Status} {state : ReservationState} (hm : Governor.HandleMatches g r b)
    (hstate : state ≠ .active) (hafter : g'.budgets = g.budgets.set r.budget b')
    (ht : Transfer r.amount b b') :
    SettleSpec g token r (.ok st, { r with state := state }, g') := by
  have hfound : g'.budgets.find? r.budget = some b' := by
    rw [hafter, HashedMap.find?_set, if_pos rfl]
  exact ⟨⟨state, rfl⟩, fun h => absurd h hstate,
    fun _ => ⟨⟨st, rfl⟩, hm.active, hstate, b, b', hm.found, hfound, ht⟩⟩

namespace Coordinator

theorem commit_spec {g : Governor} {r : BudgetReservation} (hfits : ReleaseFits g .commit r)
    (token : ReservationId) : SettleSpec g token r (g.commit r) := by
  have hhandle := g.commit_handle r
  have h := g.commit_cases r
  generalize g.commit r = x at h hhandle ⊢
  cases h with
  | refused st => exact settleSpec_unchanged hhandle id
  | settled => exact settleSpec_unchanged hhandle id
  | threw e r' hactive => exact settleSpec_unchanged hhandle (fun _ => hactive)
  | expiryThrew e b reserved hm _ hpast _ hadd =>
      obtain ⟨released, hreleased⟩ := (MoneyMicros.exists_toInt_eq_iff _).2
        (hfits b hm.found hm.active (Or.inr hpast))
      exact absurd hreleased (hadd released)
  | expired b reserved released hm _ _ hsub hadd =>
      exact settleSpec_moved hm (by simp) rfl ⟨hsub, Or.inr ⟨hadd, rfl⟩⟩
  | committed b reserved consumed hm _ _ hsub hadd =>
      exact settleSpec_moved hm (by simp) rfl ⟨hsub, Or.inl ⟨hadd, rfl⟩⟩

theorem release_spec {g : Governor} {r : BudgetReservation} (hfits : ReleaseFits g .release r)
    (token : ReservationId) : SettleSpec g token r (g.release r) := by
  have hhandle := g.release_handle r
  have h := g.release_cases r
  generalize g.release r = x at h hhandle ⊢
  cases h with
  | refused st => exact settleSpec_unchanged hhandle id
  | settled => exact settleSpec_unchanged hhandle id
  | threw e => exact settleSpec_unchanged hhandle id
  | halfThrew e b reserved hm _ hadd =>
      obtain ⟨released, hreleased⟩ := (MoneyMicros.exists_toInt_eq_iff _).2
        (hfits b hm.found hm.active (Or.inl rfl))
      exact absurd hreleased (hadd released)
  | released b reserved released hm _ hsub hadd =>
      exact settleSpec_moved hm (by simp) rfl ⟨hsub, Or.inr ⟨hadd, rfl⟩⟩

theorem settleCall_spec {g : Governor} {kind : SettleKind} {r : BudgetReservation}
    (hfits : ReleaseFits g kind r) (token : ReservationId) :
    SettleSpec g token r (settleCall g kind r) := by
  cases kind with
  | commit => exact commit_spec hfits token
  | release => exact release_spec hfits token

end Coordinator

/-- The cell of a token: the stored reservation and every copy of it. -/
def cellOf (c : Coordinator) (calls : List SettleCall) (token : ReservationId) :
    Cell BudgetReservation :=
  ⟨c.reservations.find? token, fun s => (c.sessions s).use token, moveCount calls token⟩

def Active (r : BudgetReservation) : Prop := r.state = .active

/-- A step of one session, as a step of the cell of a token it is about. -/
theorem cell_of_session {c c' : Coordinator} {s : ℕ} (st : SessionState) {token : ReservationId}
    {calls calls' : List SettleCall} {value : Option BudgetReservation}
    {u : Option (Use BudgetReservation)}
    (hsessions : c'.sessions = Function.update c.sessions s st)
    (hvalue : c'.reservations.find? token = value) (hu : st.use token = u)
    (hstep : Step Active (cellOf c calls token)
      ⟨value, Function.update (cellOf c calls token).uses s u, moveCount calls' token⟩) :
    Step Active (cellOf c calls token) (cellOf c' calls' token) := by
  have huses : (fun s => (c'.sessions s).use token) =
      Function.update (cellOf c calls token).uses s u := by
    rw [hsessions, ← hu]
    exact Function.comp_update (SessionState.use token) c.sessions s st
  unfold cellOf at huses ⊢
  rw [huses, hvalue]
  exact hstep

/-- A step of one session that is not about the token. -/
theorem cell_of_other {c c' : Coordinator} {s : ℕ} (st : SessionState) {token : ReservationId}
    {calls calls' : List SettleCall}
    (hsessions : c'.sessions = Function.update c.sessions s st)
    (hvalue : c'.reservations.find? token = c.reservations.find? token)
    (hold : (c.sessions s).use token = none) (hnew : st.use token = none)
    (hcount : moveCount calls' token = moveCount calls token) :
    Step Active (cellOf c calls token) (cellOf c' calls' token) := by
  refine cell_of_session st hsessions hvalue (hnew.trans hold.symm) ?_
  rw [hcount]
  change Step Active _ ⟨_, Function.update (cellOf c calls token).uses s
    ((cellOf c calls token).uses s), _⟩
  rw [Function.update_eq_self]
  exact .stay

/-- A session stores a reservation and finishes. -/
theorem cell_of_write {c : Coordinator} {s : ℕ} {token' : ReservationId} {r : BudgetReservation}
    {calls : List SettleCall} (reply : CoordinatorReply)
    (hold : ∀ token, token' ≠ token → (c.sessions s).use token = none)
    (hstep : Step Active (cellOf c calls token')
      ⟨some r, Function.update (cellOf c calls token').uses s none, moveCount calls token'⟩)
    (token : ReservationId) :
    Step Active (cellOf c calls token)
      (cellOf ({ c with reservations := c.reservations.set token' r }.finish s reply) calls token) := by
  by_cases ht : token' = token
  · subst ht
    have hfind : (c.reservations.set token' r).find? token' = some r := by simp
    exact cell_of_session .idle rfl hfind rfl hstep
  · have hfind : (c.reservations.set token' r).find? token = c.reservations.find? token := by
      simp [Ne.symm ht]
    exact cell_of_other .idle rfl hfind (hold token ht) rfl rfl

theorem moveCount_append_self (calls : List SettleCall) (k : SettleCall) :
    moveCount (calls ++ [k]) k.token = moveCount calls k.token + if k.Moves then 1 else 0 := by
  by_cases h : k.Moves <;> simp [moveCount, h]

theorem moveCount_append_other (calls : List SettleCall) {k : SettleCall} {token : ReservationId}
    (h : k.token ≠ token) : moveCount (calls ++ [k]) token = moveCount calls token := by
  simp [moveCount, h]

namespace Coordinator.Change

theorem settle_cell {c : Coordinator} {s : ℕ} {kind : SettleKind} {token : ReservationId}
    {r : BudgetReservation} (h : c.sessions s = .copied kind token r)
    (hfits : ReleaseFits c.gov kind r) (calls : List SettleCall) :
    Step Active (cellOf c calls token)
      (cellOf (c.afterSettle s token (settleCall c.gov kind r))
        (calls ++ [.ofResult c.gov token r (settleCall c.gov kind r)]) token) := by
  have hspec := settleCall_spec hfits token
  have huse : (cellOf c calls token).uses s = some (.copied r) := by
    simp [cellOf, h, SessionState.use]
  generalize settleCall c.gov kind r = x at hspec ⊢
  have hcount : moveCount (calls ++ [.ofResult c.gov token r x]) token =
      moveCount calls token + if (SettleCall.ofResult c.gov token r x).Moves then 1 else 0 :=
    moveCount_append_self calls (.ofResult c.gov token r x)
  obtain ⟨result, r', g⟩ := x
  cases result with
  | error e =>
      have hstay : ¬ (SettleCall.ofResult c.gov token r (.error e, r', g)).Moves := by
        intro hmoves
        obtain ⟨⟨st, hst⟩, _⟩ := hspec.moves hmoves
        cases hst
      rw [if_neg hstay] at hcount
      refine cell_of_session .idle rfl rfl rfl ?_
      rw [hcount]
      exact .drop s r huse
  | ok st =>
      refine cell_of_session (.settled token r' st) rfl rfl (if_pos rfl) ?_
      rw [hcount]
      by_cases hmoves : (SettleCall.ofResult c.gov token r (.ok st, r', g)).Moves
      · obtain ⟨_, hactive, hdead, _⟩ := hspec.moves hmoves
        rw [if_pos hmoves]
        exact .spend s r r' huse hactive hdead
      · rw [if_neg hmoves]
        exact .keep s r r' huse hspec.revives

/-- Every step moves the cell of every token as the protocol allows. -/
theorem cell_step {c c' : Coordinator} {e : Event} (h : Change c e c') (hcare : Careful c e)
    (hunused : c.reservations.find? ⟨c.gov.nextReservation⟩ = none ∧
      ∀ s, (c.sessions s).use ⟨c.gov.nextReservation⟩ = none)
    (calls : List SettleCall) (token : ReservationId) :
    Step Active (cellOf c calls token) (cellOf c' (calls ++ c.settling e) token) := by
  cases h with
  | same e _ hsettle =>
      rw [hsettle, List.append_nil]
      exact .stay
  | quiet e c' s st _ hsettle hold hnew hsessions hreservations _ _ =>
      rw [hsettle, List.append_nil]
      exact cell_of_other st hsessions (by rw [hreservations]) (hold.use token) (hnew.use token) rfl
  | snapshot s saved st hs =>
      have hsettle : c.settling (.resume s saved) = [] := settling_resume hs saved
      rw [hsettle, List.append_nil]
      exact cell_of_other (.saving st c.gov.snapshot) rfl rfl (by rw [hs]; rfl) rfl rfl
  | save s saved st snap hs =>
      have hsettle : c.settling (.resume s saved) = [] := settling_resume hs saved
      rw [hsettle, List.append_nil]
      exact cell_of_other .idle rfl rfl (by rw [hs]; rfl) rfl rfl
  | grant s budget gen epoch amount r g hidle _ hid _ _ =>
      change Step Active _ (cellOf _ (calls ++ []) token)
      rw [List.append_nil]
      by_cases ht : r.id = token
      · rw [← hid, ht] at hunused
        refine cell_of_session (.granted r) rfl rfl (if_pos ht) ?_
        refine .issue s r hunused.1 ?_
        intro s' a' hs'
        exact absurd (hs'.symm.trans (hunused.2 s')) (Option.some_ne_none _)
      · exact cell_of_other (.granted r) rfl rfl (by rw [hidle]; rfl) (if_neg ht) rfl
  | store s saved r hs =>
      have hsettle : c.settling (.resume s saved) = [] := settling_resume hs saved
      have huse : (cellOf c calls r.id).uses s = some (.issued r) := by
        simp [cellOf, hs, SessionState.use]
      rw [hsettle, List.append_nil]
      refine cell_of_write _ ?_ (.store s r huse) token
      intro token' ht
      rw [hs]
      exact if_neg ht
  | copy s kind token' r hidle hfound =>
      change Step Active _ (cellOf _ (calls ++ []) token)
      rw [List.append_nil]
      by_cases ht : token' = token
      · subst ht
        exact cell_of_session (.copied kind token' r) rfl rfl (if_pos rfl)
          (.copy s r hfound (hcare hidle r hfound))
      · exact cell_of_other (.copied kind token' r) rfl rfl (by rw [hidle]; rfl) (if_neg ht) rfl
  | settle s saved kind token' r hs =>
      have hsettle : c.settling (.resume s saved) =
          [.ofResult c.gov token' r (settleCall c.gov kind r)] := settling_resume hs saved
      rw [hsettle]
      by_cases ht : token' = token
      · subst ht
        exact settle_cell hs (hcare kind token' r hs) calls
      · have hold : (c.sessions s).use token = none := by rw [hs]; exact if_neg ht
        have hcount := moveCount_append_other calls
          (k := .ofResult c.gov token' r (settleCall c.gov kind r)) ht
        generalize settleCall c.gov kind r = x at hcount ⊢
        obtain ⟨result, r', g⟩ := x
        cases result with
        | error e => exact cell_of_other .idle rfl rfl hold rfl hcount
        | ok st => exact cell_of_other (.settled token' r' st) rfl rfl hold (if_neg ht) hcount
  | putBack s saved token' r st hs =>
      have hsettle : c.settling (.resume s saved) = [] := settling_resume hs saved
      have huse : (cellOf c calls token').uses s = some (.used r) := by
        simp [cellOf, hs, SessionState.use]
      rw [hsettle, List.append_nil]
      refine cell_of_write _ ?_ (.putBack s r huse) token
      intro token ht
      rw [hs]
      exact if_neg ht

end Coordinator.Change

end CostGovernor
