import CostGovernor.ReservedEffects

/-!
# What a RESERVED budget stands for

`reserve` makes a budget RESERVED. `release` keeps it so for as long as the governor's own
copy of some grant is ACTIVE, and nothing ever changes these copies; `commit` leaves the
lifecycle alone when it finds its handle expired; `load` drops every handle, and takes
RESERVED back only from a budget that was neither charged nor released to. A budget that
is RESERVED has an active handle for as long as none of the three takes the last one.
-/

namespace CostGovernor

open Executions Governor

/-- A client with its state file. The handles it was granted before the last load are
dropped; it may still present them. -/
structure Holder where
  client : Client
  file : Option ByteString := none
  dropped : ℕ := 0

inductive HolderOp
  | call (op : ClientOp)
  /-- The file system takes the bytes or refuses them. -/
  | persist (written : Bool)
  | load

namespace Holder

def start (now : Int64) (file : Option ByteString) : Holder :=
  { client := Client.start now, file := file }

def droppedAfter (s : Holder) : Except Exn Status → ℕ
  | .ok .ok => s.client.handles.length
  | _ => s.dropped

def step (s : Holder) : HolderOp → Holder
  | .call op => { s with client := s.client.step op }
  | .persist written => { s with file := (s.client.gov.persist written s.file).2 }
  | .load =>
    { s with
      client := { s.client with gov := (s.client.gov.load s.file).2 }
      dropped := s.droppedAfter (s.client.gov.load s.file).1 }

/-- The handle at this position is ACTIVE and no load has dropped it. -/
structure Live (s : Holder) (i : ℕ) (r : BudgetReservation) : Prop where
  kept : s.dropped ≤ i
  handle : s.client.handles[i]? = some r
  active : r.state = .active

def Backed (s : Holder) : Prop :=
  ∀ id, s.client.gov.Reserved id → ∃ i r, s.Live i r ∧ r.budget = id

/-- The budget has a live handle at another position. -/
def Spare (s : Holder) (i : ℕ) (id : BudgetId) : Prop :=
  ∃ j r, j ≠ i ∧ s.Live j r ∧ r.budget = id

/-- No release, no commit that comes too late and no load takes the last live handle of
a budget that stays RESERVED. -/
structure SparesLast (s : Holder) (op : HolderOp) : Prop where
  release : ∀ i r b, op = .call (.release i) → s.client.handles[i]? = some r →
    HandleMatches s.client.gov r b → s.Spare i r.budget
  late : ∀ i r b, op = .call (.commit i) → s.client.handles[i]? = some r →
    HandleMatches s.client.gov r b → b.lifecycle = .reserved →
    r.pastExpiry s.client.gov.now = true → s.Spare i r.budget
  load : op = .load → ∀ bytes snap, s.file = some bytes → SnapshotCodec.decode bytes = .ok snap →
    ∀ b ∈ snap.budgets, b.lifecycle = .reserved → b.consumed = ⟨0⟩ ∧ b.released = ⟨0⟩

structure Sound (s : Holder) : Prop where
  dropped : s.dropped ≤ s.client.handles.length
  backed : s.Backed

theorem sound_start (now : Int64) (file : Option ByteString) : (start now file).Sound := by
  refine ⟨Nat.zero_le _, ?_⟩
  rintro id ⟨b, hb, _⟩
  cases hb

/-- A call that takes no handle and makes no budget RESERVED. -/
theorem Sound.quiet {s s' : Holder} (h : s.Sound) (hdropped : s'.dropped = s.dropped)
    (hhandles : s'.client.handles = s.client.handles)
    (hafter : ∀ id, s'.client.gov.Reserved id → s.client.gov.Reserved id) : s'.Sound := by
  refine ⟨?_, fun id hid => ?_⟩
  · rw [hdropped, hhandles]
    exact h.dropped
  · obtain ⟨i, r, hlive, hbudget⟩ := h.backed id (hafter id hid)
    exact ⟨i, r, ⟨hdropped ▸ hlive.kept, hhandles ▸ hlive.handle, hlive.active⟩, hbudget⟩

theorem Sound.reserve {s : Holder} (h : s.Sound) (budget : BudgetId) (gen : BudgetGeneration)
    (epoch : CoordinatorEpoch) (amount : MoneyMicros) :
    (s.step (.call (.reserve budget gen epoch amount))).Sound := by
  refine ⟨?_, fun id hid => ?_⟩
  · change s.dropped ≤ (s.client.handles ++ _).length
    rw [List.length_append]
    exact h.dropped.trans (Nat.le_add_right _ _)
  · rcases reserve_reserved hid with hold | ⟨r, hr, hbudget, hactive⟩
    · obtain ⟨i, r, hlive, hbudget⟩ := h.backed id hold
      obtain ⟨hlt, _⟩ := List.getElem?_eq_some_iff.mp hlive.handle
      refine ⟨i, r, ⟨hlive.kept, ?_, hlive.active⟩, hbudget⟩
      exact (List.getElem?_append_left hlt).trans hlive.handle
    · refine ⟨s.client.handles.length, r, ⟨h.dropped, ?_, hactive⟩, hbudget⟩
      change (s.client.handles ++ Option.toList _)[s.client.handles.length]? = some r
      rw [hr]
      exact List.getElem?_concat_length

/-- A commit or a release, as long as a budget that stays RESERVED has a handle to spare. -/
theorem Sound.settle {s : Holder} {i : ℕ} {r : BudgetReservation} {Stays : Budget → Prop}
    {x : HandleResult} {c : Client} (h : s.Sound) (hi : s.client.handles[i]? = some r)
    (heffect : SettleEffect s.client.gov r Stays x)
    (hspare : ∀ b, HandleMatches s.client.gov r b → Stays b → s.Spare i r.budget)
    (hgov : c.gov = x.2.2) (hhandles : c.handles = s.client.handles.set i x.2.1) :
    Sound { s with client := c } := by
  cases heffect with
  | kept result g' hafter =>
      refine h.quiet rfl (hhandles.trans (Tallies.set_eq_self hi)) fun id hid => hafter id ?_
      exact (congrArg (Governor.Reserved · id) hgov).mp hid
  | settled result r' g' hafter =>
      refine ⟨?_, fun id hid => ?_⟩
      · change s.dropped ≤ c.handles.length
        rw [hhandles, List.length_set]
        exact h.dropped
      · -- the handle of another budget is at another position
        have hother : s.Spare i id := by
          rcases hafter id ((congrArg (Governor.Reserved · id) hgov).mp hid) with
            ⟨hne, hold⟩ | ⟨rfl, b, hm, hstays⟩
          · obtain ⟨j, r₁, hlive, rfl⟩ := h.backed id hold
            refine ⟨j, r₁, ?_, hlive, rfl⟩
            rintro rfl
            rw [hlive.handle] at hi
            exact hne (congrArg BudgetReservation.budget (Option.some.inj hi))
          · exact hspare b hm hstays
        obtain ⟨j, r₁, hne, hlive, hbudget⟩ := hother
        refine ⟨j, r₁, ⟨hlive.kept, ?_, hlive.active⟩, hbudget⟩
        change c.handles[j]? = some r₁
        rw [hhandles, List.getElem?_set_ne hne.symm]
        exact hlive.handle

theorem Sound.load {s : Holder} (h : s.Sound) (hop : s.SparesLast .load) :
    (s.step .load).Sound := by
  have hload := s.client.gov.load_cases s.file
  unfold step
  generalize s.client.gov.load s.file = x at hload ⊢
  cases hload with
  | refused st hst =>
      refine h.quiet ?_ rfl fun _ hid => hid
      cases st with
      | error e => rfl
      | ok st => cases st <;> first | rfl | exact absurd rfl hst
  | restored bytes snap _ hfile hsnap =>
      refine ⟨le_rfl, fun id hid => ?_⟩
      obtain ⟨b, hb, hreserved, htouched⟩ := restore_reserved hid
      exact absurd (hop.load rfl bytes snap hfile hsnap b hb hreserved) htouched

theorem Sound.step {s : Holder} {op : HolderOp} (h : s.Sound) (hop : s.SparesLast op) :
    (s.step op).Sound := by
  cases op with
  | persist written => exact h.quiet rfl rfl fun _ hid => hid
  | load => exact h.load hop
  | call op =>
      cases op with
      | createBudget b => exact h.quiet rfl rfl fun _ hid => createBudget_reserved hid
      | reserve budget gen epoch amount => exact h.reserve budget gen epoch amount
      | commit i =>
          cases hi : s.client.handles[i]? with
          | none =>
              change Sound { s with client := s.client.step (.commit i) }
              rw [(Client.step_of_no_handle hi).1]
              exact h
          | some r =>
              refine h.settle hi (s.client.gov.commit_reserved r) (fun b hm hstays => ?_) ?_ ?_
              · exact hop.late i r b rfl hi hm hstays.1 hstays.2
              · rw [Client.step_commit hi]
                rfl
              · rw [Client.step_commit hi]
      | release i =>
          cases hi : s.client.handles[i]? with
          | none =>
              change Sound { s with client := s.client.step (.release i) }
              rw [(Client.step_of_no_handle hi).2]
              exact h
          | some r =>
              refine h.settle hi (s.client.gov.release_reserved r) (fun b hm _ => ?_) ?_ ?_
              · exact hop.release i r b rfl hi hm
              · rw [Client.step_release hi]
                rfl
              · rw [Client.step_release hi]
      | consume budget gen epoch amount => exact h.quiet rfl rfl fun _ hid => consume_reserved hid
      | other op hcall =>
          refine h.quiet rfl rfl fun _ hid => hid.of_budgets ?_
          exact s.client.gov.apply_budgets_of_not_budgetCall hcall

end Holder

/-- In every run that spares the last live handle of its RESERVED budgets, a RESERVED
budget has a live handle. -/
theorem reserved_budget_has_live_handle (now : Int64) (file : Option ByteString)
    (ops : List HolderOp)
    (h : Along Holder.step Holder.SparesLast (Holder.start now file) ops) :
    (run Holder.step (Holder.start now file) ops).Backed :=
  (run_invariant (I := Holder.Sound) (fun _ _ hs hop => hs.step hop)
    (Holder.sound_start now file) h).backed

def oneOfTwoReleased : List HolderOp :=
  [.call (.createBudget {
      id := ⟨1⟩, generation := ⟨1⟩, policyGeneration := ⟨1⟩, epoch := ⟨1⟩, limit := ⟨10⟩ }),
    .call (.reserve ⟨1⟩ ⟨1⟩ ⟨1⟩ ⟨4⟩), .call (.reserve ⟨1⟩ ⟨1⟩ ⟨1⟩ ⟨2⟩), .call (.release 0)]

theorem reserved_budget_has_live_handle_oneOfTwoReleased :
    (run Holder.step (Holder.start 0 none) oneOfTwoReleased).client.gov.Reserved ⟨1⟩ ∧
      (run Holder.step (Holder.start 0 none) oneOfTwoReleased).Backed := by
  refine ⟨by decide +kernel, reserved_budget_has_live_handle 0 none _ ⟨?_, ?_, ?_, ?_, trivial⟩⟩
  · exact ⟨(fun _ _ _ h => nomatch h), (fun _ _ _ h => nomatch h), nofun⟩
  · exact ⟨(fun _ _ _ h => nomatch h), (fun _ _ _ h => nomatch h), nofun⟩
  · exact ⟨(fun _ _ _ h => nomatch h), (fun _ _ _ h => nomatch h), nofun⟩
  · refine ⟨?_, (fun _ _ _ h => nomatch h), nofun⟩
    rintro _ r b ⟨⟩ ⟨⟩ _
    exact ⟨1, _, by decide, ⟨by decide, rfl, rfl⟩, rfl⟩

/-- A budget stays RESERVED after its only grant has been released. -/
theorem released_budget_stays_reserved :
    let s := run Holder.step (Holder.start 0 none) (oneOfTwoReleased.eraseIdx 2)
    s.client.handles.map BudgetReservation.state = [.released] ∧
      s.client.gov.Reserved ⟨1⟩ ∧ ¬ s.Backed := by
  intro s
  have hreserved : s.client.gov.Reserved ⟨1⟩ := by decide +kernel
  refine ⟨rfl, hreserved, fun hbacked => ?_⟩
  obtain ⟨i, r, hlive, _⟩ := hbacked ⟨1⟩ hreserved
  have hstates : ∀ r ∈ s.client.handles, r.state = .released := by decide +kernel
  have hreleased := hstates r (List.mem_of_getElem? hlive.handle)
  rw [hlive.active] at hreleased
  cases hreleased

end CostGovernor
