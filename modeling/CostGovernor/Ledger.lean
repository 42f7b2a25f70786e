import CostGovernor.BudgetLedger

/-!
# Conservation of the budget ledger

Along every run of a client in which no call throws, the ledger balances.
-/

namespace CostGovernor

open Executions Tallies

def Budget.ZeroAccounting (b : Budget) : Prop :=
  b.reserved.toInt = 0 ∧ b.released.toInt = 0 ∧ b.consumed.toInt = 0

namespace Client

def Balances (c : Client) : Prop := Ledger c.gov.budgets c.handles c.charges

theorem balances_start (now : Int64) : (start now).Balances := by
  intro id b hb
  cases hb

theorem Balances.createBudget {c : Client} (h : c.Balances) (hg : c.Grounded) {b : Budget}
    (hzero : b.ZeroAccounting) : (c.step (.createBudget b)).Balances := by
  change Ledger (c.gov.createBudget b).2.budgets c.handles c.charges
  have hcase := c.gov.createBudget_cases b
  generalize c.gov.createBudget b = x at hcase ⊢
  cases hcase with
  | refused => exact h
  | created hlimit _ hnew =>
      intro id b' hb'
      rw [HashedMap.find?_emplace] at hb'
      split_ifs at hb' with hk
      · -- no handle and no charge can name a budget that is not in the map yet
        have hheld (s : ReservationState) : held c.handles b.id s = 0 := by
          apply tally_eq_zero
          intro r hr hrb
          obtain ⟨_, b₀, hb₀, _⟩ := hg.handles r hr
          rw [hrb.1, hnew] at hb₀
          cases hb₀
        have hcharged : charged c.charges b.id = 0 := by
          apply tally_eq_zero
          intro x hx hxb
          obtain ⟨b₀, hb₀⟩ := hg.charges x hx
          rw [hxb, hnew] at hb₀
          cases hb₀
        obtain ⟨h₁, h₂, h₃⟩ := hzero
        rw [hk.1, ← Option.some.inj hb']
        refine ⟨?_, ?_, ?_, ?_⟩
        · rw [hheld, h₁]
        · rw [hheld, hheld, h₂, add_zero]
        · rw [hheld, hcharged, h₃, add_zero]
        · change b.reserved.toInt ≤ b.limit.toInt
          omega
      · exact h id b' hb'

theorem Balances.reserve {c : Client} (h : c.Balances) (budget : BudgetId) (gen : BudgetGeneration)
    (epoch : CoordinatorEpoch) (amount : MoneyMicros) :
    (c.step (.reserve budget gen epoch amount)).Balances := by
  change Ledger (c.gov.reserve budget gen epoch amount).2.2.budgets
    (c.handles ++ (c.gov.reserve budget gen epoch amount).2.1.toList) c.charges
  have hcase := c.gov.reserve_cases budget gen epoch amount
  generalize c.gov.reserve budget gen epoch amount = x at hcase ⊢
  cases hcase with
  | refused => exact (List.append_nil c.handles).symm ▸ h
  | threw => exact (List.append_nil c.handles).symm ▸ h
  | expired b hfound => exact (List.append_nil c.handles).symm ▸ h.lapse hfound
  | granted b reservedAfter hgrant =>
      have hheld (id : BudgetId) (s : ReservationState) :
          held (c.handles ++ [c.gov.grantedHandle budget gen epoch amount b]) id s =
            held c.handles id s + if budget = id ∧ .active = s then amount.toInt else 0 :=
        held_append_singleton _ _ _ _
      obtain ⟨h₁, h₂, h₃, _⟩ := h budget b hgrant.found
      have hsum := hgrant.sum
      apply Ledger.set h
      · intro id s hid
        have hne : ¬ budget = id := fun he => hid he.symm
        rw [Option.toList_some, hheld, if_neg (fun hc => hne hc.1), add_zero]
      · intro id _
        rfl
      · rw [Option.toList_some]
        refine ⟨?_, ?_, ?_, hgrant.fits⟩
        · rw [hheld, if_pos ⟨rfl, rfl⟩, ← h₁]
          exact hsum
        · rw [hheld, hheld, if_neg (by simp), if_neg (by simp), add_zero, add_zero]
          exact h₂
        · rw [hheld, if_neg (by simp), add_zero]
          exact h₃

theorem Balances.consume {c : Client} (h : c.Balances) (budget : BudgetId) (gen : BudgetGeneration)
    (epoch : CoordinatorEpoch) (amount : MoneyMicros) :
    (c.step (.consume budget gen epoch amount)).Balances := by
  change Ledger (c.gov.consume budget gen epoch amount).2.budgets c.handles
    (c.charges ++ chargeMade (c.gov.consume budget gen epoch amount).1 budget amount)
  have hcase := c.gov.consume_cases budget gen epoch amount
  generalize c.gov.consume budget gen epoch amount = x at hcase ⊢
  cases hcase with
  | refused st hst =>
      rw [chargeMade_of_ne hst, List.append_nil]
      exact h
  | threw e => exact (List.append_nil c.charges).symm ▸ h
  | expired b hc => exact (List.append_nil c.charges).symm ▸ h.lapse hc.found
  | charged b consumed hc _ hadd =>
      have hcharged (id : BudgetId) : charged (c.charges ++ [(budget, amount)]) id =
          charged c.charges id + if budget = id then amount.toInt else 0 :=
        tally_append_singleton _ _ _ _
      obtain ⟨h₁, h₂, h₃, hwithin⟩ := h budget b hc.found
      apply Ledger.set h
      · intro id s _
        rfl
      · intro id hid
        have hne : ¬ budget = id := fun he => hid he.symm
        exact (hcharged id).trans (by rw [if_neg hne, add_zero])
      · refine ⟨h₁, h₂, ?_, hwithin⟩
        change consumed.toInt = held c.handles budget .committed +
          charged (c.charges ++ [(budget, amount)]) budget
        rw [hcharged, if_pos rfl]
        omega

theorem returned_of_not_threw {c : Client} {op : Op} {st : Except Exn Status}
    {r : Option BudgetReservation} (hreply : (c.gov.exec op).1 = .handle st r)
    (h : (c.call op).threw = false) (e : Exn) : st ≠ .error e := by
  intro he
  simp [call, hreply, he, Reply.threw] at h

theorem Balances.commit {c : Client} (h : c.Balances) (hg : c.Grounded) {i : ℕ}
    (hok : (c.step (.commit i)).threw = false) : (c.step (.commit i)).Balances := by
  cases hi : c.handles[i]? with
  | none => exact (step_of_no_handle hi).1.symm ▸ h
  | some r =>
      rw [step_commit hi] at hok ⊢
      have hamount := (hg.handles r (List.mem_of_getElem? hi)).1
      have hret : ∀ e, (c.gov.commit r).1 ≠ .error e := returned_of_not_threw rfl hok
      have hcase := c.gov.commit_cases r
      change Ledger (c.gov.commit r).2.2.budgets (c.handles.set i (c.gov.commit r).2.1) c.charges
      generalize c.gov.commit r = x at hcase hret ⊢
      cases hcase with
      | refused => exact (set_eq_self hi).symm ▸ h
      | settled => exact (set_eq_self hi).symm ▸ h
      | threw e => exact absurd rfl (hret e)
      | expiryThrew e => exact absurd rfl (hret e)
      | expired b reserved released hm _ _ hsub hadd =>
          apply Ledger.settle h hm.found hi hm.active hamount
          exact ⟨by simp, hsub, hadd, (add_zero _).symm, rfl⟩
      | committed b reserved consumed hm _ _ hsub hadd _ =>
          apply Ledger.settle h hm.found hi hm.active hamount
          exact ⟨by simp, hsub, (add_zero _).symm, hadd, rfl⟩

theorem Balances.release {c : Client} (h : c.Balances) (hg : c.Grounded) {i : ℕ}
    (hok : (c.step (.release i)).threw = false) : (c.step (.release i)).Balances := by
  cases hi : c.handles[i]? with
  | none => exact (step_of_no_handle hi).2.symm ▸ h
  | some r =>
      rw [step_release hi] at hok ⊢
      have hamount := (hg.handles r (List.mem_of_getElem? hi)).1
      have hret : ∀ e, (c.gov.release r).1 ≠ .error e := returned_of_not_threw rfl hok
      have hcase := c.gov.release_cases r
      change Ledger (c.gov.release r).2.2.budgets (c.handles.set i (c.gov.release r).2.1) c.charges
      generalize c.gov.release r = x at hcase hret ⊢
      cases hcase with
      | refused => exact (set_eq_self hi).symm ▸ h
      | settled => exact (set_eq_self hi).symm ▸ h
      | threw e => exact absurd rfl (hret e)
      | halfThrew e => exact absurd rfl (hret e)
      | released b reserved released hm _ hsub hadd =>
          apply Ledger.settle h hm.found hi hm.active hamount
          exact ⟨by simp, hsub, hadd, (add_zero _).symm, rfl⟩

theorem Balances.step {c : Client} (h : c.Balances) (hg : c.Grounded) (op : ClientOp)
    (hzero : ∀ b, op = .createBudget b → b.ZeroAccounting) (hok : (c.step op).threw = false) :
    (c.step op).Balances := by
  cases op with
  | createBudget b => exact h.createBudget hg (hzero b rfl)
  | reserve budget gen epoch amount => exact h.reserve budget gen epoch amount
  | commit i => exact h.commit hg hok
  | release i => exact h.release hg hok
  | consume budget gen epoch amount => exact h.consume budget gen epoch amount
  | other op hop =>
      have hsame := c.gov.apply_budgets_of_not_budgetCall hop
      change Ledger (c.gov.apply op).budgets c.handles c.charges
      rw [hsame]
      exact h

/-- A throw is never forgotten. -/
theorem threw_of_step {c : Client} {op : ClientOp} (h : (c.step op).threw = false) :
    c.threw = false := by
  have hcall (op : Op) (hop : (c.call op).threw = false) : c.threw = false :=
    (Bool.or_eq_false_iff.1 hop).1
  cases op with
  | createBudget b => exact hcall _ h
  | reserve budget gen epoch amount => exact hcall (.reserve budget gen epoch amount) h
  | commit i =>
      cases hi : c.handles[i]? with
      | none => exact (step_of_no_handle hi).1 ▸ h
      | some r =>
          rw [step_commit hi] at h
          exact hcall (.commit r) h
  | release i =>
      cases hi : c.handles[i]? with
      | none => exact (step_of_no_handle hi).2 ▸ h
      | some r =>
          rw [step_release hi] at h
          exact hcall (.release r) h
  | consume budget gen epoch amount => exact hcall (.consume budget gen epoch amount) h
  | other op hop => exact hcall op h

/-- The handles are grounded in every run, the ledger balances while nothing throws. -/
structure Sound (c : Client) : Prop where
  grounded : c.Grounded
  balances : c.threw = false → c.Balances

theorem sound_run (now : Int64) {ops : List ClientOp}
    (hzero : ∀ b, .createBudget b ∈ ops → b.ZeroAccounting) : (run step (start now) ops).Sound := by
  have hops : Along step (fun _ op => ∀ b, op = .createBudget b → b.ZeroAccounting)
      (start now) ops := by
    apply along_of_forall
    intro op hop _ b hb
    exact hzero b (hb ▸ hop)
  apply run_invariant (I := Sound) _ ⟨grounded_start now, fun _ => balances_start now⟩ hops
  intro c op hc hop
  refine ⟨hc.grounded.step op, ?_⟩
  intro hok
  exact (hc.balances (threw_of_step hok)).step hc.grounded op hop hok

/-- A commit or release without a throw has no effect or settles its handle, a
settled handle stays settled, and nothing further happens to its amount. -/
structure SettlesOnce (c : Client) (i : ℕ) : Prop where
  firstCommit : (c.step (.commit i)).threw = false →
    c.step (.commit i) = c ∨ (c.step (.commit i)).Settled i
  firstRelease : (c.step (.release i)).threw = false →
    c.step (.release i) = c ∨ (c.step (.release i)).Settled i
  stays : c.Settled i → ∀ ops, (run step c ops).Settled i
  second : c.Settled i → c.step (.commit i) = c ∧ c.step (.release i) = c

theorem settlesOnce (c : Client) (i : ℕ) : c.SettlesOnce i where
  firstCommit := step_commit_settles
  firstRelease := step_release_settles
  stays := fun h ops =>
    run_preserves (I := fun c : Client => c.Settled i) (fun _ op hc => hc.step op) h ops
  second := fun h => h.step_eq

end Client

open Client

/-- In every run without a throw the budget totals are the tallies of the handles
and direct charges, and a handle takes effect at most once. -/
theorem budget_ledger_conserved (now : Int64) (ops : List ClientOp)
    (hzero : ∀ b, .createBudget b ∈ ops → b.ZeroAccounting)
    (hok : (run step (start now) ops).threw = false) :
    let c := run step (start now) ops
    (∀ id b, c.gov.budgets.find? id = some b →
      b.reserved.toInt = held c.handles id .active ∧
      b.released.toInt = held c.handles id .released + held c.handles id .expired ∧
      b.consumed.toInt = held c.handles id .committed + charged c.charges id ∧
      0 ≤ b.reserved.toInt ∧ b.reserved ≤ b.limit) ∧
    ∀ i, c.SettlesOnce i := by
  intro c
  have hsound : c.Sound := sound_run now hzero
  refine ⟨?_, c.settlesOnce⟩
  intro id b hb
  obtain ⟨h₁, h₂, h₃, hwithin⟩ := hsound.balances hok id b hb
  have hnonneg : 0 ≤ held c.handles id .active :=
    tally_nonneg _ _ (fun r hr => (hsound.grounded.handles r hr).1)
  exact ⟨h₁, h₂, h₃, h₁ ▸ hnonneg, hwithin⟩

def settledTwiceRun : List ClientOp :=
  [.createBudget {
      id := ⟨1⟩, generation := ⟨1⟩, policyGeneration := ⟨1⟩, epoch := ⟨1⟩, limit := ⟨10⟩ },
    .reserve ⟨1⟩ ⟨1⟩ ⟨1⟩ ⟨4⟩, .reserve ⟨1⟩ ⟨1⟩ ⟨1⟩ ⟨3⟩, .commit 0, .release 0,
    .consume ⟨1⟩ ⟨1⟩ ⟨1⟩ ⟨2⟩, .release 1, .commit 1]

theorem budget_ledger_conserved_settledTwiceRun :
    let c := run step (start 0) settledTwiceRun
    ∃ b, c.gov.budgets.find? ⟨1⟩ = some b ∧ b.consumed = ⟨6⟩ ∧ b.released = ⟨3⟩ ∧
      b.reserved.toInt = held c.handles ⟨1⟩ .active ∧
      b.released.toInt = held c.handles ⟨1⟩ .released + held c.handles ⟨1⟩ .expired ∧
      b.consumed.toInt = held c.handles ⟨1⟩ .committed + charged c.charges ⟨1⟩ ∧
      0 ≤ b.reserved.toInt ∧ b.reserved ≤ b.limit := by
  refine ⟨_, rfl, rfl, rfl, (budget_ledger_conserved 0 settledTwiceRun ?_ rfl).1 ⟨1⟩ _ rfl⟩
  intro b hb
  simp only [settledTwiceRun, List.mem_cons, ClientOp.createBudget.injEq, reduceCtorEq,
    List.not_mem_nil, or_false] at hb
  rw [hb]
  exact ⟨rfl, rfl, rfl⟩

end CostGovernor
