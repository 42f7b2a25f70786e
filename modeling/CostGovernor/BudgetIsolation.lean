import CostGovernor.BudgetAccounts

/-!
# Budgets do not interfere

Every budget is in one map and all share the counter of the reservation identities. The
client of a budget sees the answers to its own calls. Whatever is done to the other budgets,
the prices, the evidence and the interventions, these answers and the budget stay what they
are, but for the identities that handles are numbered with.
-/

namespace CostGovernor

open Executions

namespace Governor

section Own

variable {g k : Governor} {id : BudgetId}

/-- Two outcomes that the client of the budget cannot tell apart. -/
def AnswerAlike (id : BudgetId) (x y : Reply × Governor) : Prop :=
  x.1.unnumbered = y.1.unnumbered ∧ x.2.account id = y.2.account id

theorem account_ext (hnow : g.now = k.now) (hepoch : g.epoch = k.epoch)
    (hpolicy : g.policy = k.policy) (hbudget : g.budgets.find? id = k.budgets.find? id)
    (hgrants : ((g.reservations.find? id).getD []).map BudgetReservation.unnumbered =
      ((k.reservations.find? id).getD []).map BudgetReservation.unnumbered) :
    g.account id = k.account id := by
  unfold account
  rw [hnow, hepoch, hpolicy, hbudget, hgrants]

theorem setBudget_alike (h : g.account id = k.account id) (b : Budget) :
    (g.setBudget id b).account id = (k.setBudget id b).account id := by
  rw [account_setBudget_same, account_setBudget_same, h]

theorem createBudget_alike {b : Budget} (h : g.account b.id = k.account b.id) :
    AnswerAlike b.id (g.exec (.createBudget b)) (k.exec (.createBudget b)) := by
  obtain ⟨hnow, hepoch, hpolicy, hbudget, hgrants⟩ := Account.mk.inj h
  dsimp only [AnswerAlike, exec, createBudget, Reply.unnumbered]
  rw [hepoch, hpolicy, hbudget]
  split_ifs with h₁ h₂ h₃ h₄ h₅
  · exact ⟨rfl, h⟩
  · exact ⟨rfl, h⟩
  · exact ⟨rfl, h⟩
  · exact ⟨rfl, h⟩
  · exact ⟨rfl, h⟩
  · refine ⟨rfl, ?_⟩
    refine account_ext hnow rfl rfl ?_ hgrants
    dsimp only
    rw [HashedMap.find?_emplace, HashedMap.find?_emplace, hbudget]

theorem reserve_alike (h : g.account id = k.account id) (gen : BudgetGeneration)
    (epoch : CoordinatorEpoch) (amount : MoneyMicros) :
    AnswerAlike id (g.exec (.reserve id gen epoch amount))
      (k.exec (.reserve id gen epoch amount)) := by
  obtain ⟨hnow, hepoch, hpolicy, hbudget, hgrants⟩ := Account.mk.inj h
  dsimp only [AnswerAlike, exec, reserve, Reply.unnumbered]
  rw [hbudget]
  cases k.budgets.find? id with
  | none => exact ⟨rfl, h⟩
  | some b =>
      dsimp only
      rw [hnow, hepoch]
      split_ifs with h₁ h₂ h₃ h₄ h₅
      · exact ⟨rfl, h⟩
      · exact ⟨rfl, h⟩
      · exact ⟨rfl, h⟩
      · exact ⟨rfl, setBudget_alike h _⟩
      · exact ⟨rfl, h⟩
      · cases b.reserved.add amount with
        | error e => exact ⟨rfl, h⟩
        | ok reservedAfter =>
            dsimp only
            split_ifs with h₆
            · exact ⟨rfl, h⟩
            · -- the handles differ in their numbers only
              have hhandle : (grantedHandle g id gen epoch amount b).unnumbered =
                  (grantedHandle k id gen epoch amount b).unnumbered := by
                unfold grantedHandle BudgetReservation.unnumbered
                rw [hnow]
              refine ⟨by rw [Option.map_some, Option.map_some, hhandle], ?_⟩
              refine account_ext rfl rfl hpolicy ?_ ?_
              · dsimp only
                rw [HashedMap.find?_set, HashedMap.find?_set, if_pos rfl, if_pos rfl]
              · dsimp only
                rw [HashedMap.find?_set, HashedMap.find?_set, if_pos rfl, if_pos rfl,
                  Option.getD_some, Option.getD_some, List.map_append, List.map_append, hgrants,
                  List.map_singleton, List.map_singleton, hhandle]

theorem lifecycleAfterRelease_unnumbered (grants : List BudgetReservation)
    (consumed : MoneyMicros) :
    lifecycleAfterRelease (grants.map BudgetReservation.unnumbered) consumed =
      lifecycleAfterRelease grants consumed := by
  unfold lifecycleAfterRelease
  rw [List.any_map]
  rfl

theorem getD_emplace_nil (m : HashedMap BudgetId (List BudgetReservation)) (id : BudgetId) :
    ((m.emplace id []).find? id).getD [] = (m.find? id).getD [] := by
  rw [HashedMap.find?_emplace]
  split_ifs with hnew
  · rw [hnew.2]
    rfl
  · rfl

theorem commit_alike {r : BudgetReservation} (h : g.account r.budget = k.account r.budget) :
    AnswerAlike r.budget (g.exec (.commit r)) (k.exec (.commit r.unnumbered)) := by
  obtain ⟨hnow, hepoch, -, hbudget, -⟩ := Account.mk.inj h
  have hexpiry : BudgetReservation.pastExpiry { r with id := {} } k.now = r.pastExpiry k.now := rfl
  dsimp only [AnswerAlike, exec, commit, Reply.unnumbered, BudgetReservation.unnumbered]
  rw [hbudget]
  cases k.budgets.find? r.budget with
  | none => exact ⟨rfl, h⟩
  | some b =>
      dsimp only
      rw [hnow, hepoch, hexpiry]
      split_ifs with h₁ h₂ h₃ h₄ h₅ h₆
      · exact ⟨rfl, h⟩
      · exact ⟨rfl, h⟩
      · exact ⟨rfl, h⟩
      · exact ⟨rfl, h⟩
      · exact ⟨rfl, h⟩
      · cases b.reserved.sub r.amount with
        | error e => exact ⟨rfl, h⟩
        | ok reserved =>
            cases b.released.add r.amount with
            | error e => exact ⟨rfl, setBudget_alike h _⟩
            | ok released => exact ⟨rfl, setBudget_alike h _⟩
      · cases b.consumed.add r.amount with
        | error e => exact ⟨rfl, h⟩
        | ok consumed =>
            dsimp only
            split_ifs with h₇
            · exact ⟨rfl, h⟩
            · cases b.reserved.sub r.amount with
              | error e => exact ⟨rfl, h⟩
              | ok reserved => exact ⟨rfl, setBudget_alike h _⟩

theorem release_alike {r : BudgetReservation} (h : g.account r.budget = k.account r.budget) :
    AnswerAlike r.budget (g.exec (.release r)) (k.exec (.release r.unnumbered)) := by
  obtain ⟨hnow, hepoch, hpolicy, hbudget, hgrants⟩ := Account.mk.inj h
  dsimp only [AnswerAlike, exec, release, Reply.unnumbered, BudgetReservation.unnumbered]
  rw [hbudget]
  cases k.budgets.find? r.budget with
  | none => exact ⟨rfl, h⟩
  | some b =>
      dsimp only
      rw [hepoch]
      split_ifs with h₁ h₂ h₃
      · exact ⟨rfl, h⟩
      · exact ⟨rfl, h⟩
      · exact ⟨rfl, h⟩
      · cases b.reserved.sub r.amount with
        | error e => exact ⟨rfl, h⟩
        | ok reserved =>
            cases b.released.add r.amount with
            | error e => exact ⟨rfl, setBudget_alike h _⟩
            | ok released =>
                refine ⟨rfl, account_ext hnow rfl hpolicy ?_ ?_⟩
                · dsimp only
                  rw [HashedMap.find?_set, HashedMap.find?_set, if_pos rfl, if_pos rfl,
                    ← lifecycleAfterRelease_unnumbered, hgrants, lifecycleAfterRelease_unnumbered]
                · dsimp only
                  rw [getD_emplace_nil, getD_emplace_nil, hgrants]

theorem consume_alike (h : g.account id = k.account id) (gen : BudgetGeneration)
    (epoch : CoordinatorEpoch) (amount : MoneyMicros) :
    AnswerAlike id (g.exec (.consume id gen epoch amount))
      (k.exec (.consume id gen epoch amount)) := by
  obtain ⟨hnow, -, -, hbudget, -⟩ := Account.mk.inj h
  dsimp only [AnswerAlike, exec, consume, Reply.unnumbered]
  rw [hbudget]
  cases k.budgets.find? id with
  | none => exact ⟨rfl, h⟩
  | some b =>
      dsimp only
      rw [hnow]
      split_ifs with h₁ h₂ h₃ h₄
      · exact ⟨rfl, h⟩
      · exact ⟨rfl, h⟩
      · exact ⟨rfl, h⟩
      · exact ⟨rfl, setBudget_alike h _⟩
      · cases b.consumed.add amount with
        | error e => exact ⟨rfl, h⟩
        | ok consumed =>
            dsimp only
            split_ifs with h₅
            · exact ⟨rfl, h⟩
            · exact ⟨rfl, setBudget_alike h _⟩

/-- The client's own calls get answers that depend on the account alone. -/
theorem exec_alike {op op' : Op} (h : g.account id = k.account id)
    (hkept : op.purge id = some op') : AnswerAlike id (g.exec op) (k.exec op') := by
  obtain ⟨hnow, hepoch, hpolicy, hbudget, hgrants⟩ := Account.mk.inj h
  cases op with
  | createBudget b =>
      obtain ⟨rfl, hop⟩ := Option.ite_none_right_eq_some.1 hkept
      obtain rfl := Option.some.inj hop
      exact createBudget_alike h
  | reserve budget gen epoch amount =>
      obtain ⟨rfl, hop⟩ := Option.ite_none_right_eq_some.1 hkept
      obtain rfl := Option.some.inj hop
      exact reserve_alike h gen epoch amount
  | commit r =>
      obtain ⟨rfl, hop⟩ := Option.ite_none_right_eq_some.1 hkept
      obtain rfl := Option.some.inj hop
      exact commit_alike h
  | release r =>
      obtain ⟨rfl, hop⟩ := Option.ite_none_right_eq_some.1 hkept
      obtain rfl := Option.some.inj hop
      exact release_alike h
  | consume budget gen epoch amount =>
      obtain ⟨rfl, hop⟩ := Option.ite_none_right_eq_some.1 hkept
      obtain rfl := Option.some.inj hop
      exact consume_alike h gen epoch amount
  | advanceEpoch =>
      obtain rfl := Option.some.inj hkept
      exact ⟨rfl, account_ext hnow (congrArg Id.succ hepoch) hpolicy hbudget hgrants⟩
  | setPolicy p =>
      obtain rfl := Option.some.inj hkept
      exact ⟨rfl, account_ext hnow rfl rfl hbudget hgrants⟩
  | setClock now =>
      obtain rfl := Option.some.inj hkept
      exact ⟨rfl, account_ext rfl hepoch hpolicy hbudget hgrants⟩
  | _ => cases hkept

end Own

/-- A run shows the client of a budget what the run on the client's own calls shows. -/
theorem run_purge (id : BudgetId) {g k : Governor} (h : g.account id = k.account id)
    (ops : List Op) :
    observed Governor.apply (answerOn id) g ops =
        observed Governor.apply (answerOn id) k (ops.filterMap (Op.purge id)) ∧
      (run Governor.apply g ops).account id =
        (run Governor.apply k (ops.filterMap (Op.purge id))).account id := by
  refine run_purged (R := fun (g k : Governor) => g.account id = k.account id) ?_ ?_ h
  · intro g k op hdropped hgk
    refine ⟨?_, (account_apply_of_dropped hdropped).trans hgk⟩
    rw [answerOn, hdropped, Option.map_none]
  · intro g k op op' hkept hgk
    have halike := exec_alike hgk hkept
    refine ⟨?_, halike.2⟩
    rw [answerOn, answerOn, hkept, Op.purge_purge hkept, Option.map_some, Option.map_some,
      halike.1]

end Governor

/-- Two runs without `load` that make the same calls on a budget, the epoch, the policy and
the clock, up to the numbers of the handles and whatever else they do in between, give the
same answers to these calls and leave the budget and its grants the same. -/
theorem budgets_do_not_interfere (id : BudgetId) (g : Governor) (ops₁ ops₂ : List Op)
    (h : ops₁.filterMap (Op.purge id) = ops₂.filterMap (Op.purge id)) :
    observed Governor.apply (Governor.answerOn id) g ops₁ =
        observed Governor.apply (Governor.answerOn id) g ops₂ ∧
      (run Governor.apply g ops₁).account id = (run Governor.apply g ops₂).account id := by
  have hfirst := Governor.run_purge id (g := g) rfl ops₁
  have hsecond := Governor.run_purge id (g := g) rfl ops₂
  rw [← h] at hsecond
  exact ⟨hfirst.1.trans hsecond.1.symm, hfirst.2.trans hsecond.2.symm⟩

def firstBudget (id : BudgetId) (limit : MoneyMicros) : Budget :=
  { id := id, generation := ⟨1⟩, policyGeneration := ⟨1⟩, epoch := ⟨1⟩, limit := limit }

def aloneOnBudget : List Op :=
  [.createBudget (firstBudget ⟨1⟩ ⟨100⟩), .reserve ⟨1⟩ ⟨1⟩ ⟨1⟩ ⟨60⟩,
    .commit { id := ⟨1⟩, budget := ⟨1⟩, budgetGeneration := ⟨1⟩, epoch := ⟨1⟩, amount := ⟨60⟩ }]

/-- `aloneOnBudget` next to another budget, whose reservation takes the first number. -/
def besideOtherBudget : List Op :=
  [.createBudget (firstBudget ⟨2⟩ ⟨50⟩), .createBudget (firstBudget ⟨1⟩ ⟨100⟩),
    .reserve ⟨2⟩ ⟨1⟩ ⟨1⟩ ⟨50⟩, .reserve ⟨1⟩ ⟨1⟩ ⟨1⟩ ⟨60⟩, .consume ⟨2⟩ ⟨1⟩ ⟨1⟩ ⟨10⟩,
    .commit { id := ⟨2⟩, budget := ⟨1⟩, budgetGeneration := ⟨1⟩, epoch := ⟨1⟩, amount := ⟨60⟩ }]

theorem budgets_do_not_interfere_besideOtherBudget :
    ((run Governor.apply (Governor.fresh 0) aloneOnBudget).account ⟨1⟩).budget.map Budget.consumed =
        some ⟨60⟩ ∧
      (run Governor.apply (Governor.fresh 0) aloneOnBudget).account ⟨1⟩ =
        (run Governor.apply (Governor.fresh 0) besideOtherBudget).account ⟨1⟩ :=
  ⟨by decide +kernel,
    (budgets_do_not_interfere ⟨1⟩ (Governor.fresh 0) aloneOnBudget besideOtherBudget rfl).2⟩

end CostGovernor
