import CostGovernor.Rejections

/-!
# Calls that overflow

`release` takes an amount out of the reserved total before it adds it to the released
one, and an expired `commit` marks the handle before either. When the later sum overflows,
what was written first stays written. All other overflows leave a call before its first
write.
-/

namespace CostGovernor

open MoneyMicros

def Reply.overflowed : Reply → Bool
  | .status (.error (.overflowError _)) => true
  | .handle (.error (.overflowError _)) _ => true
  | _ => false

def Op.isAccounting : Op → Bool
  | .reserve _ _ _ _ | .commit _ | .release _ | .consume _ _ _ _ => true
  | _ => false

namespace Governor

/-- A call that threw left every budget and the caller's handle as they were, and goes on
doing so when it is retried. -/
structure Atomic (g : Governor) (op : Op) : Prop where
  budgets : ∀ id, (g.apply op).budgets.find? id = g.budgets.find? id
  handle : (g.exec op).1.handleAfter = op.handle
  retries : ∀ n id, ((fun g : Governor => g.apply op)^[n] g).budgets.find? id = g.budgets.find? id

theorem atomic_of_eq {g : Governor} {op : Op} (hstate : g.apply op = g)
    (hhandle : (g.exec op).1.handleAfter = op.handle) : g.Atomic op := by
  refine ⟨fun id => by rw [hstate], hhandle, ?_⟩
  intro n id
  rw [Function.iterate_fixed hstate]

/-- The exceptions of `release`: before anything is written, or between the two totals. -/
inductive ReleaseThrow (g : Governor) (r : BudgetReservation) : HandleResult → Prop
  | first (e : Exn) (b : Budget) (hm : HandleMatches g r b)
      (hsub : b.reserved.sub r.amount = .error e) : ReleaseThrow g r (.error e, r, g)
  | second (e : Exn) (b : Budget) (reserved : MoneyMicros) (hm : HandleMatches g r b)
      (hsub : b.reserved.sub r.amount = .ok reserved) (hadd : b.released.add r.amount = .error e) :
      ReleaseThrow g r (.error e, r, g.setBudget r.budget { b with reserved := reserved })

theorem release_throw {g : Governor} {r : BudgetReservation} {e : Exn}
    (h : (g.release r).1 = .error e) : ReleaseThrow g r (g.release r) := by
  unfold release at h ⊢
  cases hb : g.budgets.find? r.budget with
  | none =>
      rw [hb] at h
      cases h
  | some b =>
      simp only [hb] at h ⊢
      split_ifs at h ⊢ with hgen hepoch hstate
      have hm : HandleMatches g r b := ⟨hb, not_not.mp hgen, not_not.mp hepoch, not_not.mp hstate⟩
      cases hsub : b.reserved.sub r.amount with
      | error e => exact .first e b hm hsub
      | ok reserved =>
          cases hadd : b.released.add r.amount with
          | error e => exact .second e b reserved hm hsub hadd
          | ok released =>
              simp only [hsub, hadd] at h
              cases h

/-- An expired `commit` has marked the handle by the time it throws. -/
theorem commit_throw {g : Governor} {r : BudgetReservation} {e : Exn}
    (h : (g.commit r).1 = .error e) :
    (r.pastExpiry g.now = false ∧ (g.commit r).2 = (r, g)) ∨
      (r.pastExpiry g.now = true ∧ r.state = .active ∧
        (g.commit r).2.1 = { r with state := .expired }) := by
  unfold commit at h ⊢
  cases hb : g.budgets.find? r.budget with
  | none =>
      rw [hb] at h
      cases h
  | some b =>
      simp only [hb] at h ⊢
      split_ifs at h ⊢ with hgen hepoch hcurrent hstate hlive hpast
      · refine .inr ⟨hpast, not_not.mp hstate, ?_⟩
        cases hsub : b.reserved.sub r.amount with
        | error e => rfl
        | ok reserved => cases hadd : b.released.add r.amount <;> rfl
      · refine .inl ⟨by simpa using hpast, ?_⟩
        cases hadd : b.consumed.add r.amount with
        | error e => rfl
        | ok consumedAfter =>
            simp only [hadd] at h ⊢
            split_ifs at h ⊢
            cases hsub : b.reserved.sub r.amount with
            | error e => rfl
            | ok reserved =>
                rw [hsub] at h
                cases h

/-- The arithmetic of the call throws before the call has written anything. -/
def ThrowsUnwritten (g : Governor) : Op → Prop
  | .commit r => r.pastExpiry g.now = false
  | .release r => ∀ b, g.budgets.find? r.budget = some b →
      r.amount.toInt = -2 ^ 63 ∨ ¬ Fits (b.reserved.toInt - r.amount.toInt)
  | _ => True

theorem commit_atomic_iff {g : Governor} {r : BudgetReservation} {e : Exn}
    (h : (g.commit r).1 = .error e) : g.Atomic (.commit r) ↔ g.ThrowsUnwritten (.commit r) := by
  rcases commit_throw h with ⟨hpast, hsame⟩ | ⟨hpast, hactive, hmarked⟩
  · refine iff_of_true (atomic_of_eq ?_ ?_) hpast
    · exact congrArg Prod.snd hsame
    · exact congrArg some (congrArg Prod.fst hsame)
  · refine iff_of_false (fun hatomic => ?_) (fun hfresh => ?_)
    · have hkept : (g.commit r).2.1 = r := Option.some.inj hatomic.handle
      rw [hmarked] at hkept
      rw [← hkept] at hactive
      cases hactive
    · rw [ThrowsUnwritten, hpast] at hfresh
      cases hfresh

/-- Between the two totals the reserved one has lost an amount that is not zero. -/
theorem reserved_ne {b : Budget} {amount reserved : MoneyMicros} {e : Exn}
    (hsub : b.reserved.sub amount = .ok reserved) (hadd : b.released.add amount = .error e) :
    { b with reserved := reserved } ≠ b := by
  intro heq
  have hreserved : reserved = b.reserved := congrArg Budget.reserved heq
  have hdifference := ((sub_eq_ok_iff _ _ _).1 hsub).2
  have hzero : amount.toInt = 0 := by
    rw [hreserved] at hdifference
    omega
  refine add_ne_of_error hadd b.released ?_
  rw [hzero, add_zero]

theorem release_atomic_iff {g : Governor} {r : BudgetReservation} {e : Exn}
    (h : (g.release r).1 = .error e) : g.Atomic (.release r) ↔ g.ThrowsUnwritten (.release r) := by
  have hthrow := release_throw h
  have hstate : g.apply (.release r) = (g.release r).2.2 := rfl
  have hhandle : (g.exec (.release r)).1.handleAfter = some (g.release r).2.1 := rfl
  generalize g.release r = x at hthrow hstate hhandle
  cases hthrow with
  | first e b hm hsub =>
      refine iff_of_true (atomic_of_eq hstate hhandle) ?_
      intro b' hb'
      rw [hm.found, Option.some.injEq] at hb'
      subst hb'
      by_contra hfits
      obtain ⟨hmin, hfits⟩ := not_or.mp hfits
      obtain ⟨reserved, hreserved⟩ := (exists_sub_eq_ok_iff b.reserved r.amount).2
        ⟨hmin, not_not.mp hfits⟩
      rw [hreserved] at hsub
      cases hsub
  | second e b reserved hm hsub hadd =>
      refine iff_of_false (fun hatomic => ?_) (fun hunwritten => ?_)
      · have hkept := hatomic.budgets r.budget
        rw [hstate, setBudget, HashedMap.find?_set, if_pos rfl, hm.found, Option.some.injEq] at hkept
        exact reserved_ne hsub hadd hkept
      · obtain ⟨hmin, hfits⟩ := (exists_sub_eq_ok_iff b.reserved r.amount).1 ⟨reserved, hsub⟩
        exact (hunwritten b hm.found).elim hmin fun hout => hout hfits

theorem reserve_atomic {g : Governor} {budget : BudgetId} {gen : BudgetGeneration}
    {epoch : CoordinatorEpoch} {amount : MoneyMicros} {e : Exn}
    (h : (g.reserve budget gen epoch amount).1 = .error e) :
    g.Atomic (.reserve budget gen epoch amount) := by
  have hcases := g.reserve_cases budget gen epoch amount
  have hstate : g.apply (.reserve budget gen epoch amount) =
      (g.reserve budget gen epoch amount).2.2 := rfl
  have hhandle : (g.exec (.reserve budget gen epoch amount)).1.handleAfter =
      (g.reserve budget gen epoch amount).2.1 := rfl
  generalize g.reserve budget gen epoch amount = x at h hcases hstate hhandle
  cases hcases with
  | threw e => exact atomic_of_eq hstate hhandle
  | refused => cases h
  | expired => cases h
  | granted => cases h

theorem consume_atomic {g : Governor} {budget : BudgetId} {gen : BudgetGeneration}
    {epoch : CoordinatorEpoch} {amount : MoneyMicros} {e : Exn}
    (h : (g.consume budget gen epoch amount).1 = .error e) :
    g.Atomic (.consume budget gen epoch amount) := by
  have hcases := g.consume_cases budget gen epoch amount
  have hstate : g.apply (.consume budget gen epoch amount) =
      (g.consume budget gen epoch amount).2 := rfl
  generalize g.consume budget gen epoch amount = x at h hcases hstate
  cases hcases with
  | threw e => exact atomic_of_eq hstate rfl
  | refused => cases h
  | expired => cases h
  | charged => cases h

end Governor

open Governor

theorem Reply.overflowed_handle {x : Except Exn Status} {r : Option BudgetReservation}
    (h : (Reply.handle x r).overflowed = true) : ∃ e, x = .error e := by
  cases x with
  | error e => exact ⟨e, rfl⟩
  | ok st => cases h

theorem Reply.overflowed_status {x : Except Exn Status}
    (h : (Reply.status x).overflowed = true) : ∃ e, x = .error e := by
  cases x with
  | error e => exact ⟨e, rfl⟩
  | ok st => cases h

/-- An accounting call that overflows is atomic if and only if it is not the commit of an
expired handle, and not a release that gets past the subtraction. -/
theorem overflow_atomic_iff (g : Governor) (op : Op) (hop : op.isAccounting = true)
    (h : (g.exec op).1.overflowed = true) : g.Atomic op ↔ g.ThrowsUnwritten op := by
  cases op with
  | reserve budget gen epoch amount =>
      obtain ⟨e, he⟩ := Reply.overflowed_handle h
      exact iff_of_true (reserve_atomic he) trivial
  | commit r =>
      obtain ⟨e, he⟩ := Reply.overflowed_handle h
      exact commit_atomic_iff he
  | release r =>
      obtain ⟨e, he⟩ := Reply.overflowed_handle h
      exact release_atomic_iff he
  | consume budget gen epoch amount =>
      obtain ⟨e, he⟩ := Reply.overflowed_status h
      exact iff_of_true (consume_atomic he) trivial
  | _ => cases hop

def grantNumber (id : UInt64) (amount : Int64) : BudgetReservation :=
  { id := ⟨id⟩, budget := ⟨1⟩, budgetGeneration := ⟨1⟩, epoch := ⟨1⟩, amount := ⟨amount⟩ }

/-- Everything a word can hold has been reserved from a budget and released. -/
def releasedEverything : Governor :=
  let g := ((fresh 0).createBudget {
    id := ⟨1⟩, generation := ⟨1⟩, policyGeneration := ⟨1⟩, epoch := ⟨1⟩, limit := ⟨i64Max⟩ }).2
  ((g.reserve ⟨1⟩ ⟨1⟩ ⟨1⟩ ⟨i64Max⟩).2.2.release (grantNumber 1 i64Max)).2.2

theorem overflow_atomic_reserve :
    let g := (releasedEverything.reserve ⟨1⟩ ⟨1⟩ ⟨1⟩ ⟨i64Max⟩).2.2
    (g.exec (.reserve ⟨1⟩ ⟨1⟩ ⟨1⟩ ⟨1⟩)).1.overflowed = true ∧
      g.Atomic (.reserve ⟨1⟩ ⟨1⟩ ⟨1⟩ ⟨1⟩) :=
  ⟨by decide +kernel, (overflow_atomic_iff _ _ rfl (by decide +kernel)).2 trivial⟩

/-- Each attempt to release the next reservation throws and lowers the reserved total. -/
theorem release_overflow_not_atomic :
    let granted := releasedEverything.reserve ⟨1⟩ ⟨1⟩ ⟨1⟩ ⟨1⟩
    let once := granted.2.2.release (grantNumber 2 1)
    let twice := once.2.2.release (grantNumber 2 1)
    granted.2.1 = some (grantNumber 2 1) ∧
      once.1 = .error (.overflowError "money addition overflow") ∧
      twice.1 = .error (.overflowError "money addition overflow") ∧
      (granted.2.2.budgets.find? ⟨1⟩).map Budget.reserved = some ⟨1⟩ ∧
      (once.2.2.budgets.find? ⟨1⟩).map Budget.reserved = some ⟨0⟩ ∧
      (twice.2.2.budgets.find? ⟨1⟩).map Budget.reserved = some ⟨-1⟩ := by
  decide +kernel

end CostGovernor
