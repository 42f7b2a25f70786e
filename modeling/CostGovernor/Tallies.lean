import Mathlib.Algebra.BigOperators.Group.List.Basic
import Mathlib.Algebra.Order.BigOperators.Group.List
import Mathlib.Tactic

/-!
# Tallies over a list of records

`tally p w l` adds the weights of the records that satisfy `p`. The equations
say how a tally moves when a record is appended or one record is overwritten in
place, which is all that a ledger with caller-held records ever does.
-/

namespace Tallies

variable {α : Type} (p : α → Prop) [DecidablePred p] (w : α → ℤ)

def entry (x : α) : ℤ := if p x then w x else 0

def tally (l : List α) : ℤ := (l.map (entry p w)).sum

@[simp] theorem tally_nil : tally p w [] = 0 := rfl

theorem tally_cons (x : α) (l : List α) : tally p w (x :: l) = entry p w x + tally p w l := rfl

theorem tally_append (l l' : List α) : tally p w (l ++ l') = tally p w l + tally p w l' := by
  simp only [tally, List.map_append, List.sum_append]

theorem tally_append_singleton (l : List α) (x : α) :
    tally p w (l ++ [x]) = tally p w l + entry p w x := by
  rw [tally_append, tally_cons, tally_nil, add_zero]

/-- A list is tallied by tallying the two parts a test splits it into. -/
theorem tally_filter_add (q : α → Bool) (l : List α) :
    tally p w (l.filter q) + tally p w (l.filter (fun x => !q x)) = tally p w l := by
  induction l with
  | nil => rfl
  | cons x l ih =>
      rw [tally_cons, ← ih]
      cases hq : q x with
      | true =>
          simp only [List.filter_cons, hq, if_true, Bool.not_true, tally_cons]
          rw [if_neg (by simp)]
          omega
      | false =>
          simp only [List.filter_cons, hq, Bool.not_false, if_true, tally_cons]
          rw [if_neg (by simp)]
          omega

theorem tally_set {l : List α} {i : ℕ} {x : α} (h : l[i]? = some x) (y : α) :
    tally p w (l.set i y) = tally p w l - entry p w x + entry p w y := by
  induction l generalizing i with
  | nil => simp at h
  | cons z l ih =>
      cases i with
      | zero =>
          have hz : z = x := by simpa using h
          simp only [tally, List.set_cons_zero, List.map_cons, List.sum_cons, hz]
          omega
      | succ i =>
          have hrest := ih (by simpa using h)
          simp only [tally, List.set_cons_succ, List.map_cons, List.sum_cons] at hrest ⊢
          omega

theorem tally_eq_zero {l : List α} (h : ∀ x ∈ l, ¬ p x) : tally p w l = 0 := by
  induction l with
  | nil => rfl
  | cons x l ih =>
      have hx : entry p w x = 0 := if_neg (h x (by simp))
      have hl := ih (fun y hy => h y (by simp [hy]))
      simp only [tally, List.map_cons, List.sum_cons] at hl ⊢
      omega

theorem entry_nonneg {x : α} (h : 0 ≤ w x) : 0 ≤ entry p w x := by
  unfold entry
  split_ifs
  · exact h
  · exact le_rfl

theorem tally_nonneg {l : List α} (h : ∀ x ∈ l, 0 ≤ w x) : 0 ≤ tally p w l := by
  induction l with
  | nil => exact le_rfl
  | cons x l ih =>
      have hx := entry_nonneg p w (h x (by simp))
      have hl := ih (fun y hy => h y (by simp [hy]))
      simp only [tally, List.map_cons, List.sum_cons] at hl ⊢
      omega

/-- A single counted record weighs no more than the whole tally. -/
theorem le_tally {l : List α} (h : ∀ x ∈ l, 0 ≤ w x) {x : α} (hx : x ∈ l) (hp : p x) :
    w x ≤ tally p w l := by
  induction l with
  | nil => cases hx
  | cons y l ih =>
      have hy := entry_nonneg p w (h y (by simp))
      have hrest : ∀ z ∈ l, 0 ≤ w z := fun z hz => h z (by simp [hz])
      have hl := tally_nonneg p w hrest
      simp only [tally, List.map_cons, List.sum_cons] at hl ⊢
      rcases List.mem_cons.1 hx with rfl | hmem
      · have he : entry p w x = w x := if_pos hp
        omega
      · have hle := ih hrest hmem
        simp only [tally] at hle
        omega

/-- Counting some of the records weighs no more than counting them all. -/
theorem tally_le_sum {l : List α} (h : ∀ x ∈ l, 0 ≤ w x) : tally p w l ≤ (l.map w).sum := by
  refine List.sum_le_sum (fun x hx => ?_)
  unfold entry
  split_ifs
  · exact le_rfl
  · exact h x hx

/-- The tallies of the classes of a partition add up to the whole. -/
theorem sum_tally_classes {κ : Type} [DecidableEq κ] (c : α → κ) {ks : List κ} (hks : ks.Nodup)
    {l : List α} (hl : ∀ x ∈ l, c x ∈ ks) :
    (ks.map (fun k => tally (fun x => c x = k) w l)).sum = (l.map w).sum := by
  induction l with
  | nil => simp
  | cons x l ih =>
      have hone : (ks.map (fun k => entry (fun x => c x = k) w x)).sum = w x := by
        rw [List.sum_map_eq_nsmul_single (c x)]
        · rw [List.count_eq_one_of_mem hks (hl x (by simp)), one_smul, entry, if_pos rfl]
        · intro k hk _
          exact if_neg (Ne.symm hk)
      simp only [tally_cons, List.sum_map_add, List.map_cons, List.sum_cons]
      rw [hone, ih (fun y hy => hl y (by simp [hy]))]

theorem set_eq_self {l : List α} {i : ℕ} {x : α} (h : l[i]? = some x) : l.set i x = l := by
  obtain ⟨hlt, hx⟩ := List.getElem?_eq_some_iff.1 h
  rw [← hx]
  exact List.set_getElem_self hlt

end Tallies
