import CostGovernor.Executions
import CostGovernor.Tallies

/-!
# Posting amounts to accounts

A book keeps one balance per account. An item is posted to one account, which fails
when the item has no price or the balance would reach the limit. As no price is
negative, a list is posted exactly when every item has a price and the balances
after the last item are below the limit.
-/

namespace Postings

open Executions Tallies

variable {σ ι κ ε : Type} [DecidableEq κ]

/-- How posting an item moves the balances of a book that satisfies `I`. -/
structure Posts (I : σ → Prop) (post : σ → ι → Except ε σ) (balance : σ → κ → ℤ)
    (account : ι → κ) (price : ι → Option ℤ) (limit : ℤ) : Prop where
  nonneg : ∀ i z, price i = some z → 0 ≤ z
  sound : ∀ s i s', I s → post s i = .ok s' →
    I s' ∧ ∃ z, price i = some z ∧ ∀ k, balance s' k = balance s k + if account i = k then z else 0
  complete : ∀ s i z, I s → price i = some z → balance s (account i) + z < limit →
    ∃ s', post s i = .ok s'

def posted (account : ι → κ) (price : ι → Option ℤ) (is : List ι) (k : κ) : ℤ :=
  tally (fun i => account i = k) (fun i => (price i).getD 0) is

variable {I : σ → Prop} {post : σ → ι → Except ε σ} {balance : σ → κ → ℤ}
  {account : ι → κ} {price : ι → Option ℤ} {limit : ℤ}

theorem posted_cons {i : ι} {z : ℤ} (hz : price i = some z) (is : List ι) (k : κ) :
    posted account price (i :: is) k =
      (if account i = k then z else 0) + posted account price is k := by
  rw [posted, tally_cons, entry, hz]
  rfl

/-- With a single account everything is posted to it. -/
theorem posted_const (price : ι → Option ℤ) (is : List ι) (k : κ) :
    posted (fun _ => k) price is k = (is.map (fun i => (price i).getD 0)).sum :=
  congrArg List.sum (List.map_congr_left (fun _ _ => if_pos rfl))

theorem posted_unit (price : ι → Option ℤ) (is : List ι) :
    posted (fun _ => ()) price is () = (is.map (fun i => (price i).getD 0)).sum :=
  posted_const price is ()

theorem posted_flatMap {α : Type} (account : ι → κ) (price : ι → Option ℤ) (items : α → List ι)
    (as : List α) (k : κ) :
    posted account price (as.flatMap items) k =
      (as.map (fun a => posted account price (items a) k)).sum := by
  induction as with
  | nil => rfl
  | cons a as ih => rw [List.flatMap_cons, posted, tally_append, List.map_cons, List.sum_cons, ← ih,
      posted, posted]

namespace Posts

variable (P : Posts I post balance account price limit)
include P

theorem getD_nonneg (i : ι) : 0 ≤ (price i).getD 0 := by
  cases h : price i with
  | none => exact le_rfl
  | some z => exact P.nonneg i z h

theorem posted_nonneg (is : List ι) (k : κ) : 0 ≤ posted account price is k :=
  tally_nonneg _ _ (fun i _ => P.getD_nonneg i)

theorem balance_of_run {s s' : σ} (hs : I s) {is : List ι} (h : is.foldlM post s = .ok s') :
    I s' ∧ (∀ i ∈ is, ∃ z, price i = some z) ∧
      ∀ k, balance s' k = balance s k + posted account price is k := by
  induction is generalizing s with
  | nil =>
      cases h
      exact ⟨hs, by simp, by simp [posted]⟩
  | cons i is ih =>
      rw [List.foldlM_cons, bind_eq_ok_iff] at h
      obtain ⟨t, hi, his⟩ := h
      obtain ⟨ht, z, hz, hbalance⟩ := P.sound s i t hs hi
      obtain ⟨hs', hprices, hrest⟩ := ih ht his
      refine ⟨hs', ?_, ?_⟩
      · intro j hj
        rcases List.mem_cons.1 hj with rfl | hmem
        · exact ⟨z, hz⟩
        · exact hprices j hmem
      · intro k
        rw [hrest, hbalance, posted_cons hz, add_assoc]

/-- Balances only grow, so it is enough that the last ones are below the limit. -/
theorem exists_run {s : σ} (hs : I s) {is : List ι} (hprices : ∀ i ∈ is, ∃ z, price i = some z)
    (hlimit : ∀ k, balance s k + posted account price is k < limit) :
    ∃ s', is.foldlM post s = .ok s' := by
  induction is generalizing s with
  | nil => exact ⟨s, rfl⟩
  | cons i is ih =>
      obtain ⟨z, hz⟩ := hprices i (by simp)
      have hroom : balance s (account i) + z < limit := by
        have hfinal := hlimit (account i)
        have hrest := P.posted_nonneg is (account i)
        rw [posted_cons hz, if_pos rfl] at hfinal
        omega
      obtain ⟨t, ht⟩ := P.complete s i z hs hz hroom
      obtain ⟨htI, z', hz', hbalance⟩ := P.sound s i t hs ht
      have hzz : z' = z := Option.some.inj (hz'.symm.trans hz)
      obtain ⟨s', hs'⟩ := ih htI (fun j hj => hprices j (by simp [hj])) (fun k => by
        have hfinal := hlimit k
        rw [posted_cons hz] at hfinal
        rw [hbalance, hzz]
        omega)
      refine ⟨s', ?_⟩
      rw [List.foldlM_cons, ht]
      exact hs'

end Posts

/-- A fold whose steps are folds is one fold over all their items. -/
theorem foldlM_flatMap {α : Type} {f : σ → α → Except ε σ} {items : α → List ι}
    (h : ∀ s a, f s a = (items a).foldlM post s) (s : σ) (as : List α) :
    as.foldlM f s = (as.flatMap items).foldlM post s := by
  induction as generalizing s with
  | nil => rfl
  | cons a as ih =>
      rw [List.foldlM_cons, List.flatMap_cons, List.foldlM_append, h]
      exact congrArg _ (funext ih)

end Postings
