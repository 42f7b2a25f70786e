import CostGovernor.Executions
import Mathlib.Data.Set.Function

/-!
# Messages delivered at least once and stored once

A store keeps one message per key. A message under a free key is stored and answered
`fresh`; a message that is stored already is answered `again` and changes nothing.
However messages with distinct keys are ordered and repeated, each is answered
`fresh` once, and the store ends up the same.
-/

namespace OnceDelivery

open Executions

variable {σ ι κ ο : Type} [DecidableEq κ]

/-- `step` stores each message of `S` at most once. -/
structure StoresOnce (I : σ → Prop) (S : Set ι) (step : σ → ι → ο × σ) (key : ι → κ)
    (look : σ → κ → Option ι) (fresh again : ο) : Prop where
  distinct : Set.InjOn key S
  first : ∀ s, I s → ∀ i ∈ S, look s (key i) = none →
    (step s i).1 = fresh ∧ I (step s i).2 ∧
      ∀ k, look (step s i).2 k = if k = key i then some i else look s k
  repeated : ∀ s, I s → ∀ i ∈ S, look s (key i) = some i → step s i = (again, s)

/-- Under the key of a message of `S` there is nothing or that message. -/
structure Clean (I : σ → Prop) (S : Set ι) (key : ι → κ) (look : σ → κ → Option ι) (s : σ) :
    Prop where
  valid : I s
  own : ∀ i ∈ S, look s (key i) = none ∨ look s (key i) = some i

namespace StoresOnce

variable {I : σ → Prop} {S : Set ι} {step : σ → ι → ο × σ} {key : ι → κ}
  {look : σ → κ → Option ι} {fresh again : ο}
  (O : StoresOnce I S step key look fresh again)
include O

theorem look_step {s : σ} (hs : Clean I S key look s) {i : ι} (hi : i ∈ S) (k : κ) :
    look (step s i).2 k = if k = key i then some i else look s k := by
  rcases hs.own i hi with hfree | hstored
  · exact (O.first s hs.valid i hi hfree).2.2 k
  · rw [O.repeated s hs.valid i hi hstored]
    by_cases hk : k = key i
    · rw [if_pos hk, hk, hstored]
    · rw [if_neg hk]

theorem clean_step {s : σ} (hs : Clean I S key look s) {i : ι} (hi : i ∈ S) :
    Clean I S key look (step s i).2 := by
  refine ⟨?_, fun j hj => ?_⟩
  · rcases hs.own i hi with hfree | hstored
    · exact (O.first s hs.valid i hi hfree).2.1
    · rw [O.repeated s hs.valid i hi hstored]
      exact hs.valid
  · rw [O.look_step hs hi]
    by_cases hk : key j = key i
    · rw [if_pos hk, O.distinct hj hi hk]
      exact Or.inr rfl
    · rw [if_neg hk]
      exact hs.own j hj

/-- After a run every delivered message is stored and every other key is as it was. -/
theorem look_run {s : σ} (hs : Clean I S key look s) {ds : List ι} (hds : ∀ d ∈ ds, d ∈ S) :
    (∀ d ∈ ds, look (run (fun s i => (step s i).2) s ds) (key d) = some d) ∧
      ∀ k, (∀ d ∈ ds, key d ≠ k) → look (run (fun s i => (step s i).2) s ds) k = look s k := by
  induction ds generalizing s with
  | nil => exact ⟨by simp, fun _ _ => rfl⟩
  | cons i ds ih =>
      have hi : i ∈ S := hds i (by simp)
      have hrest : ∀ d ∈ ds, d ∈ S := fun d hd => hds d (by simp [hd])
      obtain ⟨hstored, hothers⟩ := ih (O.clean_step hs hi) hrest
      refine ⟨fun d hd => ?_, fun k hk => ?_⟩
      · by_cases hmem : d ∈ ds
        · exact hstored d hmem
        · have hdi : d = i := (List.mem_cons.1 hd).resolve_right hmem
          -- no later message has this key, so it still holds what was just stored
          have hlater : ∀ j ∈ ds, key j ≠ key d := fun j hj hkey =>
            hmem (O.distinct (hrest j hj) (hdi ▸ hi) hkey ▸ hj)
          rw [run_cons, hothers _ hlater, O.look_step hs hi, hdi, if_pos rfl]
      · rw [run_cons, hothers k (fun d hd => hk d (by simp [hd])), O.look_step hs hi,
          if_neg (fun h => hk i (by simp) h.symm)]

/-- The store depends on which messages were delivered only. -/
theorem look_run_congr {s : σ} (hs : Clean I S key look s) {ds ds' : List ι}
    (hds : ∀ d ∈ ds, d ∈ S) (hsame : ∀ d, d ∈ ds ↔ d ∈ ds') (k : κ) :
    look (run (fun s i => (step s i).2) s ds) k = look (run (fun s i => (step s i).2) s ds') k := by
  obtain ⟨hstored, hothers⟩ := O.look_run hs hds
  obtain ⟨hstored', hothers'⟩ := O.look_run hs (fun d hd => hds d ((hsame d).2 hd))
  by_cases hk : ∃ d ∈ ds, key d = k
  · obtain ⟨d, hd, rfl⟩ := hk
    rw [hstored d hd, hstored' d ((hsame d).1 hd)]
  · rw [hothers k (fun d hd hkey => hk ⟨d, hd, hkey⟩),
      hothers' k (fun d hd hkey => hk ⟨d, (hsame d).2 hd, hkey⟩)]

theorem answers {s : σ} (hs : Clean I S key look s) {ds : List ι} (hds : ∀ d ∈ ds, d ∈ S)
    {a : ο} (ha : a ∈ outputs step s ds) : a = fresh ∨ a = again := by
  induction ds generalizing s with
  | nil => cases ha
  | cons i ds ih =>
      have hi : i ∈ S := hds i (by simp)
      rcases List.mem_cons.1 ha with rfl | hmem
      · rcases hs.own i hi with hfree | hstored
        · exact Or.inl (O.first s hs.valid i hi hfree).1
        · exact Or.inr (congrArg Prod.fst (O.repeated s hs.valid i hi hstored))
      · exact ih (O.clean_step hs hi) (fun d hd => hds d (by simp [hd])) hmem

/-- A message is answered `fresh` once if its key was free, and never otherwise. -/
theorem count_fresh [DecidableEq ι] [DecidableEq ο] (hne : again ≠ fresh) {s : σ}
    (hs : Clean I S key look s) {ds : List ι} (hds : ∀ d ∈ ds, d ∈ S) {i : ι} (hi : i ∈ S) :
    (ds.zip (outputs step s ds)).count (i, fresh) =
      if i ∈ ds ∧ look s (key i) = none then 1 else 0 := by
  induction ds generalizing s with
  | nil => simp
  | cons d ds ih =>
      have hd : d ∈ S := hds d (by simp)
      have hrest := ih (O.clean_step hs hd) (fun j hj => hds j (by simp [hj]))
      rw [outputs, List.zip_cons_cons, List.count_cons, hrest, O.look_step hs hd]
      by_cases hdi : d = i
      · subst hdi
        rcases hs.own d hd with hfree | hstored
        · simp [hfree, (O.first s hs.valid d hd hfree).1]
        · simp [hstored, O.repeated s hs.valid d hd hstored, hne]
      · have hkey : key i ≠ key d := fun h => hdi (O.distinct hd hi h.symm)
        simp [hdi, hkey, Ne.symm hdi]

end StoresOnce

end OnceDelivery
