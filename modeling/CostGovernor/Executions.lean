import Mathlib.Data.List.Basic
import Mathlib.Tactic

/-!
# Runs of step functions

A run folds a total step function over a list of inputs, or a step function
that may fail over a list of inputs that all succeed. `Along` says that a
condition on the state before each step, and on its input, holds throughout.
-/

namespace Executions

variable {σ ι ε : Type}

def run (step : σ → ι → σ) (s : σ) (is : List ι) : σ := is.foldl step s

@[simp] theorem run_nil (step : σ → ι → σ) (s : σ) : run step s [] = s := rfl

@[simp] theorem run_cons (step : σ → ι → σ) (s : σ) (i : ι) (is : List ι) :
    run step s (i :: is) = run step (step s i) is := rfl

def stateAt (step : σ → ι → σ) (s : σ) (is : List ι) (t : ℕ) : σ := run step s (is.take t)

theorem run_append (step : σ → ι → σ) (s : σ) (is js : List ι) :
    run step s (is ++ js) = run step (run step s is) js := List.foldl_append

@[simp] theorem stateAt_length (step : σ → ι → σ) (s : σ) (is : List ι) :
    stateAt step s is is.length = run step s is := by
  rw [stateAt, List.take_length]

theorem stateAt_append (step : σ → ι → σ) (s : σ) {is : List ι} (js : List ι) {t : ℕ}
    (h : t ≤ is.length) : stateAt step s (is ++ js) t = stateAt step s is t := by
  rw [stateAt, List.take_append_of_le_length h, stateAt]

/-- A condition on every step of a run, evaluated in the state the step starts from. -/
def Along (step : σ → ι → σ) (C : σ → ι → Prop) : σ → List ι → Prop
  | _, [] => True
  | s, i :: is => C s i ∧ Along step C (step s i) is

theorem along_of_forall {step : σ → ι → σ} {C : σ → ι → Prop} (s : σ) (is : List ι)
    (h : ∀ i ∈ is, ∀ s, C s i) : Along step C s is := by
  induction is generalizing s with
  | nil => trivial
  | cons i is ih =>
      exact ⟨h i (by simp) s, ih (step s i) (fun j hj => h j (by simp [hj]))⟩

theorem along_congr {step : σ → ι → σ} {C D : σ → ι → Prop} {is : List ι}
    (h : ∀ s, ∀ i ∈ is, C s i ↔ D s i) (s : σ) : Along step C s is ↔ Along step D s is := by
  induction is generalizing s with
  | nil => exact Iff.rfl
  | cons i is ih =>
      exact and_congr (h s i (by simp)) (ih (fun s j hj => h s j (by simp [hj])) (step s i))

/-- A condition on a run is a condition on every run that projects onto it. -/
theorem along_comap {τ : Type} {step : σ → ι → σ} {step' : τ → ι → τ} {C : τ → ι → Prop} (f : σ → τ)
    (hf : ∀ s i, f (step s i) = step' (f s) i) {s : σ} {is : List ι}
    (h : Along step' C (f s) is) : Along step (fun s i => C (f s) i) s is := by
  induction is generalizing s with
  | nil => trivial
  | cons i is ih =>
      refine ⟨h.1, ih ?_⟩
      rw [hf]
      exact h.2

def Sometimes (step : σ → ι → σ) (C : σ → ι → Prop) : σ → List ι → Prop
  | _, [] => False
  | s, i :: is => C s i ∨ Sometimes step C (step s i) is

/-- An invariant kept by every step that meets the condition holds after the run. -/
theorem run_invariant {step : σ → ι → σ} {C : σ → ι → Prop} {I : σ → Prop}
    (hstep : ∀ s i, I s → C s i → I (step s i)) {s : σ} (hs : I s) {is : List ι}
    (hC : Along step C s is) : I (run step s is) := by
  induction is generalizing s with
  | nil => exact hs
  | cons i is ih => exact ih (hstep s i hs hC.1) hC.2

/-- What every state that keeps the invariant grants its next step. -/
theorem along_of_invariant {step : σ → ι → σ} {C D : σ → ι → Prop} {I : σ → Prop}
    (hstep : ∀ s i, I s → C s i → I (step s i)) (hD : ∀ s i, I s → C s i → D s i) {s : σ} (hs : I s)
    {is : List ι} (hC : Along step C s is) : Along step D s is := by
  induction is generalizing s with
  | nil => trivial
  | cons i is ih => exact ⟨hD s i hs hC.1, ih (hstep s i hs hC.1) hC.2⟩

theorem run_preserves {step : σ → ι → σ} {I : σ → Prop} (hstep : ∀ s i, I s → I (step s i)) {s : σ}
    (hs : I s) (is : List ι) : I (run step s is) := by
  induction is generalizing s with
  | nil => exact hs
  | cons i is ih => exact ih (hstep s i hs)

/-- A run with no step that can change a part of the state leaves it alone. -/
theorem run_keeps {β : Type} {step : σ → ι → σ} {C : σ → ι → Prop} {f : σ → β}
    (hstep : ∀ s i, ¬ C s i → f (step s i) = f s) {s : σ} {is : List ι}
    (h : ¬ Sometimes step C s is) : f (run step s is) = f s := by
  induction is generalizing s with
  | nil => rfl
  | cons i is ih =>
      obtain ⟨hi, his⟩ := not_or.1 h
      exact (ih his).trans (hstep s i hi)

/-- What one step establishes and every step keeps holds after the run. -/
theorem run_reaches {step : σ → ι → σ} {C : σ → ι → Prop} {I Q : σ → Prop}
    (hI : ∀ s i, I s → I (step s i)) (hC : ∀ s i, I s → C s i → Q (step s i))
    (hQ : ∀ s i, I s → Q s → Q (step s i)) {s : σ} (hs : I s) {is : List ι}
    (h : Sometimes step C s is) : Q (run step s is) := by
  induction is generalizing s with
  | nil => exact h.elim
  | cons i is ih =>
      rcases h with hi | his
      · have hboth : I (run step (step s i) is) ∧ Q (run step (step s i) is) :=
          run_preserves (I := fun t => I t ∧ Q t) (fun t j ht => ⟨hI t j ht.1, hQ t j ht.1 ht.2⟩)
            ⟨hI s i hs, hC s i hs hi⟩ is
        exact hboth.2
      · exact ih (hI s i hs) his

/-- `js` is `is` with steps of a kind put in anywhere. -/
inductive Interspersed (noise : ι → Prop) : List ι → List ι → Prop
  | nil : Interspersed noise [] []
  | keep (i : ι) {is js : List ι} (h : Interspersed noise is js) :
      Interspersed noise (i :: is) (i :: js)
  | insert (i : ι) (hi : noise i) {is js : List ι} (h : Interspersed noise is js) :
      Interspersed noise is (i :: js)

/-- Two runs stay related when a common step keeps them so and a step of the kind that is
put in does too. -/
theorem run_interspersed {step : σ → ι → σ} {noise : ι → Prop} {R : σ → σ → Prop}
    (hstep : ∀ s t i, R s t → R (step s i) (step t i))
    (hnoise : ∀ s t i, R s t → noise i → R s (step t i)) {is js : List ι}
    (h : Interspersed noise is js) {s t : σ} (hR : R s t) : R (run step s is) (run step t js) := by
  induction h generalizing s t with
  | nil => exact hR
  | keep i h ih => exact ih (hstep s t i hR)
  | insert i hi h ih => exact ih (hnoise s t i hR hi)

def outputs {ο : Type} (step : σ → ι → ο × σ) : σ → List ι → List ο
  | _, [] => []
  | s, i :: is => (step s i).1 :: outputs step (step s i).2 is

/-- Two runs on the same inputs answer alike when every step does and keeps the
states related. -/
theorem outputs_eq_of_related {ο : Type} {step : σ → ι → ο × σ} {R : σ → σ → Prop} {is : List ι}
    (hstep : ∀ s t, ∀ i ∈ is, R s t → (step s i).1 = (step t i).1 ∧ R (step s i).2 (step t i).2)
    {s t : σ} (hR : R s t) :
    outputs step s is = outputs step t is ∧
      R (run (fun s i => (step s i).2) s is) (run (fun s i => (step s i).2) t is) := by
  induction is generalizing s t with
  | nil => exact ⟨rfl, hR⟩
  | cons i is ih =>
      obtain ⟨hout, hnext⟩ := hstep s t i (by simp) hR
      obtain ⟨houts, hfinal⟩ := ih (fun s t j hj => hstep s t j (by simp [hj])) hnext
      exact ⟨by rw [outputs, outputs, hout, houts], hfinal⟩

/-- What an observer who only sees some of the steps writes down. -/
def observed {ο : Type} (step : σ → ι → σ) (sees : σ → ι → Option ο) : σ → List ι → List ο
  | _, [] => []
  | s, i :: is => (sees s i).toList ++ observed step sees (step s i) is

theorem observed_append {ο : Type} (step : σ → ι → σ) (sees : σ → ι → Option ο) (s : σ)
    (is js : List ι) :
    observed step sees s (is ++ js) =
      observed step sees s is ++ observed step sees (run step s is) js := by
  induction is generalizing s with
  | nil => rfl
  | cons i is ih => rw [List.cons_append, observed, observed, ih, run_cons, List.append_assoc]

/-- When every step extends what was written down so far in step with the state, so does a
run. -/
theorem run_observed {ο : Type} {step : σ → ι → σ} {sees : σ → ι → Option ο}
    {C : σ → ι → Prop} {R : List ο → σ → Prop}
    (hstep : ∀ log s i, R log s → C s i → R (log ++ (sees s i).toList) (step s i))
    {log : List ο} {s : σ} {is : List ι} (hR : R log s) (hC : Along step C s is) :
    R (log ++ observed step sees s is) (run step s is) := by
  induction is generalizing log s with
  | nil =>
      rw [observed, List.append_nil, run_nil]
      exact hR
  | cons i is ih =>
      rw [observed, ← List.append_assoc, run_cons]
      exact ih (hstep log s i hR hC.1) hC.2

/-- Inputs that are dropped leave no trace and the others act alike, so a run does not
differ from the run on what remains of its inputs. -/
theorem run_purged {ο : Type} {step : σ → ι → σ} {sees : σ → ι → Option ο}
    {purge : ι → Option ι} {R : σ → σ → Prop}
    (hdropped : ∀ s t i, purge i = none → R s t → sees s i = none ∧ R (step s i) t)
    (hkept : ∀ s t i j, purge i = some j → R s t →
      sees s i = sees t j ∧ R (step s i) (step t j))
    {s t : σ} {is : List ι} (hR : R s t) :
    observed step sees s is = observed step sees t (is.filterMap purge) ∧
      R (run step s is) (run step t (is.filterMap purge)) := by
  induction is generalizing s t with
  | nil => exact ⟨rfl, hR⟩
  | cons i is ih =>
      rw [run_cons, observed]
      cases hpurge : purge i with
      | none =>
          obtain ⟨hsees, hnext⟩ := hdropped s t i hpurge hR
          rw [List.filterMap_cons_none hpurge, hsees, Option.toList_none, List.nil_append]
          exact ih hnext
      | some j =>
          obtain ⟨hsees, hnext⟩ := hkept s t i j hpurge hR
          obtain ⟨hrest, hfinal⟩ := ih hnext
          rw [List.filterMap_cons_some hpurge, run_cons, observed, hsees, hrest]
          exact ⟨rfl, hfinal⟩

def countAlong (step : σ → ι → σ) (p : σ → ι → Bool) : σ → List ι → ℕ
  | _, [] => 0
  | s, i :: is => (p s i).toNat + countAlong step p (step s i) is

theorem countAlong_append (step : σ → ι → σ) (p : σ → ι → Bool) (s : σ) (is js : List ι) :
    countAlong step p s (is ++ js) =
      countAlong step p s is + countAlong step p (run step s is) js := by
  induction is generalizing s with
  | nil => exact (Nat.zero_add _).symm
  | cons i is ih => rw [List.cons_append, countAlong, countAlong, ih, run_cons, Nat.add_assoc]

/-- A counter modulo `m` that moves with the picked steps only. -/
theorem run_counter {step : σ → ι → σ} {p : σ → ι → Bool} {v : σ → ℕ} {m : ℕ} {is : List ι}
    (hm : ∀ s, v s < m) (hstep : ∀ s, ∀ i ∈ is, v (step s i) = (v s + (p s i).toNat) % m) (s : σ) :
    v (run step s is) = (v s + countAlong step p s is) % m := by
  induction is generalizing s with
  | nil => exact (Nat.mod_eq_of_lt (hm s)).symm
  | cons i is ih =>
      rw [run_cons, ih (fun s j hj => hstep s j (by simp [hj])), hstep s i (by simp), countAlong,
        Nat.mod_add_mod, Nat.add_assoc]

/-- Fewer than `m` increments never bring such a counter back. -/
theorem add_mod_ne {m v k : ℕ} (hv : v < m) (hpos : 0 < k) (hk : k < m) : (v + k) % m ≠ v := by
  by_cases hlt : v + k < m
  · rw [Nat.mod_eq_of_lt hlt]
    omega
  · rw [Nat.mod_eq_sub_mod (by omega), Nat.mod_eq_of_lt (by omega)]
    omega

theorem bind_eq_ok_iff {α β : Type} {x : Except ε α} {f : α → Except ε β} {b : β} :
    (x >>= f) = .ok b ↔ ∃ a, x = .ok a ∧ f a = .ok b := by
  cases x with
  | error e => simp [bind, Except.bind]
  | ok a => simp [bind, Except.bind]

/-- A run of a step function that may fail; the first failure ends it. -/
def runChecked (step : σ → ι → Except ε σ) (s : σ) (is : List ι) : Except ε σ := is.foldlM step s

/-- A computation that is seen to return. -/
theorem exists_ok_of_isSome {ε α : Type} {x : Except ε α} (h : x.toOption.isSome = true) :
    ∃ a, x = .ok a := by
  cases x with
  | error e => cases h
  | ok a => exact ⟨a, rfl⟩

theorem runChecked_cons_eq_ok {step : σ → ι → Except ε σ} {s s' : σ} {i : ι} {is : List ι} :
    runChecked step s (i :: is) = .ok s' ↔
      ∃ t, step s i = .ok t ∧ runChecked step t is = .ok s' := by
  unfold runChecked
  rw [List.foldlM_cons, bind_eq_ok_iff]

theorem runChecked_mem {step : σ → ι → Except ε σ} {s s' : σ} {is : List ι}
    (h : runChecked step s is = .ok s') {i : ι} (hi : i ∈ is) : ∃ t t', step t i = .ok t' := by
  induction is generalizing s with
  | nil => cases hi
  | cons j is ih =>
      obtain ⟨t, ht, hrest⟩ := runChecked_cons_eq_ok.1 h
      rcases List.mem_cons.1 hi with rfl | hmem
      · exact ⟨s, t, ht⟩
      · exact ih hrest hmem

def ThrowsOnly {α : Type} (P : ε → Prop) (x : Except ε α) : Prop := ∀ e, x = .error e → P e

section ThrowsOnly

variable {α β : Type} {P : ε → Prop}

theorem throwsOnly_ok (a : α) : ThrowsOnly P (.ok a : Except ε α) := by
  intro e he
  cases he

theorem throwsOnly_error {e : ε} (h : P e) : ThrowsOnly P (.error e : Except ε α) := by
  intro e' he
  cases he
  exact h

theorem ThrowsOnly.bind {x : Except ε α} {f : α → Except ε β} (hx : ThrowsOnly P x)
    (hf : ∀ a, x = .ok a → ThrowsOnly P (f a)) : ThrowsOnly P (x >>= f) := by
  cases x with
  | error e => exact throwsOnly_error (hx e rfl)
  | ok a => exact hf a rfl

theorem throwsOnly_runChecked {step : σ → ι → Except ε σ} {is : List ι}
    (h : ∀ s, ∀ i ∈ is, ThrowsOnly P (step s i)) (s : σ) : ThrowsOnly P (runChecked step s is) := by
  induction is generalizing s with
  | nil => exact throwsOnly_ok s
  | cons i is ih =>
      unfold runChecked
      rw [List.foldlM_cons]
      exact (h s i List.mem_cons_self).bind fun t _ =>
        ih (fun u j hj => h u j (List.mem_cons_of_mem _ hj)) t

end ThrowsOnly

end Executions
