import Mathlib.Data.List.Basic
import Mathlib.Tactic

/-!
# Logs of keyed entries

A log lists entries in the order in which they were written. What a store that
overwrites by key holds after the first `n` of them is, for each of these, the entry
itself or a later one among them with the same key.
-/

namespace KeyedLog

variable {α κ : Type} {key : α → κ}

def Covers (key : α → κ) (log : List α) (n : ℕ) (held : α → Prop) : Prop :=
  ∀ k < n, ∃ (o : α) (j : ℕ) (o' : α), log[k]? = some o ∧ k ≤ j ∧ j < n ∧
    log[j]? = some o' ∧ key o' = key o ∧ held o'

theorem getElem?_append_of_some {log : List α} {k : ℕ} {o : α} (h : log[k]? = some o)
    (more : List α) : (log ++ more)[k]? = some o := by
  rw [List.getElem?_append_left (List.getElem?_eq_some_iff.1 h).1, h]

theorem covers_zero (log : List α) (held : α → Prop) : Covers key log 0 held :=
  fun _ hk => absurd hk (Nat.not_lt_zero _)

/-- What was written since does not change what a view of the first `n` entries holds. -/
theorem Covers.append {log : List α} {n : ℕ} {held : α → Prop} (h : Covers key log n held)
    (more : List α) : Covers key (log ++ more) n held := by
  intro k hk
  obtain ⟨o, j, o', ho, hkj, hj, ho', hkey, hheld⟩ := h k hk
  exact ⟨o, j, o', getElem?_append_of_some ho more, hkj, hj, getElem?_append_of_some ho' more,
    hkey, hheld⟩

/-- Writing an entry may remove entries of its own key only. -/
theorem Covers.push {log : List α} {held held' : α → Prop} {x : α}
    (h : Covers key log log.length held) (hkeep : ∀ o, held o → held' o ∨ key o = key x)
    (hx : held' x) : Covers key (log ++ [x]) (log.length + 1) held' := by
  have hlast : (log ++ [x])[log.length]? = some x := by simp
  intro k hk
  rcases Nat.lt_succ_iff_lt_or_eq.1 hk with hlt | rfl
  · obtain ⟨o, j, o', ho, hkj, hj, ho', hkey, hheld⟩ := h k hlt
    have ho := getElem?_append_of_some ho [x]
    rcases hkeep o' hheld with hstill | hsame
    · exact ⟨o, j, o', ho, hkj, by omega, getElem?_append_of_some ho' [x], hkey, hstill⟩
    · exact ⟨o, log.length, x, ho, by omega, by omega, hlast, hsame.symm.trans hkey, hx⟩
  · exact ⟨x, log.length, x, hlast, le_rfl, by omega, hlast, rfl, hx⟩

end KeyedLog
