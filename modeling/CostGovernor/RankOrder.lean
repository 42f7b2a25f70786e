import Mathlib.Data.List.Sort
import Mathlib.Order.Defs.Unbundled
import Mathlib.Tactic

/-!
# Comparators built key by key

`byKey` refines a comparator by a more important key. Such chains are strict weak
orders as soon as every key is compared by a strict total order, and then the
head of a stable sort is an element that nothing in the list precedes.
-/

namespace RankOrder

variable {α κ : Type}

abbrev Precedes (r : α → α → Bool) (a b : α) : Prop := r a b = true

/-- Asymmetry and cotransitivity, the two laws a sorting comparator needs. -/
structure Ranks (r : α → α → Bool) : Prop where
  asymm : ∀ a b, r a b = true → r b a = false
  split : ∀ a b c, r a c = true → r a b = true ∨ r b c = true

theorem Ranks.trans {r : α → α → Bool} (h : Ranks r) {a b c : α} (hab : r a b = true)
    (hbc : r b c = true) : r a c = true := by
  rcases h.split a c b hab with hac | hcb
  · exact hac
  · have hno := h.asymm b c hbc
    rw [hno] at hcb
    cases hcb

theorem Ranks.isStrictWeakOrder {r : α → α → Bool} (h : Ranks r) :
    IsStrictWeakOrder α (Precedes r) where
  irrefl := by
    intro a ha
    have hno := h.asymm a a ha
    rw [ha] at hno
    cases hno
  trans := fun _ _ _ hab hbc => h.trans hab hbc
  incomp_trans := by
    intro a b c hab hbc
    constructor
    · intro hac
      exact (h.split a b c hac).elim hab.1 hbc.1
    · intro hca
      exact (h.split c b a hca).elim hbc.2 hab.2

structure Totals (lt : κ → κ → Bool) : Prop where
  ranks : Ranks lt
  connected : ∀ x y, x ≠ y → lt x y = true ∨ lt y x = true

theorem totals_lt [LinearOrder κ] : Totals (fun x y : κ => decide (x < y)) where
  ranks := by
    refine ⟨?_, ?_⟩
    · intro x y h
      simp only [decide_eq_true_eq, decide_eq_false_iff_not, not_lt] at h ⊢
      exact h.le
    · intro x y z h
      simp only [decide_eq_true_eq] at h ⊢
      exact lt_or_ge x y |>.imp_right (fun hyx => hyx.trans_lt h)
  connected := by
    intro x y h
    simpa using lt_or_gt_of_ne h

theorem Totals.flip {lt : κ → κ → Bool} (h : Totals lt) : Totals (fun x y => lt y x) where
  ranks := ⟨fun x y => h.ranks.asymm y x, fun x y z hxz => (h.ranks.split z y x hxz).symm⟩
  connected := fun x y hne => h.connected y x hne.symm

theorem Ranks.comap {lt : κ → κ → Bool} (h : Ranks lt) (key : α → κ) :
    Ranks (fun a b => lt (key a) (key b)) where
  asymm := fun a b => h.asymm (key a) (key b)
  split := fun a b c => h.split (key a) (key b) (key c)

theorem Totals.comap {lt : κ → κ → Bool} (h : Totals lt) {key : α → κ}
    (hkey : Function.Injective key) : Totals (fun a b => lt (key a) (key b)) where
  ranks := h.ranks.comap key
  connected := fun a b hne => h.connected (key a) (key b) (hkey.ne hne)

/-- Compare by `key`; equal keys leave the comparison to `next`. -/
def byKey [DecidableEq κ] (lt : κ → κ → Bool) (key : α → κ) (next : α → α → Bool) (a b : α) :
    Bool :=
  if key a ≠ key b then lt (key a) (key b) else next a b

theorem byKey_of_ne [DecidableEq κ] {lt : κ → κ → Bool} {key : α → κ} {next : α → α → Bool} {a b : α}
    (h : key a ≠ key b) : byKey lt key next a b = lt (key a) (key b) := if_pos h

theorem byKey_of_eq [DecidableEq κ] {lt : κ → κ → Bool} {key : α → κ} {next : α → α → Bool} {a b : α}
    (h : key a = key b) : byKey lt key next a b = next a b := if_neg (fun hne => hne h)

theorem Ranks.byKey [DecidableEq κ] {lt : κ → κ → Bool} (hlt : Totals lt) (key : α → κ)
    {next : α → α → Bool} (hnext : Ranks next) : Ranks (byKey lt key next) where
  asymm := by
    intro a b h
    by_cases hab : key a = key b
    · rw [byKey_of_eq hab] at h
      rw [byKey_of_eq hab.symm]
      exact hnext.asymm a b h
    · rw [byKey_of_ne hab] at h
      rw [byKey_of_ne (Ne.symm hab)]
      exact hlt.ranks.asymm _ _ h
  split := by
    intro a b c h
    by_cases hab : key a = key b
    · by_cases hbc : key b = key c
      · rw [byKey_of_eq (hab.trans hbc)] at h
        rw [byKey_of_eq hab, byKey_of_eq hbc]
        exact hnext.split a b c h
      · rw [byKey_of_ne (hab ▸ hbc), hab] at h
        rw [byKey_of_ne hbc]
        exact Or.inr h
    · rcases hlt.connected _ _ hab with hlow | hhigh
      · rw [byKey_of_ne hab]
        exact Or.inl hlow
      · -- `b` lies below `a`, so it also lies below everything `a` precedes
        have hbc : lt (key b) (key c) = true := by
          by_cases hac : key a = key c
          · exact hac ▸ hhigh
          · rw [byKey_of_ne hac] at h
            exact hlt.ranks.trans hhigh h
        have hne : key b ≠ key c := by
          intro he
          have hno := hlt.ranks.asymm _ _ hbc
          rw [he] at hbc hno
          rw [hbc] at hno
          cases hno
        rw [byKey_of_ne hne]
        exact Or.inr hbc

/-- Two elements that the later keys tell apart are told apart. -/
theorem byKey_connected [DecidableEq κ] {lt : κ → κ → Bool} (hlt : Totals lt) (key : α → κ)
    {next : α → α → Bool} {a b : α} (h : next a b = true ∨ next b a = true) :
    byKey lt key next a b = true ∨ byKey lt key next b a = true := by
  by_cases hab : key a = key b
  · rw [byKey_of_eq hab, byKey_of_eq hab.symm]
    exact h
  · rw [byKey_of_ne hab, byKey_of_ne (Ne.symm hab)]
    exact hlt.connected _ _ hab

/-- Sort by a comparator, leaving elements that do not precede each other in their
original order. -/
def stableSort (r : α → α → Bool) (l : List α) : List α :=
  l.insertionSort (fun a b => r b a = false)

theorem mem_stableSort {r : α → α → Bool} {l : List α} {x : α} : x ∈ stableSort r l ↔ x ∈ l :=
  List.mem_insertionSort _

/-- Sorting commutes with a map that keeps the comparison. -/
theorem stableSort_map {β : Type} {r : α → α → Bool} {s : β → β → Bool} {f : α → β}
    (h : ∀ a b, s (f a) (f b) = r a b) (l : List α) :
    stableSort s (l.map f) = (stableSort r l).map f := by
  refine (List.map_insertionSort _ _ f l (fun a _ b _ => ?_)).symm
  rw [h]

theorem pairwise_stableSort {r : α → α → Bool} (h : Ranks r) (l : List α) :
    (stableSort r l).Pairwise (fun a b => r b a = false) := by
  have htotal : Std.Total (fun a b => r b a = false) := by
    refine ⟨?_⟩
    intro a b
    cases hba : r b a with
    | false => exact Or.inl rfl
    | true => exact Or.inr (h.asymm b a hba)
  have htrans : IsTrans α (fun a b => r b a = false) := by
    refine ⟨?_⟩
    intro a b c hab hbc
    cases hca : r c a with
    | false => rfl
    | true =>
        rcases h.split c b a hca with hcb | hba
        · rw [hbc] at hcb
          cases hcb
        · rw [hab] at hba
          cases hba
  exact List.pairwise_insertionSort _ l

theorem perm_stableSort (r : α → α → Bool) (l : List α) : (stableSort r l).Perm l :=
  List.perm_insertionSort _ l

/-- Where the comparator tells all elements apart, the order they come in is forgotten. -/
theorem stableSort_eq_of_perm {r : α → α → Bool} (h : Ranks r) {l l' : List α} (hperm : l'.Perm l)
    (hconnected : ∀ a ∈ l, ∀ b ∈ l, a ≠ b → r a b = true ∨ r b a = true) :
    stableSort r l' = stableSort r l := by
  have hsame : (stableSort r l').Perm (stableSort r l) :=
    (perm_stableSort r l').trans (hperm.trans (perm_stableSort r l).symm)
  refine hsame.eq_of_pairwise ?_ (pairwise_stableSort h l') (pairwise_stableSort h l)
  intro a b ha hb hba hab
  by_contra hne
  have ha' : a ∈ l := hperm.subset (mem_stableSort.1 ha)
  rcases hconnected a ha' b (mem_stableSort.1 hb) hne with hlt | hgt
  · rw [hab] at hlt
    cases hlt
  · rw [hba] at hgt
    cases hgt

/-- Nothing in the list precedes the head of its sort. -/
theorem head_stableSort {r : α → α → Bool} (h : Ranks r) {l : List α} {x : α} {rest : List α}
    (hsort : stableSort r l = x :: rest) : x ∈ l ∧ ∀ y ∈ l, r y x = false := by
  have hx : x ∈ stableSort r l := by simp [hsort]
  refine ⟨mem_stableSort.1 hx, ?_⟩
  intro y hy
  have hpair := pairwise_stableSort h l
  rw [hsort, List.pairwise_cons] at hpair
  have hy' : y ∈ x :: rest := hsort ▸ mem_stableSort.2 hy
  rcases List.mem_cons.1 hy' with rfl | hrest
  · cases hyy : r y y with
    | false => rfl
    | true => exact hyy ▸ h.asymm y y hyy
  · exact hpair.1 y hrest

end RankOrder
