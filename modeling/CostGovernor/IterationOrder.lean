import Mathlib.Data.List.Perm.Basic

/-!
# Loops over a container without an order

A container that promises no iteration order may hand out its elements in any
permutation. A loop that stops at the first element with something to say, or keeps what
the last one said, depends on the order exactly when two elements say different things.
-/

namespace IterationOrder

variable {α β : Type*} {f : α → Option β} {l l' : List α} {a : α} {v : β}

/-- What is left in a variable that every element with a value overwrites. -/
def lastWritten (f : α → Option β) (init : β) (l : List α) : β :=
  l.foldl (fun v a => (f a).getD v) init

theorem lastWritten_cons (f : α → Option β) (init : β) (a : α) (l : List α) :
    lastWritten f init (a :: l) = lastWritten f ((f a).getD init) l := rfl

/-- The last element with a value is the first one met from the back. -/
theorem lastWritten_eq_findSome? (f : α → Option β) (init : β) (l : List α) :
    lastWritten f init l = (l.reverse.findSome? f).getD init := by
  induction l generalizing init with
  | nil => rfl
  | cons a l ih =>
      rw [lastWritten_cons, ih, List.reverse_cons, List.findSome?_append]
      cases l.reverse.findSome? f with
      | some v => rfl
      | none => cases h : f a <;> simp [h]

theorem lastWritten_eq_init {init : β} (h : ∀ a ∈ l, ∀ v, f a = some v → v = init) :
    lastWritten f init l = init := by
  rw [lastWritten_eq_findSome?]
  cases hfirst : l.reverse.findSome? f with
  | none => rfl
  | some v =>
      obtain ⟨a, ha, hav⟩ := List.exists_of_findSome?_eq_some hfirst
      exact h a (List.mem_reverse.mp ha) v hav

/-- A value stays until an element writes another one. -/
theorem lastWritten_append_cons {pre post : List α} (init : β) (ha : f a = some v)
    (hpost : ∀ b ∈ post, ∀ w, f b = some w → w = v) :
    lastWritten f init (pre ++ a :: post) = v := by
  rw [lastWritten, List.foldl_append, List.foldl_cons, ha]
  exact lastWritten_eq_init hpost

theorem exists_last_writer (init : β) (ha : a ∈ l) (h : f a = some v) :
    ∃ pre b post w, l = pre ++ b :: post ∧ f b = some w ∧ (∀ c ∈ post, f c = none) ∧
      lastWritten f init l = w := by
  have hsome : (l.reverse.findSome? f).isSome :=
    List.findSome?_isSome_iff.mpr ⟨a, List.mem_reverse.mpr ha, by rw [h]; rfl⟩
  obtain ⟨w, hw⟩ := Option.isSome_iff_exists.mp hsome
  obtain ⟨post, b, pre, hsplit, hb, hpost⟩ := List.findSome?_eq_some_iff.mp hw
  refine ⟨pre.reverse, b, post.reverse, w, ?_, hb, by simpa using hpost, ?_⟩
  · rw [← List.reverse_reverse l, hsplit]
    simp
  · rw [lastWritten_eq_findSome?, hw]
    rfl

def Agree (f : α → Option β) (l : List α) : Prop :=
  ∀ a ∈ l, ∀ b ∈ l, ∀ v w, f a = some v → f b = some w → v = w

theorem Agree.findSome?_eq (hagree : Agree f l) (hperm : l'.Perm l) :
    l'.findSome? f = l.findSome? f := by
  cases h : l.findSome? f with
  | none =>
      rw [List.findSome?_eq_none_iff] at h ⊢
      exact fun a ha => h a (hperm.mem_iff.mp ha)
  | some v =>
      obtain ⟨a, ha, hav⟩ := List.exists_of_findSome?_eq_some h
      have hsome : (l'.findSome? f).isSome :=
        List.findSome?_isSome_iff.mpr ⟨a, hperm.mem_iff.mpr ha, by rw [hav]; rfl⟩
      obtain ⟨w, hw⟩ := Option.isSome_iff_exists.mp hsome
      obtain ⟨b, hb, hbw⟩ := List.exists_of_findSome?_eq_some hw
      rw [hw, hagree b (hperm.mem_iff.mp hb) a ha w v hbw hav]

theorem Agree.lastWritten_eq (hagree : Agree f l) (hperm : l'.Perm l) (init : β) :
    lastWritten f init l' = lastWritten f init l := by
  have hback : Agree f l.reverse := by
    simpa only [Agree, List.mem_reverse] using hagree
  rw [lastWritten_eq_findSome?, lastWritten_eq_findSome?,
    hback.findSome?_eq ((l'.reverse_perm.trans hperm).trans l.reverse_perm.symm)]

theorem exists_perm_cons (ha : a ∈ l) : ∃ rest : List α, (a :: rest).Perm l := by
  obtain ⟨pre, post, rfl⟩ := List.append_of_mem ha
  exact ⟨pre ++ post, List.perm_middle.symm⟩

/-- Any element with a value can be the first one. -/
theorem exists_perm_findSome? (ha : a ∈ l) (h : f a = some v) :
    ∃ order : List α, order.Perm l ∧ order.findSome? f = some v := by
  obtain ⟨rest, hperm⟩ := exists_perm_cons ha
  refine ⟨a :: rest, hperm, ?_⟩
  rw [List.findSome?_cons, h]

/-- Any element with a value can be the last one. -/
theorem exists_perm_lastWritten (init : β) (ha : a ∈ l) (h : f a = some v) :
    ∃ order : List α, order.Perm l ∧ lastWritten f init order = v := by
  obtain ⟨order, hperm, hfirst⟩ := exists_perm_findSome? ha h
  refine ⟨order.reverse, order.reverse_perm.trans hperm, ?_⟩
  rw [lastWritten_eq_findSome?, List.reverse_reverse, hfirst]
  rfl

/-- Elements whose values the first one decides alike in all orders agree. -/
theorem agree_of_findSome? (default : β)
    (h : ∀ order order' : List α, order.Perm l → order'.Perm l →
      (order.findSome? f).getD default = (order'.findSome? f).getD default) : Agree f l := by
  intro a ha b hb v w hv hw
  obtain ⟨order, hperm, hfirst⟩ := exists_perm_findSome? ha hv
  obtain ⟨order', hperm', hfirst'⟩ := exists_perm_findSome? hb hw
  have hsame := h order order' hperm hperm'
  rwa [hfirst, hfirst'] at hsame

/-- Elements whose values the last one decides alike in all orders agree. -/
theorem agree_of_lastWritten (init : β)
    (h : ∀ order order' : List α, order.Perm l → order'.Perm l →
      lastWritten f init order = lastWritten f init order') : Agree f l := by
  intro a ha b hb v w hv hw
  obtain ⟨order, hperm, hlast⟩ := exists_perm_lastWritten init ha hv
  obtain ⟨order', hperm', hlast'⟩ := exists_perm_lastWritten init hb hw
  exact hlast.symm.trans ((h order order' hperm hperm').trans hlast')

end IterationOrder
