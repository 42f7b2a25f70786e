import Mathlib.Data.List.Nodup
import Mathlib.Order.Basic
import Mathlib.Tactic

/-!
# Finite maps with unique keys

`HashedMap` lists its entries in an arbitrary iteration order and carries the
proof that no key is repeated. Writing to a present key keeps its position.
`OrderedMap` lists its entries in strictly increasing key order. Both are read
through `find?`, and every update has one equation describing all later reads.
-/

section Entries

variable {κ α : Type} [DecidableEq κ]

/-- Overwrite the entry of `k` where it stands, or append a new one. -/
def assocSet (k : κ) (v : α) : List (κ × α) → List (κ × α)
  | [] => [(k, v)]
  | e :: es => if e.1 = k then (k, v) :: es else e :: assocSet k v es

theorem lookup_cons_ite (k : κ) (e : κ × α) (es : List (κ × α)) :
    (e :: es).lookup k = if k = e.1 then some e.2 else es.lookup k := by
  rw [List.lookup_cons]
  by_cases h : k = e.1
  · rw [if_pos h, beq_iff_eq.2 h]
  · rw [if_neg h, beq_eq_false_iff_ne.2 h]

theorem lookup_assocSet (k k' : κ) (v : α) (es : List (κ × α)) :
    (assocSet k v es).lookup k' = if k' = k then some v else es.lookup k' := by
  induction es with
  | nil => rw [assocSet, lookup_cons_ite]
  | cons e es ih =>
      rw [assocSet]
      by_cases he : e.1 = k
      · rw [if_pos he, lookup_cons_ite, lookup_cons_ite, he]
        split_ifs <;> rfl
      · rw [if_neg he, lookup_cons_ite, lookup_cons_ite, ih]
        by_cases hk : k' = k
        · have hne : ¬ k' = e.1 := fun h => he (h.symm.trans hk)
          rw [if_neg hne, if_pos hk, if_pos hk]
        · rw [if_neg hk, if_neg hk]

theorem keys_assocSet (k : κ) (v : α) (es : List (κ × α)) :
    (assocSet k v es).map Prod.fst =
      if k ∈ es.map Prod.fst then es.map Prod.fst else es.map Prod.fst ++ [k] := by
  induction es with
  | nil => simp [assocSet]
  | cons e es ih =>
      by_cases he : e.1 = k
      · simp [assocSet, he]
      · have hne : ¬ k = e.1 := fun hk => he hk.symm
        rw [assocSet, if_neg he, List.map_cons, ih, List.map_cons]
        by_cases hk : k ∈ es.map Prod.fst
        · simp [hk]
        · rw [if_neg hk, if_neg (by simp only [List.mem_cons, hne, hk, or_self, not_false_eq_true])]
          rfl

theorem nodup_keys_assocSet (k : κ) (v : α) {es : List (κ × α)}
    (h : (es.map Prod.fst).Nodup) : ((assocSet k v es).map Prod.fst).Nodup := by
  rw [keys_assocSet]
  split_ifs with hk
  · exact h
  · exact List.nodup_append.2 ⟨h, List.nodup_singleton k, by
      intro a ha b hb hab
      rw [List.mem_singleton] at hb
      exact hk (hb ▸ hab ▸ ha)⟩

theorem lookup_eq_some_iff_mem {es : List (κ × α)} (h : (es.map Prod.fst).Nodup) (k : κ) (v : α) :
    es.lookup k = some v ↔ (k, v) ∈ es := by
  induction es with
  | nil => simp
  | cons e es ih =>
      rw [List.map_cons, List.nodup_cons] at h
      rw [lookup_cons_ite, List.mem_cons]
      by_cases he : k = e.1
      · subst he
        have hmem : (e.1, v) ∉ es := fun hm => h.1 (List.mem_map.2 ⟨_, hm, rfl⟩)
        simp only [if_pos, Option.some.injEq, hmem, or_false]
        exact ⟨fun hv => by rw [← hv], fun hv => by rw [← hv]⟩
      · have hne : ¬ (k, v) = e := fun hk => he (by rw [← hk])
        simp only [if_neg he, hne, false_or]
        exact ih h.2

end Entries

/-- An unordered map: the entries in iteration order, no key repeated. -/
structure HashedMap (κ α : Type) where
  entries : List (κ × α)
  nodupKeys : (entries.map Prod.fst).Nodup

namespace HashedMap

variable {κ α : Type}

@[ext] theorem ext {m m' : HashedMap κ α} (h : m.entries = m'.entries) : m = m' := by
  cases m; cases m'; cases h; rfl

def empty : HashedMap κ α := ⟨[], List.nodup_nil⟩

def values (m : HashedMap κ α) : List α := m.entries.map Prod.snd

variable [DecidableEq κ]

def find? (m : HashedMap κ α) (k : κ) : Option α := m.entries.lookup k

/-- Assignment through a reference to the entry of `k`, created when absent. -/
def set (m : HashedMap κ α) (k : κ) (v : α) : HashedMap κ α :=
  ⟨assocSet k v m.entries, nodup_keys_assocSet k v m.nodupKeys⟩

def emplace (m : HashedMap κ α) (k : κ) (v : α) : HashedMap κ α :=
  match m.find? k with
  | some _ => m
  | none => m.set k v

@[simp] theorem find?_empty (k : κ) : (empty : HashedMap κ α).find? k = none := rfl

@[simp] theorem find?_set (m : HashedMap κ α) (k k' : κ) (v : α) :
    (m.set k v).find? k' = if k' = k then some v else m.find? k' :=
  lookup_assocSet k k' v m.entries

theorem find?_emplace (m : HashedMap κ α) (k k' : κ) (v : α) :
    (m.emplace k v).find? k' = if k' = k ∧ m.find? k = none then some v else m.find? k' := by
  unfold emplace
  cases h : m.find? k with
  | none => by_cases hk : k' = k <;> simp [hk]
  | some w => simp

theorem find?_eq_some_iff (m : HashedMap κ α) (k : κ) (v : α) :
    m.find? k = some v ↔ (k, v) ∈ m.entries :=
  lookup_eq_some_iff_mem m.nodupKeys k v

theorem mem_values_iff (m : HashedMap κ α) (v : α) :
    v ∈ m.values ↔ ∃ k, m.find? k = some v := by
  simp only [values, List.mem_map, find?_eq_some_iff, Prod.exists, exists_eq_right]

/-- Emplacing a list keeps what is there and otherwise takes the first match. -/
theorem find?_foldl_emplace {β : Type} (key : β → κ) (val : β → α) (l : List β)
    (m : HashedMap κ α) (k : κ) :
    (l.foldl (fun m b => m.emplace (key b) (val b)) m).find? k =
      (m.find? k).or ((l.find? (fun b => key b = k)).map val) := by
  induction l generalizing m with
  | nil => simp
  | cons b l ih =>
      rw [List.foldl_cons, ih, find?_emplace, List.find?_cons]
      by_cases hk : key b = k
      · subst hk
        cases m.find? (key b) <;> simp
      · simp [hk, Ne.symm hk]

theorem length_values_emplace_le (m : HashedMap κ α) (k : κ) (v : α) :
    (m.emplace k v).values.length ≤ m.values.length + 1 := by
  unfold emplace
  cases m.find? k with
  | some w => exact Nat.le_succ _
  | none =>
      have hkeys := congrArg List.length (keys_assocSet k v m.entries)
      rw [List.length_map] at hkeys
      rw [values, values, List.length_map, List.length_map]
      change (assocSet k v m.entries).length ≤ _
      rw [hkeys]
      split_ifs <;> simp

theorem length_values_foldl_emplace_le {β : Type} (key : β → κ) (val : β → α) (l : List β)
    (m : HashedMap κ α) :
    (l.foldl (fun m b => m.emplace (key b) (val b)) m).values.length ≤ m.values.length + l.length := by
  induction l generalizing m with
  | nil => exact le_rfl
  | cons b l ih =>
      have hone := m.length_values_emplace_le (key b) (val b)
      have hrest := ih (m.emplace (key b) (val b))
      rw [List.foldl_cons, List.length_cons]
      omega

def KeyedBy (key : α → κ) (m : HashedMap κ α) : Prop := ∀ k v, m.find? k = some v → key v = k

section KeyedBy

variable {key : α → κ} {m : HashedMap κ α}

theorem keyedBy_empty (key : α → κ) : (empty : HashedMap κ α).KeyedBy key := by
  intro k v h
  cases h

theorem KeyedBy.set (h : m.KeyedBy key) {k : κ} {v : α} (hv : key v = k) :
    (m.set k v).KeyedBy key := by
  intro k' v' h'
  rw [find?_set] at h'
  split_ifs at h' with hk
  · rw [hk, ← Option.some.inj h', hv]
  · exact h k' v' h'

theorem KeyedBy.emplace (h : m.KeyedBy key) {k : κ} {v : α} (hv : key v = k) :
    (m.emplace k v).KeyedBy key := by
  unfold HashedMap.emplace
  cases m.find? k with
  | some w => exact h
  | none => exact h.set hv

theorem KeyedBy.foldl_emplace {β : Type} (val : β → α) (l : List β) (h : m.KeyedBy key) :
    (l.foldl (fun m b => m.emplace (key (val b)) (val b)) m).KeyedBy key := by
  induction l generalizing m with
  | nil => exact h
  | cons b l ih => exact ih (h.emplace rfl)

/-- In a list of the values of the map, the one with a key is the one found there. -/
theorem KeyedBy.find?_eq (h : m.KeyedBy key) {l : List α} (hl : ∀ v, v ∈ l ↔ ∃ k, m.find? k = some v)
    (k : κ) : l.find? (fun v => key v = k) = m.find? k := by
  cases hm : m.find? k with
  | none =>
      rw [List.find?_eq_none]
      intro v hv hkey
      obtain ⟨k', hk'⟩ := (hl v).1 hv
      rw [← h k' v hk', of_decide_eq_true hkey, hm] at hk'
      cases hk'
  | some v =>
      cases hfound : l.find? (fun v => key v = k) with
      | none =>
          have hno := List.find?_eq_none.1 hfound v ((hl v).2 ⟨k, hm⟩)
          exact absurd (decide_eq_true (h k v hm)) hno
      | some w =>
          obtain ⟨k', hk'⟩ := (hl w).1 (List.mem_of_find?_eq_some hfound)
          have hkey : key w = k := by simpa using List.find?_some hfound
          rw [← h k' w hk', hkey, hm] at hk'
          rw [Option.some.inj hk']

end KeyedBy

end HashedMap

/-- A map whose entries stand in strictly increasing key order. -/
structure OrderedMap (κ α : Type) [LinearOrder κ] where
  entries : List (κ × α)
  sortedKeys : (entries.map Prod.fst).Pairwise (· < ·)

namespace OrderedMap

variable {κ α : Type} [LinearOrder κ]

def insertSorted (k : κ) (v : α) : List (κ × α) → List (κ × α)
  | [] => [(k, v)]
  | e :: es =>
    if k < e.1 then (k, v) :: e :: es
    else if e.1 = k then (k, v) :: es
    else e :: insertSorted k v es

theorem mem_keys_insertSorted (k x : κ) (v : α) (es : List (κ × α)) :
    x ∈ (insertSorted k v es).map Prod.fst ↔ x = k ∨ x ∈ es.map Prod.fst := by
  induction es with
  | nil => simp [insertSorted]
  | cons e es ih =>
      rw [insertSorted]
      split_ifs with hlt heq
      · simp only [List.map_cons, List.mem_cons]
      · simp only [List.map_cons, List.mem_cons, heq, or_self_left]
      · simp only [List.map_cons, List.mem_cons, ih]
        tauto

theorem sorted_insertSorted (k : κ) (v : α) {es : List (κ × α)}
    (h : (es.map Prod.fst).Pairwise (· < ·)) :
    ((insertSorted k v es).map Prod.fst).Pairwise (· < ·) := by
  induction es with
  | nil => simp [insertSorted]
  | cons e es ih =>
      rw [List.map_cons, List.pairwise_cons] at h
      rw [insertSorted]
      split_ifs with hlt heq
      · rw [List.map_cons, List.map_cons, List.pairwise_cons, List.pairwise_cons]
        refine ⟨?_, h⟩
        intro x hx
        rcases List.mem_cons.1 hx with rfl | hx
        · exact hlt
        · exact hlt.trans (h.1 x hx)
      · rw [List.map_cons, List.pairwise_cons]
        exact ⟨fun x hx => heq ▸ h.1 x hx, h.2⟩
      · rw [List.map_cons, List.pairwise_cons]
        refine ⟨?_, ih h.2⟩
        intro x hx
        rcases (mem_keys_insertSorted k x v es).1 hx with rfl | hx
        · exact lt_of_le_of_ne (not_lt.1 hlt) heq
        · exact h.1 x hx

theorem lookup_insertSorted (k k' : κ) (v : α) (es : List (κ × α)) :
    (insertSorted k v es).lookup k' = if k' = k then some v else es.lookup k' := by
  induction es with
  | nil => rw [insertSorted, lookup_cons_ite]
  | cons e es ih =>
      rw [insertSorted]
      by_cases hlt : k < e.1
      · rw [if_pos hlt, lookup_cons_ite]
      · rw [if_neg hlt]
        by_cases he : e.1 = k
        · rw [if_pos he, lookup_cons_ite, lookup_cons_ite, he]
          split_ifs <;> rfl
        · rw [if_neg he, lookup_cons_ite, lookup_cons_ite, ih]
          by_cases hk : k' = k
          · have hne : ¬ k' = e.1 := fun h => he (h.symm.trans hk)
            rw [if_neg hne, if_pos hk, if_pos hk]
          · rw [if_neg hk, if_neg hk]

def empty : OrderedMap κ α := ⟨[], List.Pairwise.nil⟩

def find? (m : OrderedMap κ α) (k : κ) : Option α := m.entries.lookup k

def values (m : OrderedMap κ α) : List α := m.entries.map Prod.snd

def set (m : OrderedMap κ α) (k : κ) (v : α) : OrderedMap κ α :=
  ⟨insertSorted k v m.entries, sorted_insertSorted k v m.sortedKeys⟩

@[simp] theorem find?_empty (k : κ) : (empty : OrderedMap κ α).find? k = none := rfl

@[simp] theorem find?_set (m : OrderedMap κ α) (k k' : κ) (v : α) :
    (m.set k v).find? k' = if k' = k then some v else m.find? k' :=
  lookup_insertSorted k k' v m.entries

theorem sortedEntries (m : OrderedMap κ α) : m.entries.Pairwise (fun a b => a.1 < b.1) :=
  List.pairwise_map.1 m.sortedKeys

theorem find?_eq_some_iff (m : OrderedMap κ α) (k : κ) (v : α) :
    m.find? k = some v ↔ (k, v) ∈ m.entries :=
  lookup_eq_some_iff_mem (m.sortedKeys.imp (fun h => h.ne)) k v

theorem mem_values_iff (m : OrderedMap κ α) (v : α) :
    v ∈ m.values ↔ ∃ k, m.find? k = some v := by
  simp only [values, List.mem_map, find?_eq_some_iff, Prod.exists, exists_eq_right]

/-- The order of the entries is fixed, so a map is what its reads return. -/
theorem ext_find? {m m' : OrderedMap κ α} (h : ∀ k, m.find? k = m'.find? k) : m = m' := by
  have hmem : ∀ e, e ∈ m.entries ↔ e ∈ m'.entries := by
    rintro ⟨k, v⟩
    rw [← find?_eq_some_iff, ← find?_eq_some_iff, h]
  have hnodup : ∀ m : OrderedMap κ α, m.entries.Nodup := fun m =>
    m.sortedEntries.imp (fun hlt he => hlt.ne (congrArg Prod.fst he))
  have hentries : m.entries = m'.entries :=
    ((List.perm_ext_iff_of_nodup (hnodup m) (hnodup m')).2 hmem).eq_of_pairwise
      (fun _ _ _ _ hab hba => absurd hba hab.not_gt) m.sortedEntries m'.sortedEntries
  cases m
  cases m'
  cases hentries
  rfl

end OrderedMap
