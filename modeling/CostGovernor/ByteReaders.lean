import CostGovernor.ByteStreams

/-!
# Properties of readers

`Ensures` is what a reader guarantees of its result on any stream, `Stable` says that it
does not look beyond what it takes, and `Spells` what it has taken off the stream for a
result.
-/

namespace ByteStreams

open Executions

variable {ε α β : Type}

section Ensures

def Ensures (r : Reader ε α) (p : α → Prop) : Prop :=
  ∀ bytes a rest, r bytes = .ok (a, rest) → p a

variable {r : Reader ε α} {p : α → Prop} {q : β → Prop}

theorem ensures_pure {a : α} (h : p a) : Ensures (pure a : Reader ε α) p := by
  intro bytes a' rest hread
  cases hread
  exact h

theorem Ensures.bind {f : α → Reader ε β} (h : Ensures r p) (hrest : ∀ a, p a → Ensures (f a) q) :
    Ensures (r >>= f) q := by
  intro bytes b rest hread
  rw [reader_bind_apply, bind_eq_ok_iff] at hread
  obtain ⟨x, hx, hread⟩ := hread
  exact hrest x.1 (h bytes x.1 x.2 hx) x.2 b rest hread

/-- A field nothing is known about. -/
theorem ensures_skip {f : α → Reader ε β} (hrest : ∀ a, Ensures (f a) q) : Ensures (r >>= f) q :=
  Ensures.bind (p := fun _ => True) (fun _ _ _ _ => trivial) (fun a _ => hrest a)

theorem ensures_guarded {c : Prop} [Decidable c] {e : ε} (h : ¬ c → Ensures r p) :
    Ensures (if c then throw e else r) p := by
  by_cases hc : c
  · rw [if_pos hc]
    intro bytes a rest hread
    cases hread
  · rw [if_neg hc]
    exact h hc

theorem ensures_takeBytes (short : ε) (k : ℕ) :
    Ensures (takeBytes short k) (fun bytes => bytes.length = k) := by
  intro bytes taken rest hread
  unfold takeBytes at hread
  split_ifs at hread with hshort
  cases hread
  rw [List.length_take, Nat.min_eq_left (not_lt.1 hshort)]

theorem Ensures.many (h : Ensures r p) (n : ℕ) :
    Ensures (readMany r n) (fun as => as.length = n ∧ ∀ a ∈ as, p a) := by
  induction n with
  | zero => exact ensures_pure ⟨rfl, by simp⟩
  | succ n ih =>
      refine h.bind (fun a ha => ih.bind (fun as has => ensures_pure ⟨?_, ?_⟩))
      · rw [List.length_cons, has.1]
      · exact List.forall_mem_cons.2 ⟨ha, has.2⟩

end Ensures

section Stable

/-- What the reader returns does not depend on the bytes after those it has taken. -/
def Stable (r : Reader ε α) : Prop :=
  ∀ bytes a rest, r bytes = .ok (a, rest) → ∀ more, r (bytes ++ more) = .ok (a, rest ++ more)

variable {r : Reader ε α}

theorem stable_pure (a : α) : Stable (pure a : Reader ε α) := by
  intro bytes a' rest h more
  cases h
  rfl

theorem stable_throw (e : ε) : Stable (throw e : Reader ε α) := by
  intro bytes a rest h
  cases h

theorem Stable.bind {f : α → Reader ε β} (h : Stable r) (hrest : ∀ a, Stable (f a)) :
    Stable (r >>= f) := by
  intro bytes b rest hread more
  rw [reader_bind_apply, bind_eq_ok_iff] at hread
  obtain ⟨⟨a, left⟩, ha, hb⟩ := hread
  rw [reader_bind_of_ok (h bytes a left ha more)]
  exact hrest a left b rest hb more

theorem Stable.map (h : Stable r) (f : α → β) : Stable (f <$> r) :=
  h.bind fun a => stable_pure (f a)

theorem stable_takeBytes (short : ε) (k : ℕ) : Stable (takeBytes short k) := by
  intro bytes taken rest hread more
  unfold takeBytes at hread ⊢
  split_ifs at hread with hshort
  cases hread
  rw [if_neg (by rw [List.length_append]; omega), List.take_append_of_le_length (not_lt.1 hshort),
    List.drop_append_of_le_length (not_lt.1 hshort)]

theorem stable_readWord (short : ε) (width : ℕ) : Stable (readWord short width) :=
  (stable_takeBytes short width).bind fun _ => stable_pure _

theorem Stable.guarded {c : Prop} [Decidable c] {e : ε} (h : Stable r) :
    Stable (if c then throw e else r) := by
  split_ifs
  · exact stable_throw e
  · exact h

theorem Stable.many (h : Stable r) (n : ℕ) : Stable (readMany r n) := by
  induction n with
  | zero => exact stable_pure []
  | succ n ih => exact h.bind fun a => ih.bind fun as => stable_pure (a :: as)

/-- A stream that is read to its end is not read from any shorter part of it. -/
theorem Stable.error_of_take (h : Stable r) {bytes : Bytes} {n : ℕ} (hn : n < bytes.length)
    (hwhole : ∀ a rest, r bytes = .ok (a, rest) → rest = []) : ∃ e, r (bytes.take n) = .error e := by
  cases hread : r (bytes.take n) with
  | error e => exact ⟨e, rfl⟩
  | ok x =>
      obtain ⟨a, rest⟩ := x
      have hmore := h _ _ _ hread (bytes.drop n)
      rw [List.take_append_drop] at hmore
      have hnil := (List.append_eq_nil_iff.1 (hwhole a _ hmore)).2
      have hend := List.drop_eq_nil_iff.1 hnil
      omega

end Stable

section Spells

def Spells (V : α → Bytes → Prop) (r : Reader ε α) : Prop :=
  ∀ bytes a rest, r bytes = .ok (a, rest) → ∃ front, V a front ∧ bytes = front ++ rest

variable {r : Reader ε α} {V : α → Bytes → Prop} {W : β → Bytes → Prop}

theorem spells_pure {a : α} (h : V a []) : Spells V (pure a : Reader ε α) := by
  intro bytes a' rest hread
  cases hread
  exact ⟨[], h, rfl⟩

/-- The fields of a record are spelled one after the other. -/
theorem Spells.bind {f : α → Reader ε β} (h : Spells V r)
    (hrest : ∀ a first, V a first → Spells (fun b front => W b (first ++ front)) (f a)) :
    Spells W (r >>= f) := by
  intro bytes b rest hread
  rw [reader_bind_apply, bind_eq_ok_iff] at hread
  obtain ⟨⟨a, left⟩, ha, hb⟩ := hread
  obtain ⟨first, hfirst, rfl⟩ := h bytes a left ha
  obtain ⟨front, hfront, rfl⟩ := hrest a first hfirst left b rest hb
  exact ⟨first ++ front, hfront, (List.append_assoc _ _ _).symm⟩

theorem Spells.map {f : α → β} (h : Spells V r) (himp : ∀ a front, V a front → W (f a) front) :
    Spells W (f <$> r) := by
  refine Spells.bind h fun a first hfirst => spells_pure ?_
  rw [List.append_nil]
  exact himp a first hfirst

theorem spells_guarded {c : Prop} [Decidable c] {e : ε} (h : ¬ c → Spells V r) :
    Spells V (if c then throw e else r) := by
  by_cases hc : c
  · rw [if_pos hc]
    intro bytes a rest hread
    cases hread
  · rw [if_neg hc]
    exact h hc

theorem spells_takeBytes (short : ε) (k : ℕ) :
    Spells (fun taken front => front = taken ∧ taken.length = k) (takeBytes short k) := by
  intro bytes taken rest hread
  have hlength := ensures_takeBytes short k bytes taken rest hread
  unfold takeBytes at hread
  split_ifs at hread
  cases hread
  exact ⟨bytes.take k, ⟨rfl, hlength⟩, (List.take_append_drop k bytes).symm⟩

theorem spells_word (short : ε) (width : ℕ) :
    Spells (fun v front => front = wordBytes width v ∧ v < 256 ^ width) (readWord short width) := by
  refine (spells_takeBytes short width).bind fun taken first hfirst => spells_pure ?_
  obtain ⟨rfl, rfl⟩ := hfirst
  rw [List.append_nil]
  exact ⟨(wordBytes_wordValue first).symm, wordValue_lt first⟩

/-- A list is spelled by its elements in a row. -/
theorem Spells.many {write : α → Except ε Bytes}
    (h : Spells (fun a front => write a = .ok front) r) (n : ℕ) :
    Spells (fun as front => as.length = n ∧ writeAll (as.map write) = .ok front)
      (readMany r n) := by
  induction n with
  | zero => exact spells_pure ⟨rfl, rfl⟩
  | succ n ih =>
      refine h.bind fun a first ha => ih.bind fun as others has => spells_pure ?_
      rw [List.append_nil, List.length_cons, has.1, List.map_cons]
      exact ⟨rfl, writeAll_cons_eq_ok.2 ⟨first, others, ha, has.2, rfl⟩⟩

end Spells

end ByteStreams
