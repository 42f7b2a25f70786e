import Mathlib.Logic.Function.Basic
import Mathlib.Tactic

/-!
# Copies of a shared cell

Sessions copy a value out of a shared cell, use the copy elsewhere and write it
back. Spending a live value leaves a dead one. Several copies may be out at the
same time, so nothing in the protocol stops a value from being spent twice. It
is enough that a live value is copied only while no copy is out: then the value
is spent at most once.
-/

namespace CheckOut

/-- What a session holds of the cell: a value not stored yet, a copy, or a used copy. -/
inductive Use (α : Type)
  | issued (a : α)
  | copied (a : α)
  | used (a : α)

def Use.value {α : Type} : Use α → α
  | .issued a => a
  | .copied a => a
  | .used a => a

inductive IsOut {α : Type} : Option (Use α) → α → Prop
  | copied (a : α) : IsOut (some (.copied a)) a
  | used (a : α) : IsOut (some (.used a)) a

structure Cell (α : Type) where
  value : Option α
  uses : ℕ → Option (Use α)
  spent : ℕ

variable {α : Type} {Live : α → Prop} {c c' : Cell α}

inductive Step (Live : α → Prop) (c : Cell α) : Cell α → Prop
  | stay : Step Live c c
  | issue (s : ℕ) (a : α) (hempty : c.value = none)
      (hfirst : ∀ s' a', c.uses s' ≠ some (.issued a')) :
      Step Live c { c with uses := Function.update c.uses s (some (.issued a)) }
  | store (s : ℕ) (a : α) (h : c.uses s = some (.issued a)) :
      Step Live c { c with value := some a, uses := Function.update c.uses s none }
  | copy (s : ℕ) (a : α) (h : c.value = some a)
      (hfree : Live a → ∀ s' a', ¬ IsOut (c.uses s') a') :
      Step Live c { c with uses := Function.update c.uses s (some (.copied a)) }
  | spend (s : ℕ) (a a' : α) (h : c.uses s = some (.copied a)) (hlive : Live a)
      (hdead : ¬ Live a') :
      Step Live c { c with
        uses := Function.update c.uses s (some (.used a')), spent := c.spent + 1 }
  | keep (s : ℕ) (a a' : α) (h : c.uses s = some (.copied a)) (hlive : Live a' → Live a) :
      Step Live c { c with uses := Function.update c.uses s (some (.used a')) }
  | drop (s : ℕ) (a : α) (h : c.uses s = some (.copied a)) :
      Step Live c { c with uses := Function.update c.uses s none }
  | putBack (s : ℕ) (a : α) (h : c.uses s = some (.used a)) :
      Step Live c { c with value := some a, uses := Function.update c.uses s none }

/-- While the stored value is live at most one copy is out, and if the value is spent
already then that copy is a dead one about to replace it. Under a dead value every
copy is dead. -/
structure Sound (Live : α → Prop) (c : Cell α) : Prop where
  empty : c.value = none → c.spent = 0 ∧ ∀ s a, ¬ IsOut (c.uses s) a
  issued : ∀ s a, c.uses s = some (.issued a) → c.value = none
  first : ∀ s s' a a', c.uses s = some (.issued a) → c.uses s' = some (.issued a') → s = s'
  single : ∀ v, c.value = some v → Live v →
    ∀ s s' a a', IsOut (c.uses s) a → IsOut (c.uses s') a' → s = s'
  unspent : ∀ v, c.value = some v → Live v →
    c.spent = 0 ∨ ∃ s a, c.uses s = some (.used a) ∧ ¬ Live a
  dead : ∀ v, c.value = some v → ¬ Live v → ∀ s a, IsOut (c.uses s) a → ¬ Live a
  once : c.spent ≤ 1

theorem isOut_update {f : ℕ → Option (Use α)} {s s' : ℕ} {u : Option (Use α)} {a : α} :
    IsOut (Function.update f s u s') a ↔ s' = s ∧ IsOut u a ∨ s' ≠ s ∧ IsOut (f s') a := by
  by_cases hs : s' = s
  · subst hs
    simp
  · simp [hs]

theorem issued_update {f : ℕ → Option (Use α)} {s s' : ℕ} {u : Option (Use α)} {a : α}
    (hu : u ≠ some (.issued a)) (h : Function.update f s u s' = some (.issued a)) :
    s' ≠ s ∧ f s' = some (.issued a) := by
  by_cases hs : s' = s
  · subst hs
    rw [Function.update_self] at h
    exact absurd h hu
  · rw [Function.update_of_ne hs] at h
    exact ⟨hs, h⟩

theorem sound_start : Sound Live (⟨none, fun _ => none, 0⟩ : Cell α) where
  empty _ := ⟨rfl, fun _ _ hout => nomatch hout⟩
  issued _ _ h := nomatch h
  first _ _ _ _ h := nomatch h
  single _ h := nomatch h
  unspent _ h := nomatch h
  dead _ h := nomatch h
  once := Nat.zero_le 1

namespace Sound

/-- A live copy is out only while the stored value is live. -/
theorem value_of_isOut (h : Sound Live c) {s : ℕ} {a : α} (hout : IsOut (c.uses s) a) :
    ∃ v, c.value = some v ∧ (Live a → Live v) := by
  cases hv : c.value with
  | none => exact absurd hout ((h.empty hv).2 s a)
  | some v =>
      refine ⟨v, rfl, ?_⟩
      intro hlive
      by_contra hdead
      exact h.dead v hv hdead s a hout hlive

theorem first_update (h : Sound Live c) {s : ℕ} {u : Option (Use α)}
    (hu : ∀ a, u ≠ some (.issued a)) {s₁ s₂ : ℕ} {a₁ a₂ : α}
    (h₁ : Function.update c.uses s u s₁ = some (.issued a₁))
    (h₂ : Function.update c.uses s u s₂ = some (.issued a₂)) : s₁ = s₂ :=
  h.first s₁ s₂ a₁ a₂ (issued_update (hu a₁) h₁).2 (issued_update (hu a₂) h₂).2

theorem issue (h : Sound Live c) {s : ℕ} {a : α} (hempty : c.value = none)
    (hfirst : ∀ s' a', c.uses s' ≠ some (.issued a')) :
    Sound Live { c with uses := Function.update c.uses s (some (.issued a)) } where
  empty _ := by
    refine ⟨(h.empty hempty).1, ?_⟩
    intro s' a' hout
    rcases isOut_update.1 hout with ⟨_, hs⟩ | ⟨_, hs⟩
    · cases hs
    · exact (h.empty hempty).2 s' a' hs
  issued _ _ _ := hempty
  first s₁ s₂ a₁ a₂ h₁ h₂ := by
    have honly : ∀ s' a', Function.update c.uses s (some (.issued a)) s' = some (.issued a') →
        s' = s := by
      intro s' a' hs
      by_contra hne
      rw [Function.update_of_ne hne] at hs
      exact hfirst s' a' hs
    exact (honly s₁ a₁ h₁).trans (honly s₂ a₂ h₂).symm
  single v hv := by rw [hempty] at hv; cases hv
  unspent v hv := by rw [hempty] at hv; cases hv
  dead v hv := by rw [hempty] at hv; cases hv
  once := h.once

theorem store (h : Sound Live c) {s : ℕ} {a : α} (hs : c.uses s = some (.issued a)) :
    Sound Live { c with value := some a, uses := Function.update c.uses s none } := by
  obtain ⟨hspent, hnone⟩ := h.empty (h.issued s a hs)
  have hout : ∀ s' a', ¬ IsOut (Function.update c.uses s none s') a' := by
    intro s' a' ho
    rcases isOut_update.1 ho with ⟨_, ho⟩ | ⟨_, ho⟩
    · cases ho
    · exact hnone s' a' ho
  refine ⟨fun hv => absurd hv (Option.some_ne_none a), ?_, fun _ _ _ _ => h.first_update (by simp),
    ?_, fun _ _ _ => Or.inl hspent, ?_, h.once⟩
  · intro s' a' h'
    obtain ⟨hne, hold⟩ := issued_update (by simp) h'
    exact absurd (h.first s' s a' a hold hs) hne
  · intro v _ _ s₁ s₂ a₁ a₂ h₁
    exact absurd h₁ (hout s₁ a₁)
  · intro v _ _ s' a' ho
    exact absurd ho (hout s' a')

theorem copy (h : Sound Live c) {s : ℕ} {a : α} (hv : c.value = some a)
    (hfree : Live a → ∀ s' a', ¬ IsOut (c.uses s') a') :
    Sound Live { c with uses := Function.update c.uses s (some (.copied a)) } := by
  have hissued : ∀ s' a', Function.update c.uses s (some (.copied a)) s' ≠ some (.issued a') := by
    intro s' a' h'
    have hnone := h.issued s' a' (issued_update (by simp) h').2
    rw [hv] at hnone
    cases hnone
  refine ⟨?_, ?_, ?_, ?_, ?_, ?_, h.once⟩
  · intro hnone
    rw [hv] at hnone
    cases hnone
  · exact fun s' a' h' => absurd h' (hissued s' a')
  · exact fun s₁ _ a₁ _ h₁ => absurd h₁ (hissued s₁ a₁)
  · intro v hv' hlive s₁ s₂ a₁ a₂ h₁ h₂
    obtain rfl : a = v := Option.some.inj (hv.symm.trans hv')
    have honly : ∀ s' a', IsOut (Function.update c.uses s (some (.copied a)) s') a' → s' = s := by
      intro s' a' ho
      rcases isOut_update.1 ho with ⟨he, _⟩ | ⟨_, ho⟩
      · exact he
      · exact absurd ho (hfree hlive s' a')
    exact (honly s₁ a₁ h₁).trans (honly s₂ a₂ h₂).symm
  · intro v hv' hlive
    obtain rfl : a = v := Option.some.inj (hv.symm.trans hv')
    rcases h.unspent a hv hlive with hzero | ⟨s', a', hused, _⟩
    · exact Or.inl hzero
    · exact absurd (hused ▸ IsOut.used a') (hfree hlive s' a')
  · intro v hv' hdead s' a' ho
    rcases isOut_update.1 ho with ⟨_, ho⟩ | ⟨_, ho⟩
    · cases ho
      obtain rfl : a = v := Option.some.inj (hv.symm.trans hv')
      exact hdead
    · exact h.dead v hv' hdead s' a' ho

/-- A session that has a copy out and goes on with `u` in its place. -/
theorem replaceOut (h : Sound Live c) {s : ℕ} {a : α} (hs : IsOut (c.uses s) a)
    {u : Option (Use α)} (hu : ∀ a', u ≠ some (.issued a'))
    (hlive : ∀ a', IsOut u a' → Live a' → Live a) {spent : ℕ} (honce : spent ≤ 1)
    (hunspent : ∀ v, c.value = some v → Live v →
      spent = 0 ∨ ∃ s' a', Function.update c.uses s u s' = some (.used a') ∧ ¬ Live a') :
    Sound Live { c with uses := Function.update c.uses s u, spent := spent } := by
  obtain ⟨v, hv, _⟩ := h.value_of_isOut hs
  have hout : ∀ s' a', IsOut (Function.update c.uses s u s') a' → ∃ a₀, IsOut (c.uses s') a₀ := by
    intro s' a' ho
    rcases isOut_update.1 ho with ⟨rfl, _⟩ | ⟨_, ho⟩
    · exact ⟨a, hs⟩
    · exact ⟨a', ho⟩
  refine ⟨?_, ?_, fun _ _ _ _ => h.first_update hu, ?_, hunspent, ?_, honce⟩
  · intro hnone
    rw [hv] at hnone
    cases hnone
  · exact fun s' a' h' => h.issued s' a' (issued_update (hu a') h').2
  · intro v' hv' hlive' s₁ s₂ a₁ a₂ h₁ h₂
    obtain ⟨b₁, hb₁⟩ := hout s₁ a₁ h₁
    obtain ⟨b₂, hb₂⟩ := hout s₂ a₂ h₂
    exact h.single v' hv' hlive' s₁ s₂ b₁ b₂ hb₁ hb₂
  · intro v' hv' hdead s' a' ho
    rcases isOut_update.1 ho with ⟨_, ho⟩ | ⟨_, ho⟩
    · exact fun hl => h.dead v' hv' hdead s a hs (hlive a' ho hl)
    · exact h.dead v' hv' hdead s' a' ho

/-- A dead used copy stands in another session than an unused copy. -/
theorem unspent_update (h : Sound Live c) {s : ℕ} {a : α} (hs : c.uses s = some (.copied a))
    (u : Option (Use α)) {v : α} (hv : c.value = some v) (hlive : Live v) :
    c.spent = 0 ∨ ∃ s' a', Function.update c.uses s u s' = some (.used a') ∧ ¬ Live a' := by
  rcases h.unspent v hv hlive with hzero | ⟨s', a', hused, hdead⟩
  · exact Or.inl hzero
  · have hne : s' ≠ s := by
      rintro rfl
      rw [hs] at hused
      cases hused
    exact Or.inr ⟨s', a', by rw [Function.update_of_ne hne, hused], hdead⟩

/-- A live unused copy has not been spent: it is the only one out. -/
theorem spent_eq_zero (h : Sound Live c) {s : ℕ} {a : α} (hs : c.uses s = some (.copied a))
    (hlive : Live a) : c.spent = 0 := by
  have hout : IsOut (c.uses s) a := hs ▸ IsOut.copied a
  obtain ⟨v, hv, hv'⟩ := h.value_of_isOut hout
  rcases h.unspent v hv (hv' hlive) with hzero | ⟨s', a', hused, _⟩
  · exact hzero
  · have he := h.single v hv (hv' hlive) s' s a' a (hused ▸ IsOut.used a') hout
    rw [he, hs] at hused
    cases hused

theorem putBack (h : Sound Live c) {s : ℕ} {a : α} (hs : c.uses s = some (.used a)) :
    Sound Live { c with value := some a, uses := Function.update c.uses s none } := by
  have hout : IsOut (c.uses s) a := hs ▸ IsOut.used a
  obtain ⟨v, hv, hlive⟩ := h.value_of_isOut hout
  have hother : Live v → ∀ s' a', ¬ IsOut (Function.update c.uses s none s') a' := by
    intro hl s' a' ho
    rcases isOut_update.1 ho with ⟨_, ho⟩ | ⟨hne, ho⟩
    · cases ho
    · exact hne (h.single v hv hl s' s a' a ho hout)
  refine ⟨fun hnone => absurd hnone (Option.some_ne_none a), ?_,
    fun _ _ _ _ => h.first_update (by simp), ?_, ?_, ?_, h.once⟩
  · intro s' a' h'
    have hnone := h.issued s' a' (issued_update (by simp) h').2
    rw [hv] at hnone
    cases hnone
  · intro v' hv' hl s₁ s₂ a₁ a₂ h₁
    obtain rfl : a = v' := Option.some.inj hv'
    exact absurd h₁ (hother (hlive hl) s₁ a₁)
  · intro v' hv' hl
    obtain rfl : a = v' := Option.some.inj hv'
    rcases h.unspent v hv (hlive hl) with hzero | ⟨s', a', hused, hdead⟩
    · exact Or.inl hzero
    · have he := h.single v hv (hlive hl) s' s a' a (hused ▸ IsOut.used a') hout
      rw [he, hs] at hused
      cases hused
      exact absurd hl hdead
  · intro v' _ _ s' a' ho
    by_cases hl : Live v
    · exact absurd ho (hother hl s' a')
    · rcases isOut_update.1 ho with ⟨_, ho⟩ | ⟨_, ho⟩
      · cases ho
      · exact h.dead v hv hl s' a' ho

end Sound

theorem Step.sound (hstep : Step Live c c') (h : Sound Live c) : Sound Live c' := by
  cases hstep with
  | stay => exact h
  | issue s a hempty hfirst => exact h.issue hempty hfirst
  | store s a hs => exact h.store hs
  | copy s a hv hfree => exact h.copy hv hfree
  | spend s a a' hs hlive hdead =>
      have hzero := h.spent_eq_zero hs hlive
      refine h.replaceOut (hs ▸ IsOut.copied a) (by simp) (fun _ _ _ => hlive) (by omega) ?_
      exact fun _ _ _ => Or.inr ⟨s, a', Function.update_self .., hdead⟩
  | keep s a a' hs hlive =>
      refine h.replaceOut (hs ▸ IsOut.copied a) (by simp) ?_ h.once
        (fun v => h.unspent_update hs _)
      intro b hb
      cases hb
      exact hlive
  | drop s a hs =>
      refine h.replaceOut (hs ▸ IsOut.copied a) (by simp) ?_ h.once
        (fun v => h.unspent_update hs _)
      intro b hb
      cases hb
  | putBack s a hs => exact h.putBack hs

end CheckOut
