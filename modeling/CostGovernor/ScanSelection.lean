import Mathlib.Data.List.Basic
import Mathlib.Tactic

/-!
# Best-so-far scans of a list

`scan keep outranks l` walks `l` once, skips what `keep` refuses and replaces
its current choice by every element that outranks it. The result is the chosen
element with its position, which identifies it among equal elements.
-/

namespace ScanSelection

variable {α : Type} (keep : α → Bool) (outranks : α → α → Bool)

def scanStep (best : Option (α × ℕ)) (x : α × ℕ) : Option (α × ℕ) :=
  if keep x.1 then
    match best with
    | none => some x
    | some b => if outranks x.1 b.1 then some x else some b
  else best

def scan (l : List α) : Option (α × ℕ) := l.zipIdx.foldl (scanStep keep outranks) none

@[simp] theorem scan_nil : scan keep outranks [] = none := rfl

variable {keep outranks}

theorem scan_concat (l : List α) (x : α) :
    scan keep outranks (l ++ [x]) = scanStep keep outranks (scan keep outranks l) (x, l.length) := by
  simp [scan, List.zipIdx_append, List.foldl_append]

theorem scan_concat_of_lead {l : List α} {x : α} (hx : keep x = true)
    (hlead : ∀ b j, scan keep outranks l = some (b, j) → outranks x b = true) :
    scan keep outranks (l ++ [x]) = some (x, l.length) := by
  rw [scan_concat]
  cases hs : scan keep outranks l with
  | none => simp [scanStep, hx]
  | some b => simp [scanStep, hx, hlead b.1 b.2 hs]

theorem scan_concat_of_skip {l : List α} {x : α} (hx : keep x = false) :
    scan keep outranks (l ++ [x]) = scan keep outranks l := by
  simp [scan_concat, scanStep, hx]

theorem scan_concat_of_stay {l : List α} {x : α} {b : α × ℕ}
    (hs : scan keep outranks l = some b) (hb : outranks x b.1 = false) :
    scan keep outranks (l ++ [x]) = some b := by
  simp [scan_concat, scanStep, hs, hb]

/-- One more element either takes the lead or leaves the choice unchanged. -/
theorem scan_concat_cases (keep : α → Bool) (outranks : α → α → Bool) (l : List α) (x : α) :
    (keep x = true ∧ (∀ b j, scan keep outranks l = some (b, j) → outranks x b = true) ∧
      scan keep outranks (l ++ [x]) = some (x, l.length)) ∨
    (scan keep outranks (l ++ [x]) = scan keep outranks l ∧
      (keep x = true → ∃ b j, scan keep outranks l = some (b, j) ∧ outranks x b = false)) := by
  by_cases hx : keep x = true
  · cases hs : scan keep outranks l with
    | none =>
        have hlead : ∀ b j, scan keep outranks l = some (b, j) → outranks x b = true := by simp [hs]
        exact Or.inl ⟨hx, by simp, scan_concat_of_lead hx hlead⟩
    | some b =>
        by_cases hb : outranks x b.1 = true
        · have hlead : ∀ c j, scan keep outranks l = some (c, j) → outranks x c = true := by
            intro c j hc
            rw [hs] at hc
            cases hc
            exact hb
          exact Or.inl ⟨hx, hs ▸ hlead, scan_concat_of_lead hx hlead⟩
        · have hb' : outranks x b.1 = false := by simpa using hb
          exact Or.inr ⟨scan_concat_of_stay hs hb', fun _ => ⟨b.1, b.2, rfl, hb'⟩⟩
  · have hx' : keep x = false := by simpa using hx
    exact Or.inr ⟨scan_concat_of_skip hx', fun h => absurd h hx⟩

theorem scan_eq_none_iff (l : List α) :
    scan keep outranks l = none ↔ ∀ p ∈ l, keep p = false := by
  induction l using List.reverseRecOn with
  | nil => simp
  | append_singleton l x ih =>
      simp only [List.mem_append, List.mem_singleton, or_imp, forall_and, forall_eq]
      rcases scan_concat_cases keep outranks l x with ⟨hx, _, hs⟩ | ⟨hs, hstay⟩
      · simp [hs, hx]
      · rw [hs, ih]
        constructor
        · intro h
          refine ⟨h, ?_⟩
          by_contra hx
          obtain ⟨b, j, hb, _⟩ := hstay (by simpa using hx)
          rw [ih.2 h] at hb
          cases hb
        · exact fun h => h.1

section Related

variable {R : α → α → Prop}

theorem forall₂_zipIdx {l l' : List α} (h : List.Forall₂ R l l') (k : ℕ) :
    List.Forall₂ (fun x y => R x.1 y.1) (l.zipIdx k) (l'.zipIdx k) := by
  induction h generalizing k with
  | nil => exact .nil
  | cons hxy _ ih => exact .cons hxy (ih (k + 1))

theorem scanStep_rel (hkeep : ∀ x y, R x y → keep x = keep y)
    (hrank : ∀ x y b c, R x y → R b c → outranks x b = outranks y c)
    {best best' : Option (α × ℕ)} (hbest : Option.Rel (fun x y => R x.1 y.1) best best')
    {x y : α × ℕ} (hxy : R x.1 y.1) :
    Option.Rel (fun x y => R x.1 y.1) (scanStep keep outranks best x)
      (scanStep keep outranks best' y) := by
  unfold scanStep
  rw [hkeep x.1 y.1 hxy]
  split_ifs with hk
  · cases hbest with
    | none => exact .some hxy
    | some hbc =>
        dsimp only
        rw [hrank _ _ _ _ hxy hbc]
        split_ifs with hr
        · exact .some hxy
        · exact .some hbc
  · exact hbest

/-- Lists whose elements look alike to the scan, one by one, have alike choices. -/
theorem scan_rel (hkeep : ∀ x y, R x y → keep x = keep y)
    (hrank : ∀ x y b c, R x y → R b c → outranks x b = outranks y c) {l l' : List α}
    (h : List.Forall₂ R l l') :
    Option.Rel (fun x y => R x.1 y.1) (scan keep outranks l) (scan keep outranks l') := by
  unfold scan
  refine List.rel_foldl (P := Option.Rel fun x y : α × ℕ => R x.1 y.1)
    (R := fun x y : α × ℕ => R x.1 y.1) ?_ .none (forall₂_zipIdx h 0)
  intro best best' hbest x y hxy
  exact scanStep_rel hkeep hrank hbest hxy

end Related

theorem append_singleton_eq_split {l pre post : List α} {x o : α}
    (h : l ++ [x] = pre ++ o :: post) :
    (l = pre ∧ x = o ∧ post = []) ∨ ∃ post', post = post' ++ [x] ∧ l = pre ++ o :: post' := by
  rcases List.eq_nil_or_concat post with rfl | ⟨post', y, rfl⟩
  · obtain ⟨hl, hx⟩ := List.append_inj' h rfl
    exact Or.inl ⟨hl, List.singleton_inj.1 hx, rfl⟩
  · have h' : l ++ [x] = (pre ++ o :: post') ++ [y] := by simpa using h
    obtain ⟨hl, hx⟩ := List.append_inj' h' rfl
    exact Or.inr ⟨post', by rw [List.singleton_inj.1 hx, List.concat_eq_append], hl⟩

/-- The scan ends on an element exactly when that element took the lead from
the choice of its prefix and nothing kept after it outranks it. -/
theorem scan_eq_some_iff (l : List α) (o : α) (i : ℕ) :
    scan keep outranks l = some (o, i) ↔
      ∃ pre post, l = pre ++ o :: post ∧ pre.length = i ∧ keep o = true ∧
        (∀ b j, scan keep outranks pre = some (b, j) → outranks o b = true) ∧
        ∀ p ∈ post, keep p = true → outranks p o = false := by
  induction l using List.reverseRecOn generalizing o i with
  | nil => simp
  | append_singleton l x ih =>
      constructor
      · intro h
        rcases scan_concat_cases keep outranks l x with ⟨hx, hlead, hs⟩ | ⟨hs, hstay⟩
        · rw [hs] at h
          cases h
          exact ⟨l, [], rfl, rfl, hx, hlead, by simp⟩
        · rw [hs] at h
          obtain ⟨pre, post, hl, hlen, hk, hpre, hpost⟩ := (ih o i).1 h
          refine ⟨pre, post ++ [x], by rw [hl]; simp, hlen, hk, hpre, ?_⟩
          intro p hp hkp
          rcases List.mem_append.1 hp with hp | hp
          · exact hpost p hp hkp
          · rw [List.mem_singleton.1 hp] at hkp ⊢
            obtain ⟨b, j, hb, hrank⟩ := hstay hkp
            rw [h] at hb
            cases hb
            exact hrank
      · rintro ⟨pre, post, hl, hlen, hk, hpre, hpost⟩
        rcases append_singleton_eq_split hl with ⟨rfl, rfl, rfl⟩ | ⟨post', rfl, hll⟩
        · rw [scan_concat_of_lead hk hpre, hlen]
        · have hs : scan keep outranks l = some (o, i) :=
            (ih o i).2 ⟨pre, post', hll, hlen, hk, hpre, fun p hp => hpost p (by simp [hp])⟩
          by_cases hx : keep x = true
          · exact scan_concat_of_stay hs (hpost x (by simp) hx)
          · rw [scan_concat_of_skip (by simpa using hx), hs]

theorem scan_eq_some_kept {l : List α} {o : α} {i : ℕ}
    (h : scan keep outranks l = some (o, i)) : keep o = true ∧ o ∈ l := by
  obtain ⟨pre, post, hl, _, hk, _⟩ := (scan_eq_some_iff l o i).1 h
  exact ⟨hk, by simp [hl]⟩

end ScanSelection
