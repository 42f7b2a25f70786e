import CostGovernor.ScanSelection

/-!
# Scans by two scope flags

With the rank given by two independent scope flags, a later element scoped to one
dimension displaces one scoped to the other, so the result of a scan depends on the order
of the list; `Displaces` describes exactly which prefixes a given element takes the lead
from.
-/

namespace ScanSelection

variable {α : Type} {keep : α → Bool}

variable (d r : α → Bool)

/-- One element outranks another when it is scoped to a dimension the other is not. -/
def scopeOutranks (o b : α) : Bool := (d o && !d b) || (r o && !r b)

/-- The elements of `pre` that `kept` admits never keep the lead from `o`: an `o`
scoped to both dimensions needs no rival scoped to both, an unscoped one needs
no rival, and one scoped to a single dimension needs every rival of that
dimension overtaken, inside `pre`, by one of the other dimension. -/
def Displaces (kept : α → Bool) (o : α) (pre : List α) : Prop :=
  match d o, r o with
  | true, true => ∀ p ∈ pre, kept p = true → ¬ (d p = true ∧ r p = true)
  | false, false => ∀ p ∈ pre, kept p = false
  | true, false => (∀ p ∈ pre, kept p = true → ¬ (d p = true ∧ r p = true)) ∧
      ∀ pre₁ p pre₂, pre = pre₁ ++ p :: pre₂ → kept p = true → d p = true →
        ∃ q ∈ pre₂, kept q = true ∧ r q = true
  | false, true => (∀ p ∈ pre, kept p = true → ¬ (d p = true ∧ r p = true)) ∧
      ∀ pre₁ p pre₂, pre = pre₁ ++ p :: pre₂ → kept p = true → r p = true →
        ∃ q ∈ pre₂, kept q = true ∧ d q = true

variable {d r}

theorem scopeOutranks_eq_false_iff (o b : α) :
    scopeOutranks d r o b = false ↔ (d o = true → d b = true) ∧ (r o = true → r b = true) := by
  cases h₁ : d o <;> cases h₂ : d b <;> cases h₃ : r o <;> cases h₄ : r b <;>
    simp [scopeOutranks, h₁, h₂, h₃, h₄]

theorem scopeOutranks_swap : scopeOutranks d r = scopeOutranks r d := by
  funext o b
  simp [scopeOutranks, Bool.or_comm]

/-- The choice is scoped to both dimensions as soon as some kept element is. -/
theorem scan_scope_both {l : List α} {b : α} {j : ℕ}
    (h : scan keep (scopeOutranks d r) l = some (b, j)) {p : α} (hp : p ∈ l)
    (hk : keep p = true) (hd : d p = true) (hr : r p = true) : d b = true ∧ r b = true := by
  induction l using List.reverseRecOn generalizing b j with
  | nil => cases hp
  | append_singleton l x ih =>
      rcases scan_concat_cases keep (scopeOutranks d r) l x with ⟨hx, hlead, hs⟩ | ⟨hs, hstay⟩
      · rw [hs] at h
        cases h
        rcases List.mem_append.1 hp with hp | hp
        · cases hprev : scan keep (scopeOutranks d r) l with
          | none =>
              have hnot := (scan_eq_none_iff l).1 hprev p hp
              rw [hk] at hnot
              cases hnot
          | some c =>
              have hc := ih hprev hp
              have hrank := hlead c.1 c.2 hprev
              simp [scopeOutranks, hc.1, hc.2] at hrank
        · rw [List.mem_singleton.1 hp] at hd hr
          exact ⟨hd, hr⟩
      · rw [hs] at h
        rcases List.mem_append.1 hp with hp | hp
        · exact ih h hp
        · rw [List.mem_singleton.1 hp] at hk hd hr
          obtain ⟨c, i, hc, hrank⟩ := hstay hk
          rw [h] at hc
          cases hc
          obtain ⟨h₁, h₂⟩ := (scopeOutranks_eq_false_iff x b).1 hrank
          exact ⟨h₁ hd, h₂ hr⟩

/-- With no kept element scoped to both dimensions, the choice is scoped to the
first one exactly when some element scoped to it is never overtaken. -/
theorem scan_scope_single {l : List α} {b : α} {j : ℕ}
    (h : scan keep (scopeOutranks d r) l = some (b, j))
    (hboth : ∀ p ∈ l, keep p = true → ¬ (d p = true ∧ r p = true)) :
    d b = true ↔ ∃ pre p post, l = pre ++ p :: post ∧ keep p = true ∧ d p = true ∧
      ∀ q ∈ post, keep q = true → r q = false := by
  induction l using List.reverseRecOn generalizing b j with
  | nil => simp at h
  | append_singleton l x ih =>
      have hl : ∀ p ∈ l, keep p = true → ¬ (d p = true ∧ r p = true) :=
        fun p hp => hboth p (List.mem_append_left _ hp)
      have hxb : keep x = true → ¬ (d x = true ∧ r x = true) := hboth x (by simp)
      rcases scan_concat_cases keep (scopeOutranks d r) l x with ⟨hx, hlead, hs⟩ | ⟨hs, hstay⟩
      · rw [hs] at h
        cases h
        constructor
        · intro hd
          exact ⟨l, x, [], rfl, hx, hd, by simp⟩
        · rintro ⟨pre, p, post, hsplit, hk, hd, hpost⟩
          rcases append_singleton_eq_split hsplit with ⟨_, rfl, _⟩ | ⟨post', rfl, hll⟩
          · exact hd
          · by_contra hdx
            have hrx : r x = false := hpost x (by simp) hx
            cases hprev : scan keep (scopeOutranks d r) l with
            | none =>
                have hnot := (scan_eq_none_iff l).1 hprev p (by simp [hll])
                rw [hk] at hnot
                cases hnot
            | some c =>
                have hrank := hlead c.1 c.2 hprev
                simp [scopeOutranks, hdx, hrx] at hrank
      · rw [hs] at h
        rw [ih h hl]
        constructor
        · rintro ⟨pre, p, post, hsplit, hk, hd, hpost⟩
          refine ⟨pre, p, post ++ [x], by rw [hsplit]; simp, hk, hd, ?_⟩
          intro q hq hkq
          rcases List.mem_append.1 hq with hq | hq
          · exact hpost q hq hkq
          · rw [List.mem_singleton.1 hq] at hkq ⊢
            obtain ⟨c, i, hc, hrank⟩ := hstay hkq
            rw [h] at hc
            cases hc
            have hdb : d b = true := (ih h hl).2 ⟨pre, p, post, hsplit, hk, hd, hpost⟩
            obtain ⟨hkb, hmem⟩ := scan_eq_some_kept h
            by_contra hrx
            exact hl b hmem hkb ⟨hdb, ((scopeOutranks_eq_false_iff x b).1 hrank).2 (by simpa using hrx)⟩
        · rintro ⟨pre, p, post, hsplit, hk, hd, hpost⟩
          rcases append_singleton_eq_split hsplit with ⟨_, rfl, _⟩ | ⟨post', rfl, hll⟩
          · obtain ⟨c, i, hc, hrank⟩ := hstay hk
            rw [h] at hc
            cases hc
            exact (ih h hl).1 (((scopeOutranks_eq_false_iff x b).1 hrank).1 hd)
          · exact ⟨pre, p, post', hll, hk, hd, fun q hq => hpost q (by simp [hq])⟩

theorem displaces_single_iff {l : List α} {o : α} (hd : d o = true) (hr : r o = false) :
    ((∀ p ∈ l, keep p = true → ¬ (d p = true ∧ r p = true)) ∧
      ∀ pre p post, l = pre ++ p :: post → keep p = true → d p = true →
        ∃ q ∈ post, keep q = true ∧ r q = true) ↔
    ∀ b j, scan keep (scopeOutranks d r) l = some (b, j) → scopeOutranks d r o b = true := by
  have hrank (b : α) : scopeOutranks d r o b = true ↔ ¬ d b = true := by
    simp [scopeOutranks, hd, hr]
  constructor
  · rintro ⟨hboth, hover⟩ b j hs
    rw [hrank, scan_scope_single hs hboth]
    rintro ⟨pre, p, post, hsplit, hk, hdp, hpost⟩
    obtain ⟨q, hq, hkq, hrq⟩ := hover pre p post hsplit hk hdp
    rw [hpost q hq hkq] at hrq
    cases hrq
  · intro h
    have hboth : ∀ p ∈ l, keep p = true → ¬ (d p = true ∧ r p = true) := by
      rintro p hp hk ⟨hdp, hrp⟩
      cases hs : scan keep (scopeOutranks d r) l with
      | none =>
          have hnot := (scan_eq_none_iff l).1 hs p hp
          rw [hk] at hnot
          cases hnot
      | some b => exact (hrank b.1).1 (h b.1 b.2 hs) (scan_scope_both hs hp hk hdp hrp).1
    refine ⟨hboth, ?_⟩
    intro pre p post hsplit hk hdp
    cases hs : scan keep (scopeOutranks d r) l with
    | none =>
        have hnot := (scan_eq_none_iff l).1 hs p (by simp [hsplit])
        rw [hk] at hnot
        cases hnot
    | some b =>
        by_contra! hnone
        apply (hrank b.1).1 (h b.1 b.2 hs)
        rw [scan_scope_single hs hboth]
        exact ⟨pre, p, post, hsplit, hk, hdp, fun q hq hkq => by simpa using hnone q hq hkq⟩

/-- `Displaces` is exactly the lead condition of the scope rank. -/
theorem displaces_iff (o : α) (l : List α) :
    Displaces d r keep o l ↔
      ∀ b j, scan keep (scopeOutranks d r) l = some (b, j) → scopeOutranks d r o b = true := by
  unfold Displaces
  cases hd : d o <;> cases hr : r o
  · have hrank (b : α) : scopeOutranks d r o b = false := by simp [scopeOutranks, hd, hr]
    simp only [hrank, Bool.false_eq_true, imp_false]
    have hempty : scan keep (scopeOutranks d r) l = none ↔ ∀ p ∈ l, keep p = false :=
      scan_eq_none_iff l
    rw [← hempty]
    constructor
    · intro h b j hs
      rw [h] at hs
      cases hs
    · intro h
      cases hs : scan keep (scopeOutranks d r) l with
      | none => rfl
      | some b => exact absurd hs (h b.1 b.2)
  · rw [scopeOutranks_swap, ← displaces_single_iff hr hd]
    simp only [and_comm]
  · exact displaces_single_iff hd hr
  · have hrank (b : α) : scopeOutranks d r o b = true ↔ ¬ (d b = true ∧ r b = true) := by
      cases h₁ : d b <;> cases h₂ : r b <;> simp [scopeOutranks, hd, hr, h₁, h₂]
    constructor
    · intro h b j hs
      obtain ⟨hk, hmem⟩ := scan_eq_some_kept hs
      exact (hrank b).2 (h b hmem hk)
    · rintro h p hp hk ⟨hdp, hrp⟩
      cases hs : scan keep (scopeOutranks d r) l with
      | none =>
          have hnot := (scan_eq_none_iff l).1 hs p hp
          rw [hk] at hnot
          cases hnot
      | some b => exact (hrank b.1).1 (h b.1 b.2 hs) (scan_scope_both hs hp hk hdp hrp)

/-- Under the scope rank, the element a scan ends on, read off the list alone. -/
theorem scan_scope_eq_some_iff (l : List α) (o : α) (i : ℕ) :
    scan keep (scopeOutranks d r) l = some (o, i) ↔
      ∃ pre post, l = pre ++ o :: post ∧ pre.length = i ∧ keep o = true ∧
        Displaces d r keep o pre ∧ ∀ p ∈ post, keep p = true → scopeOutranks d r p o = false := by
  rw [scan_eq_some_iff]
  simp only [displaces_iff]

def Narrower (d r : α → Bool) (p o : α) : Prop :=
  ((d o = true → d p = true) ∧ (r o = true → r p = true)) ∧
    ((d p = true ∧ d o = false) ∨ (r p = true ∧ r o = false))

/-- Under the scope rank no kept element is narrower than the choice. -/
theorem not_narrower_of_scan {l : List α} {o : α} {i : ℕ}
    (h : scan keep (scopeOutranks d r) l = some (o, i)) {p : α} (hp : p ∈ l) (hk : keep p = true) :
    ¬ Narrower d r p o := by
  rintro ⟨⟨hdp, hrp⟩, hmore⟩
  obtain ⟨pre, post, rfl, -, -, hlead, hpost⟩ := (scan_scope_eq_some_iff l o i).1 h
  have hrank : scopeOutranks d r p o = true := by
    rcases hmore with ⟨h₁, h₂⟩ | ⟨h₁, h₂⟩ <;> simp [scopeOutranks, h₁, h₂]
  rcases List.mem_append.1 hp with hbefore | hafter
  · unfold Displaces at hlead
    cases hd : d o <;> cases hr : r o <;> simp only [hd, hr] at hlead hdp hrp hmore
    · rw [hlead p hbefore] at hk
      cases hk
    · exact hlead.1 p hbefore hk ⟨by simpa using hmore, hrp trivial⟩
    · exact hlead.1 p hbefore hk ⟨hdp trivial, by simpa using hmore⟩
    · simp at hmore
  · rcases List.mem_cons.1 hafter with rfl | hafter
    · simp [scopeOutranks] at hrank
    · rw [hpost p hafter hk] at hrank
      cases hrank

/-- Among elements scoped to both dimensions the first one is chosen. -/
theorem scan_scope_first_both {l : List α} {p : α} (hp : p ∈ l) (hk : keep p = true)
    (hd : d p = true) (hr : r p = true) :
    ∃ pre o post, l = pre ++ o :: post ∧
      scan keep (scopeOutranks d r) l = some (o, pre.length) ∧ (d o = true ∧ r o = true) ∧
      ∀ q ∈ pre, keep q = true → ¬ (d q = true ∧ r q = true) := by
  cases hs : scan keep (scopeOutranks d r) l with
  | none =>
      rw [(scan_eq_none_iff l).1 hs p hp] at hk
      cases hk
  | some b =>
      obtain ⟨o, i⟩ := b
      have hboth := scan_scope_both hs hp hk hd hr
      obtain ⟨pre, post, hl, rfl, -, hlead, -⟩ := (scan_scope_eq_some_iff l o i).1 hs
      unfold Displaces at hlead
      rw [hboth.1, hboth.2] at hlead
      exact ⟨pre, o, post, hl, rfl, hboth, hlead⟩

/-- Two scans over the same list, the second keeping only part of what the
first keeps, choose the same element exactly when some element of the narrower
class displaces both prefixes and is not outranked afterwards. -/
theorem scan_agree_iff {kept : α → Bool} (hsub : ∀ p, kept p = true → keep p = true) (l : List α) :
    (∃ o, scan keep (scopeOutranks d r) l = some o ∧ scan kept (scopeOutranks d r) l = some o) ↔
      ∃ pre o post, l = pre ++ o :: post ∧ kept o = true ∧ Displaces d r keep o pre ∧
        Displaces d r kept o pre ∧ ∀ p ∈ post, keep p = true → scopeOutranks d r p o = false := by
  constructor
  · rintro ⟨⟨o, i⟩, h, h'⟩
    obtain ⟨pre, post, hl, hlen, _, hpre, hpost⟩ := (scan_scope_eq_some_iff l o i).1 h
    obtain ⟨pre', post', hl', hlen', hk, hpre', _⟩ := (scan_scope_eq_some_iff l o i).1 h'
    obtain ⟨rfl, _⟩ := List.append_inj (hl.symm.trans hl') (hlen.trans hlen'.symm)
    exact ⟨pre, o, post, hl, hk, hpre, hpre', hpost⟩
  · rintro ⟨pre, o, post, hl, hk, hd, hd', hpost⟩
    refine ⟨(o, pre.length), (scan_scope_eq_some_iff l o _).2 ?_,
      (scan_scope_eq_some_iff l o _).2 ?_⟩
    · exact ⟨pre, post, hl, rfl, hsub o hk, hd, hpost⟩
    · exact ⟨pre, post, hl, rfl, hk, hd', fun p hp hkp => hpost p hp (hsub p hkp)⟩

end ScanSelection
