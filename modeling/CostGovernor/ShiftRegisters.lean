import Mathlib.Data.List.Basic
import Mathlib.Logic.Function.Iterate
import Mathlib.Tactic

/-!
# Shift registers with feedback

A register of `w` bits is shifted to the right, and the bit that falls out adds the
polynomial. Digits are added at the low end, each followed by as many shifts as it has
bits. As the polynomial has its top bit set, no shift loses anything; and as long as no
digit has fallen out, the register holds all of them side by side.
-/

namespace ShiftRegisters

variable {w : ℕ}

def shift (poly x : BitVec w) : BitVec w :=
  (x >>> 1) ^^^ (if x.getLsbD 0 then poly else 0#w)

def Below (m : ℕ) (x : BitVec w) : Prop := ∀ i, m ≤ i → x.getLsbD i = false

/-- Add a digit of `k` bits and shift it in. -/
def feed (poly : BitVec w) (k : ℕ) (x digit : BitVec w) : BitVec w :=
  (shift poly)^[k] (x ^^^ digit)

/-- The digits side by side, the first one lowest. -/
def word (k : ℕ) : List (BitVec w) → BitVec w
  | [] => 0#w
  | digit :: digits => digit ^^^ (word k digits <<< k)

section Linear

variable (poly : BitVec w)

theorem shift_xor (x y : BitVec w) : shift poly (x ^^^ y) = shift poly x ^^^ shift poly y := by
  have hfeedback : ∀ a b : Bool, (if (a ^^ b) = true then poly else 0#w) =
      (if a = true then poly else 0#w) ^^^ (if b = true then poly else 0#w) := by
    intro a b
    cases a <;> cases b <;> simp
  unfold shift
  rw [BitVec.getLsbD_xor, BitVec.ushiftRight_xor_distrib, hfeedback]
  ac_rfl

theorem shifts_xor (n : ℕ) (x y : BitVec w) :
    (shift poly)^[n] (x ^^^ y) = (shift poly)^[n] x ^^^ (shift poly)^[n] y := by
  induction n generalizing x y with
  | zero => rfl
  | succ n ih => rw [Function.iterate_succ_apply, Function.iterate_succ_apply,
      Function.iterate_succ_apply, shift_xor, ih]

/-- A register whose low bits are clear only moves down. -/
theorem shifts_of_clear {n : ℕ} {x : BitVec w} (h : ∀ i < n, x.getLsbD i = false) :
    (shift poly)^[n] x = x >>> n := by
  induction n with
  | zero => simp
  | succ n ih =>
      have hlow : (x >>> n).getLsbD 0 = false := by
        rw [BitVec.getLsbD_ushiftRight]
        exact h n (Nat.lt_succ_self n)
      rw [Function.iterate_succ_apply', ih fun i hi => h i (hi.trans (Nat.lt_succ_self n)), shift,
        hlow, if_neg Bool.false_ne_true, BitVec.xor_zero, BitVec.shiftRight_add]

variable {poly}

/-- The top bit of the polynomial shows which bit fell out. -/
theorem shift_injective (hpoly : poly.getLsbD (w - 1) = true) :
    Function.Injective (shift poly) := by
  have htop : ∀ x : BitVec w, (shift poly x).getLsbD (w - 1) = x.getLsbD 0 := by
    intro x
    have hout : (x >>> 1).getLsbD (w - 1) = false := by
      rw [BitVec.getLsbD_ushiftRight]
      exact BitVec.getLsbD_of_ge _ _ (by omega)
    rw [shift, BitVec.getLsbD_xor, hout, Bool.false_xor]
    cases x.getLsbD 0 <;> simp [hpoly]
  intro x y h
  have hlow : x.getLsbD 0 = y.getLsbD 0 := by rw [← htop x, ← htop y, h]
  have hrest : x >>> 1 = y >>> 1 := by
    unfold shift at h
    rw [hlow] at h
    exact (BitVec.xor_left_inj _).mp h
  apply BitVec.eq_of_getLsbD_eq
  intro i hi
  cases i with
  | zero => exact hlow
  | succ i =>
      have hbit := congrArg (BitVec.getLsbD · i) hrest
      simpa only [BitVec.getLsbD_ushiftRight, Nat.add_comm 1 i] using hbit

theorem shifts_injective (hpoly : poly.getLsbD (w - 1) = true) (n : ℕ) :
    Function.Injective (shift poly)^[n] := (shift_injective hpoly).iterate n

end Linear

section Below

variable {k m : ℕ} {x y : BitVec w}

theorem Below.mono (h : Below k x) (hkm : k ≤ m) : Below m x := fun i hi => h i (hkm.trans hi)

theorem Below.word_cons {digits : List (BitVec w)} (hx : Below k x)
    (h : Below (k * digits.length) (word k digits)) :
    Below (k * (x :: digits).length) (word k (x :: digits)) := by
  intro i hi
  rw [List.length_cons, Nat.mul_succ] at hi
  rw [word, BitVec.getLsbD_xor, hx i (by omega), BitVec.getLsbD_shiftLeft, h (i - k) (by omega)]
  simp

theorem below_word {digits : List (BitVec w)} (h : ∀ digit ∈ digits, Below k digit) :
    Below (k * digits.length) (word k digits) := by
  induction digits with
  | nil => exact fun i _ => BitVec.getLsbD_zero
  | cons digit digits ih =>
      obtain ⟨hdigit, hdigits⟩ := List.forall_mem_cons.mp h
      exact hdigit.word_cons (ih hdigits)

/-- What is moved up inside the register can be moved down again. -/
theorem shiftLeft_shiftRight (h : Below (w - k) x) : (x <<< k) >>> k = x := by
  apply BitVec.eq_of_getLsbD_eq
  intro i hi
  rw [BitVec.getLsbD_ushiftRight, BitVec.getLsbD_shiftLeft]
  by_cases hfits : k + i < w
  · simp [hfits]
  · simp [hfits, h i (by omega)]

theorem shifts_shiftLeft (poly : BitVec w) (h : Below (w - k) x) :
    (shift poly)^[k] (x <<< k) = x := by
  rw [shifts_of_clear, shiftLeft_shiftRight h]
  intro i hi
  simp [BitVec.getLsbD_shiftLeft, hi]

end Below

section Digits

variable {k : ℕ} {poly : BitVec w}

/-- Digits that fit the register side by side leave what feeding them all at once leaves. -/
theorem foldl_feed (poly : BitVec w) {digits : List (BitVec w)}
    (hdigits : ∀ digit ∈ digits, Below k digit) (hfits : k * digits.length ≤ w) (x : BitVec w) :
    digits.foldl (feed poly k) x = (shift poly)^[k * digits.length] (x ^^^ word k digits) := by
  induction digits generalizing x with
  | nil => simp [word]
  | cons digit digits ih =>
      obtain ⟨hdigit, hdigits⟩ := List.forall_mem_cons.mp hdigits
      rw [List.length_cons, Nat.mul_succ] at hfits ⊢
      have hword : Below (w - k) (word k digits) := (below_word hdigits).mono (by omega)
      rw [List.foldl_cons, ih hdigits (by omega), Function.iterate_add_apply, word,
        ← BitVec.xor_assoc, shifts_xor poly k, shifts_shiftLeft poly hword, feed]

theorem word_cons_inj {x y u v : BitVec w} (hx : Below k x) (hy : Below k y)
    (hu : Below (w - k) u) (hv : Below (w - k) v)
    (h : x ^^^ (u <<< k) = y ^^^ (v <<< k)) : x = y ∧ u = v := by
  have hxy : x = y := by
    apply BitVec.eq_of_getLsbD_eq
    intro i _
    by_cases hi : i < k
    · have hbit := congrArg (BitVec.getLsbD · i) h
      simpa [BitVec.getLsbD_shiftLeft, hi] using hbit
    · rw [hx i (not_lt.mp hi), hy i (not_lt.mp hi)]
  subst hxy
  refine ⟨rfl, ?_⟩
  rw [← shiftLeft_shiftRight hu, ← shiftLeft_shiftRight hv, (BitVec.xor_right_inj x).mp h]

theorem word_injective {digits others : List (BitVec w)}
    (hdigits : ∀ digit ∈ digits, Below k digit) (hothers : ∀ digit ∈ others, Below k digit)
    (hlength : digits.length = others.length) (hfits : k * digits.length ≤ w)
    (h : word k digits = word k others) : digits = others := by
  induction digits generalizing others with
  | nil => exact (List.length_eq_zero_iff.mp hlength.symm).symm
  | cons digit digits ih =>
      obtain - | ⟨other, others⟩ := others
      · cases hlength
      rw [List.forall_mem_cons] at hdigits hothers
      rw [List.length_cons, Nat.mul_succ] at hfits
      have hlengths : digits.length = others.length := Nat.succ.inj hlength
      obtain ⟨hfirst, hwords⟩ := word_cons_inj hdigits.1 hothers.1
        ((below_word hdigits.2).mono (by omega))
        ((below_word hothers.2).mono (by rw [← hlengths]; omega)) h
      rw [hfirst, ih hdigits.2 hothers.2 hlengths (by omega) hwords]

theorem foldl_feed_injective (hpoly : poly.getLsbD (w - 1) = true) (digits : List (BitVec w)) :
    Function.Injective fun x => digits.foldl (feed poly k) x := by
  induction digits with
  | nil => exact fun _ _ h => h
  | cons digit digits ih =>
      intro x y h
      exact (BitVec.xor_left_inj _).mp (shifts_injective hpoly k (ih h))

/-- Two strings that differ only in a window no wider than the register leave different
registers, whatever stands before and after the window. -/
theorem eq_of_foldl_feed_eq (hpoly : poly.getLsbD (w - 1) = true)
    {before window other after : List (BitVec w)}
    (hwindow : ∀ digit ∈ window, Below k digit) (hother : ∀ digit ∈ other, Below k digit)
    (hlength : window.length = other.length) (hfits : k * window.length ≤ w) {x : BitVec w}
    (h : (before ++ window ++ after).foldl (feed poly k) x =
      (before ++ other ++ after).foldl (feed poly k) x) : window = other := by
  simp only [List.foldl_append] at h
  have hmid := foldl_feed_injective hpoly after h
  rw [foldl_feed poly hwindow hfits, foldl_feed poly hother (hlength ▸ hfits), ← hlength] at hmid
  exact word_injective hwindow hother hlength hfits
    ((BitVec.xor_right_inj _).mp (shifts_injective hpoly _ hmid))

end Digits

end ShiftRegisters
