import CostGovernor.Executions
import Mathlib.Data.List.Basic
import Mathlib.Tactic

/-!
# Writing and reading byte streams

A write is the bytes it appends or an error. A reader takes bytes off the front
of a stream or fails. `Recovers` relates the two: on the bytes of a write,
followed by anything, the reader returns the written value when the limits it
checks are met and fails with a recognised error when they are not.
-/

namespace ByteStreams

open Executions

variable {ε α β : Type}

abbrev Bytes := List UInt8

/-- Several writes in a row; the first error ends them. -/
def writeAll : List (Except ε Bytes) → Except ε Bytes
  | [] => .ok []
  | w :: ws => do
    let first ← w
    let rest ← writeAll ws
    return first ++ rest

theorem writeAll_cons_eq_ok {w : Except ε Bytes} {ws : List (Except ε Bytes)} {bytes : Bytes} :
    writeAll (w :: ws) = .ok bytes ↔
      ∃ first rest, w = .ok first ∧ writeAll ws = .ok rest ∧ bytes = first ++ rest := by
  rw [writeAll, bind_eq_ok_iff]
  simp only [bind_eq_ok_iff, pure, Except.pure, Except.ok.injEq]
  constructor
  · rintro ⟨first, hw, rest, hws, rfl⟩
    exact ⟨first, rest, hw, hws, rfl⟩
  · rintro ⟨first, rest, hw, hws, rfl⟩
    exact ⟨first, hw, rest, hws, rfl⟩

theorem writeAll_cons_ok {w : Except ε Bytes} {ws : List (Except ε Bytes)} {first rest : Bytes}
    (hw : w = .ok first) (hws : writeAll ws = .ok rest) :
    writeAll (w :: ws) = .ok (first ++ rest) :=
  writeAll_cons_eq_ok.2 ⟨first, rest, hw, hws, rfl⟩

/-- Writes that cannot fail are just put one after the other. -/
theorem writeAll_map_ok (written : List Bytes) :
    writeAll (written.map Except.ok) = (.ok written.flatten : Except ε Bytes) := by
  induction written with
  | nil => rfl
  | cons first rest ih =>
      rw [List.map_cons, List.flatten_cons, writeAll_cons_eq_ok]
      exact ⟨first, rest.flatten, rfl, ih, rfl⟩

def Succeeds (w : Except ε Bytes) : Prop := ∃ bytes, w = .ok bytes

@[simp] theorem succeeds_ok (bytes : Bytes) : Succeeds (.ok bytes : Except ε Bytes) := ⟨bytes, rfl⟩

@[simp] theorem succeeds_writeAll_iff (ws : List (Except ε Bytes)) :
    Succeeds (writeAll ws) ↔ ∀ w ∈ ws, Succeeds w := by
  induction ws with
  | nil => simp [writeAll]
  | cons w ws ih =>
      rw [List.forall_mem_cons, ← ih]
      simp only [Succeeds, writeAll_cons_eq_ok]
      constructor
      · rintro ⟨_, first, rest, hw, hws, _⟩
        exact ⟨⟨first, hw⟩, ⟨rest, hws⟩⟩
      · rintro ⟨⟨first, hw⟩, ⟨rest, hws⟩⟩
        exact ⟨_, first, rest, hw, hws, rfl⟩

def SameLength (w w' : Except ε Bytes) : Prop :=
  ∀ bytes bytes', w = .ok bytes → w' = .ok bytes' → bytes.length = bytes'.length

theorem sameLength_refl (w : Except ε Bytes) : SameLength w w := by
  intro bytes bytes' hw hw'
  rw [Except.ok.inj (hw.symm.trans hw')]

theorem sameLength_writeAll {ws ws' : List (Except ε Bytes)}
    (h : List.Forall₂ SameLength ws ws') : SameLength (writeAll ws) (writeAll ws') := by
  induction h with
  | nil => exact sameLength_refl _
  | cons hw _ ih =>
      intro bytes bytes' hbytes hbytes'
      obtain ⟨first, rest, hfirst, hrest, rfl⟩ := writeAll_cons_eq_ok.1 hbytes
      obtain ⟨first', rest', hfirst', hrest', rfl⟩ := writeAll_cons_eq_ok.1 hbytes'
      rw [List.length_append, List.length_append, hw first first' hfirst hfirst',
        ih rest rest' hrest hrest']

/-- A word of `width` bytes, the least significant byte first. -/
def wordBytes : ℕ → ℕ → Bytes
  | 0, _ => []
  | width + 1, v => UInt8.ofNat v :: wordBytes width (v / 256)

def wordValue : Bytes → ℕ
  | [] => 0
  | b :: bs => b.toNat + 256 * wordValue bs

@[simp] theorem length_wordBytes (width v : ℕ) : (wordBytes width v).length = width := by
  induction width generalizing v with
  | zero => rfl
  | succ width ih => rw [wordBytes, List.length_cons, ih]

@[simp] theorem wordValue_wordBytes (width v : ℕ) :
    wordValue (wordBytes width v) = v % 256 ^ width := by
  induction width generalizing v with
  | zero => rw [wordBytes, wordValue, pow_zero, Nat.mod_one]
  | succ width ih =>
      rw [wordBytes, wordValue, ih, pow_succ', Nat.mod_mul]
      simp

/-- Every string of bytes is the word of its value. -/
theorem wordBytes_wordValue (bytes : Bytes) : wordBytes bytes.length (wordValue bytes) = bytes := by
  induction bytes with
  | nil => rfl
  | cons b bs ih =>
      have hb := b.toNat_lt
      have hhead : UInt8.ofNat (b.toNat + 256 * wordValue bs) = b := by
        apply UInt8.toNat_inj.1
        rw [UInt8.toNat_ofNat']
        omega
      rw [List.length_cons, wordBytes, wordValue, hhead,
        show (b.toNat + 256 * wordValue bs) / 256 = wordValue bs by omega, ih]

theorem wordBytes_mod (width v : ℕ) : wordBytes width (v % 256 ^ width) = wordBytes width v := by
  have h := wordBytes_wordValue (wordBytes width v)
  rwa [wordValue_wordBytes, length_wordBytes] at h

/-- Values that fit the width are told apart by their bytes. -/
theorem wordBytes_inj {width u v : ℕ} (hu : u < 256 ^ width) (hv : v < 256 ^ width)
    (h : wordBytes width u = wordBytes width v) : u = v := by
  have hvalue := congrArg wordValue h
  rwa [wordValue_wordBytes, wordValue_wordBytes, Nat.mod_eq_of_lt hu, Nat.mod_eq_of_lt hv] at hvalue

theorem wordValue_lt (bytes : Bytes) : wordValue bytes < 256 ^ bytes.length := by
  induction bytes with
  | nil => exact Nat.one_pos
  | cons b bs ih =>
      have hb := b.toNat_lt
      rw [wordValue, List.length_cons, pow_succ]
      omega

abbrev Reader (ε α : Type) := StateT Bytes (Except ε) α

theorem reader_bind_apply (r : Reader ε α) (f : α → Reader ε β) (bytes : Bytes) :
    (r >>= f) bytes = r bytes >>= fun x => f x.1 x.2 := rfl

theorem reader_bind_of_ok {r : Reader ε α} {f : α → Reader ε β} {bytes rest : Bytes} {a : α}
    (h : r bytes = .ok (a, rest)) : (r >>= f) bytes = f a rest := by
  rw [reader_bind_apply, h]
  rfl

def takeBytes (short : ε) (k : ℕ) : Reader ε Bytes := fun bytes =>
  if bytes.length < k then .error short else .ok (bytes.take k, bytes.drop k)

def readWord (short : ε) (width : ℕ) : Reader ε ℕ := do
  let bytes ← takeBytes short width
  return wordValue bytes

def readMany (r : Reader ε α) : ℕ → Reader ε (List α)
  | 0 => pure []
  | n + 1 => do
    let a ← r
    let as ← readMany r n
    return a :: as

section Recovers

variable (known : ε → Prop)

/-- On the bytes of `w` the reader returns `a` and stops at their end when `P`
holds. Otherwise it fails with one of the known errors. -/
def Recovers (w : Except ε Bytes) (r : Reader ε α) (a : α) (P : Prop) : Prop :=
  ∀ bytes, w = .ok bytes → ∀ rest,
    (P → r (bytes ++ rest) = .ok (a, rest)) ∧
      (¬ P → ∃ e, known e ∧ r (bytes ++ rest) = .error e)

variable {known} {w : Except ε Bytes} {ws : List (Except ε Bytes)} {r : Reader ε α} {a : α}
  {P Q : Prop}

theorem Recovers.congr (h : Recovers known w r a P) (hPQ : P ↔ Q) : Recovers known w r a Q :=
  propext hPQ ▸ h

/-- A read that cannot fail on what was written. -/
theorem recovers_of_forall (h : ∀ bytes, w = .ok bytes → ∀ rest, r (bytes ++ rest) = .ok (a, rest)) :
    Recovers known w r a True :=
  fun bytes hw rest => ⟨fun _ => h bytes hw rest, fun hno => absurd trivial hno⟩

theorem recovers_pure (a : α) : Recovers known (writeAll []) (pure a : Reader ε α) a True := by
  refine recovers_of_forall ?_
  intro bytes hbytes rest
  rw [← Except.ok.inj hbytes]
  rfl

/-- The reads of a record follow its writes field by field. -/
theorem Recovers.bind {f : α → Reader ε β} {b : β} (h : Recovers known w r a P)
    (hrest : Recovers known (writeAll ws) (f a) b Q) :
    Recovers known (writeAll (w :: ws)) (r >>= f) b (P ∧ Q) := by
  intro bytes hbytes rest
  obtain ⟨first, others, hw, hws, rfl⟩ := writeAll_cons_eq_ok.1 hbytes
  obtain ⟨hok, herr⟩ := h first hw (others ++ rest)
  obtain ⟨hok', herr'⟩ := hrest others hws rest
  rw [List.append_assoc, reader_bind_apply]
  by_cases hP : P
  · rw [hok hP]
    exact ⟨fun hPQ => hok' hPQ.2, fun hno => herr' (fun hQ => hno ⟨hP, hQ⟩)⟩
  · obtain ⟨e, he, hfail⟩ := herr hP
    rw [hfail]
    exact ⟨fun hPQ => absurd hPQ.1 hP, fun _ => ⟨e, he, rfl⟩⟩

theorem Recovers.last (h : Recovers known w r a P) : Recovers known (writeAll [w]) r a P := by
  intro bytes hbytes
  obtain ⟨first, others, hw, hws, rfl⟩ := writeAll_cons_eq_ok.1 hbytes
  rw [← Except.ok.inj hws, List.append_nil]
  exact h first hw

theorem Recovers.map (f : α → β) (h : Recovers known w r a P) :
    Recovers known w (f <$> r) (f a) P := by
  intro bytes hbytes rest
  have hmap : (f <$> r) (bytes ++ rest) = r (bytes ++ rest) >>= fun x => .ok (f x.1, x.2) := rfl
  obtain ⟨hok, herr⟩ := h bytes hbytes rest
  rw [hmap]
  constructor
  · intro hP
    rw [hok hP]
    rfl
  · intro hP
    obtain ⟨e, he, hfail⟩ := herr hP
    exact ⟨e, he, by rw [hfail]; rfl⟩

/-- A limit tested before the rest is read. -/
theorem Recovers.guarded {c : Prop} [Decidable c] {e : ε} (he : known e)
    (h : Recovers known w r a Q) :
    Recovers known w (if c then throw e else r) a (¬ c ∧ Q) := by
  intro bytes hbytes rest
  by_cases hc : c
  · rw [if_pos hc]
    exact ⟨fun hno => absurd hc hno.1, fun _ => ⟨e, he, rfl⟩⟩
  · rw [if_neg hc]
    obtain ⟨hok, herr⟩ := h bytes hbytes rest
    exact ⟨fun hQ => hok hQ.2, fun hno => herr (fun hQ => hno ⟨hc, hQ⟩)⟩

theorem recovers_takeBytes (short : ε) (bytes : Bytes) :
    Recovers known (.ok bytes) (takeBytes short bytes.length) bytes True := by
  refine recovers_of_forall ?_
  intro written hwritten rest
  rw [← Except.ok.inj hwritten, takeBytes, if_neg (by simp)]
  simp

theorem recovers_word (short : ε) {width v : ℕ} (hv : v < 256 ^ width) :
    Recovers known (.ok (wordBytes width v)) (readWord short width) v True := by
  have h : Recovers known (.ok (wordBytes width v))
      (wordValue <$> takeBytes short (wordBytes width v).length)
      (wordValue (wordBytes width v)) True := (recovers_takeBytes short _).map wordValue
  rw [length_wordBytes, wordValue_wordBytes, Nat.mod_eq_of_lt hv] at h
  exact h

/-- A list is recovered when each of its elements is, here up to a function. -/
theorem recovers_many_map {β : Type} {r : Reader ε β} {f : α → β} {write : α → Except ε Bytes}
    {p : α → Prop} (h : ∀ a, Recovers known (write a) r (f a) (p a)) (as : List α) :
    Recovers known (writeAll (as.map write)) (readMany r as.length) (as.map f) (∀ a ∈ as, p a) := by
  induction as with
  | nil => exact (recovers_pure []).congr (by simp)
  | cons a as ih =>
      have hrest : Recovers known (writeAll (as.map write))
          (readMany r as.length >>= fun bs => pure (f a :: bs)) (f a :: as.map f) (∀ a ∈ as, p a) :=
        ih.map (f a :: ·)
      exact ((h a).bind hrest).congr List.forall_mem_cons.symm

theorem recovers_many {write : α → Except ε Bytes} {p : α → Prop}
    (h : ∀ a, Recovers known (write a) r a (p a)) (as : List α) :
    Recovers known (writeAll (as.map write)) (readMany r as.length) as (∀ a ∈ as, p a) := by
  have hmap := recovers_many_map (f := id) h as
  rwa [List.map_id] at hmap

end Recovers

end ByteStreams
