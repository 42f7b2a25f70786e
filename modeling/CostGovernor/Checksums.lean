import CostGovernor.Codec
import CostGovernor.ShiftRegisters

/-!
# The checksum as a shift register

Snapshots and frames carry the same 32-bit checksum. Its step is a shift register over the
reversed polynomial, so it tells apart any two byte strings of one length that differ only
inside four consecutive bytes.
-/

namespace CostGovernor

open ShiftRegisters

namespace SnapshotCodec

def polynomial : BitVec 32 := 0xEDB88320#32

def digit (byte : UInt8) : BitVec 32 := byte.toUInt32.toBitVec

theorem toBitVec_crcBit (crc : UInt32) : (crcBit crc).toBitVec = shift polynomial crc.toBitVec := by
  have hlow : crc.toBitVec &&& 1#32 = if crc.toBitVec.getLsbD 0 then 1#32 else 0#32 := by
    rw [BitVec.and_one_eq_setWidth_ofBool_getLsbD]
    cases crc.toBitVec.getLsbD 0 <;> rfl
  have hmask : (0xEDB88320 &&& ~~~((crc &&& 1) - 1) : UInt32).toBitVec =
      if crc.toBitVec.getLsbD 0 then polynomial else 0#32 := by
    change 0xEDB88320#32 &&& ~~~((crc.toBitVec &&& 1#32) - 1#32) = _
    rw [hlow]
    cases crc.toBitVec.getLsbD 0 <;> decide
  rw [crcBit, UInt32.toBitVec_xor, hmask]
  rfl

theorem toBitVec_crcBits (n : ℕ) (crc : UInt32) :
    (crcBit^[n] crc).toBitVec = (shift polynomial)^[n] crc.toBitVec :=
  (Function.Semiconj.iterate_right toBitVec_crcBit n).eq crc

theorem toBitVec_foldl_crcByte (data : ByteString) (crc : UInt32) :
    (data.foldl crcByte crc).toBitVec =
      (data.map digit).foldl (feed polynomial 8) crc.toBitVec := by
  rw [List.foldl_map]
  refine (List.foldl_hom UInt32.toBitVec ?_).symm
  intro crc byte
  exact (toBitVec_crcBits 8 _).symm

theorem below_digit (byte : UInt8) : Below 8 (digit byte) := by
  intro i hi
  simp [digit, hi]

theorem digit_injective : Function.Injective digit := by
  intro a b h
  have hwide : a.toUInt32 = b.toUInt32 := UInt32.toBitVec_inj.mp h
  exact UInt8.toUInt32_inj.mp hwide

end SnapshotCodec

section Agreement

variable {α : Type}

def AgreesOutside (start width : ℕ) (a b : List α) : Prop :=
  a.length = b.length ∧ ∀ i, i < start ∨ start + width ≤ i → a[i]? = b[i]?

variable {start width n : ℕ} {a b : List α}

theorem AgreesOutside.take_eq (h : AgreesOutside start width a b) (hn : n ≤ start) :
    a.take n = b.take n := by
  apply List.ext_getElem?
  intro i
  rw [List.getElem?_take, List.getElem?_take]
  split_ifs with hi
  · exact h.2 i (.inl (hi.trans_le hn))
  · rfl

theorem AgreesOutside.drop_eq (h : AgreesOutside start width a b) (hn : start + width ≤ n) :
    a.drop n = b.drop n := by
  apply List.ext_getElem?
  intro i
  rw [List.getElem?_drop, List.getElem?_drop]
  exact h.2 (n + i) (.inr (hn.trans (Nat.le_add_right n i)))

theorem AgreesOutside.drop (h : AgreesOutside start width a b) (hn : n ≤ start) :
    AgreesOutside (start - n) width (a.drop n) (b.drop n) := by
  refine ⟨by rw [List.length_drop, List.length_drop, h.1], ?_⟩
  intro i hi
  rw [List.getElem?_drop, List.getElem?_drop]
  exact h.2 (n + i) (by omega)

/-- A field that the window does not meet. -/
theorem AgreesOutside.field_eq (h : AgreesOutside start width a b) (offset size : ℕ)
    (hapart : offset + size ≤ start ∨ start + width ≤ offset) :
    (a.drop offset).take size = (b.drop offset).take size := by
  apply List.ext_getElem?
  intro i
  rw [List.getElem?_take, List.getElem?_take, List.getElem?_drop, List.getElem?_drop]
  split_ifs with hi
  · exact h.2 (offset + i) (by omega)
  · rfl

theorem agreesOutside_set (a : List α) (i : ℕ) (v : α) : AgreesOutside i 1 a (a.set i v) := by
  refine ⟨List.length_set.symm, ?_⟩
  intro j hj
  rw [List.getElem?_set_ne (by omega)]

/-- What stands before the window, in it and after it. -/
theorem window_split (start width : ℕ) (a : List α) :
    a = a.take start ++ (a.drop start).take width ++ a.drop (start + width) := by
  rw [List.append_assoc, ← List.drop_drop, List.take_append_drop, List.take_append_drop]

end Agreement

namespace SnapshotCodec

/-- The checksum tells apart what differs only inside four consecutive bytes. -/
theorem eq_of_crc32_eq {start width : ℕ} {a b : ByteString} (h : AgreesOutside start width a b)
    (hwidth : width ≤ 4) (hcrc : crc32 a = crc32 b) : a = b := by
  have hregister : (a.map digit).foldl (feed polynomial 8) 0xFFFFFFFF#32 =
      (b.map digit).foldl (feed polynomial 8) 0xFFFFFFFF#32 := by
    have hfold := UInt32.not_inj.mp hcrc
    have hbits := congrArg UInt32.toBitVec hfold
    rwa [toBitVec_foldl_crcByte, toBitVec_foldl_crcByte] at hbits
  have hdigits : ∀ bytes : ByteString, ∀ x ∈ bytes.map digit, Below 8 x := by
    intro bytes x hx
    obtain ⟨byte, -, rfl⟩ := List.mem_map.mp hx
    exact below_digit byte
  have hlength : ((a.drop start).take width).length = ((b.drop start).take width).length := by
    simp only [List.length_take, List.length_drop, h.1]
  rw [window_split start width a, window_split start width b, h.take_eq le_rfl,
    h.drop_eq le_rfl] at hregister ⊢
  simp only [List.map_append] at hregister
  have hwindow := eq_of_foldl_feed_eq (by decide) (hdigits _) (hdigits _)
    (by rw [List.length_map, List.length_map, hlength])
    (by rw [List.length_map, List.length_take]; omega) hregister
  rw [List.map_injective_iff.mpr digit_injective hwindow]

end SnapshotCodec

end CostGovernor
