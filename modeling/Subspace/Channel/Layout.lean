import Subspace.Channel.Defs
import Mathlib.Order.Bounds.Basic
import Mathlib.Order.Interval.Finset.Nat
set_option autoImplicit false

/-!
# Channel: the buffer region layout (`Aligned`, `GetBufferAddress`, `Prefix`)

The buffer region of a channel holds `num_slots` equal slots, each a 32-byte
`MessagePrefix` followed by a payload area of `Aligned<32>(slot_size_)` bytes.
The address arithmetic is transcribed in the C++ types: `Aligned` works on
`int64_t`; `sizeof(MessagePrefix) + Aligned<32>(...)` is `size_t`; the `int`
slot id is converted to `size_t`; the sum is added to the `char *` base.  All of
these are 64-bit words, so they are `BitVec 64` here and every `+` and `*` wraps.

The main result, `buffer_layout`, shows that for every slot size and slot count
an `int` can hold none of it wraps: `Aligned<32>` rounds up to the least multiple
of 32, the two `GetBufferAddress` overloads agree, the payload follows the
prefix, and the byte ranges of two slots are disjoint and inside the region.
-/

namespace Subspace

/-- `sizeof(MessagePrefix)`: two 32-bit and three 64-bit fields, no padding. -/
def sizeofMessagePrefix : Nat := 32

/-- `INT_MAX`, the largest `slot_size`, `num_slots` or slot id. -/
def intMax : Int := 2 ^ 31 - 1

/-- `Aligned<alignment>(v)`: `(v + (alignment - 1)) & ~(alignment - 1)` on
`int64_t`. -/
def aligned (alignment : Int) (v : BitVec 64) : BitVec 64 :=
  (v + BitVec.ofInt 64 (alignment - 1)) &&& ~~~BitVec.ofInt 64 (alignment - 1)

namespace Channel

/-- `(sizeof(MessagePrefix) + Aligned<32>(slot_size_))`, the stride of one slot,
the subexpression shared by `GetBufferAddress` and `Prefix`. -/
def slotStride (ch : Channel) : BitVec 64 :=
  BitVec.ofNat 64 sizeofMessagePrefix + aligned 32 (BitVec.ofInt 64 ch.slotSize)

/-- `Channel::GetBufferAddress(int slot_id)`. -/
def getBufferAddress (ch : Channel) (slotId : Int) : BitVec 64 :=
  ch.buffers + ch.slotStride * BitVec.ofInt 64 slotId + BitVec.ofNat 64 sizeofMessagePrefix

/-- `Channel::GetBufferAddress(MessageSlot *slot)`. -/
def getBufferAddressOfSlot (ch : Channel) (slot : MessageSlot) : BitVec 64 :=
  ch.buffers + ch.slotStride * BitVec.ofInt 64 slot.id + BitVec.ofNat 64 sizeofMessagePrefix

/-- `Channel::Prefix(MessageSlot *slot)`. -/
def prefixOf (ch : Channel) (slot : MessageSlot) : BitVec 64 :=
  ch.buffers + ch.slotStride * BitVec.ofInt 64 slot.id

/-- The bytes `[Prefix(slot), GetBufferAddress(slot->id) + slot_size_)` of a
slot, as offsets from `buffers_`. -/
def slotBytes (ch : Channel) (slot : MessageSlot) : Finset Nat :=
  Finset.Ico (ch.prefixOf slot - ch.buffers).toNat
    ((ch.getBufferAddress slot.id - ch.buffers).toNat + ch.slotSize.toNat)

end Channel

/-! ## `Aligned<32>` on the words it can receive -/

/-- The least multiple of 32 at or above `v`. -/
def alignUp (v : Nat) : Nat := (v + 31) / 32 * 32

theorem alignUp_isLeast (v : Nat) :
    IsLeast {m : Int | 32 ∣ m ∧ (v : Int) ≤ m} (alignUp v : Int) := by
  refine ⟨⟨⟨(v + 31) / 32, by simp only [alignUp]; omega⟩, by simp only [alignUp]; omega⟩, ?_⟩
  rintro m ⟨⟨k, rfl⟩, hk⟩
  simp only [alignUp]
  omega

theorem alignUp_le (v : Nat) : alignUp v ≤ v + 31 := by
  simp only [alignUp]; omega

/-- Clearing the bits of a mask and keeping them split a word into two parts
that add up to it. -/
theorem and_not_add_and (x m : BitVec 64) :
    (x &&& ~~~m).toNat + (x &&& m).toNat = x.toNat := by
  have hdisj : (x &&& ~~~m) &&& (x &&& m) = 0#64 := by
    ext i
    simp only [BitVec.getLsbD_and, BitVec.getLsbD_not, BitVec.getLsbD_zero]
    cases x.getLsbD i <;> cases m.getLsbD i <;> simp
  have hjoin : (x &&& ~~~m) ||| (x &&& m) = x := by
    ext i
    simp only [BitVec.getLsbD_and, BitVec.getLsbD_not, BitVec.getLsbD_or]
    cases x.getLsbD i <;> cases m.getLsbD i <;> simp_all
  rw [← BitVec.toNat_add_of_and_eq_zero hdisj, BitVec.add_eq_or_of_and_eq_zero _ _ hdisj,
    hjoin]

/-- `Aligned<32>` of a word that does not wrap when 31 is added rounds it up. -/
theorem aligned_toNat {v : Nat} (hv : v + 31 < 2 ^ 64) :
    (aligned 32 (BitVec.ofNat 64 v)).toNat = alignUp v := by
  have hmask : BitVec.ofInt 64 (32 - 1) = BitVec.ofNat 64 (2 ^ 5 - 1) := rfl
  have hy : (BitVec.ofNat 64 v + BitVec.ofNat 64 (2 ^ 5 - 1)).toNat = v + 31 := by
    simp only [BitVec.toNat_add, BitVec.toNat_ofNat]; omega
  have hlow : ((BitVec.ofNat 64 v + BitVec.ofNat 64 (2 ^ 5 - 1)) &&&
      BitVec.ofNat 64 (2 ^ 5 - 1)).toNat = (v + 31) % 32 := by
    rw [BitVec.toNat_and, hy, BitVec.toNat_ofNat, Nat.mod_eq_of_lt (by omega),
      Nat.and_pow_two_sub_one_eq_mod]
  have hsplit := and_not_add_and (BitVec.ofNat 64 v + BitVec.ofNat 64 (2 ^ 5 - 1))
    (BitVec.ofNat 64 (2 ^ 5 - 1))
  rw [hlow, hy] at hsplit
  simp only [aligned, alignUp, hmask]
  omega

/-- An `int` slot size in `[0, INT_MAX]`, widened to `int64_t`, is its value. -/
theorem ofInt_slotSize {s : Int} (h0 : 0 ≤ s) :
    BitVec.ofInt 64 s = BitVec.ofNat 64 s.toNat := by
  rw [← BitVec.ofInt_natCast, Int.toNat_of_nonneg h0]

/-! ## Slot offsets -/

section Offsets

variable {ch : Channel}

theorem slotStride_toNat (hs : 0 ≤ ch.slotSize ∧ ch.slotSize ≤ intMax) :
    ch.slotStride.toNat = sizeofMessagePrefix + alignUp ch.slotSize.toNat := by
  have hs' : ch.slotSize.toNat + 31 < 2 ^ 64 := by simp only [intMax] at hs; omega
  have ha := aligned_toNat hs'
  have hb := alignUp_le ch.slotSize.toNat
  simp only [Channel.slotStride, ofInt_slotSize hs.1, BitVec.toNat_add, ha,
    BitVec.toNat_ofNat, sizeofMessagePrefix]
  simp only [intMax] at hs
  omega

/-- An `int` slot id times the stride of an `int` slot size stays below
`2 ^ 63`. -/
theorem stride_mul_lt (hs : 0 ≤ ch.slotSize ∧ ch.slotSize ≤ intMax) {i : Nat}
    (hi : (i : Int) ≤ intMax) :
    i * (sizeofMessagePrefix + alignUp ch.slotSize.toNat) < 2 ^ 63 := by
  have hb := alignUp_le ch.slotSize.toNat
  simp only [intMax] at hs hi
  have hstride : sizeofMessagePrefix + alignUp ch.slotSize.toNat ≤ 2 ^ 32 := by
    simp only [sizeofMessagePrefix]; omega
  calc i * (sizeofMessagePrefix + alignUp ch.slotSize.toNat)
      ≤ i * 2 ^ 32 := Nat.mul_le_mul_left _ hstride
    _ < 2 ^ 31 * 2 ^ 32 := Nat.mul_lt_mul_of_pos_right (by omega) (Nat.two_pow_pos _)
    _ = 2 ^ 63 := by rw [← Nat.pow_add]

/-- `stride * slot_id` in `size_t` is the exact product. -/
theorem slotStride_mul_toNat (hs : 0 ≤ ch.slotSize ∧ ch.slotSize ≤ intMax) {i : Nat}
    (hi : (i : Int) ≤ intMax) :
    (ch.slotStride * BitVec.ofInt 64 i).toNat =
      i * (sizeofMessagePrefix + alignUp ch.slotSize.toNat) := by
  have hlt := stride_mul_lt hs hi
  simp only [intMax] at hi
  rw [BitVec.ofInt_natCast, BitVec.toNat_mul, slotStride_toNat hs, BitVec.toNat_ofNat,
    Nat.mod_eq_of_lt (by omega : i < 2 ^ 64), Nat.mul_comm]
  omega

theorem prefixOf_sub_buffers (hs : 0 ≤ ch.slotSize ∧ ch.slotSize ≤ intMax)
    {slot : MessageSlot} {i : Nat} (hid : slot.id = i) (hi : (i : Int) ≤ intMax) :
    (ch.prefixOf slot - ch.buffers).toNat =
      i * (sizeofMessagePrefix + alignUp ch.slotSize.toNat) := by
  rw [Channel.prefixOf, hid, add_sub_cancel_left, slotStride_mul_toNat hs hi]

theorem getBufferAddress_sub_buffers (hs : 0 ≤ ch.slotSize ∧ ch.slotSize ≤ intMax)
    {i : Nat} (hi : (i : Int) ≤ intMax) :
    (ch.getBufferAddress i - ch.buffers).toNat =
      i * (sizeofMessagePrefix + alignUp ch.slotSize.toNat) + sizeofMessagePrefix := by
  have hmul := slotStride_mul_toNat hs hi
  have hlt := stride_mul_lt hs hi
  rw [Channel.getBufferAddress, add_assoc, add_sub_cancel_left, BitVec.toNat_add, hmul,
    BitVec.toNat_ofNat]
  simp only [sizeofMessagePrefix] at hlt ⊢
  omega

/-- A slot's bytes, for an `int` slot id, are the prefix and the first
`slot_size_` bytes of its payload area. -/
theorem slotBytes_eq (hs : 0 ≤ ch.slotSize ∧ ch.slotSize ≤ intMax)
    {slot : MessageSlot} {i : Nat} (hid : slot.id = i) (hi : (i : Int) ≤ intMax) :
    ch.slotBytes slot =
      Finset.Ico (i * (sizeofMessagePrefix + alignUp ch.slotSize.toNat))
        (i * (sizeofMessagePrefix + alignUp ch.slotSize.toNat) + sizeofMessagePrefix +
          ch.slotSize.toNat) := by
  rw [Channel.slotBytes, prefixOf_sub_buffers hs hid hi, hid,
    getBufferAddress_sub_buffers hs hi]

/-- The bytes of slot `i` end no later than where any later slot `j` starts. -/
theorem slotBytes_end_le {s i j : Nat} (h : i < j) :
    i * (sizeofMessagePrefix + alignUp s) + sizeofMessagePrefix + s ≤
      j * (sizeofMessagePrefix + alignUp s) := by
  have hs := (alignUp_isLeast s).1.2
  have hj := Nat.mul_le_mul_right (sizeofMessagePrefix + alignUp s) (Nat.succ_le_of_lt h)
  rw [Nat.succ_mul] at hj
  omega

end Offsets

/-! ## The layout of the buffer region -/

/-- The layout laws of two slots `i` and `j` of a channel of `N` slots. -/
structure LayoutLaws (ch : Channel) (N i j : Nat) (slotI slotJ : MessageSlot) : Prop where
  /-- `Aligned<32>(slot_size)` is the least multiple of 32 at or above it. -/
  aligned_isLeast : IsLeast {m : Int | 32 ∣ m ∧ ch.slotSize ≤ m}
    (aligned 32 (BitVec.ofInt 64 ch.slotSize)).toInt
  overloads_agree : ch.getBufferAddressOfSlot slotI = ch.getBufferAddress i
  payload_after_prefix :
    ch.getBufferAddress i = ch.prefixOf slotI + BitVec.ofNat 64 sizeofMessagePrefix
  payload_aligned : 32 ∣ (ch.getBufferAddress i - ch.buffers).toNat
  disjoint : Disjoint (ch.slotBytes slotI) (ch.slotBytes slotJ)
  /-- Both slots lie in `[buffers_, buffers_ + N * (sizeof(MessagePrefix) +
  Aligned<32>(slot_size)))`. -/
  inside : ch.slotBytes slotI ∪ ch.slotBytes slotJ ⊆
    Finset.range (N * (sizeofMessagePrefix + (aligned 32 (BitVec.ofInt 64 ch.slotSize)).toNat))
  /-- The 64-bit words are the exact values: nothing wraps. -/
  aligned_exact : (aligned 32 (BitVec.ofInt 64 ch.slotSize)).toNat = alignUp ch.slotSize.toNat
  prefix_exact : (ch.prefixOf slotI - ch.buffers).toNat =
    i * (sizeofMessagePrefix + alignUp ch.slotSize.toNat)
  buffer_exact : (ch.getBufferAddress i - ch.buffers).toNat =
    i * (sizeofMessagePrefix + alignUp ch.slotSize.toNat) + sizeofMessagePrefix

/-- The layout laws hold for every `int` slot size, every `int` slot count
`N ≥ 1` and every two distinct slot ids below `N`. -/
theorem buffer_layout (ch : Channel) (N i j : Nat) (slotI slotJ : MessageSlot)
    (hs : 0 ≤ ch.slotSize ∧ ch.slotSize ≤ intMax) (hN : 1 ≤ N ∧ (N : Int) ≤ intMax)
    (hi : i < N) (hj : j < N) (hij : i ≠ j) (hI : slotI.id = i) (hJ : slotJ.id = j) :
    LayoutLaws ch N i j slotI slotJ := by
  have hiM : (i : Int) ≤ intMax := by omega
  have hjM : (j : Int) ≤ intMax := by omega
  have hA : (aligned 32 (BitVec.ofInt 64 ch.slotSize)).toNat = alignUp ch.slotSize.toNat := by
    rw [ofInt_slotSize hs.1]
    exact aligned_toNat (by simp only [intMax] at hs; omega)
  have hAint : (aligned 32 (BitVec.ofInt 64 ch.slotSize)).toInt = alignUp ch.slotSize.toNat := by
    have hb := alignUp_le ch.slotSize.toNat
    rw [BitVec.toInt_eq_toNat_cond, hA, if_pos (by simp only [intMax] at hs; omega)]
  refine ⟨?least, by rw [Channel.getBufferAddressOfSlot, hI]; rfl, ?payload, ?aligned32,
    ?disjoint, ?inside, hA, prefixOf_sub_buffers hs hI hiM,
    getBufferAddress_sub_buffers hs hiM⟩
  case least =>
    rw [hAint]
    simpa [Int.toNat_of_nonneg hs.1] using alignUp_isLeast ch.slotSize.toNat
  case payload =>
    rw [Channel.getBufferAddress, Channel.prefixOf, hI]
  case aligned32 =>
    rw [getBufferAddress_sub_buffers hs hiM]
    exact Nat.dvd_add (Dvd.dvd.mul_left (Nat.dvd_add (dvd_refl 32)
      (Int.natCast_dvd_natCast.mp (alignUp_isLeast ch.slotSize.toNat).1.1)) i) (dvd_refl 32)
  case disjoint =>
    rw [slotBytes_eq hs hI hiM, slotBytes_eq hs hJ hjM, Finset.disjoint_left]
    intro x hx hy
    simp only [Finset.mem_Ico] at hx hy
    rcases Nat.lt_or_gt_of_ne hij with hlt | hlt <;>
      have := slotBytes_end_le (s := ch.slotSize.toNat) hlt <;> omega
  case inside =>
    rw [slotBytes_eq hs hI hiM, slotBytes_eq hs hJ hjM, hA]
    intro x hx
    simp only [Finset.mem_union, Finset.mem_Ico, Finset.mem_range] at hx ⊢
    have hi' := slotBytes_end_le (s := ch.slotSize.toNat) hi
    have hj' := slotBytes_end_le (s := ch.slotSize.toNat) hj
    omega

theorem buffer_layout_four_slots :
    LayoutLaws ⟨4, 64, 0, 0, 0x7f0000000000, some (4, 64)⟩ 4 1 2
      ⟨1, 0, 0, 0, 0⟩ ⟨2, 0, 0, 0, 0⟩ :=
  buffer_layout _ 4 1 2 _ _ ⟨by decide, by decide⟩ ⟨by decide, by decide⟩ (by decide)
    (by decide) (by decide) rfl rfl

end Subspace
