import Subspace.Channel.Layout
import Subspace.Channel.SlotList
set_option autoImplicit false

/-!
# Channel: the `int32_t` offsets the slot lists store

`ListInsertAtEnd` and `ListRemove` keep `first`, `last`, `prev` and `next` as
`int32_t` offsets from `ccb_`.  `ToCCBOffset(addr)` casts the `ptrdiff_t`
distance `addr - ccb_` to `int32_t`, and `FromCCBOffset(offset)` adds the offset
back to `ccb_`.  Both addresses lie in the one mapped control block, so the
distance is exact and the model works with distances from `ccb_`.

The cast keeps the distance modulo 2^32.  An offset therefore round-trips
exactly when the distance is a signed 32-bit value
(`fromCCBOffset_toCCBOffset_iff`), and two distances share an offset exactly
when they agree modulo 2^32 (`toCCBOffset_eq_iff`).

Slot `i`'s `SlotListElement` lies `slotsOffset + i * sizeof(MessageSlot)` bytes
from `ccb_` (`CcbLayout.elementOffset`).
- While the last slot lies below 2^31 (`CcbLayout.Fits`), the slots' offsets
  are nonzero, pairwise distinct and round-trip (`CcbLayout.slotOffsets_ok`).
  They are then the offsets at which `CcbLayout.placement` puts the slots'
  elements (`CcbLayout.placement_offsets_int32`); on x86-64 Linux
  (`CcbLayout.lp64`) that is the placement of the links the CCB carries, for at
  most 13421772 slots (`CcbLayout.lp64_fits_iff`).
- Beyond that bound this fails on every layout, for slot counts an `int`
  holds: slot 2^26 does not round-trip, and slots 0 and 2^30 share an offset
  (`CcbLayout.elementOffset_wraps`).
-/

namespace Subspace

/-- `Channel::ToCCBOffset(addr)`, for `addr` lying `d` bytes from `ccb_`: the
`ptrdiff_t` difference cast to `int32_t`. -/
def toCCBOffset (d : Int) : BitVec 32 := BitVec.ofInt 32 d

/-- `Channel::FromCCBOffset(offset)`, as the distance from `ccb_` of the address
it returns: `ccb_ + offset`, with `offset` signed. -/
def fromCCBOffset (offset : BitVec 32) : Int := offset.toInt

/-! ## The cast to `int32_t` -/

/-- An offset round-trips exactly when the distance is an `int32_t`. -/
theorem fromCCBOffset_toCCBOffset_iff (d : Int) :
    fromCCBOffset (toCCBOffset d) = d ↔ -2 ^ 31 ≤ d ∧ d < 2 ^ 31 := by
  rw [fromCCBOffset, toCCBOffset, BitVec.toInt_ofInt, Int.bmod_def]
  split <;> omega

/-- Two distances share an offset exactly when they agree modulo 2^32. -/
theorem toCCBOffset_eq_iff (d e : Int) :
    toCCBOffset d = toCCBOffset e ↔ d % 2 ^ 32 = e % 2 ^ 32 := by
  rw [toCCBOffset, toCCBOffset, BitVec.toNat_eq, BitVec.toNat_ofInt, BitVec.toNat_ofInt]
  omega

/-- The null offset 0 is `ToCCBOffset(ccb_)`, so a distance collides with it
exactly when it is a multiple of 2^32. -/
theorem toCCBOffset_eq_zero_iff (d : Int) : toCCBOffset d = 0 ↔ d % 2 ^ 32 = 0 := by
  rw [show (0 : BitVec 32) = toCCBOffset 0 from rfl, toCCBOffset_eq_iff, Int.zero_emod]

/-! ## The slots of a control block -/

/-- `kMaxSlotOwners`, the bits of `MessageSlot::owners`. -/
def kMaxSlotOwners : Nat := 1024

/-- Where `ChannelControlBlock::slots` starts, and `sizeof(MessageSlot)`.  The
fields before `lock` take 120 bytes.  A `MessageSlot` has 32 bytes of fields
before `owners`, which holds `kMaxSlotOwners` bits, and its size is a multiple
of the alignment of its `int32_t` `id`.  The exact values depend on the
platform's `pthread_mutex_t` and on `BitSet`, which is not in the source. -/
structure CcbLayout where
  slotsOffset : Nat
  slotStride : Nat
  header_le : 120 ≤ slotsOffset
  slot_le : 32 + kMaxSlotOwners / 8 ≤ slotStride
  four_dvd : 4 ∣ slotStride

namespace CcbLayout

/-- The layout on x86-64 Linux: glibc's 40-byte `pthread_mutex_t` puts `slots`
at 160, and with `BitSet<1024>` as 128 bytes of words a slot takes 160 bytes. -/
def lp64 : CcbLayout where
  slotsOffset := 160
  slotStride := 160
  header_le := by decide
  slot_le := by decide
  four_dvd := ⟨40, rfl⟩

variable (L : CcbLayout)

/-- The distance from `ccb_` of `&ccb_->slots[i].element`: `element` is the
first field of `MessageSlot`. -/
def elementOffset (i : Nat) : Int := L.slotsOffset + L.slotStride * i

/-- The last of `numSlots` slots lies less than 2^31 bytes from `ccb_`. -/
def Fits (numSlots : Nat) : Prop := L.elementOffset (numSlots - 1) < 2 ^ 31

instance (numSlots : Nat) : Decidable (L.Fits numSlots) :=
  inferInstanceAs (Decidable (_ < _))

theorem stride_ge : 160 ≤ L.slotStride := L.slot_le

/-- The slots lie in order, at least the header's 120 bytes from `ccb_`. -/
theorem elementOffset_bounds {i j : Nat} (h : i ≤ j) :
    120 ≤ L.elementOffset i ∧ L.elementOffset i ≤ L.elementOffset j := by
  have hmul : (L.slotStride : Int) * i ≤ L.slotStride * j := by
    exact_mod_cast Nat.mul_le_mul_left _ h
  have hpos : (0 : Int) ≤ L.slotStride * i := by exact_mod_cast Nat.zero_le _
  have := L.header_le
  unfold elementOffset
  omega

/-- On x86-64 Linux, `N` slots fit exactly when `N ≤ 13421772`. -/
theorem lp64_fits_iff (numSlots : Nat) : lp64.Fits numSlots ↔ numSlots ≤ 13421772 := by
  simp only [Fits, elementOffset, lp64]
  omega

variable {L}

/-- While the last slot fits, every slot's offset is nonzero, differs from every
other slot's, and round-trips. -/
theorem slotOffsets_ok {numSlots : Nat} (hfit : L.Fits numSlots) {i j : Nat}
    (hi : i < numSlots) (hj : j < numSlots) :
    toCCBOffset (L.elementOffset i) ≠ 0 ∧
      (toCCBOffset (L.elementOffset i) = toCCBOffset (L.elementOffset j) ↔ i = j) ∧
      fromCCBOffset (toCCBOffset (L.elementOffset i)) = L.elementOffset i := by
  obtain ⟨hi0, hi1⟩ := L.elementOffset_bounds (show i ≤ numSlots - 1 by omega)
  obtain ⟨hj0, hj1⟩ := L.elementOffset_bounds (show j ≤ numSlots - 1 by omega)
  unfold Fits at hfit
  refine ⟨?_, ?_, (fromCCBOffset_toCCBOffset_iff _).2 ⟨by omega, by omega⟩⟩
  · rw [Ne, toCCBOffset_eq_zero_iff]
    omega
  · rw [toCCBOffset_eq_iff]
    constructor
    · intro h
      have hij : L.elementOffset i = L.elementOffset j := by omega
      have : L.slotStride * i = L.slotStride * j := by
        unfold elementOffset at hij
        exact_mod_cast add_left_cancel hij
      exact Nat.eq_of_mul_eq_mul_left (by have := L.stride_ge; omega) this
    · rintro rfl
      rfl

/-- The first and the last slot of the most slots that fit on x86-64 Linux. -/
theorem slotOffsets_ok_lp64_last :
    lp64.Fits 13421772 ∧
      toCCBOffset (lp64.elementOffset 13421771) ≠ 0 ∧
      (toCCBOffset (lp64.elementOffset 13421771) = toCCBOffset (lp64.elementOffset 0) ↔
        13421771 = 0) ∧
      fromCCBOffset (toCCBOffset (lp64.elementOffset 13421771)) = lp64.elementOffset 13421771 :=
  ⟨by decide, @slotOffsets_ok lp64 13421772 (by decide) 13421771 0 (by decide) (by decide)⟩

/-- Slot `i`'s element placed as the array `slots[]` of the layout. -/
def placement (L : CcbLayout) : SlotPlacement :=
  SlotPlacement.array L.slotsOffset L.slotStride (by have := L.header_le; omega)
    (by have := L.stride_ge; omega)

/-- While the last slot fits, the offsets `SlotPlacement.array` gives the slots,
on which the linked lists the CCB carries run, are `int32_t` values the cast
keeps, none of them the null offset. -/
theorem placement_offsets_int32 {numSlots : Nat} (hfit : L.Fits numSlots) :
    ∀ o ∈ (L.placement.offsets numSlots).offsets,
      fromCCBOffset (toCCBOffset o) = o ∧ toCCBOffset o ≠ 0 := by
  intro o ho
  obtain ⟨i, hi, rfl⟩ := List.mem_map.1 ho
  have hi : i < numSlots := List.mem_range.1 hi
  obtain ⟨hz, -, hr⟩ := slotOffsets_ok hfit hi hi
  exact ⟨hr, hz⟩

variable (L)

/-- On every layout, for slot counts an `int` holds: slot 2^26 (of 2^26 + 1
slots) does not round-trip, and slots 0 and 2^30 (of 2^30 + 1) share an
offset. -/
theorem elementOffset_wraps :
    (2 ^ 30 + 1 : Int) ≤ intMax ∧
      fromCCBOffset (toCCBOffset (L.elementOffset (2 ^ 26))) ≠ L.elementOffset (2 ^ 26) ∧
      toCCBOffset (L.elementOffset 0) = toCCBOffset (L.elementOffset (2 ^ 30)) := by
  have := L.stride_ge
  obtain ⟨k, hk⟩ := L.four_dvd
  refine ⟨by decide, ?_, ?_⟩
  · rw [Ne, fromCCBOffset_toCCBOffset_iff, elementOffset]
    push_cast
    omega
  · rw [toCCBOffset_eq_iff, elementOffset, elementOffset, hk]
    push_cast
    omega

/-- The same on x86-64 Linux. -/
theorem slot_offsets_wrap_lp64 :
    (2 ^ 30 + 1 : Int) ≤ intMax ∧
      fromCCBOffset (toCCBOffset (lp64.elementOffset (2 ^ 26))) ≠ lp64.elementOffset (2 ^ 26) ∧
      toCCBOffset (lp64.elementOffset 0) = toCCBOffset (lp64.elementOffset (2 ^ 30)) :=
  lp64.elementOffset_wraps

end CcbLayout

end Subspace
