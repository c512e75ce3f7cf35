import Mathlib.Data.BitVec
set_option autoImplicit false

/-!
# Channel: the shared-memory records of `channel.h`

The records the modelled member functions read: the `MessagePrefix` stored in
front of each buffer slot, the per-slot metadata `MessageSlot` of the CCB slot
table, the server-written `ChannelCounters` of the SCB, and the fields of a
`Channel` handle.

Widths.  A field whose width matters to some statement keeps it: the
`flags` word is a `BitVec 64`, the SCB counters and a handle's
`num_updates_` are `UInt16`, and `buffers_` is a 64-bit address.  Ordinals,
sizes and slot counts are `Int`: no modelled function computes with them in a
way that could wrap (ordinals are assigned one at a time from `1`, reference
counts are bounded by the 1024 owners a slot can have).
-/

namespace Subspace

/-- `MessagePrefix`, the 32-byte header in front of every message buffer.  The
leading `padding` word belongs to the bridge's socket framing and is read by no
modelled function, so it is left out. -/
structure MessagePrefix where
  messageSize : Int
  ordinal : Int
  timestamp : Nat
  flags : BitVec 64
  deriving DecidableEq, Repr

/-- `kMessageActivate`: the flag of a reliable activation message. -/
def kMessageActivate : Int := 1

/-- `(prefix->flags & kMessageActivate) != 0`, with the `int` constant widened to
`int64_t`. -/
def MessagePrefix.isActivation (p : MessagePrefix) : Bool :=
  p.flags &&& BitVec.ofInt 64 kMessageActivate != 0#64

/-- The flags of an activation message carry `kMessageActivate`. -/
@[simp] theorem MessagePrefix.isActivation_activate (messageSize ordinal : Int) (timestamp : Nat) :
    (⟨messageSize, ordinal, timestamp, BitVec.ofInt 64 kMessageActivate⟩ :
      MessagePrefix).isActivation = true := by
  simp only [MessagePrefix.isActivation]
  decide

/-- The flags of an ordinary message do not. -/
@[simp] theorem MessagePrefix.isActivation_zero (messageSize ordinal : Int) (timestamp : Nat) :
    (⟨messageSize, ordinal, timestamp, 0#64⟩ : MessagePrefix).isActivation = false := by
  simp only [MessagePrefix.isActivation]
  decide

/-- `MessageSlot`, one entry of the CCB slot table.  Its list links live in the
offset store of `Subspace.Channel.SlotList`; its `owners` bitset is written but
never read by a modelled function and is left out. -/
structure MessageSlot where
  id : Int
  refCount : Int
  reliableRefCount : Int
  ordinal : Int
  messageSize : Int
  deriving DecidableEq, Repr

/-- `ChannelCounters`, one channel's entry of the SCB.  Only the two update
counters are read by the client. -/
structure ChannelCounters where
  numPubUpdates : UInt16
  numSubUpdates : UInt16
  deriving DecidableEq, Repr

/-- The fields of a `Channel` handle read by the modelled member functions.
`mapped` is the state of the missing `Map`/`Unmap` pair: the `(num_slots,
slot_size)` of the last successful `Map` after the last `Unmap`, or `none`. -/
structure Channel where
  numSlots : Int
  slotSize : Int
  channelId : Nat
  numUpdates : UInt16
  buffers : BitVec 64
  mapped : Option (Int × Int)
  deriving DecidableEq, Repr

/-- `Channel::IsPlaceholder`. -/
def Channel.isPlaceholder (ch : Channel) : Bool := ch.numSlots == 0

/-- `Channel::SetSlots`. -/
def Channel.setSlots (ch : Channel) (slotSize numSlots : Int) : Channel :=
  { ch with slotSize := slotSize, numSlots := numSlots }

/-- `Channel::SetNumUpdates`: the `int` argument is stored into a `uint16_t`. -/
def Channel.setNumUpdates (ch : Channel) (numUpdates : Int) : Channel :=
  { ch with numUpdates := UInt16.ofNat (numUpdates % 65536).toNat }

@[simp] theorem Channel.setSlots_numSlots (ch : Channel) (s n : Int) :
    (ch.setSlots s n).numSlots = n := rfl
@[simp] theorem Channel.setSlots_slotSize (ch : Channel) (s n : Int) :
    (ch.setSlots s n).slotSize = s := rfl
@[simp] theorem Channel.setSlots_mapped (ch : Channel) (s n : Int) :
    (ch.setSlots s n).mapped = ch.mapped := rfl
@[simp] theorem Channel.setSlots_channelId (ch : Channel) (s n : Int) :
    (ch.setSlots s n).channelId = ch.channelId := rfl
@[simp] theorem Channel.setSlots_numUpdates (ch : Channel) (s n : Int) :
    (ch.setSlots s n).numUpdates = ch.numUpdates := rfl
@[simp] theorem Channel.setNumUpdates_channelId (ch : Channel) (n : Int) :
    (ch.setNumUpdates n).channelId = ch.channelId := rfl
@[simp] theorem Channel.setNumUpdates_numSlots (ch : Channel) (n : Int) :
    (ch.setNumUpdates n).numSlots = ch.numSlots := rfl
@[simp] theorem Channel.setNumUpdates_slotSize (ch : Channel) (n : Int) :
    (ch.setNumUpdates n).slotSize = ch.slotSize := rfl
@[simp] theorem Channel.setNumUpdates_mapped (ch : Channel) (n : Int) :
    (ch.setNumUpdates n).mapped = ch.mapped := rfl

/-- Storing a `uint16_t` counter read through an `int` gives the counter back. -/
@[simp] theorem Channel.setNumUpdates_toNat (ch : Channel) (c : UInt16) :
    (ch.setNumUpdates (c.toNat : Int)).numUpdates = c := by
  have hc : c.toNat < 65536 := c.toNat_lt_size
  simp only [setNumUpdates]
  rw [Int.emod_eq_of_lt (by omega) (by omega), Int.toNat_ofNat]
  exact UInt16.toNat.inj (UInt16.toNat_ofNat_of_lt hc)

end Subspace
