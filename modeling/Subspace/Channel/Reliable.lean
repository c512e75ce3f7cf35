import Subspace.Channel.Ccb
set_option autoImplicit false

/-!
# Channel: what a reliable reference protects

A reliable subscriber puts a `reliable_ref_count` on the slot it holds
(`NextSlot`, `LastSlot` and `FindActiveSlotByTimestamp` with `reliable`), and
`FindFreeSlot(true)` stops its reclamation scan at the first active slot with
such a count: a reliable publisher "must not overwrite messages any reliable
subscriber still owes a read for, and must not skip past such a slot either"
(spec §4.2).

`ReliableRefsOk` is the count invariant.  Under it, `FindFreeSlot(true)` leaves
the subscriber's slot on `active` with the same slots after it
(`findFreeSlot_true_slotsAfter`), and an activation only appends to them
(`activateSlot_slotsAfter`).
-/

namespace Subspace

/-! ## The slots after a slot of a joined list -/

theorem slotsAfter_append_of_not_mem {l1 l2 : List Nat} {x : Nat} (h : x ∉ l1) :
    slotsAfter (l1 ++ l2) (some x) = slotsAfter l2 (some x) := by
  induction l1 with
  | nil => rfl
  | cons z l1 ih =>
    have hz : z ≠ x := fun e => h (e ▸ List.mem_cons_self z l1)
    simp only [List.cons_append, slotsAfter, hz, if_false]
    exact ih fun hm => h (List.mem_cons_of_mem z hm)

theorem slotsAfter_append_of_mem {l1 l2 : List Nat} {x : Nat} (h : x ∈ l1) :
    slotsAfter (l1 ++ l2) (some x) = slotsAfter l1 (some x) ++ l2 := by
  induction l1 with
  | nil => cases h
  | cons z l1 ih =>
    by_cases hz : z = x
    · simp [slotsAfter, hz]
    · simp only [List.cons_append, slotsAfter, hz, if_false]
      exact ih ((List.mem_cons.1 h).resolve_left (Ne.symm hz))

namespace Ccb

variable {c : Ccb}

/-! ## Reliable reference counts -/

/-- The reliable counterpart of `RefsOk`: a reliable subscriber holding `cursor`
puts one `reliable_ref_count` on it, and no count is negative.  `cursor` is
`none` for an unreliable subscriber, whose reads leave these counts alone. -/
def ReliableRefsOk (c : Ccb) (cursor : Option Nat) : Prop :=
  ∀ x, (if cursor = some x then 1 else 0) ≤ (c.slots x).reliableRefCount

theorem moveRef_reliableRefCount (c : Ccb) (old : Option Nat) (t : Nat) (reliable : Bool)
    (x : Nat) : ((c.moveRef old t reliable).slots x).reliableRefCount =
      (c.slots x).reliableRefCount - (if reliable ∧ old = some x then 1 else 0) +
        (if reliable ∧ x = t then 1 else 0) := by
  cases old <;> cases reliable <;> simp only [moveRef, setSlot_slots,
    apply_ite MessageSlot.reliableRefCount, Option.some.injEq, reduceCtorEq, Bool.false_eq_true,
    false_and, true_and, if_true, if_false] <;>
    split_ifs <;> subst_vars <;> omega

/-- Moving a subscriber's reference to `t` keeps the reliable counts right. -/
theorem ReliableRefsOk.moveRef {old : Option Nat} {reliable : Bool}
    (h : c.ReliableRefsOk (if reliable then old else none)) (t : Nat) :
    (c.moveRef old t reliable).ReliableRefsOk (if reliable then some t else none) := by
  intro x
  have hx := h x
  rw [moveRef_reliableRefCount]
  cases reliable
  · simp only [if_false, Bool.false_eq_true, false_and] at hx ⊢
    omega
  · simp only [if_true, true_and, Option.some.injEq] at hx ⊢
    split_ifs at hx ⊢ <;> subst_vars <;> omega

/-- `SetMessageSize` then `ActivateSlotAndGetAnother` write the published slot's
size and ordinal, and no other slot's entry. -/
theorem activateSlotAndGetAnother_setSlot_slots (c : Ccb) (slot : Nat) (size : Int)
    (reliable isActivation omitPrefix : Bool) (timestamp x : Nat) :
    ((c.setSlot slot { c.slots slot with messageSize := size }).activateSlotAndGetAnother slot
      reliable isActivation omitPrefix timestamp).1.slots x =
      if x = slot then { c.slots slot with messageSize := size, ordinal := c.nextOrdinal }
      else c.slots x := by
  by_cases hx : x = slot
  · subst hx
    cases reliable <;>
      simp [activateSlotAndGetAnother, findFreeSlot_slots, activateSlot_slots, setSlot_slots]
  · rw [activateSlotAndGetAnother_slots_of_ne _ hx, setSlot_slots, if_neg hx, if_neg hx]

/-- Publishing writes the slot's ordinal and size, never a reference count. -/
theorem activateSlotAndGetAnother_reliableRefCount (c : Ccb) (slot : Nat) (size : Int)
    (reliable isActivation omitPrefix : Bool) (timestamp x : Nat) :
    (((c.setSlot slot { c.slots slot with messageSize := size }).activateSlotAndGetAnother slot
      reliable isActivation omitPrefix timestamp).1.slots x).reliableRefCount =
      (c.slots x).reliableRefCount := by
  rw [activateSlotAndGetAnother_setSlot_slots]
  split_ifs with hx <;> [subst hx; skip] <;> rfl

theorem activateSlotAndGetAnother_refCount (c : Ccb) (slot : Nat) (size : Int)
    (reliable isActivation omitPrefix : Bool) (timestamp x : Nat) :
    (((c.setSlot slot { c.slots slot with messageSize := size }).activateSlotAndGetAnother slot
      reliable isActivation omitPrefix timestamp).1.slots x).refCount = (c.slots x).refCount := by
  rw [activateSlotAndGetAnother_setSlot_slots]
  split_ifs with hx <;> [subst hx; skip] <;> rfl

/-! ## What `FindFreeSlot(true)` spares -/

/-- A reliable scan stops at a slot with a reliable reference: the slot it
takes comes before every such slot. -/
theorem scanActive_true_before {l : List Nat} {y x : Nat} (h : c.scanActive true l = some y)
    (hx : x ∈ l) (hxr : (c.slots x).reliableRefCount ≠ 0) :
    ∃ l1 l2, l = l1 ++ y :: l2 ∧ x ∈ l2 := by
  induction l with
  | nil => cases hx
  | cons z rest ih =>
    simp only [scanActive, Bool.true_and, bne_iff_ne, ne_eq] at h
    split_ifs at h with h1 h2
    · cases h
      exact ⟨[], rest, rfl, (List.mem_cons.1 hx).resolve_left fun e => hxr (e ▸ h1)⟩
    · obtain ⟨l1, l2, rfl, hx2⟩ := ih h ((List.mem_cons.1 hx).resolve_left fun e => hxr (e ▸ h1))
      exact ⟨z :: l1, l2, rfl, hx2⟩

/-- `FindFreeSlot(true)` leaves an active slot `x` that holds a reliable
reference on `active`, with the same slots after it. -/
theorem findFreeSlot_true_slotsAfter (hl : DisjointSeqs c.lists) {x : Nat} (hx : x ∈ c.activeList)
    (hxr : (c.slots x).reliableRefCount ≠ 0) :
    x ∈ (c.findFreeSlot true).1.activeList ∧
      slotsAfter (c.findFreeSlot true).1.activeList (some x) = slotsAfter c.activeList (some x) := by
  have hnd := hl.nodup .activeList
  unfold findFreeSlot
  split
  · -- the head `s` of the free list is not on `active`, which stays as it was
    rename_i s hs
    have hsa : s ∉ c.lists .activeList := fun h =>
      by cases hl.disjoint _ _ s (List.mem_of_mem_head? hs) h
    have hact : (c.moveSlot .freeList .busyList s).activeList = c.activeList := by
      simp only [activeList, moveSlot_lists, hl.moveSeqs_eq (List.mem_of_mem_head? hs),
        reduceCtorEq, if_false, List.erase_of_not_mem hsa]
    rw [hact]
    exact ⟨hx, rfl⟩
  · split
    · exact ⟨hx, rfl⟩
    · -- the reclaimed slot `y` comes before `x`
      rename_i y hy
      obtain ⟨l1, l2, hsplit, hx2⟩ := c.scanActive_true_before hy hx hxr
      have hnd' : (l1 ++ y :: l2).Nodup := by rw [← hsplit]; exact hnd
      obtain ⟨-, hnd2, hdisj⟩ := List.nodup_append.1 hnd'
      have hy1 : y ∉ l1 := fun h => hdisj h (List.mem_cons_self y l2)
      have hx1 : x ∉ l1 := fun h => hdisj h (List.mem_cons_of_mem y hx2)
      have hxy : y ≠ x := fun e => (List.nodup_cons.1 hnd2).1 (e ▸ hx2)
      have hact : (c.moveSlot .activeList .busyList y).activeList = l1 ++ l2 := by
        simp only [activeList, moveSlot_lists, moveSeqs, reduceCtorEq, if_false, if_true]
        rw [← activeList, hsplit, List.erase_append_right _ hy1, List.erase_cons_head]
      rw [hact, hsplit, slotsAfter_append_of_not_mem hx1, slotsAfter_append_of_not_mem hx1]
      refine ⟨List.mem_append_right l1 hx2, ?_⟩
      simp [slotsAfter, hxy]

/-! ## What an activation appends -/

theorem activateSlot_prefixes_of_ne (c : Ccb) {slot x : Nat} (hx : x ≠ slot)
    (isActivation omitPrefix : Bool) (timestamp : Nat) :
    (c.activateSlot slot isActivation omitPrefix timestamp).prefixes x = c.prefixes x := by
  cases omitPrefix <;> simp [activateSlot, setPrefix_prefixes, hx]

/-- Publishing a slot leaves every other slot's prefix as it was. -/
theorem activateSlotAndGetAnother_prefixes_of_ne (c : Ccb) {slot x : Nat} (hx : x ≠ slot)
    (reliable isActivation omitPrefix : Bool) (timestamp : Nat) :
    (c.activateSlotAndGetAnother slot reliable isActivation omitPrefix timestamp).1.prefixes x =
      c.prefixes x := by
  cases reliable <;>
    simp [activateSlotAndGetAnother, findFreeSlot_prefixes, activateSlot_prefixes_of_ne _ hx]

/-- The prefix an activation writes: the slot's size as `int32_t`, the next
ordinal, the timestamp, and `kMessageActivate` for an activation message. -/
theorem activateSlot_prefixes_self (c : Ccb) (slot : Nat) (isActivation : Bool)
    (timestamp : Nat) :
    (c.activateSlot slot isActivation false timestamp).prefixes slot =
      ⟨(BitVec.ofInt 32 (c.slots slot).messageSize).toInt, c.nextOrdinal, timestamp,
        if isActivation then BitVec.ofInt 64 kMessageActivate else 0#64⟩ := by
  simp [activateSlot, setPrefix_prefixes]

/-- Activating a busy slot appends it to `active`, so to the slots after any
active slot. -/
theorem activateSlot_slotsAfter (hl : DisjointSeqs c.lists) {slot x : Nat}
    (hslot : slot ∈ c.lists .busyList) (hx : x ∈ c.activeList)
    (isActivation omitPrefix : Bool) (timestamp : Nat) :
    slotsAfter (c.activateSlot slot isActivation omitPrefix timestamp).activeList (some x) =
      slotsAfter c.activeList (some x) ++ [slot] := by
  have hsa : slot ∉ c.lists .activeList := fun h => by cases hl.disjoint _ _ slot hslot h
  simp only [activeList, activateSlot_lists, moveSeqs, if_true, List.erase_of_not_mem hsa]
  exact slotsAfter_append_of_mem hx

end Ccb

end Subspace
