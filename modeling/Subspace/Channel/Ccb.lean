import Subspace.Channel.Defs
import Subspace.Channel.Offset
import Mathlib.Data.List.Sort
set_option autoImplicit false

/-!
# Channel: the control block at the level of its lists

`channel.cc`, which implements the CCB operations, is not part of the source.
This module models them from the spec (§4.2 to §4.5) and from their
documentation in `channel.h`: `FindFreeSlot`, `ActivateSlotAndGetAnother`,
`NextSlot`, `LastSlot` and `FindActiveSlotByTimestamp`.  They act on the CCB
through its three lists.  The CCB keeps the headers and the
`SlotListElement` links the code's `ListRemove` and `ListInsertAtEnd` write
(`links`), and beside them, as a ghost, the sequences of slot ids these headers
represent (`lists`); every move of a slot runs the two primitives on the links
and moves the slot on the sequences.  `Subspace.Channel.Refine` proves that the
links keep representing the sequences.  The slots' elements lie where the
`slots[]` array of x86-64 Linux puts them (`Ccb.placement`), and the memory the
server maps is zero-filled before `Channel::Allocate` initialises the lists.

A slot is named by its index in `slots[]`, which `Channel::Allocate` also
stores as its `id`, the index `Prefix` and `GetBufferAddress` use.  The
`owners` bitset, the statistics counters and the `notify` flag are left out: no
modelled function reads them.
-/

namespace Subspace

/-- The channel control block: `num_slots`, the next ordinal to use, the
sequences of slot ids on the three lists (ghost), the list headers and the
slots' list links, the slot table, and the `MessagePrefix` in front of each
slot's buffer. -/
structure Ccb where
  numSlots : Nat
  nextOrdinal : Int
  lists : SlotListName → List Nat
  links : CcbLinks
  slots : Nat → MessageSlot
  prefixes : Nat → MessagePrefix

/-- `Channel::PublishedMessage`. -/
structure PublishedMessage where
  newSlot : Option Nat
  ordinal : Int
  timestamp : Nat
  deriving DecidableEq, Repr

/-- The slots of a list after the one a subscriber holds; all of them when it
holds none, none when its slot is not on the list. -/
def slotsAfter : List Nat → Option Nat → List Nat
  | l, none => l
  | [], some _ => []
  | x :: xs, some s => if x = s then xs else slotsAfter xs (some s)

namespace Ccb

/-- Where slot `i`'s `SlotListElement` lies from `ccb_`,
`&ccb_->slots[i].element`, on x86-64 Linux. -/
def placement : SlotPlacement := CcbLayout.lp64.placement

/-- Modelled from the spec: the CCB `Channel::Allocate` (not in the source)
leaves for `numSlots` slots in zero-filled memory: `ListInit` on the three
headers, then `ListElementInit` and `ListInsertAtEnd(&free_list, ...)` on every
slot in order, so every slot is on the free list; slot `i` has id `i` and no
references, and `next_ordinal` is 1. -/
def allocated (numSlots : Nat) : Ccb where
  numSlots := numSlots
  nextOrdinal := 1
  lists := fun l => if l = .freeList then List.range numSlots else []
  links := allocateLists ⟨fun _ => ⟨0, 0⟩, fun _ => ⟨0, 0⟩⟩ (placement.offsets numSlots).offsets
  slots := fun i => ⟨i, 0, 0, 0, 0⟩
  prefixes := fun _ => ⟨0, 0, 0, 0#64⟩

/-- The sequence of the active list. -/
def activeList (c : Ccb) : List Nat := c.lists .activeList

/-- Move slot `s` from list `a` to the end of list `b`: `ListRemove` then
`ListInsertAtEnd` on the element at `s`'s offset, and the same move on the
sequences. -/
def moveSlot (c : Ccb) (a b : SlotListName) (s : Nat) : Ccb :=
  { c with
    lists := moveSeqs c.lists a b s
    links := listInsertAtEnd (listRemove c.links a (placement.off s)) b (placement.off s) }

/-- Write the slot table entry of slot `s`. -/
def setSlot (c : Ccb) (s : Nat) (v : MessageSlot) : Ccb :=
  { c with slots := Function.update c.slots s v }

/-- Write the prefix of slot `s`'s buffer. -/
def setPrefix (c : Ccb) (s : Nat) (p : MessagePrefix) : Ccb :=
  { c with prefixes := Function.update c.prefixes s p }

/-- A subscriber's reference moves from `old` (if any) to `t`: the old slot's
`ref_count`, and `reliable_ref_count` for a reliable subscriber, go down, then
the new slot's go up. -/
def moveRef (c : Ccb) (old : Option Nat) (t : Nat) (reliable : Bool) : Ccb :=
  let c := match old with
    | none => c
    | some s => c.setSlot s { c.slots s with
        refCount := (c.slots s).refCount - 1,
        reliableRefCount :=
          if reliable then (c.slots s).reliableRefCount - 1 else (c.slots s).reliableRefCount }
  c.setSlot t { c.slots t with
    refCount := (c.slots t).refCount + 1,
    reliableRefCount :=
      if reliable then (c.slots t).reliableRefCount + 1 else (c.slots t).reliableRefCount }

/-- Modelled from the spec: `Channel::NextSlot(slot, reliable, owner)`.  The
target is `active.first` when the subscriber holds no slot, else its slot's
successor on `active`; at the end of the list it returns `nullptr` and changes
nothing, otherwise the reference moves to the target. -/
def nextSlot (c : Ccb) (slot : Option Nat) (reliable : Bool) : Ccb × Option Nat :=
  match (slotsAfter c.activeList slot).head? with
  | none => (c, none)
  | some t => (c.moveRef slot t reliable, some t)

/-- Modelled from the spec: `Channel::LastSlot(slot, reliable, owner)`, as
`NextSlot` with `active.last` as target: `nullptr` only when `active` is empty. -/
def lastSlot (c : Ccb) (slot : Option Nat) (reliable : Bool) : Ccb × Option Nat :=
  match c.activeList.getLast? with
  | none => (c, none)
  | some t => (c.moveRef slot t reliable, some t)

/-- The reclamation scan of `FindFreeSlot`: the first active slot, oldest first,
that no subscriber references, stopping a reliable scan at the first slot a
reliable subscriber still references. -/
def scanActive (c : Ccb) (reliable : Bool) : List Nat → Option Nat
  | [] => none
  | s :: rest =>
    if reliable && (c.slots s).reliableRefCount != 0 then none
    else if (c.slots s).refCount = 0 then some s
    else scanActive c reliable rest

/-- Modelled from the spec: `Channel::FindFreeSlot(reliable, owner)`.  The head
of the free list, else the slot the reclamation scan finds on the active list,
moves to the end of the busy list. -/
def findFreeSlot (c : Ccb) (reliable : Bool) : Ccb × Option Nat :=
  match (c.lists .freeList).head? with
  | some s => (c.moveSlot .freeList .busyList s, some s)
  | none =>
    match scanActive c reliable c.activeList with
    | none => (c, none)
    | some s => (c.moveSlot .activeList .busyList s, some s)

/-- The first half of `ActivateSlotAndGetAnother`: the slot gets the next
ordinal and, unless `omit_prefix`, a prefix carrying its `message_size` (as
`int32_t`), ordinal, timestamp and flags; it moves from busy to the end of
active. -/
def activateSlot (c : Ccb) (slot : Nat) (isActivation omitPrefix : Bool) (timestamp : Nat) :
    Ccb :=
  let ordinal := c.nextOrdinal
  let c := { c with nextOrdinal := ordinal + 1 }
  let c := if omitPrefix then c else c.setPrefix slot
    { messageSize := (BitVec.ofInt 32 (c.slots slot).messageSize).toInt,
      ordinal := ordinal,
      timestamp := timestamp,
      flags := if isActivation then BitVec.ofInt 64 kMessageActivate else 0#64 }
  (c.setSlot slot { c.slots slot with ordinal := ordinal }).moveSlot .busyList .activeList slot

/-- Modelled from the spec: `Channel::ActivateSlotAndGetAnother(slot, reliable,
is_activation, owner, omit_prefix, notify)`, with `timestamp` the clock reading
it takes.  After `activateSlot`, an unreliable publisher gets a new slot from
`FindFreeSlot`; a reliable one gets none. -/
def activateSlotAndGetAnother (c : Ccb) (slot : Nat) (reliable isActivation omitPrefix : Bool)
    (timestamp : Nat) : Ccb × PublishedMessage :=
  let activated := c.activateSlot slot isActivation omitPrefix timestamp
  if reliable then (activated, ⟨none, c.nextOrdinal, timestamp⟩)
  else ((activated.findFreeSlot false).1,
    ⟨(activated.findFreeSlot false).2, c.nextOrdinal, timestamp⟩)

/-- Modelled from the spec: `Channel::FindActiveSlotByTimestamp(old_slot,
timestamp, reliable, owner, buffer)`.  The active slots are sorted by prefix
timestamp and the last one at or before `timestamp` is taken; the reference
moves to it as in `NextSlot`, and nothing changes when there is none. -/
def findActiveSlotByTimestamp (c : Ccb) (oldSlot : Option Nat) (timestamp : Nat)
    (reliable : Bool) : Ccb × Option Nat :=
  let buffer := c.activeList.mergeSort
    (fun a b => decide ((c.prefixes a).timestamp ≤ (c.prefixes b).timestamp))
  match (buffer.filter (fun s => decide ((c.prefixes s).timestamp ≤ timestamp))).getLast? with
  | none => (c, none)
  | some t => (c.moveRef oldSlot t reliable, some t)

/-! ## What each operation changes -/

@[simp] theorem moveSlot_lists (c : Ccb) (a b : SlotListName) (s : Nat) :
    (c.moveSlot a b s).lists = moveSeqs c.lists a b s := rfl
@[simp] theorem moveSlot_slots (c : Ccb) (a b : SlotListName) (s : Nat) :
    (c.moveSlot a b s).slots = c.slots := rfl
@[simp] theorem moveSlot_prefixes (c : Ccb) (a b : SlotListName) (s : Nat) :
    (c.moveSlot a b s).prefixes = c.prefixes := rfl
@[simp] theorem moveSlot_nextOrdinal (c : Ccb) (a b : SlotListName) (s : Nat) :
    (c.moveSlot a b s).nextOrdinal = c.nextOrdinal := rfl
@[simp] theorem moveSlot_numSlots (c : Ccb) (a b : SlotListName) (s : Nat) :
    (c.moveSlot a b s).numSlots = c.numSlots := rfl
@[simp] theorem moveSlot_links (c : Ccb) (a b : SlotListName) (s : Nat) :
    (c.moveSlot a b s).links =
      listInsertAtEnd (listRemove c.links a (placement.off s)) b (placement.off s) := rfl
@[simp] theorem setSlot_links (c : Ccb) (s : Nat) (v : MessageSlot) :
    (c.setSlot s v).links = c.links := rfl
@[simp] theorem setSlot_numSlots (c : Ccb) (s : Nat) (v : MessageSlot) :
    (c.setSlot s v).numSlots = c.numSlots := rfl
@[simp] theorem setPrefix_links (c : Ccb) (s : Nat) (p : MessagePrefix) :
    (c.setPrefix s p).links = c.links := rfl
@[simp] theorem setPrefix_numSlots (c : Ccb) (s : Nat) (p : MessagePrefix) :
    (c.setPrefix s p).numSlots = c.numSlots := rfl
@[simp] theorem setSlot_lists (c : Ccb) (s : Nat) (v : MessageSlot) :
    (c.setSlot s v).lists = c.lists := rfl
@[simp] theorem setSlot_prefixes (c : Ccb) (s : Nat) (v : MessageSlot) :
    (c.setSlot s v).prefixes = c.prefixes := rfl
@[simp] theorem setSlot_nextOrdinal (c : Ccb) (s : Nat) (v : MessageSlot) :
    (c.setSlot s v).nextOrdinal = c.nextOrdinal := rfl
@[simp] theorem setPrefix_lists (c : Ccb) (s : Nat) (p : MessagePrefix) :
    (c.setPrefix s p).lists = c.lists := rfl
@[simp] theorem setPrefix_slots (c : Ccb) (s : Nat) (p : MessagePrefix) :
    (c.setPrefix s p).slots = c.slots := rfl
@[simp] theorem setPrefix_nextOrdinal (c : Ccb) (s : Nat) (p : MessagePrefix) :
    (c.setPrefix s p).nextOrdinal = c.nextOrdinal := rfl

theorem setSlot_slots (c : Ccb) (s : Nat) (v : MessageSlot) (x : Nat) :
    (c.setSlot s v).slots x = if x = s then v else c.slots x := by
  by_cases h : x = s <;> simp [setSlot, Function.update, h]

theorem setPrefix_prefixes (c : Ccb) (s : Nat) (p : MessagePrefix) (x : Nat) :
    (c.setPrefix s p).prefixes x = if x = s then p else c.prefixes x := by
  by_cases h : x = s <;> simp [setPrefix, Function.update, h]

@[simp] theorem activateSlot_lists (c : Ccb) (slot : Nat) (isActivation omitPrefix : Bool)
    (timestamp : Nat) : (c.activateSlot slot isActivation omitPrefix timestamp).lists =
      moveSeqs c.lists .busyList .activeList slot := by
  cases omitPrefix <;> rfl
@[simp] theorem activateSlot_nextOrdinal (c : Ccb) (slot : Nat) (isActivation omitPrefix : Bool)
    (timestamp : Nat) :
    (c.activateSlot slot isActivation omitPrefix timestamp).nextOrdinal = c.nextOrdinal + 1 := by
  cases omitPrefix <;> rfl
@[simp] theorem activateSlot_numSlots (c : Ccb) (slot : Nat) (isActivation omitPrefix : Bool)
    (timestamp : Nat) : (c.activateSlot slot isActivation omitPrefix timestamp).numSlots = c.numSlots := by
  cases omitPrefix <;> rfl

/-- Activation writes the slot's ordinal and nothing else of the slot table. -/
theorem activateSlot_slots (c : Ccb) (slot : Nat) (isActivation omitPrefix : Bool)
    (timestamp x : Nat) : (c.activateSlot slot isActivation omitPrefix timestamp).slots x =
      if x = slot then { c.slots slot with ordinal := c.nextOrdinal } else c.slots x := by
  cases omitPrefix <;> simp [activateSlot, setSlot_slots]

theorem activateSlotAndGetAnother_ordinal (c : Ccb) (slot : Nat)
    (reliable isActivation omitPrefix : Bool) (timestamp : Nat) :
    (c.activateSlotAndGetAnother slot reliable isActivation omitPrefix timestamp).2.ordinal =
      c.nextOrdinal := by
  cases reliable <;> rfl

/-- The reclamation scan finds an active slot that no subscriber references. -/
theorem scanActive_spec (c : Ccb) (reliable : Bool) {l : List Nat} {s : Nat}
    (h : c.scanActive reliable l = some s) : s ∈ l ∧ (c.slots s).refCount = 0 := by
  induction l with
  | nil => cases h
  | cons x rest ih =>
    simp only [scanActive] at h
    split_ifs at h with h1 h2
    · cases h
      exact ⟨List.mem_cons_self s rest, h2⟩
    · exact (ih h).imp_left (List.mem_cons_of_mem x)

/-- `FindFreeSlot` finds nothing and changes nothing, or moves to the busy list
a free slot or an active slot that no subscriber references. -/
theorem findFreeSlot_spec (c : Ccb) (reliable : Bool) :
    c.findFreeSlot reliable = (c, none) ∨
      ∃ a s, s ∈ c.lists a ∧ (a = .freeList ∨ a = .activeList ∧ (c.slots s).refCount = 0) ∧
        c.findFreeSlot reliable = (c.moveSlot a .busyList s, some s) := by
  unfold findFreeSlot
  split
  · rename_i s hs
    exact .inr ⟨.freeList, s, List.mem_of_mem_head? hs, .inl rfl, rfl⟩
  · split
    · exact .inl rfl
    · rename_i s hs
      obtain ⟨hmem, hzero⟩ := c.scanActive_spec reliable hs
      exact .inr ⟨.activeList, s, hmem, .inr ⟨rfl, hzero⟩, rfl⟩

/-- On a fresh channel `FindFreeSlot` takes slot 0, the head of the free list. -/
theorem findFreeSlot_allocated (n : Nat) (reliable : Bool) :
    (allocated (n + 1)).findFreeSlot reliable =
      ((allocated (n + 1)).moveSlot .freeList .busyList 0, some 0) := by
  simp only [findFreeSlot, allocated, if_true, List.range_succ_eq_map, List.head?_cons]

/-- The unreliable scan finds a slot whenever one on the list has no reference. -/
theorem scanActive_false_isSome (c : Ccb) {l : List Nat} {x : Nat} (hx : x ∈ l)
    (h0 : (c.slots x).refCount = 0) : (c.scanActive false l).isSome := by
  induction l with
  | nil => cases hx
  | cons z rest ih =>
    simp only [scanActive, Bool.false_and, Bool.false_eq_true, if_false]
    split_ifs with hz
    · rfl
    · exact ih ((List.mem_cons.1 hx).resolve_left fun e => hz (e ▸ h0))

/-- `FindFreeSlot(false)` never fails while an active slot has no reference. -/
theorem findFreeSlot_false_isSome (c : Ccb) {x : Nat} (hx : x ∈ c.activeList)
    (h0 : (c.slots x).refCount = 0) : (c.findFreeSlot false).2.isSome := by
  have := c.scanActive_false_isSome hx h0
  unfold findFreeSlot
  split
  · rfl
  · split <;> simp_all

/-- The scan finds nothing exactly when every slot it looks at has a reference:
all of the list for an unreliable scan, and for a reliable one the slots before
the first with a reliable reference. -/
theorem scanActive_eq_none_iff (c : Ccb) (reliable : Bool) (l : List Nat) :
    c.scanActive reliable l = none ↔
      ∀ t ∈ l.takeWhile (fun t => !(reliable && (c.slots t).reliableRefCount != 0)),
        (c.slots t).refCount ≠ 0 := by
  induction l with
  | nil => simp [scanActive]
  | cons x rest ih =>
    simp only [scanActive, List.takeWhile_cons]
    by_cases h1 : (reliable && (c.slots x).reliableRefCount != 0) = true
    · simp [h1]
    · by_cases h2 : (c.slots x).refCount = 0
      · simp [h1, h2]
      · simp [h1, h2, ih]

/-- `FindFreeSlot` fails exactly when the free list is empty and the scan of the
active list finds nothing. -/
theorem findFreeSlot_eq_none_iff (c : Ccb) (reliable : Bool) :
    (c.findFreeSlot reliable).2 = none ↔
      c.lists .freeList = [] ∧ c.scanActive reliable c.activeList = none := by
  unfold findFreeSlot
  cases c.lists .freeList with
  | nil => cases c.scanActive reliable c.activeList <;> simp
  | cons x rest => simp

theorem findFreeSlot_slots (c : Ccb) (reliable : Bool) :
    (c.findFreeSlot reliable).1.slots = c.slots := by
  rcases c.findFreeSlot_spec reliable with h | ⟨a, s, -, -, h⟩
  · rw [h]
  · rw [h]; rfl

theorem findFreeSlot_prefixes (c : Ccb) (reliable : Bool) :
    (c.findFreeSlot reliable).1.prefixes = c.prefixes := by
  rcases c.findFreeSlot_spec reliable with h | ⟨a, s, -, -, h⟩
  · rw [h]
  · rw [h]; rfl

@[simp] theorem findFreeSlot_nextOrdinal (c : Ccb) (reliable : Bool) :
    (c.findFreeSlot reliable).1.nextOrdinal = c.nextOrdinal := by
  rcases c.findFreeSlot_spec reliable with h | ⟨a, s, -, -, h⟩
  · rw [h]
  · rw [h]; rfl

@[simp] theorem activateSlotAndGetAnother_nextOrdinal (c : Ccb) (slot : Nat)
    (reliable isActivation omitPrefix : Bool) (timestamp : Nat) :
    (c.activateSlotAndGetAnother slot reliable isActivation omitPrefix timestamp).1.nextOrdinal =
      c.nextOrdinal + 1 := by
  cases reliable <;> simp [activateSlotAndGetAnother]

/-- Publishing a slot leaves every other slot's table entry as it was. -/
theorem activateSlotAndGetAnother_slots_of_ne (c : Ccb) {slot x : Nat} (hx : x ≠ slot)
    (reliable isActivation omitPrefix : Bool) (timestamp : Nat) :
    (c.activateSlotAndGetAnother slot reliable isActivation omitPrefix timestamp).1.slots x =
      c.slots x := by
  cases reliable <;>
    simp [activateSlotAndGetAnother, findFreeSlot_slots, activateSlot_slots, hx]

/-- Each slot's `ref_count` counts the reference of a subscriber holding
`cursor`: at least one on that slot, and never negative. -/
def RefsOk (c : Ccb) (cursor : Option Nat) : Prop :=
  ∀ x, (if cursor = some x then 1 else 0) ≤ (c.slots x).refCount

theorem moveRef_refCount (c : Ccb) (old : Option Nat) (t : Nat) (reliable : Bool) (x : Nat) :
    ((c.moveRef old t reliable).slots x).refCount =
      (c.slots x).refCount - (if old = some x then 1 else 0) + (if x = t then 1 else 0) := by
  cases old <;> simp only [moveRef, setSlot_slots, apply_ite MessageSlot.refCount,
    Option.some.injEq, reduceCtorEq] <;> split_ifs <;> subst_vars <;> first | omega | contradiction

/-- Moving the subscriber's reference to `t` keeps the counts right. -/
theorem RefsOk.moveRef {c : Ccb} {old : Option Nat} (h : c.RefsOk old) (t : Nat)
    (reliable : Bool) : (c.moveRef old t reliable).RefsOk (some t) := by
  intro x
  have hx := h x
  rw [moveRef_refCount]
  split_ifs at hx ⊢ <;> simp_all

theorem RefsOk.congr {c c' : Ccb} {cursor : Option Nat} (h : c.RefsOk cursor)
    (hr : ∀ x, (c'.slots x).refCount = (c.slots x).refCount) : c'.RefsOk cursor :=
  fun x => hr x ▸ h x

/-- A slot the subscriber holds is not one that no subscriber references. -/
theorem RefsOk.ne_of_refCount_zero {c : Ccb} {x s : Nat} (h : c.RefsOk (some x))
    (hs : (c.slots s).refCount = 0) : x ≠ s := by
  rintro rfl
  have := h x
  simp only [if_true, hs] at this
  omega

/-- Moving a reference touches only reference counts. -/
structure SameButRefs (c c' : Ccb) : Prop where
  numSlots : c'.numSlots = c.numSlots
  lists : c'.lists = c.lists
  links : c'.links = c.links
  prefixes : c'.prefixes = c.prefixes
  nextOrdinal : c'.nextOrdinal = c.nextOrdinal
  ordinal : ∀ s, (c'.slots s).ordinal = (c.slots s).ordinal
  messageSize : ∀ s, (c'.slots s).messageSize = (c.slots s).messageSize

theorem sameButRefs_moveRef (c : Ccb) (old : Option Nat) (t : Nat) (reliable : Bool) :
    SameButRefs c (c.moveRef old t reliable) := by
  cases old <;> refine ⟨rfl, rfl, rfl, rfl, rfl, fun s => ?_, fun s => ?_⟩ <;>
    simp only [moveRef, setSlot_slots, apply_ite MessageSlot.ordinal,
      apply_ite MessageSlot.messageSize] <;> split_ifs <;> subst_vars <;> rfl

theorem SameButRefs.refl (c : Ccb) : SameButRefs c c :=
  ⟨rfl, rfl, rfl, rfl, rfl, fun _ => rfl, fun _ => rfl⟩

theorem SameButRefs.trans {c c' c'' : Ccb} (h : SameButRefs c c') (h' : SameButRefs c' c'') :
    SameButRefs c c'' :=
  ⟨h'.numSlots.trans h.numSlots, h'.lists.trans h.lists, h'.links.trans h.links,
    h'.prefixes.trans h.prefixes, h'.nextOrdinal.trans h.nextOrdinal,
    fun s => (h'.ordinal s).trans (h.ordinal s), fun s => (h'.messageSize s).trans (h.messageSize s)⟩

theorem SameButRefs.activeList {c c' : Ccb} (h : SameButRefs c c') :
    c'.activeList = c.activeList := by
  simp only [Ccb.activeList, h.lists]

/-- `NextSlot` targets the first slot after the subscriber's. -/
theorem nextSlot_snd (c : Ccb) (slot : Option Nat) (reliable : Bool) :
    (c.nextSlot slot reliable).2 = (slotsAfter c.activeList slot).head? := by
  unfold nextSlot; split <;> simp_all

theorem sameButRefs_nextSlot (c : Ccb) (slot : Option Nat) (reliable : Bool) :
    SameButRefs c (c.nextSlot slot reliable).1 := by
  unfold nextSlot; split
  · exact .refl c
  · exact sameButRefs_moveRef c slot _ reliable

/-- `LastSlot` targets the tail of the active list. -/
theorem lastSlot_snd (c : Ccb) (slot : Option Nat) (reliable : Bool) :
    (c.lastSlot slot reliable).2 = c.activeList.getLast? := by
  unfold lastSlot; split <;> simp_all

theorem sameButRefs_lastSlot (c : Ccb) (slot : Option Nat) (reliable : Bool) :
    SameButRefs c (c.lastSlot slot reliable).1 := by
  unfold lastSlot; split
  · exact .refl c
  · exact sameButRefs_moveRef c slot _ reliable

/-- `FindActiveSlotByTimestamp` finds nothing and changes nothing, or moves the
reference to an active slot. -/
theorem findActiveSlotByTimestamp_spec (c : Ccb) (oldSlot : Option Nat) (timestamp : Nat)
    (reliable : Bool) :
    c.findActiveSlotByTimestamp oldSlot timestamp reliable = (c, none) ∨
      ∃ t ∈ c.activeList, c.findActiveSlotByTimestamp oldSlot timestamp reliable =
        (c.moveRef oldSlot t reliable, some t) := by
  unfold findActiveSlotByTimestamp
  dsimp only
  split
  · exact .inl rfl
  · rename_i t ht
    exact .inr ⟨t, List.mem_mergeSort.1 (List.mem_filter.1 (List.mem_of_getLast?_eq_some ht)).1,
      rfl⟩

end Ccb

/-! ## The slots after a subscriber's slot -/

theorem slotsAfter_of_split {p q : List Nat} {t : Nat} (ht : t ∉ p) :
    slotsAfter (p ++ t :: q) (some t) = q := by
  induction p with
  | nil => simp [slotsAfter]
  | cons x p ih =>
    have hx : x ≠ t := fun h => ht (h ▸ List.mem_cons_self x p)
    simp only [List.cons_append, slotsAfter, hx, if_false]
    exact ih (fun h => ht (List.mem_cons_of_mem x h))

/-- The slots after a subscriber's slot are a suffix of the list. -/
theorem slotsAfter_suffix (l : List Nat) (slot : Option Nat) :
    ∃ p, l = p ++ slotsAfter l slot := by
  cases slot with
  | none => exact ⟨[], by simp [slotsAfter]⟩
  | some s =>
    induction l with
    | nil => exact ⟨[], rfl⟩
    | cons x xs ih =>
      by_cases hx : x = s
      · exact ⟨[x], by simp [slotsAfter, hx]⟩
      · obtain ⟨p, hp⟩ := ih
        exact ⟨x :: p, by simp only [slotsAfter, hx, if_false, List.cons_append, ← hp]⟩

theorem mem_of_mem_slotsAfter {l : List Nat} {slot : Option Nat} {t : Nat}
    (h : t ∈ slotsAfter l slot) : t ∈ l := by
  obtain ⟨p, hp⟩ := slotsAfter_suffix l slot
  rw [hp]
  exact List.mem_append_right p h

theorem length_slotsAfter_le (l : List Nat) (slot : Option Nat) :
    (slotsAfter l slot).length ≤ l.length := by
  obtain ⟨p, hp⟩ := slotsAfter_suffix l slot
  conv_rhs => rw [hp]
  simp

/-- Along a list ordered by `R`, each slot after `s` is `R`-after `s`. -/
theorem rel_of_mem_slotsAfter {R : Nat → Nat → Prop} {l : List Nat} (hR : l.Pairwise R)
    {s t : Nat} (hs : s ∈ l) (ht : t ∈ slotsAfter l (some s)) : R s t := by
  induction l with
  | nil => simp [slotsAfter] at ht
  | cons x xs ih =>
    rw [List.pairwise_cons] at hR
    by_cases hx : x = s
    · subst hx
      simp only [slotsAfter, if_true] at ht
      exact hR.1 t ht
    · simp only [slotsAfter, hx, if_false] at ht
      exact ih hR.2 ((List.mem_cons.1 hs).resolve_left fun h => hx h.symm) ht

/-- Along a list ordered by `R`, the tail is `s` or `R`-after it. -/
theorem rel_of_getLast? {R : Nat → Nat → Prop} {l : List Nat} (hR : l.Pairwise R) {s t : Nat}
    (hs : s ∈ l) (ht : l.getLast? = some t) : s = t ∨ R s t := by
  obtain ⟨ys, rfl⟩ := List.getLast?_eq_some_iff.1 ht
  rcases List.mem_append.1 hs with h | h
  · exact .inr ((List.pairwise_append.1 hR).2.2 s h t (List.mem_singleton_self t))
  · exact .inl (List.mem_singleton.1 h)

/-- On a duplicate-free list, the slots after the first slot after the
subscriber's are the rest of them: the walk of `NextSlot` shortens by one. -/
theorem slotsAfter_head {l : List Nat} (hnd : l.Nodup) {slot : Option Nat} {t : Nat}
    {q : List Nat} (h : slotsAfter l slot = t :: q) : slotsAfter l (some t) = q := by
  obtain ⟨p, hp⟩ := slotsAfter_suffix l slot
  rw [h] at hp
  rw [hp] at hnd ⊢
  exact slotsAfter_of_split (fun hmem => (List.nodup_append.1 hnd).2.2 hmem
    (List.mem_cons_self t q))

end Subspace
