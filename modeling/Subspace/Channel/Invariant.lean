import Subspace.Channel.Ccb
set_option autoImplicit false

/-!
# Channel: what every reachable control block satisfies

The spec's CCB invariants (§3, §4.6), at the level of the lists: every slot is
on at most one list; the ordinals along `active` are positive, strictly
increasing from head to tail, and below `next_ordinal`; the slot a subscriber
holds is active and carries its reference.  One more field ties each active
slot's `message_size` to a ghost log of the size its publisher set for each
ordinal, which is what a reader is handed back.

Each operation a publisher or a subscriber runs on the CCB keeps the invariant:
`FindFreeSlot` (`Inv.findFreeSlot`), the activation of a busy slot
(`Inv.activate`), and every move of a subscriber's reference
(`Inv.sameButRefs`).  A freshly allocated CCB satisfies it (`allocated_inv`).
-/

namespace Subspace
namespace Ccb

/-- The CCB invariant, for the slot `cursor` a subscriber holds and the ghost
log of the message size set for each ordinal activated so far. -/
structure Inv (c : Ccb) (cursor : Option Nat) (log : Int → Option Int) : Prop where
  lists : DisjointSeqs c.lists
  cursor_active : ∀ x, cursor = some x → x ∈ c.activeList
  refs : c.RefsOk cursor
  next_pos : 0 < c.nextOrdinal
  ordinal_pos : ∀ x ∈ c.activeList, 0 < (c.slots x).ordinal
  ordinal_lt : ∀ x ∈ c.activeList, (c.slots x).ordinal < c.nextOrdinal
  sorted : c.activeList.Pairwise fun a b => (c.slots a).ordinal < (c.slots b).ordinal
  logged_lt : ∀ o, log o ≠ none → o < c.nextOrdinal
  logged : ∀ x ∈ c.activeList, log (c.slots x).ordinal = some (c.slots x).messageSize

variable {c c' : Ccb} {cursor : Option Nat} {log : Int → Option Int}

theorem allocated_inv (numSlots : Nat) : (allocated numSlots).Inv none fun _ => none := by
  have hact : (allocated numSlots).activeList = [] := rfl
  constructor
  · constructor
    · intro l
      cases l <;> simp [allocated, List.nodup_range]
    · intro l l' x hl hl'
      cases l <;> cases l' <;> simp_all [allocated]
  · intro x hx
    cases hx
  · simp [RefsOk, allocated]
  · exact Int.one_pos
  all_goals simp [hact]

/-- An operation that only moves slots between lists, shortening `active` to a
sublist that keeps the subscriber's slot, keeps the invariant. -/
theorem Inv.mono (h : c.Inv cursor log) (hl : DisjointSeqs c'.lists)
    (hsub : c'.activeList.Sublist c.activeList) (hslots : c'.slots = c.slots)
    (hnext : c'.nextOrdinal = c.nextOrdinal) (hcur : ∀ x, cursor = some x → x ∈ c'.activeList) :
    c'.Inv cursor log := by
  have hmem := hsub.subset
  refine ⟨hl, hcur, h.refs.congr fun x => by rw [hslots], ?_, fun x hx => ?_, fun x hx => ?_,
    ?_, fun o ho => ?_, fun x hx => ?_⟩ <;> simp only [hslots, hnext]
  · exact h.next_pos
  · exact h.ordinal_pos x (hmem hx)
  · exact h.ordinal_lt x (hmem hx)
  · exact h.sorted.sublist hsub
  · exact h.logged_lt o ho
  · exact h.logged x (hmem hx)

/-- Moving the subscriber's reference to an active slot keeps the invariant. -/
theorem Inv.sameButRefs (h : c.Inv cursor log) (hs : SameButRefs c c') {cursor' : Option Nat}
    (hrefs : c'.RefsOk cursor') (hcur : ∀ x, cursor' = some x → x ∈ c.activeList) :
    c'.Inv cursor' log := by
  have hact := hs.activeList
  refine ⟨hs.lists ▸ h.lists, fun x hx => hact ▸ hcur x hx, hrefs, hs.nextOrdinal ▸ h.next_pos,
    fun x hx => ?_, fun x hx => ?_, ?_, fun o ho => hs.nextOrdinal ▸ h.logged_lt o ho,
    fun x hx => ?_⟩ <;> rw [hact] at * <;> simp only [hs.ordinal, hs.messageSize, hs.nextOrdinal]
  · exact h.ordinal_pos x hx
  · exact h.ordinal_lt x hx
  · exact h.sorted
  · exact h.logged x hx

/-- `FindFreeSlot` keeps the invariant, and the slot it returns is on the busy
list: a free slot, or an active one no subscriber references, so never the
subscriber's. -/
theorem Inv.findFreeSlot (h : c.Inv cursor log) (reliable : Bool) :
    (c.findFreeSlot reliable).1.Inv cursor log ∧
      ∀ p, (c.findFreeSlot reliable).2 = some p → p ∈ (c.findFreeSlot reliable).1.lists .busyList := by
  rcases c.findFreeSlot_spec reliable with h0 | ⟨a, s, hs, ha, h1⟩
  · rw [h0]
    exact ⟨h, fun p hp => by cases hp⟩
  · rw [h1]
    have hmem := h.lists.mem_moveSeqs hs .busyList
    have hsub : (c.moveSlot a .busyList s).activeList.Sublist c.activeList := by
      simp only [activeList, moveSlot_lists, moveSeqs, reduceCtorEq, if_false]
      split_ifs
      · exact List.erase_sublist s _
      · exact List.Sublist.refl _
    refine ⟨h.mono (h.lists.move hs .busyList) hsub rfl rfl fun x hx => ?_, fun p hp => ?_⟩
    · have hxa := h.cursor_active x hx
      have hxs : x ≠ s := by
        rcases ha with rfl | ⟨rfl, hz⟩
        · rintro rfl
          cases h.lists.disjoint _ _ x hxa hs
        · subst hx
          exact h.refs.ne_of_refCount_zero hz
      exact (hmem .activeList x).2 (.inr ⟨hxs, hxa⟩)
    · cases hp
      exact (hmem .busyList s).2 (.inl ⟨rfl, rfl⟩)

/-- A publisher's `SetMessageSize` on its busy slot followed by the activation of
that slot keeps the invariant, with the slot's new ordinal logged with the size. -/
theorem Inv.activate (h : c.Inv cursor log) {p : Nat} (hp : p ∈ c.lists .busyList)
    (size : Int) (isActivation omitPrefix : Bool) (timestamp : Nat) :
    ((c.setSlot p { c.slots p with messageSize := size }).activateSlot p isActivation omitPrefix
      timestamp).Inv cursor (Function.update log c.nextOrdinal (some size)) := by
  have hpa : p ∉ c.activeList := fun hpa => by cases h.lists.disjoint _ _ p hpa hp
  have hne : ∀ x ∈ c.activeList, x ≠ p := fun x hx hxp => hpa (hxp ▸ hx)
  generalize hc2 : (c.setSlot p { c.slots p with messageSize := size }).activateSlot p
    isActivation omitPrefix timestamp = c2
  have hact : c2.activeList = c.activeList ++ [p] := by
    rw [← hc2]
    simp [activeList, moveSeqs, List.erase_of_not_mem (show p ∉ c.lists .activeList from hpa)]
  have hnext : c2.nextOrdinal = c.nextOrdinal + 1 := by
    rw [← hc2]
    simp
  have hslot : ∀ x, c2.slots x = if x = p then
      { c.slots p with messageSize := size, ordinal := c.nextOrdinal } else c.slots x := by
    intro x
    rw [← hc2, activateSlot_slots]
    split_ifs with hx <;> simp [setSlot_slots, hx]
  have hold : ∀ x ∈ c.activeList, c2.slots x = c.slots x := fun x hx => by
    rw [hslot, if_neg (hne x hx)]
  have hnew : c2.slots p = { c.slots p with messageSize := size, ordinal := c.nextOrdinal } := by
    rw [hslot, if_pos rfl]
  refine ⟨?_, fun x hx => ?_, h.refs.congr fun x => ?_, ?_, ?_, ?_, ?_, fun o ho => ?_, ?_⟩
  · rw [← hc2]
    simpa using h.lists.move hp .activeList
  · rw [hact]
    exact List.mem_append_left _ (h.cursor_active x hx)
  · rw [hslot]
    split_ifs with hx
    · subst hx; rfl
    · rfl
  · rw [hnext]
    exact h.next_pos.trans (Int.lt_succ _)
  · rw [hact, List.forall_mem_append, List.forall_mem_singleton, hnew]
    exact ⟨fun x hx => hold x hx ▸ h.ordinal_pos x hx, h.next_pos⟩
  · rw [hact, hnext, List.forall_mem_append, List.forall_mem_singleton, hnew]
    exact ⟨fun x hx => hold x hx ▸ (h.ordinal_lt x hx).trans (Int.lt_succ _), Int.lt_succ _⟩
  · rw [hact, List.pairwise_append]
    refine ⟨h.sorted.imp_of_mem fun ha hb hab => ?_, List.pairwise_singleton _ _,
      fun a ha b hb => ?_⟩
    · rwa [hold _ ha, hold _ hb]
    · rw [List.mem_singleton.1 hb, hold a ha, hnew]
      exact h.ordinal_lt a ha
  · rw [hnext]
    by_cases ho' : o = c.nextOrdinal
    · rw [ho']
      exact Int.lt_succ _
    · rw [Function.update_noteq ho'] at ho
      exact (h.logged_lt o ho).trans (Int.lt_succ _)
  · rw [hact, List.forall_mem_append, List.forall_mem_singleton, hnew]
    refine ⟨fun x hx => ?_, Function.update_same _ _ _⟩
    rw [hold x hx, Function.update_noteq (h.ordinal_lt x hx).ne]
    exact h.logged x hx

/-! ## One invariant for many subscribers -/

/-- The invariant for no subscriber gives it for a subscriber whose slot is
active and carries its reference. -/
theorem Inv.withCursor (h : c.Inv none log) {cursor : Option Nat}
    (hcur : ∀ x, cursor = some x → x ∈ c.activeList) (hrefs : c.RefsOk cursor) :
    c.Inv cursor log :=
  { h with cursor_active := hcur, refs := hrefs }

/-! ## The busy list: what a publisher holds stays held -/

/-- `FindFreeSlot` keeps every busy slot busy, and the slot it takes was not
busy. -/
theorem findFreeSlot_busy (hl : DisjointSeqs c.lists) (reliable : Bool) {q : Nat}
    (hq : q ∈ c.lists .busyList) :
    q ∈ (c.findFreeSlot reliable).1.lists .busyList ∧ (c.findFreeSlot reliable).2 ≠ some q := by
  rcases c.findFreeSlot_spec reliable with h | ⟨a, s, hs, ha, h⟩ <;> rw [h]
  · exact ⟨hq, fun h => by cases h⟩
  · have hsq : s ≠ q := by
      rintro rfl
      rcases ha with rfl | ⟨rfl, -⟩ <;> cases hl.disjoint _ _ _ hs hq
    rw [moveSlot_lists, hl.mem_moveSeqs hs]
    exact ⟨.inr ⟨Ne.symm hsq, hq⟩, fun e => hsq (Option.some.inj e)⟩

/-- Activating slot `p` keeps every other busy slot busy. -/
theorem activateSlot_busy (c : Ccb) {p q : Nat} (hq : q ∈ c.lists .busyList) (hqp : q ≠ p)
    (isActivation omitPrefix : Bool) (timestamp : Nat) :
    q ∈ (c.activateSlot p isActivation omitPrefix timestamp).lists .busyList := by
  simp only [activateSlot_lists, moveSeqs, reduceCtorEq, if_false, if_true]
  exact (List.mem_erase_of_ne hqp).2 hq

/-- Publishing busy slot `p` keeps every other busy slot busy, and the slot the
publisher gets next was not busy. -/
theorem activateSlotAndGetAnother_busy (hl : DisjointSeqs c.lists) {p q : Nat}
    (hp : p ∈ c.lists .busyList) (hq : q ∈ c.lists .busyList) (hqp : q ≠ p)
    (reliable isActivation omitPrefix : Bool) (timestamp : Nat) :
    q ∈ (c.activateSlotAndGetAnother p reliable isActivation omitPrefix timestamp).1.lists
        .busyList ∧
      (c.activateSlotAndGetAnother p reliable isActivation omitPrefix timestamp).2.newSlot ≠
        some q := by
  have hq' := c.activateSlot_busy hq hqp isActivation omitPrefix timestamp
  cases reliable
  · have hl' : DisjointSeqs (c.activateSlot p isActivation omitPrefix timestamp).lists := by
      rw [activateSlot_lists]
      exact hl.move hp .activeList
    exact findFreeSlot_busy hl' false hq'
  · exact ⟨hq', fun h => by cases h⟩

end Ccb
end Subspace
