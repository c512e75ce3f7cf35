import Mathlib.Data.List.Nodup
import Mathlib.Logic.Function.Basic
set_option autoImplicit false

/-!
# Channel: the offset-linked slot lists (`ListInsertAtEnd`, `ListRemove`)

The CCB keeps every slot on one of three doubly linked lists, `active_list`,
`busy_list` and `free_list`.  Because the CCB is mapped at a different address
in every process, the links are `int32_t` offsets from the CCB base, and the
offset `0` means "none" (the CCB header sits there, so no slot element can).

The store here is the part of the CCB the list primitives read and write: the
`SlotListElement` at every offset, and the three `SlotList` headers.  A slot is
named by the offset of its element, `ToCCBOffset(&slot->element)`; following an
offset is `FromCCBOffset`.  Each primitive is transcribed with its reads and
writes in source order, so a read of `e->next` after a write through `prev` sees
that write.

Over the store sits the abstract view: each header *represents* a duplicate-free
sequence of offsets (`Represents`), and the three sequences partition the slots
(`WellFormed`).  The main result, `listRemove_listInsertAtEnd_wellFormed`,
shows that `ListRemove` followed by `ListInsertAtEnd` refines moving one slot
from the sequence of one list to the end of another's.  Where the slots'
elements lie is a `SlotPlacement`; `Subspace.Ccb` carries these links and moves
its slots with them.
-/

namespace Subspace

/-- `SlotListElement`: the links of a node, as CCB offsets. -/
structure SlotListElement where
  prev : Int
  next : Int
  deriving DecidableEq, Repr

/-- `SlotList`: a list header, as CCB offsets. -/
structure SlotList where
  first : Int
  last : Int
  deriving DecidableEq, Repr

/-- The three list headers of the CCB. -/
inductive SlotListName
  | activeList
  | busyList
  | freeList
  deriving DecidableEq, Repr

/-- The list links of a CCB: the element at every offset and the three headers. -/
structure CcbLinks where
  element : Int → SlotListElement
  lists : SlotListName → SlotList

namespace CcbLinks

/-- Write `prev` of the element at `offset`. -/
def setPrev (c : CcbLinks) (offset v : Int) : CcbLinks :=
  { c with element := Function.update c.element offset { c.element offset with prev := v } }

/-- Write `next` of the element at `offset`. -/
def setNext (c : CcbLinks) (offset v : Int) : CcbLinks :=
  { c with element := Function.update c.element offset { c.element offset with next := v } }

/-- Write both links of the element at `offset`. -/
def setElement (c : CcbLinks) (offset : Int) (v : SlotListElement) : CcbLinks :=
  { c with element := Function.update c.element offset v }

/-- Write a list header. -/
def setList (c : CcbLinks) (list : SlotListName) (v : SlotList) : CcbLinks :=
  { c with lists := Function.update c.lists list v }

@[simp] theorem setPrev_lists (c : CcbLinks) (o v : Int) : (c.setPrev o v).lists = c.lists := rfl
@[simp] theorem setNext_lists (c : CcbLinks) (o v : Int) : (c.setNext o v).lists = c.lists := rfl
@[simp] theorem setElement_lists (c : CcbLinks) (o : Int) (v : SlotListElement) :
    (c.setElement o v).lists = c.lists := rfl
@[simp] theorem setList_element (c : CcbLinks) (l : SlotListName) (v : SlotList) :
    (c.setList l v).element = c.element := rfl

theorem setPrev_element (c : CcbLinks) (o v x : Int) :
    (c.setPrev o v).element x = if x = o then { c.element x with prev := v } else c.element x := by
  by_cases h : x = o <;> simp [setPrev, Function.update, h]

theorem setNext_element (c : CcbLinks) (o v x : Int) :
    (c.setNext o v).element x = if x = o then { c.element x with next := v } else c.element x := by
  by_cases h : x = o <;> simp [setNext, Function.update, h]

theorem setElement_element (c : CcbLinks) (o : Int) (v : SlotListElement) (x : Int) :
    (c.setElement o v).element x = if x = o then v else c.element x := by
  by_cases h : x = o <;> simp [setElement, Function.update, h]

theorem setList_lists (c : CcbLinks) (l : SlotListName) (v : SlotList) (l' : SlotListName) :
    (c.setList l v).lists l' = if l' = l then v else c.lists l' := by
  by_cases h : l' = l <;> simp [setList, Function.update, h]

end CcbLinks

open CcbLinks

/-! ## The list primitives -/

/-- `Channel::ListInsertAtEnd(SlotList *list, SlotListElement *e)`, with `e` at
offset `e`. -/
def listInsertAtEnd (c : CcbLinks) (list : SlotListName) (e : Int) : CcbLinks :=
  let offset := e
  if (c.lists list).last = 0 then
    c.setList list { first := offset, last := offset }
  else
    let c := c.setNext (c.lists list).last offset
    let c := c.setPrev e (c.lists list).last
    c.setList list { c.lists list with last := offset }

/-- `Channel::ListInit`. -/
def listInit (c : CcbLinks) (list : SlotListName) : CcbLinks :=
  c.setList list { first := 0, last := 0 }

/-- `Channel::ListElementInit`. -/
def listElementInit (c : CcbLinks) (e : Int) : CcbLinks :=
  c.setElement e { prev := 0, next := 0 }

/-- The first statement of `ListRemove`: `e`'s predecessor, or the header when
there is none, skips `e`. -/
def unlinkPrev (c : CcbLinks) (list : SlotListName) (e : Int) : CcbLinks :=
  if (c.element e).prev = 0 then c.setList list { c.lists list with first := (c.element e).next }
  else c.setNext (c.element e).prev (c.element e).next

/-- The second statement of `ListRemove`: `e`'s successor, or the header when
there is none, skips `e`. -/
def unlinkNext (c : CcbLinks) (list : SlotListName) (e : Int) : CcbLinks :=
  if (c.element e).next = 0 then c.setList list { c.lists list with last := (c.element e).prev }
  else c.setPrev (c.element e).next (c.element e).prev

/-- `Channel::ListRemove(SlotList *list, SlotListElement *e)`, with `e` at offset
`e`: the second statement reads `e`'s links from the store the first one left. -/
def listRemove (c : CcbLinks) (list : SlotListName) (e : Int) : CcbLinks :=
  (unlinkNext (unlinkPrev c list e) list e).setElement e { prev := 0, next := 0 }

/-- `Channel::AddToBusyList`. -/
def addToBusyList (c : CcbLinks) (slot : Int) : CcbLinks := listInsertAtEnd c .busyList slot

/-- `Channel::AddToActiveList`. -/
def addToActiveList (c : CcbLinks) (slot : Int) : CcbLinks := listInsertAtEnd c .activeList slot

/-! ## What each primitive writes -/

section Spec

variable (c : CcbLinks) (list : SlotListName) (e : Int)

theorem unlinkPrev_element (x : Int) :
    (unlinkPrev c list e).element x =
      if x = (c.element e).prev ∧ (c.element e).prev ≠ 0 then
        { c.element x with next := (c.element e).next }
      else c.element x := by
  by_cases hp : (c.element e).prev = 0 <;> simp [unlinkPrev, hp, setNext_element]

theorem unlinkNext_element (x : Int) :
    (unlinkNext c list e).element x =
      if x = (c.element e).next ∧ (c.element e).next ≠ 0 then
        { c.element x with prev := (c.element e).prev }
      else c.element x := by
  by_cases hn : (c.element e).next = 0 <;> simp [unlinkNext, hn, setPrev_element]

/-- `ListRemove` unlinks `e` between its neighbours `p` and `n` and clears it,
provided `e` is not its own predecessor. -/
theorem listRemove_element (hp : (c.element e).prev ≠ e) (x : Int) :
    (listRemove c list e).element x =
      if x = e then { prev := 0, next := 0 }
      else
        { prev := if x = (c.element e).next ∧ (c.element e).next ≠ 0 then (c.element e).prev
            else (c.element x).prev,
          next := if x = (c.element e).prev ∧ (c.element e).prev ≠ 0 then (c.element e).next
            else (c.element x).next } := by
  have he : (unlinkPrev c list e).element e = c.element e := by
    simp [unlinkPrev_element, Ne.symm hp]
  by_cases hxe : x = e
  · simp [listRemove, setElement_element, hxe]
  · simp only [listRemove, setElement_element, hxe, if_false, unlinkNext_element, he,
      unlinkPrev_element]
    split_ifs <;> simp_all

theorem listRemove_lists (l : SlotListName) :
    (listRemove c list e).lists l =
      if l = list then
        { first := if (c.element e).prev = 0 then (c.element e).next else (c.lists list).first,
          last := if ((unlinkPrev c list e).element e).next = 0 then
              ((unlinkPrev c list e).element e).prev
            else (c.lists list).last }
      else c.lists l := by
  by_cases hp : (c.element e).prev = 0 <;>
    by_cases hn : ((unlinkPrev c list e).element e).next = 0 <;> by_cases hl : l = list <;>
    simp_all [listRemove, unlinkNext, unlinkPrev, setList_lists]

/-- `ListInsertAtEnd` links `e` after the old last node `L` when there is one. -/
theorem listInsertAtEnd_element (x : Int) :
    (listInsertAtEnd c list e).element x =
      if (c.lists list).last = 0 then c.element x
      else
        { prev := if x = e then (c.lists list).last else (c.element x).prev,
          next := if x = (c.lists list).last then e else (c.element x).next } := by
  by_cases hL : (c.lists list).last = 0
  · simp [listInsertAtEnd, hL]
  · simp only [listInsertAtEnd, hL, if_false, setList_element, setPrev_element, setNext_element,
      setNext_lists]
    split_ifs <;> simp_all

theorem listInsertAtEnd_lists (l : SlotListName) :
    (listInsertAtEnd c list e).lists l =
      if l = list then
        (if (c.lists list).last = 0 then { first := e, last := e }
          else { first := (c.lists list).first, last := e })
      else c.lists l := by
  by_cases hL : (c.lists list).last = 0 <;> by_cases hl : l = list <;>
    simp_all [listInsertAtEnd, setList_lists]

end Spec

/-! ## The sequence a header represents -/

/-- `Linked el p xs n`: following the store `el`, the offsets `xs` are linked in
order, the first one's `prev` is `p` and the last one's `next` is `n`. -/
def Linked (el : Int → SlotListElement) : Int → List Int → Int → Prop
  | _, [], _ => True
  | p, x :: xs, n => (el x).prev = p ∧ (el x).next = xs.head?.getD n ∧ Linked el x xs n

/-- The header of `list` represents the duplicate-free sequence `s`: `first`
and `last` are its head and tail (`0` when empty), and every node's links are
its neighbours in `s` (`0` at the ends). -/
structure Represents (c : CcbLinks) (list : SlotListName) (s : List Int) : Prop where
  nodup : s.Nodup
  first : (c.lists list).first = s.head?.getD 0
  last : (c.lists list).last = s.getLast?.getD 0
  linked : Linked c.element 0 s 0

@[simp] theorem linked_nil (el : Int → SlotListElement) (p n : Int) : Linked el p [] n := trivial

@[simp] theorem linked_cons (el : Int → SlotListElement) (p x : Int) (xs : List Int) (n : Int) :
    Linked el p (x :: xs) n ↔
      (el x).prev = p ∧ (el x).next = xs.head?.getD n ∧ Linked el x xs n := Iff.rfl

/-- A linked sequence splits at every cut point. -/
theorem linked_append (el : Int → SlotListElement) (xs ys : List Int) (p n : Int) :
    Linked el p (xs ++ ys) n ↔
      Linked el p xs (ys.head?.getD n) ∧ Linked el (xs.getLast?.getD p) ys n := by
  induction xs generalizing p with
  | nil => simp
  | cons x xs ih =>
    rw [List.cons_append, linked_cons, linked_cons, ih, List.getLast?_cons]
    cases xs <;> simp [and_assoc]

/-- Only the nodes of a sequence matter to its links. -/
theorem linked_congr {el el' : Int → SlotListElement} {xs : List Int}
    (h : ∀ x ∈ xs, el' x = el x) (p n : Int) : Linked el' p xs n ↔ Linked el p xs n := by
  induction xs generalizing p with
  | nil => simp
  | cons x xs ih =>
    simp only [linked_cons, h x (List.mem_cons_self x xs),
      ih fun y hy => h y (List.mem_cons_of_mem x hy)]

/-- Rewriting the `next` link of a sequence's last node retargets its end. -/
theorem linked_retarget_last {el el' : Int → SlotListElement} {p n n' : Int} {xs : List Int}
    (hl : Linked el p xs n) (hnd : xs.Nodup)
    (hsame : ∀ x ∈ xs, x ≠ xs.getLast?.getD p → el' x = el x)
    (hlast : xs ≠ [] → (el' (xs.getLast?.getD p)).prev = (el (xs.getLast?.getD p)).prev ∧
      (el' (xs.getLast?.getD p)).next = n') :
    Linked el' p xs n' := by
  induction xs generalizing p with
  | nil => trivial
  | cons x xs ih =>
    obtain ⟨hprev, hnext, hrest⟩ := hl
    rw [List.nodup_cons] at hnd
    cases xs with
    | nil =>
      obtain ⟨h1, h2⟩ := hlast (List.cons_ne_nil x [])
      simp_all
    | cons y ys =>
      have hlastmem : ys.getLast?.getD y ∈ y :: ys := by
        simpa using List.getLastD_mem_cons ys y
      have hx : el' x = el x := hsame x (List.mem_cons_self _ _) (by
        simp only [List.getLast?_cons, Option.getD_some]
        exact fun h => hnd.1 (h ▸ hlastmem))
      refine ⟨by rw [hx, hprev], by rw [hx, hnext]; rfl, ih hrest hnd.2 ?_ ?_⟩
      · intro z hz hne
        exact hsame z (List.mem_cons_of_mem _ hz) (by simpa [List.getLast?_cons] using hne)
      · intro _
        simpa [List.getLast?_cons] using hlast (List.cons_ne_nil _ _)

/-- Rewriting the `prev` link of a sequence's first node changes where it starts. -/
theorem linked_retarget_first {el el' : Int → SlotListElement} {p p' n y : Int} {ys : List Int}
    (hl : Linked el p (y :: ys) n) (hprev : (el' y).prev = p')
    (hnext : (el' y).next = (el y).next) (hsame : ∀ z ∈ ys, el' z = el z) :
    Linked el' p' (y :: ys) n := by
  obtain ⟨-, hn, hrest⟩ := hl
  exact ⟨hprev, hnext.trans hn, (linked_congr hsame y n).2 hrest⟩

/-- A header keeps representing `s` when it and the nodes of `s` are left alone. -/
theorem Represents.frame {c c' : CcbLinks} {l : SlotListName} {s : List Int}
    (h : Represents c l s) (hl : c'.lists l = c.lists l)
    (hel : ∀ x ∈ s, c'.element x = c.element x) : Represents c' l s :=
  ⟨h.nodup, hl ▸ h.first, hl ▸ h.last, (linked_congr hel 0 0).2 h.linked⟩

/-! ## `ListRemove` and `ListInsertAtEnd` on a represented sequence -/

section Represent

variable {c : CcbLinks} {list : SlotListName} {e : Int}

/-- A header's end, read with `0` for none, is a node of a non-empty sequence. -/
theorem getLast?_getD_mem {xs : List Int} (h : xs ≠ []) : xs.getLast?.getD 0 ∈ xs := by
  rw [List.getLast?_eq_getLast xs h]; exact List.getLast_mem h

theorem head?_getD_mem {xs : List Int} (h : xs ≠ []) : xs.head?.getD 0 ∈ xs := by
  cases xs with
  | nil => exact absurd rfl h
  | cons x xs => exact List.mem_cons_self x xs

/-- On a sequence without `0`, an end reads `0` exactly when the sequence is
empty. -/
theorem getLast?_getD_eq_zero {xs : List Int} (h0 : 0 ∉ xs) :
    xs.getLast?.getD 0 = 0 ↔ xs = [] :=
  ⟨fun h => by_contra fun hne => h0 (h ▸ getLast?_getD_mem hne), by rintro rfl; rfl⟩

theorem head?_getD_eq_zero {xs : List Int} (h0 : 0 ∉ xs) : xs.head?.getD 0 = 0 ↔ xs = [] :=
  ⟨fun h => by_contra fun hne => h0 (h ▸ head?_getD_mem hne), by rintro rfl; rfl⟩

/-- An end of a sequence is `0` or on it, so no nonzero node off the sequence
reads as it. -/
theorem ne_getLast?_getD {xs : List Int} {x : Int} (hx0 : x ≠ 0) (hx : x ∉ xs) :
    x ≠ xs.getLast?.getD 0 := by
  rintro rfl
  by_cases h : xs = []
  · subst h; exact hx0 rfl
  · exact hx (getLast?_getD_mem h)

theorem ne_head?_getD {xs : List Int} {x : Int} (hx0 : x ≠ 0) (hx : x ∉ xs) :
    x ≠ xs.head?.getD 0 := by
  rintro rfl
  by_cases h : xs = []
  · subst h; exact hx0 rfl
  · exact hx (head?_getD_mem h)

/-- In a represented sequence `xs ++ e :: ys`, `e`'s neighbours are the last node
of `xs` and the first of `ys`, `0` at the ends. -/
theorem Represents.links_of_split {xs ys : List Int} (h : Represents c list (xs ++ e :: ys)) :
    (c.element e).prev = xs.getLast?.getD 0 ∧ (c.element e).next = ys.head?.getD 0 ∧
      Linked c.element 0 xs e ∧ Linked c.element e ys 0 := by
  obtain ⟨hxs, hprev, hnext, hys⟩ := (linked_append c.element xs (e :: ys) 0 0).1 h.linked
  exact ⟨hprev, hnext, hxs, hys⟩

/-- `ListRemove` of a node of the represented sequence `s` leaves the header
representing `s` without that node, and the node cleared. -/
theorem listRemove_represents {s : List Int} (h : Represents c list s) (he : e ∈ s)
    (h0 : 0 ∉ s) :
    Represents (listRemove c list e) list (s.erase e) ∧
      (listRemove c list e).element e = { prev := 0, next := 0 } ∧
      ∀ x ∉ s, (listRemove c list e).element x = c.element x := by
  obtain ⟨xs, ys, rfl⟩ := List.append_of_mem he
  obtain ⟨hprev, hnext, hlx, hly⟩ := h.links_of_split
  have hnd := h.nodup
  rw [List.nodup_append, List.nodup_cons] at hnd
  obtain ⟨hndx, ⟨heys, hndy⟩, hdisj⟩ := hnd
  have hexs : e ∉ xs := fun hx => hdisj hx (List.mem_cons_self e ys)
  have hxys : ∀ x ∈ xs, x ∉ ys := fun x hx hy => hdisj hx (List.mem_cons_of_mem e hy)
  simp only [List.mem_append, List.mem_cons, not_or] at h0
  have he0 : e ≠ 0 := fun h' => h0.2.1 h'.symm
  obtain ⟨P, hP⟩ : ∃ P, xs.getLast?.getD 0 = P := ⟨_, rfl⟩
  obtain ⟨N, hN⟩ : ∃ N, ys.head?.getD 0 = N := ⟨_, rfl⟩
  rw [hP] at hprev
  rw [hN] at hnext
  have hP0 : P = 0 ↔ xs = [] := hP ▸ getLast?_getD_eq_zero h0.1
  have hN0 : N = 0 ↔ ys = [] := hN ▸ head?_getD_eq_zero h0.2.2
  have hPx : P ≠ 0 → P ∈ xs := fun h' => hP ▸ getLast?_getD_mem (mt hP0.2 h')
  have hNy : N ≠ 0 → N ∈ ys := fun h' => hN ▸ head?_getD_mem (mt hN0.2 h')
  have hPe : P ≠ e := fun h' => ne_getLast?_getD he0 hexs (h'.symm.trans hP.symm)
  have hu : (unlinkPrev c list e).element e = c.element e := by
    rw [unlinkPrev_element, hprev]; simp [Ne.symm hPe]
  have hel := listRemove_element c list e (hprev ▸ hPe)
  rw [hprev, hnext] at hel
  refine ⟨⟨h.nodup.erase e, ?first, ?last, ?linked⟩, by rw [hel]; simp, ?frame⟩
  case frame =>
    intro x hx
    have hxe : x ≠ e := fun h' => hx (h' ▸ he)
    have hxP : ¬(x = P ∧ P ≠ 0) := fun ⟨h', hP'⟩ => hx (List.mem_append_left _ (h' ▸ hPx hP'))
    have hxN : ¬(x = N ∧ N ≠ 0) := fun ⟨h', hN'⟩ =>
      hx (List.mem_append_right _ (List.mem_cons_of_mem e (h' ▸ hNy hN')))
    rw [hel x, if_neg hxe, if_neg hxP, if_neg hxN]
  case first =>
    rw [listRemove_lists, if_pos rfl, hprev, hnext, List.erase_append_right _ hexs,
      List.erase_cons_head]
    by_cases hx : xs = []
    · subst hx; simp [hP0.2 rfl, ← hN]
    · obtain ⟨x, xs', rfl⟩ := List.exists_cons_of_ne_nil hx
      simp [mt hP0.1 hx, h.first]
  case last =>
    rw [listRemove_lists, if_pos rfl, hu, hprev, hnext, List.erase_append_right _ hexs,
      List.erase_cons_head]
    by_cases hy : ys = []
    · subst hy; simp [hN0.2 rfl, ← hP]
    · obtain ⟨y, ys', rfl⟩ := List.exists_cons_of_ne_nil hy
      simp only [mt hN0.1 hy, if_false, h.last, List.getLast?_append, List.getLast?_cons]
      simp
  case linked =>
    rw [List.erase_append_right _ hexs, List.erase_cons_head, linked_append, hP, hN]
    refine ⟨linked_retarget_last hlx hndx ?_ ?_, ?_⟩
    · intro x hx hxP
      have hxN : x ≠ N := fun h' =>
        ne_head?_getD (ne_of_mem_of_not_mem hx h0.1) (hxys x hx) (h'.trans hN.symm)
      rw [hel x, hP] at *
      simp [ne_of_mem_of_not_mem hx hexs, hxP, hxN]
    · intro hx
      have hP0' : P ≠ 0 := mt hP0.1 hx
      have hPN : P ≠ N := fun h' => ne_head?_getD hP0' (hxys P (hPx hP0')) (h'.trans hN.symm)
      rw [hP, hel P]
      simp [hPe, hP0', hPN]
    · cases ys with
      | nil => trivial
      | cons y ys' =>
        have hyN : y = N := by simpa using hN
        have hy0 : y ≠ 0 := fun h' => h0.2.2 (h' ▸ List.mem_cons_self y ys')
        have hyP : y ≠ P := fun h' =>
          ne_getLast?_getD hy0 (fun hy => hxys y hy (List.mem_cons_self y ys')) (h'.trans hP.symm)
        refine linked_retarget_first hly ?_ ?_ ?_
        · rw [hel y]; simp [ne_of_mem_of_not_mem (List.mem_cons_self y ys') heys, ← hyN, hy0]
        · rw [hel y]; simp [ne_of_mem_of_not_mem (List.mem_cons_self y ys') heys, hyP]
        · intro z hz
          have hzy : z ≠ y := fun h' => (List.nodup_cons.1 hndy).1 (h' ▸ hz)
          have hzP : z ≠ P := fun h' =>
            ne_getLast?_getD (ne_of_mem_of_not_mem (List.mem_cons_of_mem y hz) h0.2.2)
              (fun hz' => hxys z hz' (List.mem_cons_of_mem y hz)) (h'.trans hP.symm)
          rw [hel z]
          simp [ne_of_mem_of_not_mem (List.mem_cons_of_mem y hz) heys, ← hyN, hzy, hzP]

/-- `ListInsertAtEnd` of a cleared node outside the represented sequence `t`
leaves the header representing `t` with the node appended. -/
theorem listInsertAtEnd_represents {t : List Int} (h : Represents c list t) (he : e ∉ t)
    (h0 : 0 ∉ t) (hel : c.element e = { prev := 0, next := 0 }) :
    Represents (listInsertAtEnd c list e) list (t ++ [e]) := by
  have hnd : (t ++ [e]).Nodup :=
    List.nodup_append.2 ⟨h.nodup, List.nodup_singleton e, List.disjoint_singleton.2 he⟩
  have hins := listInsertAtEnd_element c list e
  cases t with
  | nil =>
    have hL : (c.lists list).last = 0 := h.last
    refine ⟨hnd, ?_, ?_, ?_⟩ <;>
      simp [listInsertAtEnd_lists, hL, hins, hel]
  | cons y ys =>
    obtain ⟨L, hL⟩ : ∃ L, (y :: ys).getLast?.getD 0 = L := ⟨_, rfl⟩
    have hLmem : L ∈ y :: ys := hL ▸ getLast?_getD_mem (List.cons_ne_nil y ys)
    have hL0 : L ≠ 0 := ne_of_mem_of_not_mem hLmem h0
    have hLe : L ≠ e := ne_of_mem_of_not_mem hLmem he
    have hlast : (c.lists list).last = L := h.last.trans hL
    have hlastE : (y :: ys ++ [e]).getLast?.getD 0 = e := by rw [List.getLast?_concat]; rfl
    refine ⟨hnd, ?_, ?_, ?_⟩
    · simp [listInsertAtEnd_lists, hlast, hL0, h.first]
    · rw [hlastE]; simp [listInsertAtEnd_lists, hlast, hL0]
    · rw [linked_append, hL]
      refine ⟨linked_retarget_last h.linked h.nodup ?_ ?_, ?_⟩
      · intro x hx hxL
        rw [hL] at hxL
        simp [hins, hlast, hL0, hxL, ne_of_mem_of_not_mem hx he]
      · intro _
        simp [hins, hlast, hL0, hLe, hL]
      · simp [hins, hlast, hL0, Ne.symm hLe, hel]

/-- `ListInsertAtEnd` onto a represented sequence `t` writes only `e` and nodes
of `t`. -/
theorem listInsertAtEnd_element_of_not_mem {t : List Int} (h : Represents c list t) {x : Int}
    (hx : x ∉ t) (hxe : x ≠ e) : (listInsertAtEnd c list e).element x = c.element x := by
  rw [listInsertAtEnd_element]
  by_cases hL : (c.lists list).last = 0
  · rw [if_pos hL]
  · have hLmem : (c.lists list).last ∈ t :=
      h.last ▸ getLast?_getD_mem fun ht => hL (by rw [h.last, ht]; rfl)
    have hxL : x ≠ (c.lists list).last := fun h' => hx (h' ▸ hLmem)
    simp [hL, hxe, hxL]

end Represent

/-! ## Three lists that partition the slots -/

/-- The element offsets of the slot table: distinct, and never the null offset. -/
structure SlotOffsets where
  offsets : List Int
  nodup : offsets.Nodup
  zero_not_mem : 0 ∉ offsets

/-- The headers represent the sequences `seqs`, and these partition the slots:
every slot is on exactly one list. -/
structure WellFormed (c : CcbLinks) (slots : SlotOffsets) (seqs : SlotListName → List Int) :
    Prop where
  represents : ∀ l, Represents c l (seqs l)
  mem_slots : ∀ x, x ∈ slots.offsets ↔ ∃ l, x ∈ seqs l
  disjoint : ∀ l l' x, x ∈ seqs l → x ∈ seqs l' → l = l'

/-- Moving `e` off list `a` onto the end of list `b`, on the sequences: `b` gets
its sequence without `e`, then `e`; `a`, when it is not `b`, loses `e`; the
third list keeps its sequence. -/
def moveSeqs {α : Type} [DecidableEq α] (seqs : SlotListName → List α) (a b : SlotListName)
    (e : α) : SlotListName → List α := fun l =>
  if l = b then (seqs l).erase e ++ [e] else if l = a then (seqs l).erase e else seqs l

/-- Sequences on which no slot appears twice: each is duplicate free, and no
slot is on two of them. -/
structure DisjointSeqs {α : Type} (seqs : SlotListName → List α) : Prop where
  nodup : ∀ l, (seqs l).Nodup
  disjoint : ∀ l l' x, x ∈ seqs l → x ∈ seqs l' → l = l'

section DisjointSeqs

variable {α : Type} [DecidableEq α] {seqs : SlotListName → List α} {a : SlotListName} {e : α}

/-- After a move, `x` is on list `l` when it is `e` and `l` is the target, or
when it was there before and is not `e`. -/
theorem DisjointSeqs.mem_moveSeqs (h : DisjointSeqs seqs) (he : e ∈ seqs a) (b l : SlotListName)
    (x : α) : x ∈ moveSeqs seqs a b e l ↔ (l = b ∧ x = e) ∨ (x ≠ e ∧ x ∈ seqs l) := by
  have hnd := h.nodup l
  by_cases hb : l = b
  · subst hb
    simp only [moveSeqs, if_true, List.mem_append, hnd.mem_erase_iff, List.mem_singleton,
      true_and]
    tauto
  · by_cases ha : l = a
    · subst ha
      simp [moveSeqs, hb, hnd.mem_erase_iff]
    · have hel : e ∉ seqs l := fun h' => ha (h.disjoint l a e h' he)
      simp only [moveSeqs, hb, ha, if_false, false_and, false_or]
      exact ⟨fun h' => ⟨fun h'' => hel (h'' ▸ h'), h'⟩, And.right⟩

/-- `e` is on `a` only, so a move erases it from every list and appends it to
the target. -/
theorem DisjointSeqs.moveSeqs_eq (h : DisjointSeqs seqs) (he : e ∈ seqs a) (b l : SlotListName) :
    moveSeqs seqs a b e l = if l = b then (seqs l).erase e ++ [e] else (seqs l).erase e := by
  unfold moveSeqs
  split_ifs with hb ha
  · rfl
  · rfl
  · exact (List.erase_of_not_mem fun h' => ha (h.disjoint l a e h' he)).symm

/-- A move keeps every slot on at most one list. -/
theorem DisjointSeqs.move (h : DisjointSeqs seqs) (he : e ∈ seqs a) (b : SlotListName) :
    DisjointSeqs (moveSeqs seqs a b e) := by
  refine ⟨fun l => ?_, fun l l' x hl hl' => ?_⟩
  · by_cases hb : l = b
    · simp only [moveSeqs, hb, if_true]
      exact ((h.nodup b).erase e).append (List.nodup_singleton e)
        (by simp [List.disjoint_singleton, (h.nodup b).mem_erase_iff])
    · simp only [moveSeqs, hb, if_false]
      split_ifs
      · exact (h.nodup l).erase e
      · exact h.nodup l
  · rw [h.mem_moveSeqs he] at hl hl'
    rcases hl with ⟨rfl, rfl⟩ | ⟨hxe, hl⟩ <;> rcases hl' with ⟨rfl, hxe'⟩ | ⟨hxe', hl'⟩
    · rfl
    · exact absurd rfl hxe'
    · exact absurd hxe' hxe
    · exact h.disjoint l l' x hl hl'

end DisjointSeqs

/-! ## Allocation -/

/-- Modelled from the spec: channel allocation (`Channel::Allocate`, not in the
source) runs `ListInit` on the three headers, then `ListElementInit` and
`ListInsertAtEnd(&free_list, ...)` on every slot in order. -/
def allocateLists (c0 : CcbLinks) (slots : List Int) : CcbLinks :=
  slots.foldl (fun c x => listInsertAtEnd (listElementInit c x) .freeList x)
    (listInit (listInit (listInit c0 .activeList) .busyList) .freeList)

/-- The sequences of a freshly allocated CCB: every slot is free. -/
def allocatedSeqs (slots : List Int) : SlotListName → List Int := fun l =>
  if l = .freeList then slots else []

theorem represents_nil {c : CcbLinks} {l : SlotListName}
    (h : c.lists l = { first := 0, last := 0 }) : Represents c l [] :=
  ⟨List.nodup_nil, by simp [h], by simp [h], trivial⟩

/-- The allocation loop appends the remaining slots to the free list and leaves
the other two lists empty. -/
theorem allocate_loop_represents (rest : List Int) :
    ∀ (c : CcbLinks) (done : List Int), (done ++ rest).Nodup → 0 ∉ done ++ rest →
      Represents c .freeList done →
      c.lists .activeList = { first := 0, last := 0 } →
      c.lists .busyList = { first := 0, last := 0 } →
      let c' := rest.foldl (fun c x => listInsertAtEnd (listElementInit c x) .freeList x) c
      Represents c' .freeList (done ++ rest) ∧
        c'.lists .activeList = { first := 0, last := 0 } ∧
        c'.lists .busyList = { first := 0, last := 0 } := by
  induction rest with
  | nil => intro c done _ _ hf ha hb; simpa using ⟨hf, ha, hb⟩
  | cons x rest ih =>
    intro c done hnd h0 hf ha hb
    have hx : x ∉ done := fun h => (List.nodup_append.1 hnd).2.2 h (List.mem_cons_self x rest)
    have hinit : Represents (listElementInit c x) .freeList done :=
      hf.frame rfl fun y hy => by
        simp [listElementInit, setElement_element, ne_of_mem_of_not_mem hy hx]
    have hins := listInsertAtEnd_represents hinit hx
      (fun h => h0 (List.mem_append_left _ h)) (by simp [listElementInit, setElement_element])
    have := ih (listInsertAtEnd (listElementInit c x) .freeList x) (done ++ [x])
      (by simpa using hnd) (by simpa using h0) hins
      (by simp [listInsertAtEnd_lists, listElementInit, ha])
      (by simp [listInsertAtEnd_lists, listElementInit, hb])
    simpa using this

/-- A freshly allocated CCB is well formed, with every slot on the free list. -/
theorem allocate_wellFormed (c0 : CcbLinks) (slots : SlotOffsets) :
    WellFormed (allocateLists c0 slots.offsets) slots (allocatedSeqs slots.offsets) := by
  have hinit := allocate_loop_represents slots.offsets
    (listInit (listInit (listInit c0 .activeList) .busyList) .freeList) []
    (by simpa using slots.nodup) (by simpa using slots.zero_not_mem)
    (represents_nil (by simp [listInit, setList_lists]))
    (by simp [listInit, setList_lists]) (by simp [listInit, setList_lists])
  obtain ⟨hf, ha, hb⟩ := hinit
  refine ⟨fun l => ?_, fun x => ?_, fun l l' x hl hl' => ?_⟩
  · cases l
    · exact represents_nil ha
    · exact represents_nil hb
    · simpa [allocatedSeqs] using hf
  · constructor
    · intro hx; exact ⟨.freeList, by simpa [allocatedSeqs] using hx⟩
    · rintro ⟨l, hl⟩; cases l <;> simp_all [allocatedSeqs]
  · cases l <;> cases l' <;> simp_all [allocatedSeqs]

section Move

variable {c : CcbLinks} {slots : SlotOffsets} {seqs : SlotListName → List Int}

theorem WellFormed.zero_not_mem (hwf : WellFormed c slots seqs) (l : SlotListName) :
    0 ∉ seqs l := fun h => slots.zero_not_mem ((hwf.mem_slots 0).2 ⟨l, h⟩)

theorem WellFormed.disjointSeqs (hwf : WellFormed c slots seqs) : DisjointSeqs seqs :=
  ⟨fun l => (hwf.represents l).nodup, hwf.disjoint⟩

/-- `ListRemove(A, e)` takes `e` off every sequence (it is on `A` only) and
clears it, leaving the other headers and every node off `A` as they were. -/
theorem WellFormed.remove (hwf : WellFormed c slots seqs) {a : SlotListName} {e : Int}
    (he : e ∈ seqs a) :
    (∀ l, Represents (listRemove c a e) l ((seqs l).erase e)) ∧
      (listRemove c a e).element e = { prev := 0, next := 0 } ∧
      (∀ l, l ≠ a → (listRemove c a e).lists l = c.lists l) ∧
      ∀ x ∉ seqs a, (listRemove c a e).element x = c.element x := by
  obtain ⟨hRa, hcleared, hframe⟩ :=
    listRemove_represents (hwf.represents a) he (hwf.zero_not_mem a)
  have hlists : ∀ l, l ≠ a → (listRemove c a e).lists l = c.lists l := fun l hl => by
    simp [listRemove_lists, hl]
  refine ⟨fun l => ?_, hcleared, hlists, hframe⟩
  by_cases hl : l = a
  · subst hl; exact hRa
  · rw [List.erase_of_not_mem fun h' => hl (hwf.disjoint l a e h' he)]
    exact (hwf.represents l).frame (hlists l hl) fun x hx =>
      hframe x fun h' => hl (hwf.disjoint l a x hx h')

/-- `ListRemove(A, e)` followed by `ListInsertAtEnd(B, e)` refines the move on
the sequences: the CCB is well formed again for `moveSeqs`. -/
theorem WellFormed.move (hwf : WellFormed c slots seqs) {a : SlotListName} {e : Int}
    (he : e ∈ seqs a) (b : SlotListName) :
    WellFormed (listInsertAtEnd (listRemove c a e) b e) slots (moveSeqs seqs a b e) := by
  obtain ⟨hR1, hcleared, -, -⟩ := hwf.remove he
  have hnd := hwf.disjointSeqs.nodup
  refine ⟨fun l => ?_, fun x => ?_, (hwf.disjointSeqs.move he b).disjoint⟩
  · rw [hwf.disjointSeqs.moveSeqs_eq he b l]
    split_ifs with hb
    · subst hb
      exact listInsertAtEnd_represents (hR1 l) (hnd l).not_mem_erase
        (fun h => hwf.zero_not_mem l (List.mem_of_mem_erase h)) hcleared
    · -- a node of `l` other than `e` is not on `b`, so the insertion leaves it
      refine (hR1 l).frame (by simp [listInsertAtEnd_lists, hb]) fun x hx => ?_
      exact listInsertAtEnd_element_of_not_mem (hR1 b)
        (fun h => hb (hwf.disjoint l b x (List.mem_of_mem_erase hx) (List.mem_of_mem_erase h)))
        (fun hxe => (hnd l).not_mem_erase (hxe ▸ hx))
  · rw [hwf.mem_slots]
    simp only [hwf.disjointSeqs.mem_moveSeqs he b]
    constructor
    · rintro ⟨l, hl⟩
      by_cases hxe : x = e
      · exact ⟨b, .inl ⟨rfl, hxe⟩⟩
      · exact ⟨l, .inr ⟨hxe, hl⟩⟩
    · rintro ⟨l, ⟨-, rfl⟩ | ⟨-, hl⟩⟩
      · exact ⟨a, he⟩
      · exact ⟨l, hl⟩

/-- The list that is neither source nor target of the move keeps its header and
its nodes. -/
theorem WellFormed.move_frame (hwf : WellFormed c slots seqs) {a : SlotListName} {e : Int}
    (he : e ∈ seqs a) (b l : SlotListName) (ha : l ≠ a) (hb : l ≠ b) :
    (listInsertAtEnd (listRemove c a e) b e).lists l = c.lists l ∧
      ∀ x ∈ seqs l, (listInsertAtEnd (listRemove c a e) b e).element x = c.element x := by
  obtain ⟨hR1, -, hlists, hframe⟩ := hwf.remove he
  refine ⟨by simp [listInsertAtEnd_lists, hb, hlists l ha], fun x hx => ?_⟩
  have hxa : x ∉ seqs a := fun h => ha (hwf.disjoint l a x hx h)
  rw [listInsertAtEnd_element_of_not_mem (hR1 b)
    (fun h => hb (hwf.disjoint l b x hx (List.mem_of_mem_erase h))) (fun hxe => hxa (hxe ▸ he)),
    hframe x hxa]

/-- `ListRemove(A, e)` followed by `ListInsertAtEnd(B, e)`, for a slot `e` on
list `A` of a well-formed CCB and any list `B` (`A` included), leaves `A`
representing its sequence without `e` in the old order, `B` its sequence without
`e` followed by `e`, the third list's header and nodes untouched, and every slot
on exactly one list. -/
theorem listRemove_listInsertAtEnd_wellFormed (hwf : WellFormed c slots seqs)
    {a : SlotListName} {e : Int} (he : e ∈ seqs a) (b : SlotListName) :
    WellFormed (listInsertAtEnd (listRemove c a e) b e) slots (moveSeqs seqs a b e) ∧
      ∀ l, l ≠ a → l ≠ b →
        (listInsertAtEnd (listRemove c a e) b e).lists l = c.lists l ∧
        ∀ x ∈ seqs l, (listInsertAtEnd (listRemove c a e) b e).element x = c.element x :=
  ⟨hwf.move he b, hwf.move_frame he b⟩

/-- A two-slot channel moves its first free slot to the busy list. -/
theorem listRemove_listInsertAtEnd_two_slots :
    WellFormed
      (listInsertAtEnd (listRemove (allocateLists ⟨fun _ => ⟨0, 0⟩, fun _ => ⟨0, 0⟩⟩ [64, 128])
        .freeList 64) .busyList 64)
      ⟨[64, 128], by decide, by decide⟩
      (moveSeqs (allocatedSeqs [64, 128]) .freeList .busyList 64) :=
  (listRemove_listInsertAtEnd_wellFormed
    (allocate_wellFormed _ ⟨[64, 128], by decide, by decide⟩) (by decide) .busyList).1

end Move

/-! ## Where the slots' elements lie -/

/-- Where each slot's `SlotListElement` sits in the CCB, as
`ToCCBOffset(&slots[i].element)`: distinct slots at distinct offsets, none at
the null offset 0. -/
structure SlotPlacement where
  off : Nat → Int
  injective : Function.Injective off
  ne_zero : ∀ i, off i ≠ 0

namespace SlotPlacement

/-- Slots laid out as the array `slots[]` at the end of the control block:
`slots[0]` at `base`, each next one `stride` bytes further. -/
def array (base stride : Nat) (hbase : 0 < base) (hstride : 0 < stride) : SlotPlacement where
  off i := base + stride * i
  injective i j h := by
    have : (stride : Int) * i = stride * j := Int.add_left_cancel h
    exact Nat.eq_of_mul_eq_mul_left hstride (by exact_mod_cast this)
  ne_zero i := by
    show (base : Int) + stride * i ≠ 0
    have : (0 : Int) ≤ stride * i := by exact_mod_cast Nat.zero_le (stride * i)
    omega

/-- The offsets of the first `numSlots` slots, in slot order. -/
def offsets (p : SlotPlacement) (numSlots : Nat) : SlotOffsets where
  offsets := (List.range numSlots).map p.off
  nodup := (List.nodup_range numSlots).map p.injective
  zero_not_mem := by simp [p.ne_zero]

end SlotPlacement

end Subspace
