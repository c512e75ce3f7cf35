import Subspace.Channel.Reliable
set_option autoImplicit false

/-!
# Client: reading a message (`ReadMessageInternal`, `FindMessageInternal`)

`Client::ReadMessageInternal` moves the subscriber to the next slot
(`kReadNext`) or to the newest one (`kReadNewest`), reports a gap in the
ordinals to the subscriber's dropped-message callback, and calls itself again
when the slot holds a reliable publisher's activation message, unless the
caller asked to see those.  The recursion is modelled with `fuel`: each call
consumes one unit, and `none` means the fuel ran out.

The results below settle what that recursion does on every active list: in
`kReadNext` mode it ends once it has walked past the slots after the
subscriber's, and returns an empty message or one that is not an activation
message; in `kReadNewest` mode `LastSlot` returns the same tail slot on every
call, so the read never ends when that slot holds an activation message.  In either
mode, what a read without `pass_activation` returns is never an activation
message (`readMessageInternal_skips_activation`); `FindMessageInternal` makes
no such check.

The subscriber's accessors used by the read (`CurrentOrdinal`, `Timestamp`,
`GetCurrentBufferAddress`) are declared in the missing `client_channel.h`; they
read the slot the subscriber holds.
-/

namespace Subspace

/-- `ReadMode`. -/
inductive ReadMode
  | readNext
  | readNewest
  deriving DecidableEq, Repr

/-- `Message`: the empty `Message()`, or `length` bytes at the buffer of a slot
(`none` for `nullptr`) with their ordinal and timestamp. -/
inductive Message
  | empty
  | mk (length : Int) (buffer : Option Nat) (ordinal : Int) (timestamp : Nat)
  deriving DecidableEq, Repr

/-- What a read uses of a `Subscriber`: the slot it holds and whether it is
reliable. -/
structure Subscriber where
  slot : Option Nat
  reliable : Bool
  deriving DecidableEq, Repr

/-- The slot on which the subscriber holds a reliable reference: its slot when
it is reliable, none otherwise. -/
def Subscriber.reliableSlot (sub : Subscriber) : Option Nat :=
  if sub.reliable then sub.slot else none

/-- What a call of `ReadMessageInternal` leaves: the CCB, the subscriber, the
message it returns, and the calls it made to the dropped-message callback. -/
structure ReadOutcome (α : Type) where
  ccb : Ccb
  sub : Subscriber
  message : Message
  drops : List (α × Int)

/-- The message a read returns for the slot `ns` the subscriber now holds:
`Message(new_slot->message_size, GetCurrentBufferAddress(), CurrentOrdinal(),
Timestamp())`. -/
def Ccb.messageAt (c : Ccb) (ns : Nat) : Message :=
  .mk (c.slots ns).messageSize (some ns) (c.slots ns).ordinal (c.prefixes ns).timestamp

/-- Moving references leaves every slot's message as it was. -/
theorem Ccb.SameButRefs.messageAt {c c' : Ccb} (h : c.SameButRefs c') (t : Nat) :
    c'.messageAt t = c.messageAt t := by
  simp only [Ccb.messageAt, h.messageSize, h.ordinal, h.prefixes]

/-- `Client::GetCurrentOrdinal(sub)`: the ordinal of the slot the subscriber
holds, `-1` when it holds none.  `ReadMessageInternal` computes it the same way
as `last_ordinal`. -/
def Ccb.getCurrentOrdinal (c : Ccb) (sub : Subscriber) : Int :=
  match sub.slot with
  | none => -1
  | some s => (c.slots s).ordinal

theorem Ccb.getCurrentOrdinal_congr {c c' : Ccb} {sub : Subscriber}
    (h : ∀ x, sub.slot = some x → (c'.slots x).ordinal = (c.slots x).ordinal) :
    c'.getCurrentOrdinal sub = c.getCurrentOrdinal sub := by
  unfold Ccb.getCurrentOrdinal
  split
  · rfl
  · exact h _ ‹_›

/-- The `switch (mode)` of `ReadMessageInternal`: `NextSlot` or `LastSlot` on
the subscriber's slot. -/
def Ccb.readTarget (c : Ccb) (sub : Subscriber) : ReadMode → Ccb × Option Nat
  | .readNext => c.nextSlot sub.slot sub.reliable
  | .readNewest => c.lastSlot sub.slot sub.reliable

/-- `Client::ReadMessageInternal(subscriber, mode, pass_activation,
clear_trigger)`.  `callback` is the subscriber's entry of
`dropped_message_callbacks_`.  Clearing the poll fd and triggering the reliable
publishers touch only file descriptors and are left out. -/
def readMessageInternal {α : Type} (callback : Option α) :
    Nat → Ccb → Subscriber → ReadMode → Bool → Option (ReadOutcome α)
  | 0, _, _, _, _ => none
  | fuel + 1, c, sub, mode, passActivation =>
    let lastOrdinal := c.getCurrentOrdinal sub
    let next := c.readTarget sub mode
    match next.2 with
    | none => some ⟨next.1, sub, .empty, []⟩
    | some ns =>
      let c := next.1
      let sub := { sub with slot := some ns }
      let drops :=
        if lastOrdinal ≠ -1 ∧ (c.slots ns).ordinal ≠ lastOrdinal + 1 then
          callback.toList.map fun cb => (cb, (c.slots ns).ordinal - lastOrdinal)
        else []
      if (c.prefixes ns).isActivation && !passActivation then
        (readMessageInternal callback fuel c sub mode false).map
          fun r => { r with drops := drops ++ r.drops }
      else some ⟨c, sub, c.messageAt ns, drops⟩

/-- `Client::FindMessageInternal`, with `Subscriber::FindMessage` (missing) as
`FindActiveSlotByTimestamp` on the subscriber's slot followed by `SetSlot`. -/
def findMessageInternal (c : Ccb) (sub : Subscriber) (timestamp : Nat) :
    Ccb × Subscriber × Message :=
  match c.findActiveSlotByTimestamp sub.slot timestamp sub.reliable with
  | (c, none) => (c, sub, .empty)
  | (c, some ns) => (c, { sub with slot := some ns }, c.messageAt ns)

/-! ## One call of `ReadMessageInternal` -/

theorem sameButRefs_readTarget (c : Ccb) (sub : Subscriber) (mode : ReadMode) :
    Ccb.SameButRefs c (c.readTarget sub mode).1 := by
  cases mode
  · exact Ccb.sameButRefs_nextSlot c sub.slot sub.reliable
  · exact Ccb.sameButRefs_lastSlot c sub.slot sub.reliable

theorem Ccb.readTarget_of_none {c : Ccb} {sub : Subscriber} {mode : ReadMode}
    (h : (c.readTarget sub mode).2 = none) : (c.readTarget sub mode).1 = c := by
  cases mode <;> simp only [Ccb.readTarget, Ccb.nextSlot, Ccb.lastSlot] at h ⊢ <;>
    split at h <;> simp_all

/-- Both modes move the subscriber's reference to an active slot. -/
theorem Ccb.readTarget_of_some {c : Ccb} {sub : Subscriber} {mode : ReadMode} {ns : Nat}
    (h : (c.readTarget sub mode).2 = some ns) :
    (c.readTarget sub mode).1 = c.moveRef sub.slot ns sub.reliable ∧ ns ∈ c.activeList := by
  cases mode <;> simp only [Ccb.readTarget, Ccb.nextSlot, Ccb.lastSlot] at h ⊢ <;>
    split at h <;> simp only [Option.some.injEq, reduceCtorEq] at h <;> subst h
  · exact ⟨rfl, mem_of_mem_slotsAfter (List.mem_of_mem_head? ‹_›)⟩
  · exact ⟨rfl, List.mem_of_getLast?_eq_some ‹_›⟩

section Call

variable {α : Type} (callback : Option α) (fuel : Nat) (c : Ccb) (sub : Subscriber)
  (mode : ReadMode) (passActivation : Bool)

/-- With no slot to move to, the read returns the empty message. -/
theorem readMessageInternal_of_none (h : (c.readTarget sub mode).2 = none) :
    readMessageInternal callback (fuel + 1) c sub mode passActivation =
      some ⟨(c.readTarget sub mode).1, sub, .empty, []⟩ := by
  simp [readMessageInternal, h]

/-- Moving to slot `ns`, the read reports a gap to the callback and then either
returns `ns`'s message or, for an activation message, reads again from `ns`. -/
theorem readMessageInternal_of_some {ns : Nat} (h : (c.readTarget sub mode).2 = some ns) :
    readMessageInternal callback (fuel + 1) c sub mode passActivation =
      let c' := (c.readTarget sub mode).1
      let lastOrdinal := c.getCurrentOrdinal sub
      let drops :=
        if lastOrdinal ≠ -1 ∧ (c'.slots ns).ordinal ≠ lastOrdinal + 1 then
          callback.toList.map fun cb => (cb, (c'.slots ns).ordinal - lastOrdinal)
        else []
      if (c'.prefixes ns).isActivation && !passActivation then
        (readMessageInternal callback fuel c' { sub with slot := some ns } mode false).map
          fun r => { r with drops := drops ++ r.drops }
      else some ⟨c', { sub with slot := some ns }, c'.messageAt ns, drops⟩ := by
  simp only [readMessageInternal, h]

end Call

/-! ## What any read leaves -/

/-- What a call of `ReadMessageInternal` leaves, in either mode: only reference
counts change, the subscriber holds its old slot or an active one, and a
non-empty message is that of the slot it now holds. -/
structure ReadFrame {α : Type} (c : Ccb) (sub : Subscriber) (r : ReadOutcome α) : Prop where
  same : Ccb.SameButRefs c r.ccb
  refs : c.RefsOk sub.slot → r.ccb.RefsOk r.sub.slot
  reliableRefs : c.ReliableRefsOk sub.reliableSlot → r.ccb.ReliableRefsOk r.sub.reliableSlot
  slot : r.sub.slot = sub.slot ∨ ∃ t ∈ c.activeList, r.sub.slot = some t
  message : r.message = .empty ∨ ∃ t, r.sub.slot = some t ∧ r.message = r.ccb.messageAt t

theorem readMessageInternal_frame {α : Type} (callback : Option α) (mode : ReadMode) :
    ∀ (fuel : Nat) (c : Ccb) (sub : Subscriber) (passActivation : Bool) (r : ReadOutcome α),
      readMessageInternal callback fuel c sub mode passActivation = some r →
        ReadFrame c sub r := by
  intro fuel
  induction fuel with
  | zero => intro c sub _ r h; cases h
  | succ fuel ih =>
    intro c sub pa r h
    have hsame := sameButRefs_readTarget c sub mode
    cases ht : (c.readTarget sub mode).2 with
    | none =>
      rw [readMessageInternal_of_none callback fuel c sub mode pa ht] at h
      cases h
      have hc := (Ccb.readTarget_of_none ht).symm
      exact ⟨hsame, fun h => hc ▸ h, fun h => hc ▸ h, .inl rfl, .inl rfl⟩
    | some ns =>
      obtain ⟨hc', hns⟩ := Ccb.readTarget_of_some ht
      have hrefs : c.RefsOk sub.slot → (c.readTarget sub mode).1.RefsOk (some ns) :=
        fun h => hc' ▸ h.moveRef ns sub.reliable
      have hrel : c.ReliableRefsOk sub.reliableSlot →
          (c.readTarget sub mode).1.ReliableRefsOk { sub with slot := some ns }.reliableSlot :=
        fun h => hc' ▸ Ccb.ReliableRefsOk.moveRef h ns
      rw [readMessageInternal_of_some callback fuel c sub mode pa ht] at h
      by_cases hact : ((c.readTarget sub mode).1.prefixes ns).isActivation && !pa
      · rw [if_pos hact] at h
        obtain ⟨r', hr', rfl⟩ := Option.map_eq_some'.1 h
        have hf := ih _ _ false r' hr'
        refine ⟨hsame.trans hf.same, fun h => hf.refs (hrefs h),
          fun h => hf.reliableRefs (hrel h), .inr ?_, hf.message⟩
        rcases hf.slot with h | ⟨t, ht, h⟩
        · exact ⟨ns, hns, h⟩
        · exact ⟨t, hsame.activeList ▸ ht, h⟩
      · rw [if_neg hact, Option.some.injEq] at h
        subst h
        exact ⟨hsame, hrefs, hrel, .inr ⟨ns, hns, rfl⟩, .inr ⟨ns, rfl, rfl⟩⟩

/-! ## The references a read moves -/

/-- The reference counts of `c'` are those of `c` with one subscriber's
references moved from the slot `sub` holds to the slot `sub'` holds: one
`ref_count`, and one `reliable_ref_count` for a reliable subscriber. -/
def Ccb.RefsMoved (c c' : Ccb) (sub sub' : Subscriber) : Prop :=
  ∀ x, (c'.slots x).refCount + (if sub.slot = some x then 1 else 0) =
      (c.slots x).refCount + (if sub'.slot = some x then 1 else 0) ∧
    (c'.slots x).reliableRefCount + (if sub.reliableSlot = some x then 1 else 0) =
      (c.slots x).reliableRefCount + (if sub'.reliableSlot = some x then 1 else 0)

theorem Ccb.RefsMoved.refl (c : Ccb) (sub : Subscriber) : c.RefsMoved c sub sub :=
  fun _ => ⟨rfl, rfl⟩

theorem Ccb.RefsMoved.trans {c c' c'' : Ccb} {sub sub' sub'' : Subscriber}
    (h : c.RefsMoved c' sub sub') (h' : c'.RefsMoved c'' sub' sub'') : c.RefsMoved c'' sub sub'' :=
  fun x => by
    obtain ⟨h1, h2⟩ := h x
    obtain ⟨h3, h4⟩ := h' x
    exact ⟨by omega, by omega⟩

/-- `moveRef` takes the subscriber's references off its old slot and puts them
on `t`. -/
theorem Ccb.moveRef_counts (c : Ccb) (sub : Subscriber) (t : Nat) :
    c.RefsMoved (c.moveRef sub.slot t sub.reliable) sub { sub with slot := some t } := by
  intro x
  obtain ⟨slot, reliable⟩ := sub
  rw [Ccb.moveRef_refCount, Ccb.moveRef_reliableRefCount]
  cases reliable <;> simp only [Subscriber.reliableSlot, Option.some.injEq, if_true,
    if_false, true_and, false_and, Bool.false_eq_true, reduceCtorEq] <;> split_ifs <;>
    subst_vars <;> omega

/-- A read moves the subscriber's references with it. -/
theorem readMessageInternal_counts {α : Type} (callback : Option α) (mode : ReadMode) :
    ∀ (fuel : Nat) (c : Ccb) (sub : Subscriber) (passActivation : Bool) (r : ReadOutcome α),
      readMessageInternal callback fuel c sub mode passActivation = some r →
        r.sub.reliable = sub.reliable ∧ c.RefsMoved r.ccb sub r.sub := by
  intro fuel
  induction fuel with
  | zero => intro c sub _ r h; cases h
  | succ fuel ih =>
    intro c sub pa r h
    cases ht : (c.readTarget sub mode).2 with
    | none =>
      rw [readMessageInternal_of_none callback fuel c sub mode pa ht] at h
      cases h
      rw [Ccb.readTarget_of_none ht]
      exact ⟨rfl, .refl c sub⟩
    | some ns =>
      obtain ⟨hc', -⟩ := Ccb.readTarget_of_some ht
      rw [readMessageInternal_of_some callback fuel c sub mode pa ht] at h
      by_cases hact : ((c.readTarget sub mode).1.prefixes ns).isActivation && !pa
      · -- the recursive call starts from `ns`
        rw [if_pos hact] at h
        obtain ⟨r', hr', rfl⟩ := Option.map_eq_some'.1 h
        obtain ⟨hrel, hcnt⟩ := ih _ _ false r' hr'
        rw [hc'] at hcnt
        exact ⟨hrel, (c.moveRef_counts sub ns).trans hcnt⟩
      · rw [if_neg hact, Option.some.injEq] at h
        subst h
        rw [hc']
        exact ⟨rfl, c.moveRef_counts sub ns⟩

/-- `FindMessageInternal` moves the subscriber's references in the same way. -/
theorem findMessageInternal_counts (c : Ccb) (sub : Subscriber) (timestamp : Nat) :
    (findMessageInternal c sub timestamp).2.1.reliable = sub.reliable ∧
      c.RefsMoved (findMessageInternal c sub timestamp).1 sub
        (findMessageInternal c sub timestamp).2.1 := by
  unfold findMessageInternal
  rcases c.findActiveSlotByTimestamp_spec sub.slot timestamp sub.reliable with h | ⟨t, -, h⟩ <;>
    rw [h]
  · exact ⟨rfl, .refl c sub⟩
  · exact ⟨rfl, c.moveRef_counts sub t⟩

/-- A read without `pass_activation`, in either mode, never returns an
activation message: a non-empty message is that of the slot the subscriber now
holds, and its prefix does not carry `kMessageActivate`. -/
theorem readMessageInternal_skips_activation {α : Type} (callback : Option α) (mode : ReadMode) :
    ∀ (fuel : Nat) (c : Ccb) (sub : Subscriber) (r : ReadOutcome α),
      readMessageInternal callback fuel c sub mode false = some r →
        r.message = .empty ∨ ∃ t, r.sub.slot = some t ∧ r.message = r.ccb.messageAt t ∧
          (r.ccb.prefixes t).isActivation = false := by
  intro fuel
  induction fuel with
  | zero => intro c sub r h; cases h
  | succ fuel ih =>
    intro c sub r h
    cases ht : (c.readTarget sub mode).2 with
    | none =>
      rw [readMessageInternal_of_none callback fuel c sub mode false ht] at h
      cases h
      exact .inl rfl
    | some ns =>
      rw [readMessageInternal_of_some callback fuel c sub mode false ht] at h
      cases hact : ((c.readTarget sub mode).1.prefixes ns).isActivation
      · simp only [hact, Bool.false_and, Bool.false_eq_true, if_false, Option.some.injEq] at h
        subst h
        exact .inr ⟨ns, rfl, rfl, hact⟩
      · -- the recursive call's outcome, with the drops of this one in front
        simp only [hact, Bool.not_false, Bool.and_self, if_true] at h
        obtain ⟨r', hr', rfl⟩ := Option.map_eq_some'.1 h
        exact ih _ _ r' hr'

/-! ## `kReadNext`: the first message after the subscriber's -/

/-- The slot a `kReadNext` read without `pass_activation` is to deliver: the
first slot after the subscriber's that does not hold an activation message. -/
def Ccb.nextMessageSlot (c : Ccb) (slot : Option Nat) : Option Nat :=
  (slotsAfter c.activeList slot).find? fun t => !(c.prefixes t).isActivation

/-- On a duplicate-free active list, from any slot the subscriber may hold, a
`kReadNext` read without `pass_activation` returns once its fuel exceeds the
number of slots after the subscriber's.  It delivers the message of
`nextMessageSlot`, or the empty message when there is none; the subscriber ends
on a slot after its old one, or where it was. -/
theorem readMessageInternal_readNext {α : Type} (callback : Option α) :
    ∀ (fuel : Nat) (c : Ccb) (sub : Subscriber), c.activeList.Nodup →
      (slotsAfter c.activeList sub.slot).length < fuel →
      ∃ r, readMessageInternal callback fuel c sub .readNext false = some r ∧
        (r.sub.slot = sub.slot ∨ ∃ t ∈ slotsAfter c.activeList sub.slot, r.sub.slot = some t) ∧
        match c.nextMessageSlot sub.slot with
        | none => r.message = .empty
        | some ns => r.sub.slot = some ns ∧ r.message = r.ccb.messageAt ns := by
  intro fuel
  induction fuel with
  | zero => intro c sub _ h; omega
  | succ fuel ih =>
    intro c sub hnd hlen
    have hhead : (c.readTarget sub .readNext).2 = (slotsAfter c.activeList sub.slot).head? :=
      Ccb.nextSlot_snd c sub.slot sub.reliable
    cases ht : (c.readTarget sub .readNext).2 with
    | none =>
      have hnil : slotsAfter c.activeList sub.slot = [] := by
        rw [ht, eq_comm, List.head?_eq_none_iff] at hhead
        exact hhead
      refine ⟨_, readMessageInternal_of_none callback fuel c sub _ false ht, .inl rfl, ?_⟩
      simp only [Ccb.nextMessageSlot, hnil, List.find?_nil]
    | some ns =>
      rw [readMessageInternal_of_some callback fuel c sub _ false ht]
      have hsame := sameButRefs_readTarget c sub .readNext
      obtain ⟨q, hq⟩ := List.head?_eq_some_iff.1 (ht ▸ hhead).symm
      have hq' : slotsAfter (c.readTarget sub .readNext).1.activeList (some ns) = q := by
        rw [hsame.activeList, slotsAfter_head hnd hq]
      by_cases hact : (c.prefixes ns).isActivation = true
      · obtain ⟨r, hr, hslot, hmsg⟩ := ih _ { sub with slot := some ns }
          (hsame.activeList ▸ hnd) (by rw [hq, List.length_cons] at hlen; rw [hq']; omega)
        have hnext : (c.readTarget sub .readNext).1.nextMessageSlot (some ns) =
            c.nextMessageSlot sub.slot := by
          simp [Ccb.nextMessageSlot, hq', hq, hsame.prefixes, hact]
        rw [hnext] at hmsg
        simp only [hsame.prefixes, hact, Bool.not_false, Bool.and_self, if_true, hr,
          Option.map_some']
        refine ⟨_, rfl, .inr ?_, hmsg⟩
        rw [hq]
        rcases hslot with h | ⟨t, htq, h⟩
        · exact ⟨ns, List.mem_cons_self ns q, h⟩
        · exact ⟨t, List.mem_cons_of_mem ns (hq' ▸ htq), h⟩
      · have hnext : c.nextMessageSlot sub.slot = some ns := by
          simp [Ccb.nextMessageSlot, hq, hact]
        simp only [hsame.prefixes, hact, Bool.false_and, if_false, hnext]
        exact ⟨_, rfl, .inr ⟨ns, hq ▸ List.mem_cons_self ns q, rfl⟩, rfl, rfl⟩

/-! ## `kReadNewest`: the tail decides -/

/-- When the tail of the active list holds an activation message, a
`kReadNewest` read without `pass_activation` never returns: `LastSlot` gives
the same tail on every recursive call. -/
theorem readMessageInternal_readNewest_diverges {α : Type} (callback : Option α) {t : Nat} :
    ∀ (fuel : Nat) (c : Ccb) (sub : Subscriber), c.activeList.getLast? = some t →
      (c.prefixes t).isActivation = true →
      readMessageInternal callback fuel c sub .readNewest false = none := by
  intro fuel
  induction fuel with
  | zero => intro c sub _ _; rfl
  | succ fuel ih =>
    intro c sub ht hact
    have hsame := sameButRefs_readTarget c sub .readNewest
    have ht' : (c.readTarget sub .readNewest).2 = some t := by
      simp only [Ccb.readTarget, Ccb.lastSlot_snd, ht]
    rw [readMessageInternal_of_some callback fuel c sub _ false ht']
    simp only [hsame.prefixes, hact, Bool.not_false, Bool.and_self, if_true]
    rw [ih _ _ (hsame.activeList ▸ ht) (hsame.prefixes ▸ hact), Option.map_none']

/-- When the tail of the active list holds an ordinary message, a `kReadNewest`
read returns that message in one call. -/
theorem readMessageInternal_readNewest_of_plain {α : Type} (callback : Option α) (fuel : Nat)
    (c : Ccb) (sub : Subscriber) {t : Nat} (ht : c.activeList.getLast? = some t)
    (hplain : (c.prefixes t).isActivation = false) :
    ∃ r, readMessageInternal callback (fuel + 1) c sub .readNewest false = some r ∧
      r.message = r.ccb.messageAt t ∧ r.sub.slot = some t := by
  have hsame := sameButRefs_readTarget c sub .readNewest
  have ht' : (c.readTarget sub .readNewest).2 = some t := by
    simp only [Ccb.readTarget, Ccb.lastSlot_snd, ht]
  rw [readMessageInternal_of_some callback fuel c sub _ false ht']
  simp only [hsame.prefixes, hplain, Bool.false_and, if_false]
  exact ⟨_, rfl, rfl, rfl⟩

/-- A `kReadNewest` read without `pass_activation` that returns has found the
active list empty and changed nothing, or delivered the tail's message and left
the subscriber on the tail. -/
theorem readMessageInternal_readNewest_spec {α : Type} (callback : Option α) (fuel : Nat)
    (c : Ccb) (sub : Subscriber) {r : ReadOutcome α}
    (h : readMessageInternal callback fuel c sub .readNewest false = some r) :
    (c.activeList = [] ∧ r.sub = sub ∧ r.message = .empty) ∨
      ∃ t, c.activeList.getLast? = some t ∧ r.sub.slot = some t ∧
        r.message = r.ccb.messageAt t := by
  cases fuel with
  | zero => cases h
  | succ fuel =>
    cases ht : c.activeList.getLast? with
    | none =>
      have ht' : (c.readTarget sub .readNewest).2 = none := by
        simp only [Ccb.readTarget, Ccb.lastSlot_snd, ht]
      rw [readMessageInternal_of_none callback fuel c sub _ false ht'] at h
      cases h
      exact .inl ⟨List.getLast?_eq_none_iff.1 ht, rfl, rfl⟩
    | some t =>
      cases hact : (c.prefixes t).isActivation
      · obtain ⟨r', hr', hmsg, hslot⟩ :=
          readMessageInternal_readNewest_of_plain callback fuel c sub ht hact
        rw [hr', Option.some.injEq] at h
        subst h
        exact .inr ⟨t, rfl, hslot, hmsg⟩
      · rw [readMessageInternal_readNewest_diverges callback _ c sub ht hact] at h
        cases h

end Subspace
