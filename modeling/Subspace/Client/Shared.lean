import Subspace.Client.PubSub
set_option autoImplicit false

/-!
# Client: one channel shared by any number of publishers and subscribers

`Subspace.Client.PubSub` follows one publisher and one subscriber.  A channel
is shared by every `Publisher` and `Subscriber` that maps its CCB, each with
its own slot, and their calls interleave in any order.  `Shared` is that
channel: the CCB, the list of publishers (whether each is reliable and the slot
it holds), the list of subscribers, and the ghost size log.  An `Action` is a
participant joining (the slot-taking tail of `CreatePublisher`, with
`ActivateReliableChannel` for a reliable publisher, and `CreateSubscriber`,
which leaves the CCB alone) or the publisher or subscriber at an index making
one of the calls of `Sys.step`.  A call runs on the channel as its caller sees
it (`Shared.view`): a publisher's call reads no subscriber
(`Sys.step_withSub`), a subscriber's call no publisher (`Sys.step_withPub`).
Each call is one step; the CCB operations a call makes each lock the CCB, and
a read that skips activation messages makes several, which the model does not
interleave with other calls.

`Shared.Inv` holds in every reachable state (`Shared.Reachable.inv`):
* each slot's `ref_count` is exactly the number of subscribers holding it, and
  its `reliable_ref_count` the number of reliable ones
  (`Shared.Reachable.refCounts_exact`);
* every publisher's slot is busy, held by no other publisher and by no
  subscriber (`Shared.Reachable.pubSlots_exclusive`).
Over any interleaving, the reads of one subscriber deliver ordinals in order
(`Shared.Reachable.deliveriesTo_ordered`), and the message it holds stays
intact whatever the others do (`Shared.Reachable.held_message_kept`).  While
every publisher is reliable, no call of another participant takes or changes a
message a reliable subscriber has still to read (`Shared.Reachable.unread_kept`),
and one that reads with `kReadNext` misses none published while it reads
(`Shared.Reachable.reliable_no_gap`).  A reliable publisher is refused a buffer
only when subscribers hold the slots it could take
(`Shared.Reachable.reliable_buffer_refused_iff`); an unreliable one never runs
out of slots, its calls failing only in their reload
(`Shared.Reachable.unreliable_never_out_of_slots`).  The links the CCB carries
stay the code's offset-linked lists of its slots
(`Shared.Reachable.lists_linked`), which lose no slot
(`Shared.run_slots_conserved`).  The publishes of all publishers return
strictly increasing ordinals (`Shared.run_publications_ordered`), and a
subscriber handed a message under a published ordinal gets the size that
publish was made with (`Shared.Reachable.received_as_published`).
-/

namespace Subspace

/-! ## One call does not read the other party -/

namespace Sys

/-- A publisher's call reads nothing of the subscriber and leaves it as it is. -/
theorem step_withSub (s : Sys) (sub : Subscriber) {e : Event} (he : e.byPublisher = true) :
    ({ s with sub := sub } : Sys).step e =
      (s.step e).map fun r => ({ r.1 with sub := sub }, r.2) := by
  cases e with
  | getBuffer n re =>
    cases re
    · simp only [step, getMessageBuffer, Option.map_some']
      split_ifs <;> (try split) <;> rfl
    · rfl
  | publish size ts re =>
    cases re
    · simp only [step, publishMessage]
      split <;> (try split) <;> (try split_ifs) <;> rfl
    · rfl
  | read mode re => cases he
  | find t re => cases he

/-- A subscriber's call reads nothing of the publisher and leaves it as it is. -/
theorem step_withPub (s : Sys) (reliable : Bool) (pub : Option Nat) {e : Event}
    (he : e.byPublisher = false) :
    ({ s with pubReliable := reliable, pub := pub } : Sys).step e =
      (s.step e).map fun r => ({ r.1 with pubReliable := reliable, pub := pub }, r.2) := by
  cases e with
  | getBuffer n re => cases he
  | publish size ts re => cases he
  | read mode re =>
    cases re
    · simp only [step, readMessage]
      cases readMessageInternal (none : Option Unit) (s.ccb.activeList.length + 1) s.ccb s.sub
        mode false <;> rfl
    · rfl
  | find t re => cases re <;> rfl

/-- What a subscriber's call does: it moves the subscriber's references, to an
active slot when it moves them at all, and changes nothing else. -/
theorem subscriberStep_spec {s s' : Sys} {e : Event} {r : Reply} (he : e.byPublisher = false)
    (hs : s.step e = some (s', r)) :
    s' = { s with ccb := s'.ccb, sub := s'.sub } ∧ Ccb.SameButRefs s.ccb s'.ccb ∧
      (s'.sub.slot = s.sub.slot ∨ ∃ t ∈ s.ccb.activeList, s'.sub.slot = some t) ∧
      s.ccb.RefsMoved s'.ccb s.sub s'.sub := by
  cases e with
  | getBuffer n re => cases he
  | publish size ts re => cases he
  | read mode re =>
    obtain ⟨rfl, -⟩ | ⟨-, o, ho, hf, rfl, -⟩ := readMessage_frame hs
    · exact ⟨rfl, .refl _, .inl rfl, .refl _ _⟩
    · exact ⟨rfl, hf.same, hf.slot, (readMessageInternal_counts none mode _ _ _ _ o ho).2⟩
  | find t re =>
    cases re with
    | some text =>
      cases hs
      exact ⟨rfl, .refl _, .inl rfl, .refl _ _⟩
    | none =>
      rw [Sys.step, Option.some.injEq] at hs
      obtain rfl : s' = (s.findMessage t).1 := by rw [hs]
      refine ⟨rfl, ?_, ?_, (findMessageInternal_counts s.ccb s.sub t).2⟩ <;>
        rcases s.findMessage_spec t none with ⟨_, hf⟩ | hf | ⟨x, hx, hf⟩ <;> rw [hf]
      all_goals first
        | exact .refl _
        | exact Ccb.sameButRefs_moveRef _ _ _ _
        | exact .inl rfl
        | exact .inr ⟨x, hx, rfl⟩

/-- What a publisher's call does: it keeps the subscriber, writes no slot's
table entry or prefix but its own and no reference count, and every other busy
slot stays busy and is not the slot the publisher holds after the call. -/
theorem publisherStep_spec {s s' : Sys} (h : s.Inv) {e : Event} {r : Reply}
    (he : e.byPublisher = true) (hs : s.step e = some (s', r)) :
    s' = { s with ccb := s'.ccb, pub := s'.pub, messageSizes := s'.messageSizes } ∧
      (∀ x, s.pub ≠ some x →
        s'.ccb.slots x = s.ccb.slots x ∧ s'.ccb.prefixes x = s.ccb.prefixes x) ∧
      (∀ x, (s'.ccb.slots x).refCount = (s.ccb.slots x).refCount ∧
        (s'.ccb.slots x).reliableRefCount = (s.ccb.slots x).reliableRefCount) ∧
      ∀ q ∈ s.ccb.lists .busyList, s.pub ≠ some q →
        q ∈ s'.ccb.lists .busyList ∧ s'.pub ≠ some q := by
  cases e with
  | getBuffer n re =>
    rw [Sys.step, Option.some.injEq] at hs
    obtain rfl : s' = (s.getMessageBuffer n re).1 := by rw [hs]
    rcases s.getMessageBuffer_spec n re with hg | ⟨slot, hslot, hg⟩ <;> rw [hg]
    · exact ⟨rfl, fun _ _ => ⟨rfl, rfl⟩, fun _ => ⟨rfl, rfl⟩, fun q hq hne => ⟨hq, hne⟩⟩
    · refine ⟨rfl, fun x _ => ⟨by rw [Ccb.findFreeSlot_slots], by rw [Ccb.findFreeSlot_prefixes]⟩,
        fun x => by rw [Ccb.findFreeSlot_slots]; exact ⟨rfl, rfl⟩, fun q hq _ => ?_⟩
      obtain ⟨h1, h2⟩ := Ccb.findFreeSlot_busy h.ccb.lists true hq
      exact ⟨h1, hslot ▸ h2⟩
  | publish size ts re =>
    obtain ⟨rfl, -⟩ | ⟨-, p, hp, rfl, -⟩ := publishMessage_spec hs
    · exact ⟨rfl, fun _ _ => ⟨rfl, rfl⟩, fun _ => ⟨rfl, rfl⟩, fun q hq hne => ⟨hq, hne⟩⟩
    refine ⟨rfl, fun x hx => ?_, fun x => ⟨Ccb.activateSlotAndGetAnother_refCount _ _ _ _ _ _ _ x,
      Ccb.activateSlotAndGetAnother_reliableRefCount _ _ _ _ _ _ _ x⟩, fun q hq hne => ?_⟩
    · have hxp : x ≠ p := fun e => hx (e ▸ hp)
      rw [Ccb.activateSlotAndGetAnother_setSlot_slots, if_neg hxp,
        Ccb.activateSlotAndGetAnother_prefixes_of_ne _ hxp, Ccb.setSlot_prefixes]
      exact ⟨rfl, rfl⟩
    · exact Ccb.activateSlotAndGetAnother_busy (c := s.ccb.setSlot p _) h.ccb.lists
        (h.pub_busy p hp) hq (fun e => hne (e ▸ hp)) _ _ _ _
  | read mode re => cases he
  | find t re => cases he

/-- An unreliable publisher holding a slot no subscriber holds can make every
call, the only error one returns is that of its reload, and it holds a slot
after it: the slot it publishes has no reference, so `FindFreeSlot(false)` can
always take it back. -/
theorem unreliable_step_ok {s : Sys} (hr : s.pubReliable = false) {p : Nat} (hp : s.pub = some p)
    (hp0 : (s.ccb.slots p).refCount = 0) {e : Event} (he : e.byPublisher = true) :
    ∃ s' r, s.step e = some (s', r) ∧ (∀ text, r = .error text ↔ e.reloadError = some text) ∧
      s'.pub.isSome := by
  cases hre : e.reloadError with
  | some text =>
    refine ⟨s, .error text, s.step_of_reloadError hre, fun t => ?_, by rw [hp]; rfl⟩
    rw [Reply.error.injEq, Option.some.injEq, eq_comm]
  | none =>
  simp only [reduceCtorEq, iff_false]
  cases e with
  | getBuffer n re =>
    cases hre
    refine ⟨s, .buffer (some p), ?_, (fun _ h => nomatch h), by rw [hp]; rfl⟩
    simp [Sys.step, Sys.getMessageBuffer, hr, hp]
  | publish size ts re =>
    cases hre
    have hact : p ∈ ((s.ccb.setSlot p { s.ccb.slots p with messageSize := size }).activateSlot p
        false false ts).activeList := by
      simp [Ccb.activeList, moveSeqs]
    have hzero : (((s.ccb.setSlot p { s.ccb.slots p with messageSize := size }).activateSlot p
        false false ts).slots p).refCount = 0 := by
      simpa [Ccb.activateSlot_slots, Ccb.setSlot_slots] using hp0
    obtain ⟨y, hy⟩ := Option.isSome_iff_exists.1 (Ccb.findFreeSlot_false_isSome _ hact hzero)
    simp only [Sys.step, Sys.publishMessage, hp, hr, Ccb.activateSlotAndGetAnother,
      Bool.false_eq_true, if_false, hy]
    exact ⟨_, _, rfl, (fun _ h => nomatch h), rfl⟩
  | read mode re => cases he
  | find t re => cases he

/-- A message a subscriber's call returns has as its length the size logged
under its ordinal: the slot it reads is active, and the invariant logs every
active slot's size.  The call does not write the log. -/
theorem Inv.subscriberStep_logged {s s' : Sys} (h : s.Inv) {e : Event} (he : e.byPublisher = false)
    {len : Int} {buf : Option Nat} {o : Int} {ts : Nat}
    (hs : s.step e = some (s', .message (.mk len buf o ts))) : s.messageSizes o = some len := by
  have hinv := h.step hs
  cases e with
  | getBuffer n re => cases he
  | publish size t re => cases he
  | read mode re =>
    obtain ⟨-, _, -, hr⟩ | ⟨-, ro, -, hf, rfl, hr⟩ := readMessage_frame hs
    · cases hr
    rcases hf.message with hm | ⟨x, hx, hm⟩ <;> rw [hm] at hr <;> cases hr
    exact hinv.logged_of_slot hx
  | find t re =>
    rcases s.findMessage_spec t re with ⟨_, hf⟩ | hf | ⟨x, -, hf⟩ <;>
      rw [Sys.step, hf, Option.some.injEq, Prod.mk.injEq] at hs <;> obtain ⟨rfl, hr⟩ := hs <;>
      cases hr
    exact hinv.logged_of_slot rfl

/-- A reliable publisher's publish appends the slot it held to `active`, after
every active slot, with the ordinal `next_ordinal` had and a prefix that is no
activation message: a reliable publisher takes no new slot. -/
theorem Inv.publish_appends {s s' : Sys} (h : s.Inv) (hpr : s.pubReliable = true) {size : Int}
    {ts : Nat} {re : Option String} {m : Message}
    (hs : s.step (.publish size ts re) = some (s', .message m)) {x : Nat}
    (hx : x ∈ s.ccb.activeList) :
    ∃ p, slotsAfter s'.ccb.activeList (some x) = slotsAfter s.ccb.activeList (some x) ++ [p] ∧
      (s'.ccb.slots p).ordinal = s.ccb.nextOrdinal ∧ (s'.ccb.prefixes p).isActivation = false := by
  obtain ⟨-, _, -, h0⟩ | ⟨-, p, hp, rfl, -⟩ := publishMessage_spec hs
  · cases h0
  refine ⟨p, ?_, ?_, ?_⟩
  · simp only [hpr, Ccb.activateSlotAndGetAnother, if_true]
    exact Ccb.activateSlot_slotsAfter (c := s.ccb.setSlot p _) h.ccb.lists (h.pub_busy p hp) hx
      _ _ _
  · rw [Ccb.activateSlotAndGetAnother_setSlot_slots, if_pos rfl]
  · simp [hpr, Ccb.activateSlotAndGetAnother, Ccb.activateSlot_prefixes_self]

end Sys

/-- Slot `t` carries the same message in `c'` as in `c`: the same ordinal, size
and prefix. -/
structure Ccb.SameMessage (c c' : Ccb) (t : Nat) : Prop where
  ordinal : (c'.slots t).ordinal = (c.slots t).ordinal
  messageSize : (c'.slots t).messageSize = (c.slots t).messageSize
  prefixes : c'.prefixes t = c.prefixes t

theorem Ccb.SameMessage.trans {c c' c'' : Ccb} {t : Nat} (h : c.SameMessage c' t)
    (h' : c'.SameMessage c'' t) : c.SameMessage c'' t :=
  ⟨h'.ordinal.trans h.ordinal, h'.messageSize.trans h.messageSize, h'.prefixes.trans h.prefixes⟩

theorem Ccb.SameMessage.of_eq {c c' : Ccb} {t : Nat} (hs : c'.slots t = c.slots t)
    (hp : c'.prefixes t = c.prefixes t) : c.SameMessage c' t :=
  ⟨congrArg MessageSlot.ordinal hs, congrArg MessageSlot.messageSize hs, hp⟩

theorem Ccb.SameButRefs.sameMessage {c c' : Ccb} (h : c.SameButRefs c') (t : Nat) :
    c.SameMessage c' t :=
  ⟨h.ordinal t, h.messageSize t, congrFun h.prefixes t⟩

/-! ## What a reliable subscriber has of the publications -/

theorem slotsAfter_of_mem_slotsAfter {l : List Nat} (hnd : l.Nodup) {slot : Option Nat}
    {as q : List Nat} {t : Nat} (h : slotsAfter l slot = as ++ t :: q) :
    slotsAfter l (some t) = q := by
  obtain ⟨p, hp⟩ := slotsAfter_suffix l slot
  rw [h, ← List.append_assoc] at hp
  rw [hp] at hnd ⊢
  exact slotsAfter_of_split fun hm => (List.nodup_append.1 hnd).2.2 hm (List.mem_cons_self t q)

/-- What a subscriber on slot `y` has of the publications `P` (size and
ordinal), given the deliveries `D` its reads made: each one up to the message at
`y` was delivered, and each later one is the message of a slot after `y` that
holds no activation message. -/
structure Ccb.NoGap (c : Ccb) (y : Nat) (P : List (Int × Int)) (D : List (ReadMode × Int)) :
    Prop where
  delivered : ∀ p ∈ P, p.2 ≤ (c.slots y).ordinal → (ReadMode.readNext, p.2) ∈ D
  pending : ∀ p ∈ P, (c.slots y).ordinal < p.2 → ∃ t ∈ slotsAfter c.activeList (some y),
    (c.slots t).ordinal = p.2 ∧ (c.prefixes t).isActivation = false

namespace Ccb

variable {c c' : Ccb} {y : Nat} {P : List (Int × Int)} {D : List (ReadMode × Int)}

theorem noGap_nil (c : Ccb) (y : Nat) (D : List (ReadMode × Int)) : c.NoGap y [] D :=
  ⟨fun _ h => absurd h (List.not_mem_nil _), fun _ h => absurd h (List.not_mem_nil _)⟩

/-- A step that keeps `y` and the slots after it with their messages, and at
most appends slots after them, keeps what the subscriber on `y` has. -/
theorem NoGap.keep (h : c.NoGap y P D)
    (hpre : slotsAfter c.activeList (some y) <+: slotsAfter c'.activeList (some y))
    (hsm : ∀ t ∈ y :: slotsAfter c.activeList (some y), c.SameMessage c' t) : c'.NoGap y P D := by
  have hy := (hsm y (List.mem_cons_self _ _)).ordinal
  refine ⟨fun p hp hle => h.delivered p hp (hy ▸ hle), fun p hp hlt => ?_⟩
  obtain ⟨t, ht, ho, ha⟩ := h.pending p hp (hy ▸ hlt)
  have hst := hsm t (List.mem_cons_of_mem _ ht)
  exact ⟨t, hpre.subset ht, hst.ordinal.trans ho, by rw [hst.prefixes]; exact ha⟩

/-- A publication whose message sits, as no activation message, in a slot after
`y` is one the subscriber on `y` has still to read. -/
theorem NoGap.push (h : c.NoGap y P D) {t : Nat} (ht : t ∈ slotsAfter c.activeList (some y))
    (hta : (c.prefixes t).isActivation = false) {o : Int} (hto : (c.slots t).ordinal = o)
    (hlt : (c.slots y).ordinal < o) (size : Int) : c.NoGap y (P ++ [(size, o)]) D := by
  refine ⟨fun p hp hle => ?_, fun p hp hlt' => ?_⟩ <;> rcases List.mem_append.1 hp with hp | hp
  · exact h.delivered p hp hle
  · rw [List.mem_singleton.1 hp] at hle
    exact absurd hle (not_le.2 hlt)
  · exact h.pending p hp hlt'
  · rw [List.mem_singleton.1 hp]
    exact ⟨t, ht, hto, hta⟩

/-- A `kReadNext` read that finds no message after `y` can only have passed
activation messages: every publication was delivered, and the subscriber has
them all on any slot it moves to. -/
theorem NoGap.next_none (h : c.NoGap y P D) (hn : c.nextMessageSlot (some y) = none) {y' : Nat}
    (hy' : (c.slots y).ordinal ≤ (c'.slots y').ordinal) : c'.NoGap y' P D := by
  have hle : ∀ p ∈ P, p.2 ≤ (c.slots y).ordinal := fun p hp => not_lt.1 fun hlt => by
    obtain ⟨t, ht, -, hta⟩ := h.pending p hp hlt
    rw [nextMessageSlot, List.find?_eq_none] at hn
    exact hn t ht (by rw [hta]; rfl)
  exact ⟨fun p hp _ => h.delivered p hp (hle p hp),
    fun p hp hlt => absurd hlt (not_lt.2 ((hle p hp).trans hy'))⟩

/-- A `kReadNext` read that delivers the message of `ns`, the first slot after
`y` with no activation message, delivers the next publication: those before it
were delivered, and those after it stay after `ns`. -/
theorem NoGap.next_some {log : Int → Option Int} (h : c.NoGap y P D) (hc : c.Inv (some y) log)
    {ns : Nat} (hn : c.nextMessageSlot (some y) = some ns) (hsame : SameButRefs c c') :
    c'.NoGap ns P (D ++ [(.readNext, (c'.slots ns).ordinal)]) := by
  obtain ⟨-, as, bs, hsplit, has⟩ := List.find?_eq_some.1 hn
  have hns : ns ∈ slotsAfter c.activeList (some y) := by rw [hsplit]; simp
  have hbs : slotsAfter c.activeList (some ns) = bs :=
    slotsAfter_of_mem_slotsAfter (hc.lists.nodup .activeList) hsplit
  have hyns : (c.slots y).ordinal < (c.slots ns).ordinal :=
    rel_of_mem_slotsAfter hc.sorted (hc.cursor_active y rfl) hns
  have hnsbs : ∀ t ∈ bs, (c.slots ns).ordinal < (c.slots t).ordinal := fun t ht =>
    rel_of_mem_slotsAfter hc.sorted (mem_of_mem_slotsAfter hns) (hbs ▸ ht)
  -- a publication after `y` is that of `ns` or of a slot after `ns`
  have hpos : ∀ p ∈ P, (c.slots y).ordinal < p.2 → p.2 = (c.slots ns).ordinal ∨
      ∃ t ∈ bs, (c.slots t).ordinal = p.2 ∧ (c.prefixes t).isActivation = false := by
    intro p hp hlt
    obtain ⟨t, ht, ho, hta⟩ := h.pending p hp hlt
    rw [hsplit, List.mem_append, List.mem_cons] at ht
    rcases ht with ht | rfl | ht
    · simpa [hta] using has t ht
    · exact .inl ho.symm
    · exact .inr ⟨t, ht, ho, hta⟩
  rw [hsame.ordinal]
  refine ⟨fun p hp hle => ?_, fun p hp hlt => ?_⟩
  · rw [hsame.ordinal] at hle
    by_cases hy : p.2 ≤ (c.slots y).ordinal
    · exact List.mem_append_left _ (h.delivered p hp hy)
    · rcases hpos p hp (not_le.1 hy) with he | ⟨t, ht, ho, -⟩
      · rw [he]
        exact List.mem_append_right _ (List.mem_singleton_self _)
      · have := hnsbs t ht
        omega
  · rw [hsame.ordinal] at hlt
    rcases hpos p hp (hyns.trans hlt) with he | ⟨t, ht, ho, hta⟩
    · omega
    · exact ⟨t, by rw [hsame.activeList, hbs]; exact ht, (hsame.ordinal t).trans ho,
        by rw [hsame.prefixes]; exact hta⟩

end Ccb

/-! ## The shared channel -/

/-- What the publish path reads of a `Publisher`: whether it is reliable and
the slot it holds. -/
structure Publisher where
  reliable : Bool
  slot : Option Nat
  deriving DecidableEq, Repr

/-- One mapped channel and every participant on it: the channel name, the CCB,
the publishers and the subscribers in the order they joined, and (ghost) the
message size set for each ordinal activated. -/
structure Shared where
  name : String
  ccb : Ccb
  pubs : List Publisher
  subs : List Subscriber
  messageSizes : Int → Option Int

/-- What happens on a shared channel: a publisher or a subscriber joins, or the
publisher or subscriber at an index makes a call. -/
inductive Action
  | createPublisher (reliable : Bool) (timestamp : Nat)
  | createSubscriber (reliable : Bool)
  | publisher (i : Nat) (e : Event)
  | subscriber (i : Nat) (e : Event)
  deriving DecidableEq, Repr

/-- The actions that leave subscriber `j` alone and bring in no unreliable
publisher. -/
def Action.spares (j : Nat) : Action → Bool
  | .createPublisher reliable _ => reliable
  | .createSubscriber _ => true
  | .publisher _ _ => true
  | .subscriber i _ => i != j

/-- The actions that leave subscriber `j` reading every message: those that
spare it, and its own `kReadNext` reads, whether their reload succeeds or
not. -/
def Action.readsNext (j : Nat) : Action → Bool
  | .createPublisher reliable _ => reliable
  | .createSubscriber _ => true
  | .publisher _ _ => true
  | .subscriber _ (.read .readNext _) => true
  | .subscriber i _ => i != j

namespace Shared

/-- A channel of `numSlots` slots that nobody has joined yet. -/
def initial (name : String) (numSlots : Nat) : Shared :=
  ⟨name, Ccb.allocated numSlots, [], [], fun _ => none⟩

/-- The channel as the publisher `pub` and the subscriber `sub` see it. -/
def view (s : Shared) (pub : Publisher) (sub : Subscriber) : Sys :=
  ⟨s.name, s.ccb, pub.reliable, pub.slot, sub, s.messageSizes⟩

/-- The tail of `Client::CreatePublisher` on the shared channel.  An unreliable
publisher takes a slot with `FindFreeSlot(false)`; a reliable one runs
`ActivateReliableChannel`: it takes a slot with `FindFreeSlot(true)`, sets its
`message_size` to 1, publishes it as the activation message and keeps no slot.
With no slot free the publisher is not created and the error is returned. -/
def createPublisher (s : Shared) (reliable : Bool) (timestamp : Nat) : Shared × Option Reply :=
  match s.ccb.findFreeSlot reliable with
  | (_, none) =>
    (s, some (.error (if reliable then "Channel " ++ s.name ++ " has no free slots"
      else "No slot available for publisher")))
  | (c, some slot) =>
    if reliable then
      let c := c.setSlot slot { c.slots slot with messageSize := 1 }
      ({ s with
          ccb := (c.activateSlotAndGetAnother slot true true false timestamp).1
          pubs := s.pubs ++ [⟨true, none⟩]
          messageSizes := Function.update s.messageSizes c.nextOrdinal (some 1) }, none)
    else ({ s with ccb := c, pubs := s.pubs ++ [⟨false, some slot⟩] }, none)

/-- One action, with what it returns: the reply of a call, and for a join the
error that made it fail (`none` when it succeeded).  `none` when the call never
returns or cannot be made: there is no such participant, or it is not a call of
its kind. -/
def step (s : Shared) : Action → Option (Shared × Option Reply)
  | .createPublisher reliable timestamp => some (s.createPublisher reliable timestamp)
  | .createSubscriber reliable => some ({ s with subs := s.subs ++ [⟨none, reliable⟩] }, none)
  | .publisher i e =>
    match s.pubs[i]? with
    | none => none
    | some pub =>
      if e.byPublisher then
        ((s.view pub ⟨none, false⟩).step e).map fun r =>
          ({ s with
              ccb := r.1.ccb
              pubs := s.pubs.set i ⟨pub.reliable, r.1.pub⟩
              messageSizes := r.1.messageSizes }, some r.2)
      else none
  | .subscriber j e =>
    match s.subs[j]? with
    | none => none
    | some sub =>
      if e.byPublisher then none
      else ((s.view ⟨false, none⟩ sub).step e).map fun r =>
        ({ s with ccb := r.1.ccb, subs := s.subs.set j r.1.sub }, some r.2)

/-- A sequence of actions, with what each returned; `none` when one of them
never returns or cannot be made. -/
def run (s : Shared) : List Action → Option (Shared × List (Action × Option Reply))
  | [] => some (s, [])
  | a :: as =>
    match s.step a with
    | none => none
    | some (s1, r) =>
      match s1.run as with
      | none => none
      | some (s', out) => some (s', (a, r) :: out)

/-- The states a new channel reaches by any interleaving of joins and calls. -/
inductive Reachable : Shared → Prop
  | initial (name : String) (numSlots : Nat) : Reachable (initial name numSlots)
  | step {s s' : Shared} {a : Action} {r : Option Reply} : Reachable s →
      s.step a = some (s', r) → Reachable s'

variable {s s' : Shared}

/-- What a publisher's call does to the shared channel. -/
theorem step_publisher {i : Nat} {e : Event} {r : Option Reply}
    (hs : s.step (.publisher i e) = some (s', r)) :
    ∃ pub, s.pubs[i]? = some pub ∧ e.byPublisher = true ∧ ∃ v r',
      (s.view pub ⟨none, false⟩).step e = some (v, r') ∧
      s' = { s with
        ccb := v.ccb
        pubs := s.pubs.set i ⟨pub.reliable, v.pub⟩
        messageSizes := v.messageSizes } ∧ r = some r' := by
  simp only [step] at hs
  split at hs
  · cases hs
  · rename_i pub hi
    split_ifs at hs with he
    obtain ⟨⟨v, r'⟩, hv, heq⟩ := Option.map_eq_some'.1 hs
    cases heq
    exact ⟨pub, hi, he, v, r', hv, rfl, rfl⟩

/-- What a subscriber's call does to the shared channel. -/
theorem step_subscriber {j : Nat} {e : Event} {r : Option Reply}
    (hs : s.step (.subscriber j e) = some (s', r)) :
    ∃ sub, s.subs[j]? = some sub ∧ e.byPublisher = false ∧ ∃ v r',
      (s.view ⟨false, none⟩ sub).step e = some (v, r') ∧
      s' = { s with ccb := v.ccb, subs := s.subs.set j v.sub } ∧ r = some r' := by
  simp only [step] at hs
  split at hs
  · cases hs
  · rename_i sub hj
    split_ifs at hs with he
    obtain ⟨⟨v, r'⟩, hv, heq⟩ := Option.map_eq_some'.1 hs
    cases heq
    exact ⟨sub, hj, Bool.eq_false_iff.2 he, v, r', hv, rfl, rfl⟩

theorem step_createPublisher {reliable : Bool} {timestamp : Nat} {r : Option Reply}
    (hs : s.step (.createPublisher reliable timestamp) = some (s', r)) :
    s' = (s.createPublisher reliable timestamp).1 := by
  rw [Shared.step, Option.some.injEq] at hs
  rw [hs]

theorem step_createSubscriber {reliable : Bool} {r : Option Reply}
    (hs : s.step (.createSubscriber reliable) = some (s', r)) :
    s' = { s with subs := s.subs ++ [⟨none, reliable⟩] } := by
  rw [Shared.step, Option.some.injEq, Prod.mk.injEq] at hs
  exact hs.1.symm

theorem run_cons_eq_some {a : Action} {as : List Action} {out : List (Action × Option Reply)}
    (h : s.run (a :: as) = some (s', out)) :
    ∃ s1 r out', s.step a = some (s1, r) ∧ s1.run as = some (s', out') ∧ out = (a, r) :: out' := by
  simp only [run] at h
  split at h
  · cases h
  · rename_i s1 r hstep
    split at h
    · cases h
    · rename_i s'' out' hrun
      cases h
      exact ⟨s1, r, out', hstep, hrun, rfl⟩

/-- A run that returns, with its end state and its output as the two parts of
what it returns. -/
theorem run_get {as : List Action} (h : (s.run as).isSome) :
    s.run as = some (((s.run as).get h).1, ((s.run as).get h).2) :=
  (Option.some_get h).symm

theorem run_nil_eq_some {out : List (Action × Option Reply)} (h : s.run [] = some (s', out)) :
    s' = s ∧ out = [] := by
  simp only [run, Option.some.injEq, Prod.mk.injEq] at h
  exact ⟨h.1.symm, h.2.symm⟩

/-! ## The publishers' slots -/

/-- The slot publisher `i` holds: `none` when it holds none or there is no such
publisher. -/
def heldSlot (pubs : List Publisher) (i : Nat) : Option Nat := pubs[i]?.bind Publisher.slot

theorem heldSlot_of_getElem? {pubs : List Publisher} {i : Nat} {pub : Publisher}
    (hi : pubs[i]? = some pub) : heldSlot pubs i = pub.slot := by
  simp [heldSlot, hi]

theorem heldSlot_set {pubs : List Publisher} {i : Nat} {pub : Publisher}
    (hi : pubs[i]? = some pub) (p : Publisher) (k : Nat) :
    heldSlot (pubs.set i p) k = if i = k then p.slot else heldSlot pubs k := by
  have hlt : i < pubs.length := (List.getElem?_eq_some_iff.1 hi).1
  simp only [heldSlot, List.getElem?_set, hlt, if_true]
  split_ifs <;> rfl

theorem heldSlot_append (pubs : List Publisher) (p : Publisher) (k : Nat) :
    heldSlot (pubs ++ [p]) k = if k = pubs.length then p.slot else heldSlot pubs k := by
  unfold heldSlot
  rw [List.getElem?_append]
  split_ifs with h1 h2 h2
  · omega
  · rfl
  · simp [h2]
  · rw [List.getElem?_eq_none (by simp; omega), List.getElem?_eq_none (by omega)]

/-- The publishers hold slots of `busy`, no two the same. -/
structure PubsOk (pubs : List Publisher) (busy : List Nat) : Prop where
  busy : ∀ i x, heldSlot pubs i = some x → x ∈ busy
  unique : ∀ i j x, heldSlot pubs i = some x → heldSlot pubs j = some x → i = j

/-- A publisher that joins with a slot no other publisher holds. -/
theorem PubsOk.append {pubs : List Publisher} {busy busy' : List Nat} (h : PubsOk pubs busy)
    {p : Publisher} (hp : ∀ x, p.slot = some x → x ∈ busy')
    (hold : ∀ i x, heldSlot pubs i = some x → x ∈ busy' ∧ p.slot ≠ some x) :
    PubsOk (pubs ++ [p]) busy' := by
  refine ⟨fun i x hx => ?_, fun i j x hi hj => ?_⟩
  · rw [heldSlot_append] at hx
    split_ifs at hx
    · exact hp x hx
    · exact (hold i x hx).1
  · rw [heldSlot_append] at hi hj
    split_ifs at hi hj with h1 h2 h2
    · omega
    · exact absurd hi (hold j x hj).2
    · exact absurd hj (hold i x hi).2
    · exact h.unique i j x hi hj

/-- Publisher `i` takes slot `p.slot`, which no other publisher holds. -/
theorem PubsOk.set {pubs : List Publisher} {busy busy' : List Nat} (h : PubsOk pubs busy)
    {i : Nat} {pub : Publisher} (hi : pubs[i]? = some pub) {p : Publisher}
    (hp : ∀ x, p.slot = some x → x ∈ busy')
    (hold : ∀ k x, heldSlot pubs k = some x → k ≠ i → x ∈ busy' ∧ p.slot ≠ some x) :
    PubsOk (pubs.set i p) busy' := by
  refine ⟨fun k x hx => ?_, fun k l x hk hl => ?_⟩
  · rw [heldSlot_set hi] at hx
    split_ifs at hx with hik
    · exact hp x hx
    · exact (hold k x hx (Ne.symm hik)).1
  · rw [heldSlot_set hi] at hk hl
    split_ifs at hk hl with hik hil hil
    · exact hik.symm.trans hil
    · exact absurd hk (hold l x hl (Ne.symm hil)).2
    · exact absurd hl (hold k x hk (Ne.symm hik)).2
    · exact h.unique k l x hk hl

/-! ## The invariant -/

/-- The subscribers holding slot `x`. -/
def holders (subs : List Subscriber) (x : Nat) : Nat :=
  subs.countP fun sub => sub.slot = some x

/-- The reliable subscribers holding slot `x`. -/
def reliableHolders (subs : List Subscriber) (x : Nat) : Nat :=
  subs.countP fun sub => sub.reliableSlot = some x

/-- A subscriber that `f` puts on `x` is one of those counted. -/
theorem ite_le_countP (f : Subscriber → Option Nat) {subs : List Subscriber} {sub : Subscriber}
    (hsub : sub ∈ subs) (x : Nat) :
    (if f sub = some x then 1 else 0) ≤ subs.countP fun y => f y = some x := by
  split_ifs with hf
  · exact List.countP_pos_iff.2 ⟨sub, hsub, by simpa using hf⟩
  · exact Nat.zero_le _

/-- Subscriber `j` moves from `sub` to `sub'`: whatever `f` reads of a
subscriber, the count of those it puts on `x` loses `sub` and gains `sub'`. -/
theorem countP_set_add (f : Subscriber → Option Nat) {subs : List Subscriber} {j : Nat}
    {sub : Subscriber} (hj : subs[j]? = some sub) (sub' : Subscriber) (x : Nat) :
    ((subs.set j sub').countP fun y => f y = some x) + (if f sub = some x then 1 else 0) =
      (subs.countP fun y => f y = some x) + (if f sub' = some x then 1 else 0) := by
  have hle := ite_le_countP f (List.getElem?_mem hj) x
  obtain ⟨hlt, rfl⟩ := List.getElem?_eq_some_iff.1 hj
  rw [List.countP_set _ _ _ _ hlt]
  simp only [decide_eq_true_eq] at hle ⊢
  omega

/-- Moving subscriber `j` moves the exact counts with it. -/
theorem count_of_moved (f : Subscriber → Option Nat) {subs : List Subscriber} {j : Nat}
    {sub : Subscriber} (hj : subs[j]? = some sub) (sub' : Subscriber) {n n' : Nat → Int}
    (hn : ∀ x, n x = subs.countP fun y => f y = some x)
    (hmoved : ∀ x, n' x + (if f sub = some x then 1 else 0) =
      n x + (if f sub' = some x then 1 else 0)) (x : Nat) :
    n' x = (subs.set j sub').countP fun y => f y = some x := by
  have h1 := countP_set_add f hj sub' x
  have h2 := hmoved x
  rw [hn] at h2
  split_ifs at h1 h2 <;> omega

/-- The invariant of a shared channel: the CCB invariant; every subscriber's
slot active; each slot's `ref_count` the number of subscribers holding it and
its `reliable_ref_count` the number of reliable ones; the publishers' slots
busy, no two the same. -/
structure Inv (s : Shared) : Prop where
  ccb : s.ccb.Inv none s.messageSizes
  sub_active : ∀ sub ∈ s.subs, ∀ x, sub.slot = some x → x ∈ s.ccb.activeList
  refCount : ∀ x, (s.ccb.slots x).refCount = holders s.subs x
  reliableRefCount : ∀ x, (s.ccb.slots x).reliableRefCount = reliableHolders s.subs x
  pubs : PubsOk s.pubs (s.ccb.lists .busyList)

/-- Each subscriber sees the CCB invariant for its own slot. -/
theorem Inv.subInv (h : s.Inv) {sub : Subscriber} (hsub : sub ∈ s.subs) :
    s.ccb.Inv sub.slot s.messageSizes :=
  h.ccb.withCursor (h.sub_active sub hsub) fun x => by
    rw [h.refCount]
    exact_mod_cast ite_le_countP Subscriber.slot hsub x

theorem Inv.reliableRefsOk (h : s.Inv) {sub : Subscriber} (hsub : sub ∈ s.subs) :
    s.ccb.ReliableRefsOk sub.reliableSlot := fun x => by
  rw [h.reliableRefCount]
  exact_mod_cast ite_le_countP Subscriber.reliableSlot hsub x

theorem Inv.pub_busy (h : s.Inv) {i : Nat} {pub : Publisher} (hi : s.pubs[i]? = some pub) :
    ∀ x, pub.slot = some x → x ∈ s.ccb.lists .busyList :=
  fun x hx => h.pubs.busy i x ((heldSlot_of_getElem? hi).trans hx)

/-- No subscriber holds a publisher's slot: it is busy, theirs are active. -/
theorem Inv.sub_ne_held (h : s.Inv) {i x : Nat} (hx : heldSlot s.pubs i = some x) :
    ∀ sub ∈ s.subs, sub.slot ≠ some x := fun sub hsub hsx => by
  cases h.ccb.lists.disjoint _ _ x (h.sub_active sub hsub x hsx) (h.pubs.busy i x hx)

theorem Inv.refCount_held (h : s.Inv) {i x : Nat} (hx : heldSlot s.pubs i = some x) :
    (s.ccb.slots x).refCount = 0 := by
  rw [h.refCount, holders,
    List.countP_eq_zero.2 fun sub hm => by simpa using h.sub_ne_held hx sub hm]
  rfl

theorem initial_inv (name : String) (numSlots : Nat) : (initial name numSlots).Inv where
  ccb := Ccb.allocated_inv numSlots
  sub_active := fun _ h => by cases h
  refCount := fun _ => rfl
  reliableRefCount := fun _ => rfl
  pubs := ⟨fun _ _ h => by simp [heldSlot, initial] at h,
    fun _ _ _ h => by simp [heldSlot, initial] at h⟩

theorem Inv.createSubscriber (h : s.Inv) (reliable : Bool) :
    ({ s with subs := s.subs ++ [⟨none, reliable⟩] } : Shared).Inv where
  ccb := h.ccb
  sub_active := fun sub hsub x hx => by
    rcases List.mem_append.1 hsub with hsub | hsub
    · exact h.sub_active sub hsub x hx
    · rw [List.mem_singleton] at hsub
      subst hsub
      cases hx
  refCount := fun x => by simp [holders, List.countP_append, h.refCount x]
  reliableRefCount := fun x => by
    simp [reliableHolders, List.countP_append, Subscriber.reliableSlot, h.reliableRefCount x]
  pubs := h.pubs

theorem Inv.subscriberCall (h : s.Inv) {j : Nat} {sub : Subscriber} (hj : s.subs[j]? = some sub)
    {e : Event} (he : e.byPublisher = false) {v : Sys} {r : Reply}
    (hv : (s.view ⟨false, none⟩ sub).step e = some (v, r)) :
    ({ s with ccb := v.ccb, subs := s.subs.set j v.sub } : Shared).Inv := by
  obtain ⟨-, hsame, hslot, hmoved⟩ := Sys.subscriberStep_spec he hv
  have hmem : sub ∈ s.subs := List.getElem?_mem hj
  have hcount := count_of_moved Subscriber.slot hj v.sub h.refCount fun x => (hmoved x).1
  refine ⟨h.ccb.sameButRefs hsame (fun x => ?_) (fun _ hx => by cases hx), fun y hy x hx => ?_,
    hcount, count_of_moved Subscriber.reliableSlot hj v.sub h.reliableRefCount
      fun x => (hmoved x).2, hsame.lists ▸ h.pubs⟩
  · rw [hcount, if_neg (by simp)]
    exact Int.natCast_nonneg _
  · rw [hsame.activeList]
    rcases List.mem_or_eq_of_mem_set hy with hy | rfl
    · exact h.sub_active y hy x hx
    · rcases hslot with hs | ⟨t, ht, hs⟩
      · exact h.sub_active sub hmem x (hs ▸ hx)
      · rw [hs] at hx
        cases hx
        exact ht

theorem Inv.publisherCall (h : s.Inv) {i : Nat} {pub : Publisher} (hi : s.pubs[i]? = some pub)
    {e : Event} (he : e.byPublisher = true) {v : Sys} {r : Reply}
    (hv : (s.view pub ⟨none, false⟩).step e = some (v, r)) :
    ({ s with
      ccb := v.ccb
      pubs := s.pubs.set i ⟨pub.reliable, v.pub⟩
      messageSizes := v.messageSizes } : Shared).Inv := by
  have hv0 : (s.view pub ⟨none, false⟩).Inv := ⟨h.ccb, h.pub_busy hi⟩
  obtain ⟨hveq, -, hcnt, hbusy⟩ := Sys.publisherStep_spec hv0 he hv
  have hvinv := hv0.step hv
  have hvsub : v.sub = ⟨none, false⟩ := congrArg Sys.sub hveq
  refine ⟨by simpa only [hvsub] using hvinv.ccb, fun sub hsub x hx => ?_,
    fun x => (hcnt x).1.trans (h.refCount x), fun x => (hcnt x).2.trans (h.reliableRefCount x),
    h.pubs.set hi hvinv.pub_busy
      fun k x hk hki => hbusy x (h.pubs.busy k x hk) fun e => hki ?_⟩
  · -- the same call, made on the channel as `sub` sees it
    have hk : ({ s.view pub ⟨none, false⟩ with sub := sub } : Sys).step e =
        some ({ v with sub := sub }, r) := by
      rw [Sys.step_withSub _ _ he, hv]
      rfl
    exact (Sys.Inv.step ⟨h.subInv hsub, h.pub_busy hi⟩ hk).ccb.cursor_active x hx
  · exact h.pubs.unique k i x hk ((heldSlot_of_getElem? hi).trans e)

theorem Inv.createPublisher (h : s.Inv) (reliable : Bool) (timestamp : Nat) :
    (s.createPublisher reliable timestamp).1.Inv := by
  unfold Shared.createPublisher
  split
  · exact h
  · rename_i c slot heq
    have hf := h.ccb.findFreeSlot reliable
    have hsubs : ∀ sub ∈ s.subs, c.Inv sub.slot s.messageSizes := fun sub hsub => by
      have := ((h.subInv hsub).findFreeSlot reliable).1
      rwa [heq] at this
    have hslots : c.slots = s.ccb.slots := by
      have := s.ccb.findFreeSlot_slots reliable
      rwa [heq] at this
    have hold : ∀ k x, heldSlot s.pubs k = some x → x ∈ c.lists .busyList ∧ slot ≠ x :=
      fun k x hx => by
        have := Ccb.findFreeSlot_busy h.ccb.lists reliable (h.pubs.busy k x hx)
        rw [heq] at this
        exact ⟨this.1, fun e => this.2 (e ▸ rfl)⟩
    rw [heq] at hf
    split_ifs
    · -- `ActivateReliableChannel` publishes the slot and keeps none
      have hslot := hf.2 slot rfl
      refine ⟨hf.1.activate hslot 1 true false timestamp, fun sub hsub x hx =>
        ((hsubs sub hsub).activate hslot 1 true false timestamp).cursor_active x hx,
        fun x => ?_, fun x => ?_, h.pubs.append (fun x hx => by cases hx) fun k x hx =>
          ⟨Ccb.activateSlot_busy (c.setSlot slot _) (hold k x hx).1 (hold k x hx).2.symm _ _ _,
            fun e => by cases e⟩⟩
      · rw [Ccb.activateSlotAndGetAnother_refCount, hslots]
        exact h.refCount x
      · rw [Ccb.activateSlotAndGetAnother_reliableRefCount, hslots]
        exact h.reliableRefCount x
    · refine ⟨hf.1, fun sub hsub x hx => (hsubs sub hsub).cursor_active x hx,
        fun x => hslots ▸ h.refCount x, fun x => hslots ▸ h.reliableRefCount x,
        h.pubs.append (fun x hx => by cases hx; exact hf.2 slot rfl) fun k x hx =>
          ⟨(hold k x hx).1, fun e => (hold k x hx).2 (Option.some.inj e)⟩⟩

theorem Inv.step (h : s.Inv) {a : Action} {r : Option Reply} (hs : s.step a = some (s', r)) :
    s'.Inv := by
  cases a with
  | createPublisher reliable timestamp =>
    obtain rfl := step_createPublisher hs
    exact h.createPublisher reliable timestamp
  | createSubscriber reliable =>
    obtain rfl := step_createSubscriber hs
    exact h.createSubscriber reliable
  | publisher i e =>
    obtain ⟨pub, hi, he, v, r', hv, rfl, -⟩ := step_publisher hs
    exact h.publisherCall hi he hv
  | subscriber j e =>
    obtain ⟨sub, hj, he, v, r', hv, rfl, -⟩ := step_subscriber hs
    exact h.subscriberCall hj he hv

/-- Every reachable state of a shared channel satisfies the invariant. -/
theorem Reachable.inv (hs : s.Reachable) : s.Inv := by
  induction hs with
  | initial name numSlots => exact initial_inv name numSlots
  | step _ hstep ih => exact ih.step hstep

theorem Reachable.run (hs : s.Reachable) {as : List Action}
    {p : Shared × List (Action × Option Reply)} (h : s.run as = some p) : p.1.Reachable := by
  obtain ⟨s', out⟩ := p
  induction as generalizing s out with
  | nil =>
    obtain ⟨rfl, -⟩ := run_nil_eq_some h
    exact hs
  | cons a as ih =>
    obtain ⟨s1, r, out', hstep, hrun, -⟩ := run_cons_eq_some h
    exact ih (hs.step hstep) out' hrun

theorem reliableHolders_le (subs : List Subscriber) (x : Nat) :
    reliableHolders subs x ≤ holders subs x :=
  List.countP_mono_left fun sub _ h => by
    simp only [decide_eq_true_eq, Subscriber.reliableSlot] at h ⊢
    split_ifs at h
    exact h

/-- Reference counting is exact on a shared channel: in every reachable state,
each slot's `ref_count` is the number of subscribers holding it and its
`reliable_ref_count` the number of reliable subscribers holding it, whatever
joined and in whatever order the calls came; so
`0 ≤ reliable_ref_count ≤ ref_count`. -/
theorem Reachable.refCounts_exact (hs : s.Reachable) (x : Nat) :
    (s.ccb.slots x).refCount = holders s.subs x ∧
      (s.ccb.slots x).reliableRefCount = reliableHolders s.subs x ∧
      0 ≤ (s.ccb.slots x).reliableRefCount ∧
      (s.ccb.slots x).reliableRefCount ≤ (s.ccb.slots x).refCount := by
  have h := hs.inv
  have hle := reliableHolders_le s.subs x
  refine ⟨h.refCount x, h.reliableRefCount x, ?_, ?_⟩ <;> rw [h.reliableRefCount]
  · exact Int.natCast_nonneg _
  · rw [h.refCount]
    exact_mod_cast hle

/-- Two subscribers, one of them reliable, read the first message of an
unreliable publisher: both hold slot 0. -/
theorem refCounts_exact_two_readers :
    let s := (((initial "c" 4).run [.createPublisher false 0, .createSubscriber true,
      .createSubscriber false, .publisher 0 (.publish 8 0), .subscriber 0 (.read .readNext),
      .subscriber 1 (.read .readNext)]).get (by decide)).1
    (s.ccb.slots 0).refCount = holders s.subs 0 ∧
      (s.ccb.slots 0).reliableRefCount = reliableHolders s.subs 0 ∧
      0 ≤ (s.ccb.slots 0).reliableRefCount ∧
      (s.ccb.slots 0).reliableRefCount ≤ (s.ccb.slots 0).refCount :=
  Reachable.refCounts_exact (.run (.initial "c" 4) (Option.some_get _).symm) 0

/-- A publisher's slot is its own: in every reachable state it is on the busy
list, no other publisher holds it, and no subscriber holds it, so its
`ref_count` is 0.  No subscriber ever reads a buffer a publisher is writing,
and no two publishers write the same buffer. -/
theorem Reachable.pubSlots_exclusive (hs : s.Reachable) {i x : Nat}
    (hx : heldSlot s.pubs i = some x) :
    x ∈ s.ccb.lists .busyList ∧ (∀ k, heldSlot s.pubs k = some x → k = i) ∧
      (∀ sub ∈ s.subs, sub.slot ≠ some x) ∧ (s.ccb.slots x).refCount = 0 :=
  ⟨hs.inv.pubs.busy i x hx, fun k hk => hs.inv.pubs.unique k i x hk hx, hs.inv.sub_ne_held hx,
    hs.inv.refCount_held hx⟩

/-- Two unreliable publishers and a subscriber that has read the first's
message: the second publisher holds slot 1. -/
theorem pubSlots_exclusive_two_publishers :
    let s := (((initial "c" 4).run [.createPublisher false 0, .createPublisher false 0,
      .createSubscriber false, .publisher 0 (.publish 8 0),
      .subscriber 0 (.read .readNext)]).get (by decide)).1
    heldSlot s.pubs 1 = some 1 ∧ (1 ∈ s.ccb.lists .busyList ∧
      (∀ k, heldSlot s.pubs k = some 1 → k = 1) ∧ (∀ sub ∈ s.subs, sub.slot ≠ some 1) ∧
        (s.ccb.slots 1).refCount = 0) :=
  ⟨by decide, Reachable.pubSlots_exclusive (.run (.initial "c" 4) (Option.some_get _).symm)
    (by decide)⟩

/-! ## What a join changes -/

theorem createPublisher_subs (s : Shared) (reliable : Bool) (timestamp : Nat) :
    (s.createPublisher reliable timestamp).1.subs = s.subs := by
  unfold Shared.createPublisher
  split
  · rfl
  · split_ifs <;> rfl

/-- A publisher joining writes only the slot it takes: every slot still active
after its `FindFreeSlot` keeps its message. -/
theorem Inv.createPublisher_sameMessage (h : s.Inv) (reliable : Bool) (timestamp : Nat)
    {t : Nat} (ht : t ∈ (s.ccb.findFreeSlot reliable).1.activeList) :
    s.ccb.SameMessage (s.createPublisher reliable timestamp).1.ccb t := by
  have hf := h.ccb.findFreeSlot reliable
  have hslots := s.ccb.findFreeSlot_slots reliable
  have hprefixes := s.ccb.findFreeSlot_prefixes reliable
  unfold Shared.createPublisher
  split
  · exact ⟨rfl, rfl, rfl⟩
  · rename_i c slot heq
    rw [heq] at hf hslots hprefixes ht
    dsimp only at hslots hprefixes ht
    split_ifs
    · -- `t` is active, so not the busy slot the activation writes
      have hts : t ≠ slot := fun e => by cases hf.1.lists.disjoint _ _ t ht (e ▸ hf.2 slot rfl)
      have hentry :=
        Ccb.activateSlotAndGetAnother_setSlot_slots c slot 1 true true false timestamp t
      rw [if_neg hts, congrFun hslots t] at hentry
      refine .of_eq hentry ?_
      dsimp only
      rw [Ccb.activateSlotAndGetAnother_prefixes_of_ne _ hts, Ccb.setSlot_prefixes, hprefixes]
    · exact .of_eq (congrFun hslots t) (congrFun hprefixes t)

/-- A reliable publisher joining leaves a slot `x` with a reliable reference on
`active` with the slots after it, only appending its activation message, and
writes none of their messages. -/
theorem Inv.createPublisher_true_keeps (h : s.Inv) {x : Nat} (hx : x ∈ s.ccb.activeList)
    (hxr : (s.ccb.slots x).reliableRefCount ≠ 0) (timestamp : Nat) :
    slotsAfter s.ccb.activeList (some x) <+:
        slotsAfter (s.createPublisher true timestamp).1.ccb.activeList (some x) ∧
      ∀ t ∈ x :: slotsAfter s.ccb.activeList (some x),
        s.ccb.SameMessage (s.createPublisher true timestamp).1.ccb t := by
  obtain ⟨hxa, hafter⟩ := Ccb.findFreeSlot_true_slotsAfter h.ccb.lists hx hxr
  refine ⟨?_, fun t ht => h.createPublisher_sameMessage true timestamp ?_⟩
  · have hf := h.ccb.findFreeSlot true
    unfold Shared.createPublisher
    split
    · exact List.prefix_refl _
    · rename_i c slot heq
      rw [heq] at hxa hafter hf
      dsimp only at hxa hafter hf
      rw [if_pos rfl]
      dsimp only
      rw [show ((c.setSlot slot { c.slots slot with messageSize := 1 }).activateSlotAndGetAnother
          slot true true false timestamp).1 = (c.setSlot slot _).activateSlot slot true false
            timestamp from rfl,
        Ccb.activateSlot_slotsAfter (c := c.setSlot slot _) hf.1.lists (hf.2 slot rfl) hxa]
      change slotsAfter s.ccb.activeList (some x) <+: slotsAfter c.activeList (some x) ++ [slot]
      rw [hafter]
      exact List.prefix_append _ _
  · rcases List.mem_cons.1 ht with rfl | ht
    · exact hxa
    · exact mem_of_mem_slotsAfter (hafter ▸ ht)

/-! ## One subscriber's deliveries, over any interleaving -/

/-- The ordinal of the message subscriber `j` holds: -1 when it holds none or
there is no such subscriber. -/
def subOrdinal (s : Shared) (j : Nat) : Int :=
  match s.subs[j]? with
  | none => -1
  | some sub => s.ccb.getCurrentOrdinal sub

/-- What an action delivered to subscriber `j`: the mode and the ordinal of a
read of `j` that returned a message. -/
def deliveryTo (j : Nat) : Action × Option Reply → Option (ReadMode × Int)
  | (.subscriber i e, some r) => if i = j then delivery (e, r) else none
  | _ => none

/-- The deliveries to subscriber `j` along a run, in order. -/
def deliveriesTo (j : Nat) (out : List (Action × Option Reply)) : List (ReadMode × Int) :=
  out.filterMap (deliveryTo j)

@[simp] theorem deliveriesTo_cons (j : Nat) (x : Action × Option Reply)
    (out : List (Action × Option Reply)) :
    deliveriesTo j (x :: out) = (deliveryTo j x).toList ++ deliveriesTo j out := by
  cases h : deliveryTo j x <;> simp [deliveriesTo, h]

theorem deliveryTo_of_ne {j : Nat} {a : Action} (ha : ∀ e, a ≠ .subscriber j e) (r : Option Reply) :
    deliveryTo j (a, r) = none := by
  cases a with
  | subscriber k e =>
    cases r with
    | none => rfl
    | some r => exact if_neg fun hk => ha e (by rw [hk])
  | _ => rfl

theorem Inv.subOrdinal_ge (h : s.Inv) (j : Nat) : -1 ≤ s.subOrdinal j := by
  unfold subOrdinal Ccb.getCurrentOrdinal
  split
  · exact le_rfl
  · rename_i sub hj
    split
    · exact le_rfl
    · rename_i x hx
      have := h.ccb.ordinal_pos x (h.sub_active sub (List.getElem?_mem hj) x hx)
      omega

/-- An action of anyone but subscriber `j` leaves `j` as it was, and the
message of the slot it holds. -/
theorem Inv.step_other (h : s.Inv) {a : Action} {r : Option Reply}
    (hs : s.step a = some (s', r)) {j : Nat} (ha : ∀ e, a ≠ .subscriber j e) {sub : Subscriber}
    (hj : s.subs[j]? = some sub) :
    s'.subs[j]? = some sub ∧ ∀ x, sub.slot = some x → s.ccb.SameMessage s'.ccb x := by
  have hmem := List.getElem?_mem hj
  have hlt : j < s.subs.length := (List.getElem?_eq_some_iff.1 hj).1
  cases a with
  | createPublisher reliable timestamp =>
    obtain rfl := step_createPublisher hs
    exact ⟨by rw [createPublisher_subs, hj], fun x hx => h.createPublisher_sameMessage _ _
      (((h.subInv hmem).findFreeSlot reliable).1.cursor_active x hx)⟩
  | createSubscriber reliable =>
    obtain rfl := step_createSubscriber hs
    exact ⟨by rw [List.getElem?_append_left hlt, hj], fun _ _ => ⟨rfl, rfl, rfl⟩⟩
  | publisher i e =>
    obtain ⟨pub, hi, he, v, r', hv, rfl, -⟩ := step_publisher hs
    obtain ⟨-, hframe, -⟩ := Sys.publisherStep_spec ⟨h.ccb, h.pub_busy hi⟩ he hv
    refine ⟨hj, fun x hx => ?_⟩
    obtain ⟨h1, h2⟩ := hframe x fun hp => by
      cases h.ccb.lists.disjoint _ _ x (h.sub_active sub hmem x hx) (h.pub_busy hi x hp)
    exact .of_eq h1 h2
  | subscriber k e =>
    obtain ⟨sub', hk, he, v, r', hv, rfl, -⟩ := step_subscriber hs
    have hkj : k ≠ j := fun e' => ha e (by rw [e'])
    exact ⟨by rw [List.getElem?_set_ne hkj, hj], fun x _ =>
      (Sys.subscriberStep_spec he hv).2.1.sameMessage x⟩

/-- Every action but a `FindMessage` of subscriber `j` leaves `j` on its message
or a newer one, and a read of `j` that delivers a message leaves it on that
message, newer than the one it held for `kReadNext`. -/
theorem Inv.step_subOrdinal (h : s.Inv) {a : Action} {r : Option Reply}
    (hs : s.step a = some (s', r)) (j : Nat) (hnf : ∀ t, a ≠ .subscriber j (.find t)) :
    s.subOrdinal j ≤ s'.subOrdinal j ∧ ∀ d, deliveryTo j (a, r) = some d →
      d.2 = s'.subOrdinal j ∧ (d.1 = .readNext → s.subOrdinal j < d.2) := by
  by_cases ha : ∃ e, a = .subscriber j e
  · -- `j`'s own call, as `Sys.step_ordinal` has it
    obtain ⟨e, rfl⟩ := ha
    obtain ⟨sub, hj, he, v, r', hv, rfl, rfl⟩ := step_subscriber hs
    have hlt : j < s.subs.length := (List.getElem?_eq_some_iff.1 hj).1
    obtain ⟨hle, hdel⟩ := Sys.step_ordinal
      ⟨h.subInv (List.getElem?_mem hj), fun _ h => by cases h⟩ hv fun t het => hnf t (by rw [het])
    have h1 : s.subOrdinal j = s.ccb.getCurrentOrdinal sub := by simp only [subOrdinal, hj]
    have h2 : ({ s with ccb := v.ccb, subs := s.subs.set j v.sub } : Shared).subOrdinal j =
        v.ccb.getCurrentOrdinal v.sub := by
      simp only [subOrdinal, List.getElem?_set_self hlt]
    rw [h1, h2]
    refine ⟨hle, fun d hd => ?_⟩
    simp only [deliveryTo, if_true] at hd
    obtain ⟨mode, re, len, buf, o, ts, hx, rfl⟩ := delivery_eq_some hd
    cases hx
    exact hdel mode re len buf o ts rfl rfl
  · -- anyone else's action
    push_neg at ha
    have hd := deliveryTo_of_ne ha r
    refine ⟨?_, fun d hd' => by rw [hd] at hd'; cases hd'⟩
    cases hj : s.subs[j]? with
    | none =>
      have := (h.step hs).subOrdinal_ge j
      simpa only [subOrdinal, hj] using this
    | some sub =>
      obtain ⟨hj', hsm⟩ := h.step_other hs ha hj
      simp only [subOrdinal, hj, hj']
      exact (Ccb.getCurrentOrdinal_congr fun x hx => (hsm x hx).ordinal).ge

/-- Every delivery to subscriber `j` along a run without `FindMessage` of `j` is
at or after the message `j` held when the run began, and strictly after it for
`kReadNext`. -/
theorem Inv.run_deliveriesTo_ge (j : Nat) {as : List Action} :
    ∀ {s s' : Shared} {out : List (Action × Option Reply)}, s.Inv → s.run as = some (s', out) →
      (∀ t, Action.subscriber j (.find t) ∉ as) → ∀ d ∈ deliveriesTo j out,
        s.subOrdinal j ≤ d.2 ∧ (d.1 = .readNext → s.subOrdinal j < d.2) := by
  induction as with
  | nil =>
    intro s s' out _ h _ d hd
    obtain ⟨-, rfl⟩ := run_nil_eq_some h
    cases hd
  | cons a as ih =>
    intro s s' out hs h hnf d hd
    obtain ⟨s1, r, out', hstep, hrun, rfl⟩ := run_cons_eq_some h
    obtain ⟨hle, hdel⟩ := hs.step_subOrdinal hstep j
      fun t het => hnf t (het ▸ List.mem_cons_self _ _)
    have hrest : ∀ d ∈ deliveriesTo j out', s.subOrdinal j ≤ d.2 ∧
        (d.1 = .readNext → s.subOrdinal j < d.2) := fun d hd => by
      obtain ⟨h1, h2⟩ :=
        ih (hs.step hstep) hrun (fun t ht => hnf t (List.mem_cons_of_mem a ht)) d hd
      exact ⟨hle.trans h1, fun hm => lt_of_le_of_lt hle (h2 hm)⟩
    simp only [deliveriesTo, List.filterMap_cons] at hd
    split at hd
    · exact hrest d hd
    · rename_i d0 hd0
      rcases List.mem_cons.1 hd with rfl | hd
      · obtain ⟨ho, hlt⟩ := hdel d hd0
        exact ⟨ho ▸ hle, hlt⟩
      · exact hrest d hd

/-- The deliveries to `j` along a run without its `FindMessage` calls, from any
state satisfying the invariant, are in order. -/
theorem Inv.run_deliveriesTo_ordered (hs : s.Inv) {as : List Action}
    {out : List (Action × Option Reply)} (h : s.run as = some (s', out)) (j : Nat)
    (hnf : ∀ t, Action.subscriber j (.find t) ∉ as) :
    (deliveriesTo j out).Pairwise fun d d' => d.2 ≤ d'.2 ∧ (d'.1 = .readNext → d.2 < d'.2) := by
  induction as generalizing s out with
  | nil =>
    obtain ⟨-, rfl⟩ := run_nil_eq_some h
    exact List.Pairwise.nil
  | cons a as ih =>
    obtain ⟨s1, r, out', hstep, hrun, rfl⟩ := run_cons_eq_some h
    have hnf' : ∀ t, Action.subscriber j (.find t) ∉ as := fun t ht =>
      hnf t (List.mem_cons_of_mem a ht)
    have hrest := ih (hs.step hstep) hrun hnf'
    simp only [deliveriesTo, List.filterMap_cons]
    split
    · exact hrest
    · rename_i d hd
      refine List.Pairwise.cons (fun d' hd' => ?_) hrest
      obtain ⟨ho, -⟩ := (hs.step_subOrdinal hstep j
        fun t het => hnf t (het ▸ List.mem_cons_self _ _)).2 d hd
      obtain ⟨h1, h2⟩ := Inv.run_deliveriesTo_ge j (hs.step hstep) hrun hnf' d' hd'
      exact ⟨ho ▸ h1, fun hm => ho ▸ h2 hm⟩

/-- Per-subscriber delivery order on a shared channel.  Along any run of joins
and calls of any participants from a reachable state, the ordinals subscriber
`j`'s reads deliver never decrease, and each one a `kReadNext` read delivers is
newer than every earlier one, as long as `j` makes no `FindMessage`. -/
theorem Reachable.deliveriesTo_ordered (hs : s.Reachable) {as : List Action}
    {out : List (Action × Option Reply)} (h : s.run as = some (s', out)) (j : Nat)
    (hnf : ∀ t, Action.subscriber j (.find t) ∉ as) :
    (deliveriesTo j out).Pairwise fun d d' => d.2 ≤ d'.2 ∧ (d'.1 = .readNext → d.2 < d'.2) :=
  hs.inv.run_deliveriesTo_ordered h j hnf

/-- Two subscribers and an unreliable publisher, their calls interleaved. -/
theorem deliveriesTo_ordered_interleaved :
    let as : List Action := [.createPublisher false 0, .createSubscriber false,
      .createSubscriber false, .publisher 0 (.publish 8 0), .subscriber 1 (.read .readNext),
      .subscriber 0 (.read .readNext), .publisher 0 (.publish 8 1),
      .subscriber 1 (.read .readNewest), .subscriber 0 (.read .readNewest)]
    (deliveriesTo 0 (((initial "c" 4).run as).get (by decide)).2).Pairwise
      fun d d' => d.2 ≤ d'.2 ∧ (d'.1 = .readNext → d.2 < d'.2) :=
  by
  intro as
  exact Reachable.deliveriesTo_ordered (.initial "c" 4)
    (run_get (by decide)) 0 (by simp [as])

/-! ## The message a subscriber holds stays intact -/

/-- Zero-copy reads are safe over any interleaving.  From a reachable state in
which subscriber `j` holds slot `x`, along any run of joins and calls of every
participant but `j`, reliable or not, `j` keeps `x`, and `x` stays on `active`
with the ordinal, size and prefix it had: no publisher reclaims or writes the
slot of a message a subscriber holds. -/
theorem Reachable.held_message_kept (hs : s.Reachable) {j : Nat} {sub : Subscriber}
    (hj : s.subs[j]? = some sub) {x : Nat} (hx : sub.slot = some x) {as : List Action}
    (has : ∀ a ∈ as, ∀ e, a ≠ .subscriber j e) {out : List (Action × Option Reply)}
    (hrun : s.run as = some (s', out)) :
    s'.subs[j]? = some sub ∧ x ∈ s'.ccb.activeList ∧ s.ccb.SameMessage s'.ccb x := by
  suffices hkeep : s'.subs[j]? = some sub ∧ s.ccb.SameMessage s'.ccb x from
    ⟨hkeep.1, (hs.run hrun).inv.sub_active sub (List.getElem?_mem hkeep.1) x hx, hkeep.2⟩
  induction as generalizing s out with
  | nil =>
    obtain ⟨rfl, -⟩ := run_nil_eq_some hrun
    exact ⟨hj, rfl, rfl, rfl⟩
  | cons a as ih =>
    obtain ⟨s1, r, out', hstep, hrun', -⟩ := run_cons_eq_some hrun
    obtain ⟨hj1, hsm1⟩ := hs.inv.step_other hstep (has a (List.mem_cons_self a as)) hj
    obtain ⟨hj2, hsm2⟩ := ih (hs.step hstep) hj1 (fun a' ha' => has a' (List.mem_cons_of_mem a ha'))
      hrun'
    exact ⟨hj2, (hsm1 x hx).trans hsm2⟩

/-- Subscriber 0 holds the first message; two unreliable publishers then publish
until the publishers reclaim active slots, and subscriber 1 reads. -/
theorem held_message_kept_reclaimed :
    let s := (((initial "c" 4).run [.createPublisher false 0, .createPublisher false 0,
      .createSubscriber false, .createSubscriber false, .publisher 0 (.publish 8 0),
      .subscriber 0 (.read .readNext)]).get (by decide)).1
    let as : List Action := [.publisher 1 (.publish 16 1), .publisher 0 (.publish 4 2),
      .publisher 1 (.publish 2 3), .subscriber 1 (.read .readNext), .publisher 0 (.publish 1 4)]
    let s' := ((s.run as).get (by decide)).1
    s.subs[0]? = some ⟨some 0, false⟩ ∧ (∀ a ∈ as, ∀ e, a ≠ .subscriber 0 e) ∧
      (s'.subs[0]? = some ⟨some 0, false⟩ ∧ 0 ∈ s'.ccb.activeList ∧
        s.ccb.SameMessage s'.ccb 0) := by
  intro s as s'
  have hj : s.subs[0]? = some ⟨some 0, false⟩ := by decide
  have has : ∀ a ∈ as, ∀ e, a ≠ .subscriber 0 e := by simp [as]
  exact ⟨hj, has, Reachable.held_message_kept (.run (.initial "c" 4) (Option.some_get _).symm) hj
    rfl has (run_get (by decide))⟩

/-! ## Reliable delivery with many participants -/

/-- While every publisher is reliable, an action sparing a reliable subscriber
`j` that holds `x` keeps `j` on `x`, and `x` and the slots after it on `active`
with their messages. -/
theorem Inv.step_keeps_unread (h : s.Inv) (hpr : ∀ pub ∈ s.pubs, pub.reliable = true)
    {j : Nat} {sub : Subscriber} (hj : s.subs[j]? = some sub) (hsr : sub.reliable = true)
    {x : Nat} (hx : sub.slot = some x) {a : Action} (ha : a.spares j = true) {r : Option Reply}
    (hs : s.step a = some (s', r)) :
    (∀ pub ∈ s'.pubs, pub.reliable = true) ∧ s'.subs[j]? = some sub ∧
      slotsAfter s.ccb.activeList (some x) <+: slotsAfter s'.ccb.activeList (some x) ∧
      ∀ t ∈ x :: slotsAfter s.ccb.activeList (some x), s.ccb.SameMessage s'.ccb t := by
  have hmem := List.getElem?_mem hj
  have hrr := h.reliableRefsOk hmem
  have hxa := h.sub_active sub hmem x hx
  have hxr : (s.ccb.slots x).reliableRefCount ≠ 0 := by
    have := hrr x
    simp only [Subscriber.reliableSlot, hsr, hx, if_true] at this
    omega
  have hother : ∀ e, a ≠ .subscriber j e := fun e hae => by
    subst hae
    simp [Action.spares] at ha
  have hj' := (h.step_other hs hother hj).1
  cases a with
  | createPublisher reliable timestamp =>
    obtain rfl : reliable = true := ha
    obtain rfl := step_createPublisher hs
    refine ⟨fun pub hp => ?_, hj', h.createPublisher_true_keeps hxa hxr timestamp⟩
    unfold Shared.createPublisher at hp
    split at hp
    · exact hpr pub hp
    · rcases List.mem_append.1 hp with hp | hp
      · exact hpr pub hp
      · rw [List.mem_singleton] at hp
        rw [hp]
  | createSubscriber reliable =>
    obtain rfl := step_createSubscriber hs
    exact ⟨hpr, hj', List.prefix_refl _, fun _ _ => ⟨rfl, rfl, rfl⟩⟩
  | publisher i e =>
    obtain ⟨pub, hi, he, v, r', hv, rfl, -⟩ := step_publisher hs
    -- the same call on the channel as `pub` and `sub` see it
    have hk : (s.view pub sub).step e = some ({ v with sub := sub }, r') := by
      rw [show s.view pub sub = { s.view pub ⟨none, false⟩ with sub := sub } from rfl,
        Sys.step_withSub _ _ he, hv]
      rfl
    obtain ⟨-, -, hpre, hsl⟩ := Sys.Inv.publisherCall_keeps_unread ⟨h.subInv hmem, h.pub_busy hi⟩
      hrr (hpr pub (List.getElem?_mem hi)) hsr hx he hk
    refine ⟨fun p hp => ?_, hj', hpre, fun t ht => ?_⟩
    · rcases List.mem_or_eq_of_mem_set hp with hp | rfl
      · exact hpr p hp
      · exact hpr pub (List.getElem?_mem hi)
    · exact .of_eq (hsl t ht).1 (hsl t ht).2
  | subscriber k e =>
    obtain ⟨sub', hk, he, v, r', hv, rfl, -⟩ := step_subscriber hs
    have hsame := (Sys.subscriberStep_spec he hv).2.1
    refine ⟨hpr, hj', by rw [hsame.activeList]; exact List.prefix_refl _, fun t _ =>
      hsame.sameMessage t⟩

/-- Reliable delivery on a shared channel.  From any reachable state in which
every publisher is reliable and a reliable subscriber `j` holds slot `x`, any
run of joins of reliable publishers and of subscribers, and of calls of every
participant but `j`, takes neither `x` nor a slot after it: `j` stays on `x`,
the slots after `x` before the run are the first slots after it at the end, and
they and `x` carry the same messages.  Every message `j` has still to read is
there, unchanged. -/
theorem Reachable.unread_kept (hs : s.Reachable) (hpr : ∀ pub ∈ s.pubs, pub.reliable = true)
    {j : Nat} {sub : Subscriber} (hj : s.subs[j]? = some sub) (hsr : sub.reliable = true)
    {x : Nat} (hx : sub.slot = some x) {as : List Action} (has : ∀ a ∈ as, a.spares j = true)
    {out : List (Action × Option Reply)} (hrun : s.run as = some (s', out)) :
    s'.subs[j]? = some sub ∧
      slotsAfter s.ccb.activeList (some x) <+: slotsAfter s'.ccb.activeList (some x) ∧
      ∀ t ∈ x :: slotsAfter s.ccb.activeList (some x), s.ccb.SameMessage s'.ccb t := by
  induction as generalizing s out with
  | nil =>
    obtain ⟨rfl, -⟩ := run_nil_eq_some hrun
    exact ⟨hj, List.prefix_refl _, fun _ _ => ⟨rfl, rfl, rfl⟩⟩
  | cons a as ih =>
    obtain ⟨s1, r, out', hstep, hrun', -⟩ := run_cons_eq_some hrun
    obtain ⟨hpr1, hj1, hpre1, hsm1⟩ := hs.inv.step_keeps_unread hpr hj hsr hx
      (has a (List.mem_cons_self a as)) hstep
    obtain ⟨hj2, hpre2, hsm2⟩ := ih (hs.step hstep) hpr1 hj1
      (fun a' ha' => has a' (List.mem_cons_of_mem a ha')) hrun'
    refine ⟨hj2, hpre1.trans hpre2, fun t ht => (hsm1 t ht).trans (hsm2 t ?_)⟩
    exact List.mem_cons.2 ((List.mem_cons.1 ht).imp_right fun h => hpre1.subset h)

/-- A reliable subscriber has read past the activation message of a reliable
publisher and holds slot 0; the publisher publishes, a second reliable
publisher joins, and an unreliable subscriber joins and reads. -/
theorem unread_kept_two_publishers :
    let s := (((initial "c" 4).run [.createPublisher true 0, .createSubscriber true,
      .subscriber 0 (.read .readNext)]).get (by decide)).1
    let as : List Action := [.publisher 0 (.getBuffer 1), .publisher 0 (.publish 8 1),
      .createPublisher true 2, .createSubscriber false, .subscriber 1 (.read .readNext)]
    let s' := ((s.run as).get (by decide)).1
    (∀ pub ∈ s.pubs, pub.reliable = true) ∧ s.subs[0]? = some ⟨some 0, true⟩ ∧
      (s'.subs[0]? = some ⟨some 0, true⟩ ∧
        slotsAfter s.ccb.activeList (some 0) <+: slotsAfter s'.ccb.activeList (some 0) ∧
        ∀ t ∈ 0 :: slotsAfter s.ccb.activeList (some 0), s.ccb.SameMessage s'.ccb t) := by
  intro s as s'
  have hpr : ∀ pub ∈ s.pubs, pub.reliable = true := by decide
  have hj : s.subs[0]? = some ⟨some 0, true⟩ := by decide
  exact ⟨hpr, hj, Reachable.unread_kept (.run (.initial "c" 4) (Option.some_get _).symm) hpr hj
    rfl rfl (by decide) (run_get (by decide))⟩

/-! ## An unreliable publisher never runs out of slots -/

/-- Every unreliable publisher holds a slot. -/
def UnreliableHold (pubs : List Publisher) : Prop :=
  ∀ pub ∈ pubs, pub.reliable = false → pub.slot.isSome

theorem Inv.step_unreliableHold (h : s.Inv) (hu : UnreliableHold s.pubs) {a : Action}
    {r : Option Reply} (hs : s.step a = some (s', r)) : UnreliableHold s'.pubs := by
  cases a with
  | createPublisher reliable timestamp =>
    obtain rfl := step_createPublisher hs
    intro pub hp hr
    unfold Shared.createPublisher at hp
    split at hp
    · exact hu pub hp hr
    · split_ifs at hp <;> rcases List.mem_append.1 hp with hp | hp
      · exact hu pub hp hr
      · rw [List.mem_singleton] at hp
        subst hp
        cases hr
      · exact hu pub hp hr
      · rw [List.mem_singleton] at hp
        subst hp
        rfl
  | createSubscriber reliable =>
    obtain rfl := step_createSubscriber hs
    exact hu
  | publisher i e =>
    obtain ⟨pub, hi, he, v, r', hv, rfl, -⟩ := step_publisher hs
    intro q hq hr
    rcases List.mem_or_eq_of_mem_set hq with hq | rfl
    · exact hu q hq hr
    · obtain ⟨p, hp⟩ := Option.isSome_iff_exists.1 (hu pub (List.getElem?_mem hi) hr)
      obtain ⟨v', r'', hv', -, hsome⟩ := Sys.unreliable_step_ok (s := s.view pub ⟨none, false⟩) hr
        hp (h.refCount_held ((heldSlot_of_getElem? hi).trans hp)) he
      rw [hv, Option.some.injEq, Prod.mk.injEq] at hv'
      rw [hv'.1]
      exact hsome
  | subscriber j e =>
    obtain ⟨sub, hj, he, v, r', hv, rfl, -⟩ := step_subscriber hs
    exact hu

theorem Reachable.unreliableHold (hs : s.Reachable) : UnreliableHold s.pubs := by
  induction hs with
  | initial name numSlots => exact fun _ h => by cases h
  | step hs' hstep ih => exact hs'.inv.step_unreliableHold ih hstep

/-- An unreliable publisher never runs out of slots.  In every reachable state,
every call of an unreliable publisher can be made, returns an error only when
its `ReloadSubscribersIfNecessary` fails, and then that error (never "Out of
slots for channel" nor "has no buffer"), and leaves it holding a slot: the slot
it publishes has no reader yet, so `FindFreeSlot(false)` can always take it
back. -/
theorem Reachable.unreliable_never_out_of_slots (hs : s.Reachable) {i : Nat} {pub : Publisher}
    (hi : s.pubs[i]? = some pub) (hr : pub.reliable = false) {e : Event}
    (he : e.byPublisher = true) :
    ∃ s' r, s.step (.publisher i e) = some (s', some r) ∧
      (∀ text, r = .error text ↔ e.reloadError = some text) ∧ (heldSlot s'.pubs i).isSome := by
  obtain ⟨p, hp⟩ := Option.isSome_iff_exists.1 (hs.unreliableHold pub (List.getElem?_mem hi) hr)
  obtain ⟨v, r, hv, herr, hsome⟩ := Sys.unreliable_step_ok (s := s.view pub ⟨none, false⟩) hr hp
    (hs.inv.refCount_held ((heldSlot_of_getElem? hi).trans hp)) he
  refine ⟨{ s with
      ccb := v.ccb
      pubs := s.pubs.set i ⟨pub.reliable, v.pub⟩
      messageSizes := v.messageSizes }, r, ?_, herr, ?_⟩
  · simp only [Shared.step, hi, he, if_true, hv, Option.map_some']
  · rw [heldSlot_set hi, if_pos rfl]
    exact hsome

/-- Two slots: an unreliable publisher has published once and its subscriber
holds that message, so the publisher holds the last slot and none is free.  Its
next publish still succeeds, by taking back the slot it publishes. -/
theorem unreliable_never_out_of_slots_full :
    let s := (((initial "c" 2).run [.createPublisher false 0, .createSubscriber false,
      .publisher 0 (.publish 8 0), .subscriber 0 (.read .readNext)]).get (by decide)).1
    s.pubs[0]? = some ⟨false, some 1⟩ ∧ s.ccb.lists .freeList = [] ∧
      ∃ s' r, s.step (.publisher 0 (.publish 8 1)) = some (s', some r) ∧
        (∀ text, r = .error text ↔ (Event.publish 8 1).reloadError = some text) ∧
          (heldSlot s'.pubs 0).isSome := by
  intro s
  have hi : s.pubs[0]? = some ⟨false, some 1⟩ := by decide
  exact ⟨hi, by decide, Reachable.unreliable_never_out_of_slots
    (.run (.initial "c" 2) (Option.some_get _).symm) hi rfl rfl⟩

/-! ## What holds a reliable publisher back -/

/-- What `GetMessageBuffer` returns to a reliable publisher that holds no slot
and counts a subscriber: the error of its reload, else the slot
`FindFreeSlot(true)` takes, or none. -/
theorem step_getBuffer_reliable {i : Nat} {pub : Publisher} (hi : s.pubs[i]? = some pub)
    (hr : pub.reliable = true) (hp : pub.slot = none) {n : Nat} (hn : n ≠ 0)
    (reloadError : Option String) :
    (s.step (.publisher i (.getBuffer n reloadError))).map Prod.snd =
      some (some (reloadError.elim (.buffer (s.ccb.findFreeSlot true).2) .error)) := by
  simp only [Shared.step, hi, Event.byPublisher, if_true, Sys.step, Option.map_some',
    Sys.getMessageBuffer]
  cases reloadError with
  | some text => rfl
  | none =>
    simp only [view, hr, hp, and_self, hn, if_false, if_true, Option.elim]
    split <;> simp_all

/-- Backpressure on a reliable publisher comes from subscribers only.  In a
reachable state, a reliable publisher that holds no slot and counts a
subscriber gets no buffer exactly when its reload succeeds, the free list is
empty and every active slot, oldest first, up to the first one a reliable
subscriber holds, is held by some subscriber. -/
theorem Reachable.reliable_buffer_refused_iff (hs : s.Reachable) {i : Nat} {pub : Publisher}
    (hi : s.pubs[i]? = some pub) (hr : pub.reliable = true) (hp : pub.slot = none) {n : Nat}
    (hn : n ≠ 0) (reloadError : Option String) :
    (s.step (.publisher i (.getBuffer n reloadError))).map Prod.snd = some (some (.buffer none)) ↔
      reloadError = none ∧ s.ccb.lists .freeList = [] ∧
        ∀ t ∈ s.ccb.activeList.takeWhile (fun t => reliableHolders s.subs t == 0),
          0 < holders s.subs t := by
  have h := hs.inv
  have hscan : (fun t => !(true && (s.ccb.slots t).reliableRefCount != 0)) =
      fun t => reliableHolders s.subs t == 0 := funext fun t => by
    rw [h.reliableRefCount t, Bool.eq_iff_iff]
    simp
  rw [step_getBuffer_reliable hi hr hp hn, Option.some.injEq, Option.some.injEq]
  cases reloadError with
  | some text => simp
  | none =>
    rw [Option.elim_none, Reply.buffer.injEq, Ccb.findFreeSlot_eq_none_iff,
      Ccb.scanActive_eq_none_iff, hscan]
    simp only [h.refCount, ne_eq, Nat.cast_eq_zero, Nat.pos_iff_ne_zero, true_and]

/-- A reliable subscriber holds the activation message and a reliable publisher
has published into the last free slot: with its reload succeeding, the
publisher gets no buffer. -/
theorem reliable_buffer_refused_full :
    let s := (((initial "c" 2).run [.createPublisher true 0, .createSubscriber true,
      .subscriber 0 (.read .readNext), .publisher 0 (.getBuffer 1),
      .publisher 0 (.publish 8 1)]).get (by decide)).1
    s.pubs[0]? = some ⟨true, none⟩ ∧
      ((s.step (.publisher 0 (.getBuffer 1 none))).map Prod.snd = some (some (.buffer none)) ↔
        (none : Option String) = none ∧ s.ccb.lists .freeList = [] ∧
          ∀ t ∈ s.ccb.activeList.takeWhile (fun t => reliableHolders s.subs t == 0),
            0 < holders s.subs t) := by
  intro s
  have hi : s.pubs[0]? = some ⟨true, none⟩ := by decide
  exact ⟨hi, Reachable.reliable_buffer_refused_iff (.run (.initial "c" 2) (Option.some_get _).symm)
    hi rfl rfl one_ne_zero none⟩

/-! ## The lists are the code's linked lists -/

/-- Every action keeps what each write of the CCB keeps: the links representing
the lists, and the number of slots. -/
theorem Inv.step_preserved {P : Ccb → Prop} (hP : Ccb.Preserved P) (h : s.Inv) (hc : P s.ccb)
    {a : Action} {r : Option Reply} (hs : s.step a = some (s', r)) : P s'.ccb := by
  cases a with
  | createPublisher reliable timestamp =>
    obtain rfl := step_createPublisher hs
    have hf := h.ccb.findFreeSlot reliable
    have hl := hP.findFreeSlot reliable hc
    unfold Shared.createPublisher
    split
    · exact hc
    · rename_i c slot heq
      rw [heq] at hf hl
      split_ifs
      · exact hP.activateSlotAndGetAnother (hP.setSlot slot _ hl) (hf.2 slot rfl) true true false
          timestamp
      · exact hl
  | createSubscriber reliable =>
    obtain rfl := step_createSubscriber hs
    exact hc
  | publisher i e =>
    obtain ⟨pub, hi, -, v, r', hv, rfl, -⟩ := step_publisher hs
    exact Sys.Inv.step_preserved hP ⟨h.ccb, h.pub_busy hi⟩ hc hv
  | subscriber j e =>
    obtain ⟨sub, hj, he, v, r', hv, rfl, -⟩ := step_subscriber hs
    exact hP.sameButRefs (Sys.subscriberStep_spec he hv).2.1 hc

/-- The size a publish call was made with and the ordinal it returned, for a
publish of any publisher that returned a message. -/
def publication : Action × Option Reply → Option (Int × Int)
  | (.publisher _ (.publish size _ _), some (.message (.mk _ _ ordinal _))) => some (size, ordinal)
  | _ => none

/-- The publications of a run, in order. -/
def publications (out : List (Action × Option Reply)) : List (Int × Int) :=
  out.filterMap publication

@[simp] theorem publications_cons (x : Action × Option Reply) (out : List (Action × Option Reply)) :
    publications (x :: out) = (publication x).toList ++ publications out := by
  cases h : publication x <;> simp [publications, h]

theorem publication_eq_some {x : Action × Option Reply} {p : Int × Int}
    (h : publication x = some p) : ∃ i size ts re len buf o ts',
      x = (.publisher i (.publish size ts re), some (.message (.mk len buf o ts'))) ∧
        p = (size, o) := by
  unfold publication at h
  split at h
  · cases h
    exact ⟨_, _, _, _, _, _, _, _, rfl, rfl⟩
  · cases h

/-- The length and the ordinal of the message a call of any subscriber
returned. -/
def reception : Action × Option Reply → Option (Int × Int)
  | (.subscriber _ _, some (.message (.mk len _ ordinal _))) => some (len, ordinal)
  | _ => none

/-- The receptions of a run, in order. -/
def receptions (out : List (Action × Option Reply)) : List (Int × Int) :=
  out.filterMap reception

@[simp] theorem receptions_cons (x : Action × Option Reply) (out : List (Action × Option Reply)) :
    receptions (x :: out) = (reception x).toList ++ receptions out := by
  cases h : reception x <;> simp [receptions, h]

theorem reception_eq_some {x : Action × Option Reply} {p : Int × Int} (h : reception x = some p) :
    ∃ j e len buf o ts,
      x = (.subscriber j e, some (.message (.mk len buf o ts))) ∧ p = (len, o) := by
  unfold reception at h
  split at h
  · cases h
    exact ⟨_, _, _, _, _, _, rfl, rfl⟩
  · cases h

/-- A join writes the size log under `next_ordinal` only, and leaves it no
smaller. -/
theorem createPublisher_log (s : Shared) (reliable : Bool) (timestamp : Nat) :
    s.ccb.nextOrdinal ≤ (s.createPublisher reliable timestamp).1.ccb.nextOrdinal ∧
      ∀ o, o ≠ s.ccb.nextOrdinal →
        (s.createPublisher reliable timestamp).1.messageSizes o = s.messageSizes o := by
  unfold Shared.createPublisher
  have hn := s.ccb.findFreeSlot_nextOrdinal reliable
  generalize s.ccb.findFreeSlot reliable = f at hn ⊢
  rcases f with ⟨c, _ | slot⟩ <;> dsimp only at hn ⊢
  · exact ⟨le_rfl, fun _ _ => rfl⟩
  · split_ifs
    · refine ⟨by simp [hn], fun o ho => ?_⟩
      rw [Ccb.setSlot_nextOrdinal, hn]
      exact Function.update_noteq ho _ _
    · exact ⟨hn.ge, fun _ _ => rfl⟩

/-- What an action does to `next_ordinal` and the size log: it leaves the
ordinal no smaller and writes the log under `next_ordinal` only; a publish that
returns a message returns that ordinal, takes it, and logs under it the size it
was called with. -/
theorem step_nextOrdinal {a : Action} {r : Option Reply} (hs : s.step a = some (s', r)) :
    s.ccb.nextOrdinal ≤ s'.ccb.nextOrdinal ∧
      (∀ o, o ≠ s.ccb.nextOrdinal → s'.messageSizes o = s.messageSizes o) ∧
      ∀ p, publication (a, r) = some p →
        p.2 = s.ccb.nextOrdinal ∧ s'.ccb.nextOrdinal = p.2 + 1 ∧
          s'.messageSizes p.2 = some p.1 := by
  cases a with
  | createPublisher reliable timestamp =>
    obtain rfl := step_createPublisher hs
    obtain ⟨hle, hlog⟩ := s.createPublisher_log reliable timestamp
    exact ⟨hle, hlog, fun _ h => nomatch h⟩
  | createSubscriber reliable =>
    obtain rfl := step_createSubscriber hs
    exact ⟨le_rfl, fun _ _ => rfl, fun _ h => nomatch h⟩
  | publisher i e =>
    obtain ⟨pub, -, he, v, r', hv, rfl, rfl⟩ := step_publisher hs
    cases e with
    | getBuffer n re =>
      rw [Sys.step, Option.some.injEq] at hv
      obtain rfl : v = ((s.view pub ⟨none, false⟩).getMessageBuffer n re).1 := by rw [hv]
      rcases (s.view pub ⟨none, false⟩).getMessageBuffer_spec n re with hg | ⟨slot, -, hg⟩ <;>
        rw [hg] <;> exact ⟨by simp [view], fun _ _ => rfl, fun _ h => nomatch h⟩
    | publish size ts re =>
      obtain ⟨rfl, text, -, rfl⟩ | ⟨-, p, -, rfl, hr⟩ := Sys.publishMessage_spec hv
      · exact ⟨le_rfl, fun _ _ => rfl, fun _ h => nomatch h⟩
      refine ⟨by simp [view], fun o ho => Function.update_noteq ho _ _, fun q hq => ?_⟩
      rcases hr with rfl | ⟨text, rfl⟩ <;> cases hq
      exact ⟨rfl, by simp [view], Function.update_same _ _ _⟩
    | read mode re => cases he
    | find t re => cases he
  | subscriber j e =>
    obtain ⟨sub, -, he, v, r', hv, rfl, rfl⟩ := step_subscriber hs
    exact ⟨(Sys.subscriberStep_spec he hv).2.1.nextOrdinal.ge, fun _ _ => rfl, fun _ h => nomatch h⟩

/-- The size log is written once per ordinal: an action keeps every entry
already there, since the invariant logs only ordinals below `next_ordinal`. -/
theorem Inv.step_log_kept (h : s.Inv) {a : Action} {r : Option Reply}
    (hs : s.step a = some (s', r)) {o : Int} (ho : s.messageSizes o ≠ none) :
    s'.messageSizes o = s.messageSizes o :=
  (step_nextOrdinal hs).2.1 o (h.ccb.logged_lt o ho).ne

/-- A message a subscriber's call returns has the length logged under its
ordinal. -/
theorem Inv.step_received (h : s.Inv) {a : Action} {r : Option Reply}
    (hs : s.step a = some (s', r)) {p : Int × Int} (hp : reception (a, r) = some p) :
    s.messageSizes p.2 = some p.1 := by
  obtain ⟨j, e, len, buf, o, ts, hx, rfl⟩ := reception_eq_some hp
  obtain ⟨rfl, rfl⟩ := Prod.mk.inj hx
  obtain ⟨sub, hj, he, v, r', hv, -, hr⟩ := step_subscriber hs
  cases hr
  exact Sys.Inv.subscriberStep_logged ⟨h.subInv (List.getElem?_mem hj), fun _ h => by cases h⟩ he hv

/-- Publish ordinals over any interleaving.  Along any run of joins and calls
of any participants, `next_ordinal` never decreases, and the publishes of all
publishers return ordinals in strictly increasing order, so never the same one
twice, each taken during the run. -/
theorem run_publications_ordered {as : List Action} :
    ∀ {s s' : Shared} {out : List (Action × Option Reply)}, s.run as = some (s', out) →
      s.ccb.nextOrdinal ≤ s'.ccb.nextOrdinal ∧
        (publications out).Pairwise (fun p q => p.2 < q.2) ∧
        ∀ p ∈ publications out, s.ccb.nextOrdinal ≤ p.2 ∧ p.2 < s'.ccb.nextOrdinal := by
  induction as with
  | nil =>
    intro s s' out h
    obtain ⟨rfl, rfl⟩ := run_nil_eq_some h
    exact ⟨le_rfl, .nil, fun _ h => absurd h (List.not_mem_nil _)⟩
  | cons a as ih =>
    intro s s' out h
    obtain ⟨s1, r, out', hstep, hrun, rfl⟩ := run_cons_eq_some h
    obtain ⟨hle, -, hpub⟩ := step_nextOrdinal hstep
    obtain ⟨hle', hsorted, hin⟩ := ih hrun
    have hrest : ∀ p ∈ publications out', s.ccb.nextOrdinal ≤ p.2 ∧ p.2 < s'.ccb.nextOrdinal :=
      fun p hp => ⟨hle.trans (hin p hp).1, (hin p hp).2⟩
    simp only [publications, List.filterMap_cons]
    split
    · exact ⟨hle.trans hle', hsorted, hrest⟩
    · rename_i p hp
      obtain ⟨ho, hnext, -⟩ := hpub p hp
      refine ⟨hle.trans hle', .cons (fun q hq => ?_) hsorted, fun q hq => ?_⟩
      · have := (hin q hq).1
        omega
      · rcases List.mem_cons.1 hq with rfl | hq
        · omega
        · exact hrest q hq

/-- Two publishers, one of them reliable, and a subscriber. -/
theorem publications_ordered_two_publishers :
    let as : List Action := [.createPublisher true 0, .createPublisher false 0,
      .createSubscriber true, .publisher 1 (.publish 8 1), .publisher 0 (.getBuffer 1),
      .publisher 0 (.publish 16 2), .subscriber 0 (.read .readNext), .publisher 1 (.publish 4 3)]
    let r := ((initial "c" 4).run as).get (by decide)
    (initial "c" 4).ccb.nextOrdinal ≤ r.1.ccb.nextOrdinal ∧
      (publications r.2).Pairwise (fun p q => p.2 < q.2) ∧
      ∀ p ∈ publications r.2,
        (initial "c" 4).ccb.nextOrdinal ≤ p.2 ∧ p.2 < r.1.ccb.nextOrdinal := by
  intro as r
  exact run_publications_ordered (run_get (by decide))

/-- Along a run from a state with the invariant, the log keeps every entry it
had, and at the end logs each publication's size and each reception's length
under its ordinal. -/
theorem Inv.run_logged {as : List Action} :
    ∀ {s s' : Shared} {out : List (Action × Option Reply)}, s.Inv → s.run as = some (s', out) →
      (∀ o, s.messageSizes o ≠ none → s'.messageSizes o = s.messageSizes o) ∧
        (∀ p ∈ publications out, s'.messageSizes p.2 = some p.1) ∧
        ∀ p ∈ receptions out, s'.messageSizes p.2 = some p.1 := by
  induction as with
  | nil =>
    intro s s' out _ h
    obtain ⟨rfl, rfl⟩ := run_nil_eq_some h
    exact ⟨fun _ _ => rfl, fun _ h => absurd h (List.not_mem_nil _),
      fun _ h => absurd h (List.not_mem_nil _)⟩
  | cons a as ih =>
    intro s s' out hs h
    obtain ⟨s1, r, out', hstep, hrun, rfl⟩ := run_cons_eq_some h
    obtain ⟨hkeep, hpub, hrec⟩ := ih (hs.step hstep) hrun
    have hkeep0 : ∀ o, s.messageSizes o ≠ none → s'.messageSizes o = s.messageSizes o :=
      fun o ho => by
        have h1 := hs.step_log_kept hstep ho
        rw [hkeep o (by rwa [h1]), h1]
    refine ⟨hkeep0, fun p hp => ?_, fun p hp => ?_⟩
    · rw [publications_cons, List.mem_append, Option.mem_toList] at hp
      rcases hp with hq | hp
      · have h1 := ((step_nextOrdinal hstep).2.2 p hq).2.2
        rw [hkeep p.2 (by simp [h1]), h1]
      · exact hpub p hp
    · rw [receptions_cons, List.mem_append, Option.mem_toList] at hp
      rcases hp with hq | hp
      · have h1 := hs.step_received hstep hq
        rw [hkeep0 p.2 (by simp [h1]), h1]
      · exact hrec p hp

/-- End to end, over any interleaving of joins and calls from a reachable
state: a message any subscriber is handed under an ordinal that a publish of
the run returned has as its length the size that publish was called with,
whichever publisher made it. -/
theorem Reachable.received_as_published (hs : s.Reachable) {as : List Action}
    {out : List (Action × Option Reply)} (h : s.run as = some (s', out)) {size len o : Int}
    (hp : (size, o) ∈ publications out) (hr : (len, o) ∈ receptions out) : len = size := by
  obtain ⟨-, hpub, hrec⟩ := hs.inv.run_logged h
  exact Option.some.inj ((hrec _ hr).symm.trans (hpub _ hp))

/-- Two unreliable publishers publish in turn, and a subscriber reads both
messages. -/
theorem received_as_published_two_publishers :
    let as : List Action := [.createPublisher false 0, .createPublisher false 0,
      .createSubscriber false, .publisher 1 (.publish 16 0), .publisher 0 (.publish 8 1),
      .subscriber 0 (.read .readNext), .subscriber 0 (.read .readNext)]
    let out := (((initial "c" 4).run as).get (by decide)).2
    (8, 2) ∈ publications out ∧ (8, 2) ∈ receptions out ∧ (8 : Int) = 8 := by
  intro as out
  have hp : ((8 : Int), (2 : Int)) ∈ publications out := by decide
  have hr : ((8 : Int), (2 : Int)) ∈ receptions out := by decide
  exact ⟨hp, hr, Reachable.received_as_published (.initial "c" 4)
    (run_get (by decide)) hp hr⟩

/-! ## Reliable delivery has no gap -/

/-- A `kReadNext` read of reliable subscriber `j` leaves it reliable and on a
slot, having delivered the next publication it had still to read, if any. -/
theorem Inv.readNext_noGap (h : s.Inv) {j : Nat} {sub : Subscriber} (hj : s.subs[j]? = some sub)
    (hsr : sub.reliable = true) {y : Nat} (hy : sub.slot = some y) {P : List (Int × Int)}
    {D : List (ReadMode × Int)} (hg : s.ccb.NoGap y P D) {re : Option String} {r : Option Reply}
    (hs : s.step (.subscriber j (.read .readNext re)) = some (s', r)) :
    ∃ sub' y', s'.subs[j]? = some sub' ∧ sub'.reliable = true ∧ sub'.slot = some y' ∧
      s'.ccb.NoGap y' P (D ++ (deliveryTo j (.subscriber j (.read .readNext re), r)).toList) := by
  obtain ⟨sub0, hj0, -, v, r', hv, rfl, rfl⟩ := step_subscriber hs
  obtain rfl : sub = sub0 := Option.some.inj (hj.symm.trans hj0)
  have hsub : ∀ sub' : Subscriber, (s.subs.set j sub')[j]? = some sub' := fun sub' =>
    List.getElem?_set_self (List.getElem?_eq_some_iff.1 hj).1
  obtain ⟨rfl, text, -, rfl⟩ | ⟨-, ro, hro, hf, rfl, rfl⟩ := Sys.readMessage_frame
    (show (s.view ⟨false, none⟩ sub).readMessage .readNext re = some (v, r') from hv)
  · -- the reload failed: nothing moves and nothing is delivered
    refine ⟨sub, y, hsub sub, hsr, hy, ?_⟩
    simpa only [deliveryTo, if_true, delivery, Option.toList_none, List.append_nil] using hg
  obtain ⟨r0, hr0, hslot, hmsg⟩ := readMessageInternal_readNext (none : Option Unit) _ s.ccb sub
    (h.ccb.lists.nodup .activeList) (Nat.lt_succ_of_le (length_slotsAfter_le _ _))
  obtain rfl : r0 = ro := Option.some.inj (hr0.symm.trans hro)
  have hrel := (readMessageInternal_counts none .readNext _ _ _ _ r0 hr0).1
  rw [hy] at hslot hmsg
  cases hn : s.ccb.nextMessageSlot (some y) with
  | none =>
    -- nothing to deliver: `j` moves at most over activation messages
    rw [hn] at hmsg
    obtain ⟨y', hy'⟩ : ∃ y', r0.sub.slot = some y' := by
      rcases hslot with h1 | ⟨t, -, h1⟩ <;> exact ⟨_, h1⟩
    have hle : (s.ccb.slots y).ordinal ≤ (r0.ccb.slots y').ordinal := by
      rw [hf.same.ordinal]
      rcases hslot with h1 | ⟨t, ht, h1⟩ <;> rw [hy', Option.some.injEq] at h1 <;> subst h1
      · exact le_rfl
      · exact (rel_of_mem_slotsAfter h.ccb.sorted (h.sub_active sub (List.getElem?_mem hj) y hy)
          ht).le
    refine ⟨r0.sub, y', hsub r0.sub, hrel.trans hsr, hy', ?_⟩
    simp only [deliveryTo, if_true, delivery, hmsg, Option.toList_none, List.append_nil]
    exact hg.next_none hn hle
  | some ns =>
    rw [hn] at hmsg
    obtain ⟨hns, hm⟩ := hmsg
    refine ⟨r0.sub, ns, hsub r0.sub, hrel.trans hsr, hns, ?_⟩
    simp only [deliveryTo, if_true, delivery, hm, Ccb.messageAt, Option.toList_some]
    exact hg.next_some (hy ▸ h.subInv (List.getElem?_mem hj)) hn hf.same

/-- While every publisher is reliable, an action that leaves reliable subscriber
`j` reading every message keeps `j` reliable and on a slot, with nothing
missing: the publication the action makes waits after `j`'s slot, and a read of
`j` delivers the next publication. -/
theorem Inv.step_noGap (h : s.Inv) (hpr : ∀ pub ∈ s.pubs, pub.reliable = true) {j : Nat}
    {sub : Subscriber} (hj : s.subs[j]? = some sub) (hsr : sub.reliable = true) {y : Nat}
    (hy : sub.slot = some y) {P : List (Int × Int)} {D : List (ReadMode × Int)}
    (hg : s.ccb.NoGap y P D) {a : Action} (ha : a.readsNext j = true) {r : Option Reply}
    (hs : s.step a = some (s', r)) :
    (∀ pub ∈ s'.pubs, pub.reliable = true) ∧ ∃ sub' y', s'.subs[j]? = some sub' ∧
      sub'.reliable = true ∧ sub'.slot = some y' ∧
      s'.ccb.NoGap y' (P ++ (publication (a, r)).toList) (D ++ (deliveryTo j (a, r)).toList) := by
  by_cases hja : ∃ e, a = .subscriber j e
  · -- `j`'s own `kReadNext` read
    obtain ⟨e, rfl⟩ := hja
    obtain ⟨re, rfl⟩ : ∃ re, e = .read .readNext re := by
      rcases e with _ | _ | ⟨_ | _, re⟩ | _ <;> first | exact ⟨re, rfl⟩ | simp [Action.readsNext] at ha
    obtain ⟨sub', y', hj', hsr', hy', hg'⟩ := h.readNext_noGap hj hsr hy hg hs
    obtain ⟨-, -, -, v, r', -, rfl, -⟩ := step_subscriber hs
    have hp : publication (.subscriber j (.read .readNext re), r) = none := rfl
    rw [hp, Option.toList_none, List.append_nil]
    exact ⟨hpr, sub', y', hj', hsr', hy', hg'⟩
  · -- anyone else's action spares `j`
    push_neg at hja
    have hya := h.sub_active sub (List.getElem?_mem hj) y hy
    have hsp : a.spares j = true := by
      cases a with
      | subscriber i e =>
        simpa [Action.spares] using fun hij => hja e (by rw [hij])
      | _ => exact ha
    obtain ⟨hpr', hj', hpre, hsm⟩ := h.step_keeps_unread hpr hj hsr hy hsp hs
    have hk := hg.keep hpre hsm
    refine ⟨hpr', sub, y, hj', hsr, hy, ?_⟩
    rw [deliveryTo_of_ne hja, Option.toList_none, List.append_nil]
    cases hp : publication (a, r) with
    | none => rwa [Option.toList_none, List.append_nil]
    | some p =>
      -- a publish: its slot is appended after `j`'s
      obtain ⟨i, size, ts, re, len, buf, o, ts', hx, rfl⟩ := publication_eq_some hp
      obtain ⟨rfl, rfl⟩ := Prod.mk.inj hx
      have ho : o = s.ccb.nextOrdinal := ((step_nextOrdinal hs).2.2 _ hp).1
      obtain ⟨pub, hi, -, v, r', hv, rfl, hr⟩ := step_publisher hs
      cases hr
      obtain ⟨t, hafter, hto, hta⟩ := Sys.Inv.publish_appends ⟨h.ccb, h.pub_busy hi⟩
        (hpr pub (List.getElem?_mem hi)) hv hya
      have ht : t ∈ slotsAfter v.ccb.activeList (some y) := by
        rw [hafter]
        exact List.mem_append_right _ (List.mem_singleton_self t)
      refine hk.push ht hta (hto.trans ho.symm) ?_ size
      rw [(hsm y (List.mem_cons_self _ _)).ordinal, ho]
      exact h.ccb.ordinal_lt y hya

/-- Along a run of actions that leave reliable subscriber `j` reading every
message, while every publisher is reliable, `j` stays on a slot and misses no
publication of the run. -/
theorem Inv.run_noGap (j : Nat) {as : List Action} :
    ∀ {s s' : Shared} {out : List (Action × Option Reply)} {sub : Subscriber} {y : Nat}
      {P : List (Int × Int)} {D : List (ReadMode × Int)}, s.Inv →
      (∀ pub ∈ s.pubs, pub.reliable = true) → s.subs[j]? = some sub → sub.reliable = true →
      sub.slot = some y → s.ccb.NoGap y P D → (∀ a ∈ as, a.readsNext j = true) →
      s.run as = some (s', out) →
      ∃ sub' y', s'.subs[j]? = some sub' ∧ sub'.slot = some y' ∧
        s'.ccb.NoGap y' (P ++ publications out) (D ++ deliveriesTo j out) := by
  induction as with
  | nil =>
    intro s s' out sub y P D _ _ hj _ hy hg _ h
    obtain ⟨rfl, rfl⟩ := run_nil_eq_some h
    exact ⟨sub, y, hj, hy, by simpa [publications, deliveriesTo] using hg⟩
  | cons a as ih =>
    intro s s' out sub y P D hs hpr hj hsr hy hg has h
    obtain ⟨s1, r, out', hstep, hrun, rfl⟩ := run_cons_eq_some h
    obtain ⟨hpr1, sub1, y1, hj1, hsr1, hy1, hg1⟩ :=
      hs.step_noGap hpr hj hsr hy hg (has a (List.mem_cons_self a as)) hstep
    obtain ⟨sub', y', hj', hy', hg'⟩ := ih (hs.step hstep) hpr1 hj1 hsr1 hy1 hg1
      (fun a' ha' => has a' (List.mem_cons_of_mem a ha')) hrun
    refine ⟨sub', y', hj', hy', ?_⟩
    simpa only [publications_cons, deliveriesTo_cons, List.append_assoc] using hg'

/-- Reliable delivery has no gap, over any interleaving.  From a reachable state
in which every publisher is reliable and a reliable subscriber `j` holds a slot,
along any run in which only reliable publishers join and `j` makes only
`kReadNext` reads, `j` ends on a slot `y`; of the messages published during the
run, every one up to the message at `y` was delivered to `j` by one of its
reads, and every later one is the message of a slot after `y`, no activation
message, which `j` has still to read. -/
theorem Reachable.reliable_no_gap (hs : s.Reachable) (hpr : ∀ pub ∈ s.pubs, pub.reliable = true)
    {j : Nat} {sub : Subscriber} (hj : s.subs[j]? = some sub) (hsr : sub.reliable = true)
    {x : Nat} (hx : sub.slot = some x) {as : List Action} (has : ∀ a ∈ as, a.readsNext j = true)
    {out : List (Action × Option Reply)} (hrun : s.run as = some (s', out)) :
    ∃ sub' y, s'.subs[j]? = some sub' ∧ sub'.slot = some y ∧
      s'.ccb.NoGap y (publications out) (deliveriesTo j out) := by
  simpa using hs.inv.run_noGap j hpr hj hsr hx (Ccb.noGap_nil _ x []) has hrun

/-- A reliable subscriber on the activation message of a reliable publisher;
the publisher publishes twice, the subscriber reads once, and a second reliable
publisher joins and publishes. -/
theorem reliable_no_gap_two_publishers :
    let s := (((initial "c" 5).run [.createPublisher true 0, .createSubscriber true,
      .subscriber 0 (.read .readNext)]).get (by decide)).1
    let as : List Action := [.publisher 0 (.getBuffer 1), .publisher 0 (.publish 8 1),
      .publisher 0 (.getBuffer 1), .publisher 0 (.publish 16 2), .subscriber 0 (.read .readNext),
      .createPublisher true 3, .publisher 1 (.getBuffer 1), .publisher 1 (.publish 4 4)]
    let r := (s.run as).get (by decide)
    (∀ pub ∈ s.pubs, pub.reliable = true) ∧ s.subs[0]? = some ⟨some 0, true⟩ ∧
      (∀ a ∈ as, a.readsNext 0 = true) ∧ ∃ sub' y, r.1.subs[0]? = some sub' ∧
        sub'.slot = some y ∧ r.1.ccb.NoGap y (publications r.2) (deliveriesTo 0 r.2) := by
  intro s as r
  have hpr : ∀ pub ∈ s.pubs, pub.reliable = true := by decide
  have hj : s.subs[0]? = some ⟨some 0, true⟩ := by decide
  have has : ∀ a ∈ as, a.readsNext 0 = true := by decide
  exact ⟨hpr, hj, has, Reachable.reliable_no_gap (.run (.initial "c" 5) (Option.some_get _).symm)
    hpr hj rfl rfl has (run_get (by decide))⟩

end Shared

end Subspace
