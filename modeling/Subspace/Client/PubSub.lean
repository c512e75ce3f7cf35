import Subspace.Client.Read
import Subspace.Channel.Invariant
import Subspace.Channel.Refine
set_option autoImplicit false

/-!
# Client: one publisher and one subscriber on a mapped channel

The publish and read paths of `client.cc` on one channel, in any interleaving:
a publisher's `GetMessageBuffer` and `PublishMessage`, and a subscriber's
`ReadMessage` and `FindMessage`, from the state `CreatePublisher` and
`CreateSubscriber` leave.  Each call starts with a reload
(`ReloadSubscribersIfNecessary`, `ReloadReliablePublishersIfNecessary`) that
refreshes trigger fds from the server and is modelled with the rest of the
client state in `Subspace.Client.Session`.  Here its outcome is an input of the
call (`reloadError`, `none` when it succeeded): a failed reload's error is
returned and nothing else happens (`Sys.step_of_reloadError`).

Every reachable state satisfies the CCB invariant (`Sys.Reachable.inv`), and
the headers and links the CCB carries, moved by `ListRemove` and
`ListInsertAtEnd` at each move a call makes, represent its lists
(`Sys.Reachable.linked`); on them `first`, `next` and `last` lead to the slots
`NextSlot` and `LastSlot` target (`Sys.Reachable.linked_targets`).  From the
invariant:

* every message a call returns carries, as its length, the size the publisher
  set for its ordinal, whatever that size was (`step_message_logged`): nothing
  bounds it by the slot size;
* a `kReadNext` read always returns (`Sys.readMessage_readNext_isSome`), and a
  read never returns an activation message (`Sys.readMessage_skips_activation`),
  but `FindMessage` does: on a channel created with a reliable publisher it
  returns `ActivateReliableChannel`'s message at every time from creation on
  (`Sys.findMessage_returns_activation`).

What follows for the two parties from the channel shared by many is in
`Subspace.Client.TwoParty`.
-/

namespace Subspace

/-- What a call on the channel returns to the client: a `Message`
(`PublishMessage`, `ReadMessage`, `FindMessage`), the buffer `GetMessageBuffer`
returns (the slot whose buffer it is, `none` for `nullptr`), or an error
status with its text. -/
inductive Reply
  | message (m : Message)
  | buffer (slot : Option Nat)
  | error (text : String)
  deriving DecidableEq, Repr

/-- The calls the publisher and the subscriber make.  `numSubscribers` is the
publisher's `NumSubscribers()`, which the server's replies set.  Each call
starts with a reload of trigger fds, `ReloadSubscribersIfNecessary` for the
publisher and `ReloadReliablePublishersIfNecessary` for the subscriber, which
can fail (no connection, a failed `get_triggers` round trip): `reloadError` is
the status it returns, `none` when it succeeds. -/
inductive Event
  | getBuffer (numSubscribers : Nat) (reloadError : Option String := none)
  | publish (messageSize : Int) (timestamp : Nat) (reloadError : Option String := none)
  | read (mode : ReadMode) (reloadError : Option String := none)
  | find (timestamp : Nat) (reloadError : Option String := none)
  deriving DecidableEq, Repr

/-- The calls the publisher makes. -/
def Event.byPublisher : Event → Bool
  | .getBuffer _ _ => true
  | .publish _ _ _ => true
  | .read _ _ => false
  | .find _ _ => false

/-- What the reload a call starts with returns: its error, if any. -/
def Event.reloadError : Event → Option String
  | .getBuffer _ reloadError => reloadError
  | .publish _ _ reloadError => reloadError
  | .read _ reloadError => reloadError
  | .find _ reloadError => reloadError

/-- One mapped channel as its publisher and its subscriber see it: the channel
name, the CCB, whether the publisher is reliable, the slot it holds, the
subscriber, and (ghost) the message size the publisher set for each ordinal it
activated. -/
structure Sys where
  name : String
  ccb : Ccb
  pubReliable : Bool
  pub : Option Nat
  sub : Subscriber
  messageSizes : Int → Option Int

namespace Sys

/-- The state `Client::CreatePublisher` then `Client::CreateSubscriber` leave on
a fresh channel of `numSlots` slots.  An unreliable publisher takes a slot with
`FindFreeSlot(false)`.  A reliable one runs `ActivateReliableChannel`: it takes
a slot with `FindFreeSlot(true)`, sets its `message_size` to 1 and publishes it
as the activation message, keeping no slot.  `none` when no slot is free, where
creation fails. -/
def create (name : String) (numSlots : Nat) (pubReliable subReliable : Bool)
    (timestamp : Nat) : Option Sys :=
  match (Ccb.allocated numSlots).findFreeSlot pubReliable with
  | (_, none) => none
  | (c, some slot) =>
    if pubReliable then
      let c := c.setSlot slot { c.slots slot with messageSize := 1 }
      some ⟨name, (c.activateSlotAndGetAnother slot true true false timestamp).1, true, none,
        ⟨none, subReliable⟩, Function.update (fun _ => none) c.nextOrdinal (some 1)⟩
    else some ⟨name, c, false, some slot, ⟨none, subReliable⟩, fun _ => none⟩

/-- `Client::GetMessageBuffer(publisher)`.  It returns the error of
`ReloadSubscribersIfNecessary`, if any.  A reliable publisher without a slot
takes one with `FindFreeSlot(true)`, unless it knows of no subscriber; then
the buffer of the publisher's slot is returned, and an error when it has
none. -/
def getMessageBuffer (s : Sys) (numSubscribers : Nat) (reloadError : Option String := none) :
    Sys × Reply :=
  match reloadError with
  | some text => (s, .error text)
  | none =>
      if s.pubReliable ∧ s.pub = none then
        if numSubscribers = 0 then (s, .buffer none)
        else
          match s.ccb.findFreeSlot true with
          | (_, none) => (s, .buffer none)
          | (c, some slot) => ({ s with ccb := c, pub := some slot }, .buffer (some slot))
      else
        match s.pub with
        | none => (s, .error ("Channel " ++ s.name ++ " has no buffer"))
        | some slot => (s, .buffer (some slot))

/-- `Client::PublishMessage(publisher, message_size)`, that is
`PublishMessageInternal` with `omit_prefix` false.  It returns the error of
`ReloadSubscribersIfNecessary`, if any.  `SetMessageSize` (in the missing
`client_channel.h`) writes `message_size` into the publisher's slot,
`ActivateSlotAndGetAnother` publishes the slot, and the publisher takes the new
slot it returns.  `none` when the publisher holds no slot: `SetMessageSize`
would dereference `nullptr`. -/
def publishMessage (s : Sys) (messageSize : Int) (timestamp : Nat)
    (reloadError : Option String := none) : Option (Sys × Reply) :=
  match reloadError with
  | some text => some (s, .error text)
  | none =>
      match s.pub with
      | none => none
      | some slot =>
        let c := s.ccb.setSlot slot { s.ccb.slots slot with messageSize := messageSize }
        let msg := c.activateSlotAndGetAnother slot s.pubReliable false false timestamp
        let s' := { s with
          ccb := msg.1
          pub := msg.2.newSlot
          messageSizes := Function.update s.messageSizes msg.2.ordinal (some messageSize) }
        match msg.2.newSlot with
        | none =>
          if s.pubReliable then some (s', .message (.mk messageSize none msg.2.ordinal msg.2.timestamp))
          else some (s', .error ("Out of slots for channel " ++ s.name))
        | some _ => some (s', .message (.mk messageSize none msg.2.ordinal msg.2.timestamp))

/-- `Client::ReadMessage(subscriber, mode)` on a mapped channel: the error of
`ReloadReliablePublishersIfNecessary`, if any, else `ReadMessageInternal` with
`pass_activation` false.  The dropped-message callback
changes nothing here and is left out (`readMessageInternal` reports its calls).
The recursion gets one unit of fuel more than there are active slots: enough for
`kReadNext` (`readMessageInternal_readNext`), while a `kReadNewest` read needs one
unit or never returns.  `none` when the read never returns. -/
def readMessage (s : Sys) (mode : ReadMode) (reloadError : Option String := none) :
    Option (Sys × Reply) :=
  match reloadError with
  | some text => some (s, .error text)
  | none =>
      (readMessageInternal (none : Option Unit) (s.ccb.activeList.length + 1) s.ccb s.sub mode
        false).map fun r => ({ s with ccb := r.ccb, sub := r.sub }, .message r.message)

/-- `Client::FindMessage(subscriber, timestamp)` on a mapped channel: the error
of `ReloadReliablePublishersIfNecessary`, if any, else `FindMessageInternal`. -/
def findMessage (s : Sys) (timestamp : Nat) (reloadError : Option String := none) : Sys × Reply :=
  match reloadError with
  | some text => (s, .error text)
  | none =>
      let r := findMessageInternal s.ccb s.sub timestamp
      ({ s with ccb := r.1, sub := r.2.1 }, .message r.2.2)

/-- One call; `none` when it never returns or cannot be made. -/
def step (s : Sys) : Event → Option (Sys × Reply)
  | .getBuffer numSubscribers reloadError => some (s.getMessageBuffer numSubscribers reloadError)
  | .publish messageSize timestamp reloadError => s.publishMessage messageSize timestamp reloadError
  | .read mode reloadError => s.readMessage mode reloadError
  | .find timestamp reloadError => some (s.findMessage timestamp reloadError)

/-- A call whose reload fails returns the reload's error and changes nothing. -/
theorem step_of_reloadError (s : Sys) {e : Event} {text : String} (h : e.reloadError = some text) :
    s.step e = some (s, .error text) := by
  cases e <;> cases h <;> rfl

/-- A sequence of calls, with what each returned; `none` when one of them never
returns or cannot be made. -/
def run (s : Sys) : List Event → Option (Sys × List (Event × Reply))
  | [] => some (s, [])
  | e :: es =>
    match s.step e with
    | none => none
    | some (s1, r) =>
      match s1.run es with
      | none => none
      | some (s', out) => some (s', (e, r) :: out)

/-- The states a created channel reaches by any sequence of calls. -/
inductive Reachable : Sys → Prop
  | create {name : String} {numSlots : Nat} {pubReliable subReliable : Bool} {timestamp : Nat}
      {s : Sys} : create name numSlots pubReliable subReliable timestamp = some s → Reachable s
  | step {s s' : Sys} {e : Event} {r : Reply} : Reachable s → s.step e = some (s', r) →
      Reachable s'

/-! ## The invariant -/

/-- The CCB invariant for the subscriber's slot and the size log, and the
publisher's slot on the busy list. -/
structure Inv (s : Sys) : Prop where
  ccb : s.ccb.Inv s.sub.slot s.messageSizes
  pub_busy : ∀ p, s.pub = some p → p ∈ s.ccb.lists .busyList

theorem create_inv {name : String} {numSlots : Nat} {pubReliable subReliable : Bool}
    {timestamp : Nat} {s : Sys} (h : create name numSlots pubReliable subReliable timestamp = some s) :
    s.Inv := by
  have hf := (Ccb.allocated_inv numSlots).findFreeSlot pubReliable
  unfold create at h
  split at h
  · cases h
  · rename_i c slot heq
    rw [heq] at hf
    split_ifs at h <;> cases h
    · exact ⟨hf.1.activate (hf.2 slot rfl) 1 true false timestamp, fun p hp => by cases hp⟩
    · exact ⟨hf.1, hf.2⟩

/-- What `GetMessageBuffer` does to the state: nothing, or the reliable
publisher takes the slot `FindFreeSlot(true)` returns. -/
theorem getMessageBuffer_spec (s : Sys) (numSubscribers : Nat) (reloadError : Option String) :
    (s.getMessageBuffer numSubscribers reloadError).1 = s ∨
      ∃ slot, (s.ccb.findFreeSlot true).2 = some slot ∧
        (s.getMessageBuffer numSubscribers reloadError).1 =
          { s with ccb := (s.ccb.findFreeSlot true).1, pub := some slot } := by
  unfold Sys.getMessageBuffer
  cases reloadError with
  | some text => exact .inl rfl
  | none =>
    dsimp only
    split_ifs
    · exact .inl rfl
    · split
      · exact .inl rfl
      · rename_i c slot heq
        exact .inr ⟨slot, by rw [heq], by rw [heq]⟩
    · split <;> exact .inl rfl

theorem Inv.getMessageBuffer {s : Sys} (h : s.Inv) (numSubscribers : Nat)
    (reloadError : Option String) : (s.getMessageBuffer numSubscribers reloadError).1.Inv := by
  have hf := h.ccb.findFreeSlot true
  rcases s.getMessageBuffer_spec numSubscribers reloadError with he | ⟨slot, hslot, he⟩ <;> rw [he]
  · exact h
  · exact ⟨hf.1, fun p hp => hf.2 p (hslot.trans hp)⟩

/-- What a publish does: it fails in its reload and changes nothing, or the
publisher held a slot `p`; the CCB is that of `ActivateSlotAndGetAnother` after
`SetMessageSize`, the publisher holds the new slot, and the log records the size
at the ordinal `next_ordinal` had. -/
theorem publishMessage_spec {s s' : Sys} {messageSize : Int} {timestamp : Nat}
    {reloadError : Option String} {r : Reply}
    (h : s.publishMessage messageSize timestamp reloadError = some (s', r)) :
    (s' = s ∧ ∃ text, reloadError = some text ∧ r = .error text) ∨
    reloadError = none ∧ ∃ p, s.pub = some p ∧
      s' = { s with
        ccb := ((s.ccb.setSlot p { s.ccb.slots p with messageSize := messageSize })
          |>.activateSlotAndGetAnother p s.pubReliable false false timestamp).1
        pub := ((s.ccb.setSlot p { s.ccb.slots p with messageSize := messageSize })
          |>.activateSlotAndGetAnother p s.pubReliable false false timestamp).2.newSlot
        messageSizes := Function.update s.messageSizes s.ccb.nextOrdinal (some messageSize) } ∧
      (r = .message (.mk messageSize none s.ccb.nextOrdinal timestamp) ∨ ∃ text, r = .error text) := by
  unfold Sys.publishMessage at h
  cases reloadError with
  | some text => cases h; exact .inl ⟨rfl, text, rfl, rfl⟩
  | none =>
    refine .inr ⟨rfl, ?_⟩
    dsimp only at h
    split at h
    · cases h
    · rename_i p hp
      simp only [Ccb.activateSlotAndGetAnother_ordinal, Ccb.setSlot_nextOrdinal] at h
      refine ⟨p, hp, ?_⟩
      have hts : ((s.ccb.setSlot p { s.ccb.slots p with messageSize := messageSize })
          |>.activateSlotAndGetAnother p s.pubReliable false false timestamp).2.timestamp =
            timestamp := by
        cases s.pubReliable <;> rfl
      split at h
      · split_ifs at h <;> cases h
        · exact ⟨rfl, .inl (by rw [hts])⟩
        · exact ⟨rfl, .inr ⟨_, rfl⟩⟩
      · cases h
        exact ⟨rfl, .inl (by rw [hts])⟩

theorem Inv.publishMessage {s s' : Sys} (h : s.Inv) {messageSize : Int} {timestamp : Nat}
    {reloadError : Option String} {r : Reply}
    (hpub : s.publishMessage messageSize timestamp reloadError = some (s', r)) : s'.Inv := by
  obtain ⟨rfl, -⟩ | ⟨-, p, hp, rfl, -⟩ := publishMessage_spec hpub
  · exact h
  have ha := h.ccb.activate (h.pub_busy p hp) messageSize false false timestamp
  cases hrel : s.pubReliable
  · have hf := ha.findFreeSlot false
    simp only [Ccb.activateSlotAndGetAnother, hrel, Bool.false_eq_true, if_false]
    exact ⟨hf.1, hf.2⟩
  · simp only [Ccb.activateSlotAndGetAnother, hrel, if_true]
    exact ⟨ha, fun p hp => by cases hp⟩

/-- What a read leaves: it fails in its reload and changes nothing, or
`readMessageInternal_frame` describes it. -/
theorem readMessage_frame {s s' : Sys} {mode : ReadMode} {reloadError : Option String} {r : Reply}
    (h : s.readMessage mode reloadError = some (s', r)) :
    (s' = s ∧ ∃ text, reloadError = some text ∧ r = .error text) ∨
    reloadError = none ∧ ∃ o : ReadOutcome Unit,
      readMessageInternal none (s.ccb.activeList.length + 1) s.ccb s.sub mode false = some o ∧
      ReadFrame s.ccb s.sub o ∧ s' = { s with ccb := o.ccb, sub := o.sub } ∧
      r = .message o.message := by
  unfold Sys.readMessage at h
  cases reloadError with
  | some text => cases h; exact .inl ⟨rfl, text, rfl, rfl⟩
  | none =>
    obtain ⟨o, ho, he⟩ := Option.map_eq_some'.1 h
    cases he
    exact .inr ⟨rfl, o, ho, readMessageInternal_frame none mode _ _ _ _ o ho, rfl, rfl⟩

/-- On an ordinary message at the tail of the active list, a `kReadNewest` read
returns that message and leaves the subscriber on the tail. -/
theorem step_readNewest_of_plain (s : Sys) {t : Nat} (ht : s.ccb.activeList.getLast? = some t)
    (hplain : (s.ccb.prefixes t).isActivation = false) :
    ∃ s', s.step (.read .readNewest) = some (s', .message (s.ccb.messageAt t)) ∧
      s'.sub.slot = some t := by
  obtain ⟨r, hr, hmsg, hslot⟩ := readMessageInternal_readNewest_of_plain (none : Option Unit)
    s.ccb.activeList.length s.ccb s.sub ht hplain
  have hsame := (readMessageInternal_frame none .readNewest _ _ _ _ r hr).same
  refine ⟨{ s with ccb := r.ccb, sub := r.sub }, ?_, hslot⟩
  simp only [Sys.step, Sys.readMessage, hr, Option.map_some', hmsg, hsame.messageAt]

theorem Inv.readMessage {s s' : Sys} (h : s.Inv) {mode : ReadMode} {reloadError : Option String}
    {r : Reply} (hr : s.readMessage mode reloadError = some (s', r)) : s'.Inv := by
  obtain ⟨rfl, -⟩ | ⟨-, o, -, hf, rfl, -⟩ := readMessage_frame hr
  · exact h
  refine ⟨h.ccb.sameButRefs hf.same (hf.refs h.ccb.refs) fun x hx => ?_,
    fun p hp => hf.same.lists ▸ h.pub_busy p hp⟩
  rcases hf.slot with hs | ⟨t, ht, hs⟩
  · exact h.ccb.cursor_active x (hs ▸ hx)
  · rw [hs] at hx
    cases hx
    exact ht

/-- What a find leaves: it fails in its reload, or finds nothing, and changes
nothing, or the subscriber's reference moved to an active slot whose message is
returned. -/
theorem findMessage_spec (s : Sys) (timestamp : Nat) (reloadError : Option String) :
    (∃ text, s.findMessage timestamp reloadError = (s, .error text)) ∨
    s.findMessage timestamp reloadError = (s, .message .empty) ∨
      ∃ t ∈ s.ccb.activeList,
        s.findMessage timestamp reloadError =
          ({ s with ccb := s.ccb.moveRef s.sub.slot t s.sub.reliable, sub := { s.sub with slot := some t } },
            .message ((s.ccb.moveRef s.sub.slot t s.sub.reliable).messageAt t)) := by
  cases reloadError with
  | some text => exact .inl ⟨text, rfl⟩
  | none =>
    rcases s.ccb.findActiveSlotByTimestamp_spec s.sub.slot timestamp s.sub.reliable with
      h | ⟨t, ht, h⟩
    · exact .inr (.inl (by simp [findMessage, findMessageInternal, h]))
    · exact .inr (.inr ⟨t, ht, by simp [findMessage, findMessageInternal, h]⟩)

theorem Inv.findMessage {s : Sys} (h : s.Inv) (timestamp : Nat) (reloadError : Option String) :
    (s.findMessage timestamp reloadError).1.Inv := by
  rcases s.findMessage_spec timestamp reloadError with ⟨_, hf⟩ | hf | ⟨t, ht, hf⟩ <;> rw [hf]
  · exact h
  · exact h
  · have hs := Ccb.sameButRefs_moveRef s.ccb s.sub.slot t s.sub.reliable
    exact ⟨h.ccb.sameButRefs hs (h.ccb.refs.moveRef t s.sub.reliable)
      fun x hx => by cases hx; exact ht, fun p hp => hs.lists ▸ h.pub_busy p hp⟩

theorem Inv.step {s s' : Sys} (h : s.Inv) {e : Event} {r : Reply}
    (hs : s.step e = some (s', r)) : s'.Inv := by
  cases e with
  | getBuffer n re =>
    have hb := h.getMessageBuffer n re
    rw [Sys.step, Option.some.injEq] at hs
    rwa [hs] at hb
  | publish messageSize timestamp re => exact h.publishMessage hs
  | read mode re => exact h.readMessage hs
  | find timestamp re =>
    have hb := h.findMessage timestamp re
    rw [Sys.step, Option.some.injEq] at hs
    rwa [hs] at hb

/-- Every reachable state satisfies the invariant. -/
theorem Reachable.inv {s : Sys} (h : s.Reachable) : s.Inv := by
  induction h with
  | create hc => exact create_inv hc
  | step _ hs ih => exact ih.step hs

/-! ## The lists are the code's linked lists -/

theorem create_preserved {P : Ccb → Prop} (hP : Ccb.Preserved P) {name : String} {numSlots : Nat}
    {pubReliable subReliable : Bool} {timestamp : Nat} {s : Sys}
    (h0 : P (Ccb.allocated numSlots))
    (h : create name numSlots pubReliable subReliable timestamp = some s) : P s.ccb := by
  have hf := (Ccb.allocated_inv numSlots).findFreeSlot pubReliable
  have hl := hP.findFreeSlot pubReliable h0
  unfold create at h
  split at h
  · cases h
  · rename_i c slot heq
    rw [heq] at hf hl
    split_ifs at h <;> cases h
    · exact hP.activateSlotAndGetAnother (hP.setSlot slot _ hl) (hf.2 slot rfl) true true false
        timestamp
    · exact hl

/-- Every call keeps what each write of the CCB keeps: the links representing
the lists (a move runs `ListRemove` and `ListInsertAtEnd` on them, and reads
and finds move references only), and the number of slots. -/
theorem Inv.step_preserved {P : Ccb → Prop} (hP : Ccb.Preserved P) {s s' : Sys} (h : s.Inv)
    (hl : P s.ccb) {e : Event} {r : Reply} (hs : s.step e = some (s', r)) : P s'.ccb := by
  cases e with
  | getBuffer n re =>
    rw [Sys.step, Option.some.injEq] at hs
    obtain rfl : s' = (s.getMessageBuffer n re).1 := by rw [hs]
    rcases s.getMessageBuffer_spec n re with he | ⟨slot, -, he⟩ <;> rw [he]
    · exact hl
    · exact hP.findFreeSlot true hl
  | publish messageSize timestamp re =>
    obtain ⟨rfl, -⟩ | ⟨-, p, hp, rfl, -⟩ := publishMessage_spec hs
    · exact hl
    · exact hP.activateSlotAndGetAnother (hP.setSlot p _ hl) (h.pub_busy p hp) _ _ _ _
  | read mode re =>
    obtain ⟨rfl, -⟩ | ⟨-, o, -, hf, rfl, -⟩ := readMessage_frame hs
    · exact hl
    · exact hP.sameButRefs hf.same hl
  | find timestamp re =>
    rw [Sys.step, Option.some.injEq] at hs
    obtain rfl : s' = (s.findMessage timestamp re).1 := by rw [hs]
    rcases s.findMessage_spec timestamp re with ⟨_, hf⟩ | hf | ⟨t, -, hf⟩ <;> rw [hf]
    · exact hl
    · exact hl
    · exact hP.sameButRefs (Ccb.sameButRefs_moveRef s.ccb s.sub.slot t s.sub.reliable) hl

theorem Reachable.linksOk {s : Sys} (hs : s.Reachable) : s.ccb.LinksOk := by
  induction hs with
  | create hc => exact create_preserved Ccb.linksOk_preserved (Ccb.allocated_linksOk _) hc
  | step hs' hstep ih => exact hs'.inv.step_preserved Ccb.linksOk_preserved ih hstep

/-- The links the CCB carries represent its lists in every reachable state:
each move a call made ran `ListRemove` then `ListInsertAtEnd` on the headers and
links `Channel::Allocate` set up, and these represent, as the offsets of the
slots' elements, exactly the free, busy and active lists, which partition the
channel's slots.  While the slots fit below 2^31 bytes, that is for at most
13421772 slots on x86-64 Linux, these offsets are the `int32_t` values
`ToCCBOffset` stores, and none is the null offset. -/
theorem Reachable.linked {s : Sys} (hs : s.Reachable) :
    s.ccb.LinksOk ∧
      (s.ccb.numSlots ≤ 13421772 → ∀ o ∈ (Ccb.placement.offsets s.ccb.numSlots).offsets,
        fromCCBOffset (toCCBOffset o) = o ∧ toCCBOffset o ≠ 0) :=
  ⟨hs.linksOk, fun hn => CcbLayout.placement_offsets_int32 ((CcbLayout.lp64_fits_iff _).2 hn)⟩

/-- A new unreliable channel of four slots. -/
theorem linked_created :
    let s := (create "c" 4 false false 0).get rfl
    s.ccb.LinksOk ∧
      (s.ccb.numSlots ≤ 13421772 → ∀ o ∈ (Ccb.placement.offsets s.ccb.numSlots).offsets,
        fromCCBOffset (toCCBOffset o) = o ∧ toCCBOffset o ≠ 0) :=
  Reachable.linked (.create (@Option.some_get _ (create "c" 4 false false 0) rfl).symm)

/-- The size the publisher set for the message of the subscriber's slot is
logged under that message's ordinal. -/
theorem Inv.logged_of_slot {s : Sys} (h : s.Inv) {t : Nat} (ht : s.sub.slot = some t) :
    s.messageSizes (s.ccb.slots t).ordinal = some (s.ccb.slots t).messageSize :=
  h.ccb.logged t (h.ccb.cursor_active t ht)

theorem getMessageBuffer_ne_message (s : Sys) (numSubscribers : Nat) (reloadError : Option String)
    (m : Message) : (s.getMessageBuffer numSubscribers reloadError).2 ≠ .message m := by
  unfold Sys.getMessageBuffer
  cases reloadError
  · dsimp only
    split_ifs
    · simp
    · split <;> simp
    · split <;> simp
  · simp

/-! ## The ordinal of the subscriber's slot only moves forward -/

section Ordinal

variable {c : Ccb} {sub : Subscriber} {log : Int → Option Int}

/-- A slot after the subscriber's holds a newer message. -/
theorem lt_ordinal_of_mem_slotsAfter (h : c.Inv sub.slot log) {t : Nat}
    (ht : t ∈ slotsAfter c.activeList sub.slot) : c.getCurrentOrdinal sub < (c.slots t).ordinal := by
  unfold Ccb.getCurrentOrdinal
  split
  · have := h.ordinal_pos t (mem_of_mem_slotsAfter ht)
    omega
  · rename_i x hx
    rw [hx] at ht
    exact rel_of_mem_slotsAfter h.sorted (h.cursor_active x hx) ht

/-- The tail of the active list holds the subscriber's message or a newer one. -/
theorem le_ordinal_of_getLast? (h : c.Inv sub.slot log) {t : Nat}
    (ht : c.activeList.getLast? = some t) : c.getCurrentOrdinal sub ≤ (c.slots t).ordinal := by
  unfold Ccb.getCurrentOrdinal
  split
  · have := h.ordinal_pos t (List.mem_of_getLast?_eq_some ht)
    omega
  · rename_i x hx
    rcases rel_of_getLast? h.sorted (h.cursor_active x hx) ht with rfl | hlt
    · exact le_rfl
    · exact hlt.le

end Ordinal

/-- A read leaves the subscriber on its message or a newer one; a message it
delivers is that of the slot it leaves the subscriber on, and a `kReadNext` read
delivers a message newer than the subscriber's. -/
theorem readMessage_ordinal {s s' : Sys} (h : s.Inv) {mode : ReadMode}
    {reloadError : Option String} {r : Reply} (hr : s.readMessage mode reloadError = some (s', r)) :
    s.ccb.getCurrentOrdinal s.sub ≤ s'.ccb.getCurrentOrdinal s'.sub ∧
      ∀ len buf o ts, r = .message (.mk len buf o ts) →
        o = s'.ccb.getCurrentOrdinal s'.sub ∧
          (mode = .readNext → s.ccb.getCurrentOrdinal s.sub < o) := by
  obtain ⟨rfl, _, -, rfl⟩ | ⟨-, ro, hro, hf, rfl, rfl⟩ := readMessage_frame hr
  · exact ⟨le_rfl, fun _ _ _ _ hm => by cases hm⟩
  have hord := hf.same.ordinal
  have hcur : ∀ x, ro.sub.slot = some x →
      ro.ccb.getCurrentOrdinal ro.sub = (s.ccb.slots x).ordinal := fun x hx => by
    simp [Ccb.getCurrentOrdinal, hx, hord]
  have hsame : ro.sub.slot = s.sub.slot →
      ro.ccb.getCurrentOrdinal ro.sub = s.ccb.getCurrentOrdinal s.sub := fun heq => by
    rw [Ccb.getCurrentOrdinal_congr fun x _ => hord x]
    simp only [Ccb.getCurrentOrdinal, heq]
  cases mode with
  | readNext =>
    obtain ⟨ro', hro', hslot, hmsg⟩ := readMessageInternal_readNext none _ s.ccb s.sub
      (h.ccb.lists.nodup .activeList)
      (Nat.lt_succ_of_le (length_slotsAfter_le s.ccb.activeList s.sub.slot))
    rw [hro, Option.some.injEq] at hro'
    subst hro'
    refine ⟨?_, fun len buf o ts hm => ?_⟩
    · rcases hslot with heq | ⟨t, ht, heq⟩
      · exact (hsame heq).ge
      · rw [hcur t heq]
        exact (lt_ordinal_of_mem_slotsAfter h.ccb ht).le
    · revert hmsg
      cases hn : s.ccb.nextMessageSlot s.sub.slot with
      | none =>
        intro hmsg
        rw [hmsg] at hm
        cases hm
      | some ns =>
        rintro ⟨hns, hmsg⟩
        rw [hmsg] at hm
        cases hm
        refine ⟨by rw [hcur ns hns, hord], fun _ => ?_⟩
        rw [hord]
        exact lt_ordinal_of_mem_slotsAfter h.ccb (List.mem_of_find?_eq_some hn)
  | readNewest =>
    rcases readMessageInternal_readNewest_spec none _ s.ccb s.sub hro with
      ⟨-, hsub, hmsg⟩ | ⟨t, ht, hslot, hmsg⟩
    · refine ⟨(hsame (congrArg Subscriber.slot hsub)).ge, fun len buf o ts hm => ?_⟩
      rw [hmsg] at hm
      cases hm
    · refine ⟨?_, fun len buf o ts hm => ?_⟩
      · rw [hcur t hslot]
        exact le_ordinal_of_getLast? h.ccb ht
      · rw [hmsg] at hm
        cases hm
        exact ⟨by rw [hcur t hslot, hord], fun hmode => by cases hmode⟩

/-- Every call but `FindMessage` leaves the subscriber on its message or a newer
one, and a read that delivers a message leaves it on that message. -/
theorem step_ordinal {s s' : Sys} (h : s.Inv) {e : Event} {r : Reply}
    (hs : s.step e = some (s', r)) (hne : ∀ t, e ≠ .find t) :
    s.ccb.getCurrentOrdinal s.sub ≤ s'.ccb.getCurrentOrdinal s'.sub ∧
      ∀ mode re len buf o ts, e = .read mode re → r = .message (.mk len buf o ts) →
        o = s'.ccb.getCurrentOrdinal s'.sub ∧
          (mode = .readNext → s.ccb.getCurrentOrdinal s.sub < o) := by
  cases e with
  | getBuffer n re =>
    rw [Sys.step, Option.some.injEq] at hs
    obtain rfl : s' = (s.getMessageBuffer n re).1 := by rw [hs]
    refine ⟨le_of_eq ?_, fun _ _ _ _ _ _ he => by cases he⟩
    rcases s.getMessageBuffer_spec n re with he | ⟨slot, -, he⟩
    · rw [he]
    · rw [he]
      exact (Ccb.getCurrentOrdinal_congr fun x _ => by rw [Ccb.findFreeSlot_slots]).symm
  | publish messageSize timestamp re =>
    refine ⟨?_, fun _ _ _ _ _ _ he => by cases he⟩
    obtain ⟨rfl, -⟩ | ⟨-, p, hp, rfl, -⟩ := publishMessage_spec hs
    · exact le_rfl
    refine le_of_eq (Ccb.getCurrentOrdinal_congr fun x hx => ?_).symm
    have hxp : x ≠ p := fun hxp => by
      cases h.ccb.lists.disjoint _ _ x (h.ccb.cursor_active x hx) (hxp ▸ h.pub_busy p hp)
    simp [Ccb.activateSlotAndGetAnother_slots_of_ne _ hxp, Ccb.setSlot_slots, hxp]
  | read mode re =>
    obtain ⟨hle, hdel⟩ := readMessage_ordinal h hs
    exact ⟨hle, fun mode' re' len buf o ts he hr => by cases he; exact hdel len buf o ts hr⟩
  | find timestamp re =>
    cases re with
    | none => exact absurd rfl (hne timestamp)
    | some text =>
      cases hs
      exact ⟨le_rfl, fun _ _ _ _ _ _ he => by cases he⟩

theorem run_cons_eq_some {s s' : Sys} {e : Event} {es : List Event}
    {out : List (Event × Reply)} (h : s.run (e :: es) = some (s', out)) :
    ∃ s1 r out', s.step e = some (s1, r) ∧ s1.run es = some (s', out') ∧
      out = (e, r) :: out' := by
  simp only [Sys.run] at h
  split at h
  · cases h
  · rename_i s1 r hstep
    split at h
    · cases h
    · rename_i s'' out' hrun
      cases h
      exact ⟨s1, r, out', hstep, hrun, rfl⟩

theorem step_get {s : Sys} {e : Event} (h : (s.step e).isSome) :
    s.step e = some (((s.step e).get h).1, ((s.step e).get h).2) :=
  (Option.some_get h).symm

theorem run_get {s : Sys} {evs : List Event} (h : (s.run evs).isSome) :
    s.run evs = some (((s.run evs).get h).1, ((s.run evs).get h).2) :=
  (Option.some_get h).symm

/-! ## Reliable delivery -/

/-- With a reliable publisher and a reliable subscriber holding `x`, a call of
the publisher leaves the subscriber where it is, and `x` and the slots after it
on `active` in place: they stay the first slots after `x`, with their table
entries and prefixes. -/
theorem Inv.publisherCall_keeps_unread {s s' : Sys} (h : s.Inv)
    (hrr : s.ccb.ReliableRefsOk s.sub.reliableSlot) (hpr : s.pubReliable = true)
    (hsr : s.sub.reliable = true) {x : Nat} (hx : s.sub.slot = some x) {e : Event}
    (he : e.byPublisher = true) {r : Reply} (hs : s.step e = some (s', r)) :
    s'.sub = s.sub ∧ s'.pubReliable = s.pubReliable ∧
      slotsAfter s.ccb.activeList (some x) <+: slotsAfter s'.ccb.activeList (some x) ∧
      ∀ t ∈ x :: slotsAfter s.ccb.activeList (some x),
        s'.ccb.slots t = s.ccb.slots t ∧ s'.ccb.prefixes t = s.ccb.prefixes t := by
  have hxa := h.ccb.cursor_active x hx
  have hxr : (s.ccb.slots x).reliableRefCount ≠ 0 := by
    have := hrr x
    simp only [Subscriber.reliableSlot, hsr, hx, if_true] at this
    omega
  have hmem : ∀ t ∈ x :: slotsAfter s.ccb.activeList (some x), t ∈ s.ccb.activeList := by
    rintro t (_ | ⟨_, ht⟩)
    · exact hxa
    · exact mem_of_mem_slotsAfter ht
  cases e with
  | getBuffer n re =>
    rw [Sys.step, Option.some.injEq] at hs
    obtain rfl : s' = (s.getMessageBuffer n re).1 := by rw [hs]
    rcases s.getMessageBuffer_spec n re with hg | ⟨slot, -, hg⟩ <;> rw [hg]
    · exact ⟨rfl, rfl, List.prefix_refl _, fun _ _ => ⟨rfl, rfl⟩⟩
    · refine ⟨rfl, rfl, ?_, fun t _ =>
        ⟨by rw [Ccb.findFreeSlot_slots], by rw [Ccb.findFreeSlot_prefixes]⟩⟩
      rw [(Ccb.findFreeSlot_true_slotsAfter h.ccb.lists hxa hxr).2]
  | publish messageSize timestamp re =>
    obtain ⟨rfl, -⟩ | ⟨-, p, hp, rfl, -⟩ := publishMessage_spec hs
    · exact ⟨rfl, rfl, List.prefix_refl _, fun _ _ => ⟨rfl, rfl⟩⟩
    have hpb := h.pub_busy p hp
    have hne : ∀ t ∈ x :: slotsAfter s.ccb.activeList (some x), t ≠ p := fun t ht htp => by
      cases h.ccb.lists.disjoint _ _ t (hmem t ht) (htp ▸ hpb)
    -- a reliable publisher gets no new slot: the activation is all
    have hact : ((s.ccb.setSlot p { s.ccb.slots p with messageSize := messageSize })
        |>.activateSlotAndGetAnother p s.pubReliable false false timestamp).1 =
        (s.ccb.setSlot p { s.ccb.slots p with messageSize := messageSize }).activateSlot p false
          false timestamp := by
      rw [hpr]; rfl
    rw [hact]
    refine ⟨rfl, rfl, ?_, fun t ht => ⟨?_, ?_⟩⟩
    · rw [Ccb.activateSlot_slotsAfter (c := s.ccb.setSlot p _) h.ccb.lists hpb hxa]
      exact List.prefix_append _ _
    · rw [Ccb.activateSlot_slots, if_neg (hne t ht), Ccb.setSlot_slots, if_neg (hne t ht)]
    · rw [Ccb.activateSlot_prefixes_of_ne _ (hne t ht), Ccb.setSlot_prefixes]
  | read mode re => cases he
  | find timestamp re => cases he

/-! ## Activation messages -/

/-- `ActivateReliableChannel` on a fresh channel: slot 0 is the only active
slot, and its prefix carries `kMessageActivate` and the creation time. -/
theorem create_reliable (name : String) (n : Nat) (subReliable : Bool) (timestamp : Nat) :
    ∃ s, create name (n + 1) true subReliable timestamp = some s ∧
      s.ccb.activeList = [0] ∧
      s.ccb.prefixes 0 = ⟨1, 1, timestamp, BitVec.ofInt 64 kMessageActivate⟩ ∧
      s.sub = ⟨none, subReliable⟩ := by
  rw [create, Ccb.findFreeSlot_allocated]
  refine ⟨_, rfl, ?_, ?_, rfl⟩
  · simp [Ccb.activeList, Ccb.activateSlotAndGetAnother, Ccb.activateSlot, moveSeqs, Ccb.allocated]
  · simp only [Ccb.activateSlotAndGetAnother, if_true, Ccb.activateSlot_prefixes_self,
      Ccb.setSlot_slots, Ccb.moveSlot_slots]
    rfl

/-- A `ReadMessage` that returns a message returns the empty one or one whose
prefix does not carry `kMessageActivate`. -/
theorem readMessage_skips_activation {s s' : Sys} {mode : ReadMode} {m : Message}
    (h : s.readMessage mode = some (s', .message m)) :
    m = .empty ∨ ∃ t, s'.sub.slot = some t ∧ m = s'.ccb.messageAt t ∧
      (s'.ccb.prefixes t).isActivation = false := by
  obtain ⟨r, hr, he⟩ := Option.map_eq_some'.1 h
  cases he
  exact readMessageInternal_skips_activation none mode _ _ _ r hr

/-- A reliable publisher's first message: a `kReadNext` read skips the
activation message in slot 0 and returns slot 1's. -/
theorem readMessage_skips_activation_first_publish :
    let s0 := (create "c" 4 true false 0).get rfl
    let s1 := (((s0.getMessageBuffer 1).1.publishMessage 8 1).get (by decide)).1
    let s2 := ((s1.readMessage .readNext).get (by decide)).1
    s1.readMessage .readNext = some (s2, .message (.mk 8 (some 1) 2 1)) ∧
      (Message.mk 8 (some 1) 2 1 = .empty ∨ ∃ t, s2.sub.slot = some t ∧
        Message.mk 8 (some 1) 2 1 = s2.ccb.messageAt t ∧ (s2.ccb.prefixes t).isActivation = false) := by
  intro s0 s1 s2
  have h : s1.readMessage .readNext = some (s2, .message (.mk 8 (some 1) 2 1)) :=
    (@Option.some_get _ (s1.readMessage .readNext) (by decide)).symm.trans
      (congrArg some (Prod.ext rfl (by decide)))
  exact ⟨h, readMessage_skips_activation h⟩

/-- On every channel created with a reliable publisher, at every time from its
creation on, `FindMessage` returns the activation message
`ActivateReliableChannel` wrote: the message of slot 0, whose prefix carries
`kMessageActivate`.  A `kReadNext` read on the same state skips it and returns
the empty message. -/
theorem findMessage_returns_activation (name : String) (n : Nat) (subReliable : Bool)
    (timestamp d : Nat) :
    ∃ s, create name (n + 1) true subReliable timestamp = some s ∧
      (s.findMessage (timestamp + d)).2 =
        .message ((s.findMessage (timestamp + d)).1.ccb.messageAt 0) ∧
      ((s.findMessage (timestamp + d)).1.ccb.prefixes 0).isActivation = true ∧
      (s.readMessage .readNext).map Prod.snd = some (.message .empty) := by
  obtain ⟨s, hs, hact, hpre, hsub⟩ := create_reliable name n subReliable timestamp
  have hfind : s.ccb.findActiveSlotByTimestamp s.sub.slot (timestamp + d) s.sub.reliable =
      (s.ccb.moveRef s.sub.slot 0 s.sub.reliable, some 0) := by
    simp [Ccb.findActiveSlotByTimestamp, hact, hpre]
  refine ⟨s, hs, by simp [findMessage, findMessageInternal, hfind], ?_, ?_⟩
  · simp only [findMessage, findMessageInternal, hfind,
      (Ccb.sameButRefs_moveRef s.ccb s.sub.slot 0 s.sub.reliable).prefixes, hpre,
      MessagePrefix.isActivation_activate]
  · -- the read walks past slot 0 and finds nothing after it
    obtain ⟨r, hr, -, hmsg⟩ := readMessageInternal_readNext (none : Option Unit)
      (s.ccb.activeList.length + 1) s.ccb s.sub (hact ▸ List.nodup_singleton 0)
      (Nat.lt_succ_of_le (length_slotsAfter_le s.ccb.activeList s.sub.slot))
    have hnone : s.ccb.nextMessageSlot s.sub.slot = none := by
      simp [Ccb.nextMessageSlot, hact, hsub, slotsAfter, hpre]
    rw [hnone] at hmsg
    simp [readMessage, hr, hmsg]

end Sys

/-! ## The length a reader is handed -/

/-- Every message a call returns has as its length the size the publisher set
for its ordinal: the `message_size` passed to `PublishMessage`, or 1 for a
reliable publisher's activation message.  Nothing compares it with the slot
size. -/
theorem step_message_logged {s s' : Sys} {e : Event} {len : Int} {buf : Option Nat} {o : Int}
    {ts : Nat} (hs : s.Reachable) (h : s.step e = some (s', .message (.mk len buf o ts))) :
    s'.messageSizes o = some len := by
  have hinv := (Sys.Reachable.step hs h).inv
  cases e with
  | getBuffer n re =>
    rw [Sys.step, Option.some.injEq] at h
    exact absurd (congrArg Prod.snd h) (Sys.getMessageBuffer_ne_message s n re _)
  | publish size t re =>
    obtain ⟨-, _, -, hr⟩ | ⟨-, p, -, rfl, hr | ⟨text, hr⟩⟩ := Sys.publishMessage_spec h <;>
      cases hr
    exact Function.update_same _ _ _
  | read mode re =>
    obtain ⟨-, _, -, hr⟩ | ⟨-, ro, -, hf, rfl, hr⟩ := Sys.readMessage_frame h
    · cases hr
    rcases hf.message with hm | ⟨x, hx, hm⟩ <;> rw [hm] at hr <;> cases hr
    exact hinv.logged_of_slot hx
  | find t re =>
    rcases s.findMessage_spec t re with ⟨_, hf⟩ | hf | ⟨x, -, hf⟩ <;>
      rw [Sys.step, hf, Option.some.injEq, Prod.mk.injEq] at h <;> obtain ⟨rfl, hr⟩ := h <;>
      cases hr
    exact hinv.logged_of_slot rfl

/-- The first publish on a fresh channel, with `message_size` -1, logs -1 under
ordinal 1. -/
theorem step_message_logged_publish :
    ((((Sys.create "c" 4 false false 0).get rfl).step (.publish (-1) 0)).get rfl).1.messageSizes 1 =
      some (-1) :=
  @step_message_logged ((Sys.create "c" 4 false false 0).get rfl) _ (.publish (-1) 0) (-1) none 1 0
    (.create (@Option.some_get _ (Sys.create "c" 4 false false 0) rfl).symm) rfl

/-- From a fresh channel, a publish with `message_size` -1 and a `kReadNext`
read: the read hands back a message of length -1. -/
theorem publish_negative_size_read :
    ((Sys.create "c" 4 false false 0).bind fun s =>
      s.run [.publish (-1) 0, .read .readNext]).map (·.2) =
      some [(.publish (-1) 0, .message (.mk (-1) none 1 0)),
        (.read .readNext, .message (.mk (-1) (some 0) 1 0))] := by
  decide

/-! ## What the reads of a run deliver -/

/-- The ordinal a call delivered to the subscriber, with the read's mode: a
read that returned a non-empty message. -/
def delivery : Event × Reply → Option (ReadMode × Int)
  | (.read mode _, .message (.mk _ _ ordinal _)) => some (mode, ordinal)
  | _ => none

/-- The ordinals the reads of a run delivered, in order. -/
def deliveries (out : List (Event × Reply)) : List (ReadMode × Int) :=
  out.filterMap delivery

theorem delivery_eq_some {x : Event × Reply} {d : ReadMode × Int} (h : delivery x = some d) :
    ∃ mode re len buf o ts, x = (.read mode re, .message (.mk len buf o ts)) ∧ d = (mode, o) := by
  unfold delivery at h
  split at h
  · cases h
    exact ⟨_, _, _, _, _, _, rfl, rfl⟩
  · cases h

/-! ## Reads on reachable states -/

/-- A `kReadNext` read always returns. -/
theorem Sys.readMessage_readNext_isSome {s : Sys} (h : s.Inv) :
    (s.readMessage .readNext).isSome := by
  obtain ⟨r, hr, -⟩ := readMessageInternal_readNext (none : Option Unit) _ s.ccb s.sub
    (h.ccb.lists.nodup .activeList)
    (Nat.lt_succ_of_le (length_slotsAfter_le s.ccb.activeList s.sub.slot))
  simp [Sys.readMessage, hr]

/-- The first read of a subscriber on a new channel returns. -/
theorem readMessage_readNext_isSome_created :
    (((Sys.create "c" 4 false false 0).get rfl).readMessage .readNext).isSome :=
  Sys.readMessage_readNext_isSome
    (Sys.Reachable.create (@Option.some_get _ (Sys.create "c" 4 false false 0) rfl).symm).inv

/-- Scenario D of the spec on three slots: the subscriber reads ordinal 1, the
publisher publishes ordinals 2 and 3 and reclaims ordinal 2's slot, and the
subscriber's next read moves from ordinal 1 to ordinal 3.  One message was
dropped; the callback is passed 2. -/
theorem readNext_gap_reports_difference :
    ((Sys.create "c" 3 false false 0).bind fun s =>
      (s.run [.publish 8 0, .read .readNext, .publish 8 1, .publish 8 2]).bind fun r =>
        (readMessageInternal (some 7) 4 r.1.ccb r.1.sub .readNext false).map (·.drops)) =
      some [(7, 2)] := by
  decide

/-- Right after a reliable publisher is created, its activation message is the
only active slot, and a subscriber's `kReadNewest` read never returns, whatever
the fuel. -/
theorem readNewest_after_reliable_create_never_returns (fuel : Nat) :
    readMessageInternal (none : Option Unit) fuel ((Sys.create "c" 4 true true 0).get rfl).ccb
      ((Sys.create "c" 4 true true 0).get rfl).sub .readNewest false = none :=
  @readMessageInternal_readNewest_diverges Unit none 0 fuel _ _ rfl rfl

end Subspace
