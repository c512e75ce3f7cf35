import Subspace.Client.Read
set_option autoImplicit false

/-!
# Client: handles, server round trips and reloads

`client.cc` keeps the client's side of its session with the server: the socket,
the set `channels_` of the publisher and subscriber handles it created, and the
map `dropped_message_callbacks_`.  Each handle knows its channel's sizes,
whether its shared memory is mapped, and `NumUpdates`, the value of its
channel's update counter in the system control block (SCB) that it last acted
on.  This module models the calls that work on that state: `CreatePublisher`,
`CreateSubscriber`, `RemovePublisher`, `RemoveSubscriber`, the callback
registry, `ReloadSubscriber` and the two trigger reloads, and `ReadMessage` and
`FindMessage` up to the call of `ReadMessageInternal` or `FindMessageInternal`,
which `Subspace.Client.Read` models on the CCB.

The server and the rest of the world are an input of every call (`World`): the
SCB counters, the reply to the request or the failure of the round trip,
whether `Map` succeeds, whether a publisher finds its first slot, and the
address at which a new handle is allocated.  A round trip can fail before the
server acts on the request (serializing, `SendMessage`) or after it has
(receiving the reply, parsing it, `ReceiveFds`); the client sees an error in
both cases.  `ClientChannel::Map` and `Unmap` are in the missing
`client_channel.cc` and are modelled from the spec.  Three ghost lists follow
the server's side: the participants it has registered for this client, those of
them whose handle creation failed after the server had accepted it, and those
whose removal the server accepted while the client never got the reply, so
that their handles stay.  File descriptors (triggers, poll fds) are left out.
-/

namespace Subspace

/-- The requests the client sends, with the fields the modelled functions set. -/
inductive Request
  | createPublisher (channelName : String) (slotSize numSlots : Int) (reliable : Bool)
  | createSubscriber (channelName : String) (subscriberId : Int) (reliable : Bool)
  | getTriggers (channelName : String)
  | removePublisher (channelName : String) (publisherId : Int)
  | removeSubscriber (channelName : String) (subscriberId : Int)
  deriving DecidableEq, Repr

/-- What the client reads of a response: its `error` text and, for a create
request, the channel and participant ids, the slot size and count, and the
update count. -/
structure Response where
  error : String
  channelId : Nat
  participantId : Int
  slotSize : Int
  numSlots : Int
  numUpdates : Int
  deriving DecidableEq, Repr

/-- How `SendRequestReceiveResponse` ends, step by step: the request could not be
serialized and nothing was sent; `SendMessage` failed; `ReceiveMessage`
failed, the server having served the request with a response or not;
`ParseFromArray` failed on the response the server sent; `ReceiveFds` failed
after the response was parsed; or all went through.  Every failure after
serializing closes the socket. -/
inductive RoundTrip
  | notSerialized
  | sendFailed (text : String)
  | receiveFailed (served : Option Response) (text : String)
  | notParsed (served : Response)
  | fdsFailed (response : Response) (text : String)
  | reply (response : Response)
  deriving DecidableEq, Repr

/-- The response the server sent, when it received the request and acted on
it. -/
def RoundTrip.served : RoundTrip → Option Response
  | .notSerialized => none
  | .sendFailed _ => none
  | .receiveFailed served _ => served
  | .notParsed served => some served
  | .fdsFailed response _ => some response
  | .reply response => some response

/-- The world's side of one call: the SCB counters by channel id, the round
trip of the request the call sends (if it sends one), the outcome of `Map`
(`none` when it succeeds, else its error), whether a new publisher finds a
slot, and the address the allocator gives a new handle. -/
structure World where
  scb : Nat → ChannelCounters
  roundTrip : RoundTrip
  map : Option String
  slotFound : Bool
  addr : Nat

/-- A `ClientChannel` object, publisher or subscriber: its channel name, role,
reliability, participant id (`publisher_id` or `subscriber_id`) and the
`Channel` part. -/
structure Handle where
  name : String
  isPublisher : Bool
  reliable : Bool
  participantId : Int
  channel : Channel

/-- The participant a handle stands for at the server. -/
def Handle.key (h : Handle) : String × Int := (h.name, h.participantId)

/-- Modelled from the spec: `ClientChannel::Map(fds, scb_fd)` maps the CCB and
the buffers for the handle's slot count and size, or fails with the world's
error and changes nothing. -/
def Channel.map (ch : Channel) : Option String → Channel × Except String Unit
  | none => ({ ch with mapped := some (ch.numSlots, ch.slotSize) }, .ok ())
  | some e => (ch, .error e)

/-- Modelled from the spec: `ClientChannel::Unmap()`. -/
def Channel.unmap (ch : Channel) : Channel := { ch with mapped := none }

/-- The client: whether its socket is connected, `channels_` as the addresses
of its handles, the objects at those addresses, `dropped_message_callbacks_`
(a callback named by a number), the requests handed to `SendMessage` so far,
and (ghost) the participants the server has registered for it, those of them
whose creation failed on the client's side, and those the server removed
while the client kept their handles. -/
structure Client where
  connected : Bool
  channels : List Nat
  handles : Nat → Handle
  droppedMessageCallbacks : Nat → Option Nat
  sent : List Request
  registered : List (String × Int)
  leaked : List (String × Int)
  orphaned : List (String × Int)

/-- What `ReadMessage` or `FindMessage` comes to at the client: an error
status, the empty `Message()` of a placeholder, or the call of
`ReadMessageInternal` (with the subscriber's dropped-message callback) or of
`FindMessageInternal` on the handle. -/
inductive Reached
  | status (text : String)
  | empty
  | readInternal (addr : Nat) (mode : ReadMode) (callback : Option Nat)
  | findInternal (addr : Nat) (timestamp : Nat)
  deriving DecidableEq, Repr

namespace Client

/-- A connected client that has created nothing yet; no address holds a
handle. -/
def connectedEmpty : Client :=
  ⟨true, [], fun _ => ⟨"", false, false, 0, ⟨0, 0, 0, 0, 0, none⟩⟩, fun _ => none, [], [], [], []⟩

/-- Replace the `Channel` part of the handle at `addr`. -/
def setChannel (c : Client) (addr : Nat) (ch : Channel) : Client :=
  { c with handles := Function.update c.handles addr { c.handles addr with channel := ch } }

/-- `Client::CheckConnected()`. -/
def checkConnected (c : Client) : Except String Unit :=
  if c.connected then .ok ()
  else .error "Client is not connected to the server; have you called Init()?"

/-- `Client::SendRequestReceiveResponse(req, response, fds)`, ended as the
world says. -/
def sendRequestReceiveResponse (c : Client) (req : Request) :
    RoundTrip → Client × Except String Response
  | .notSerialized => (c, .error "Failed to serialize request")
  | .sendFailed text => ({ c with sent := c.sent ++ [req], connected := false }, .error text)
  | .receiveFailed _ text => ({ c with sent := c.sent ++ [req], connected := false }, .error text)
  | .notParsed _ =>
    ({ c with sent := c.sent ++ [req], connected := false }, .error "Failed to parse response")
  | .fdsFailed _ text => ({ c with sent := c.sent ++ [req], connected := false }, .error text)
  | .reply response => ({ c with sent := c.sent ++ [req] }, .ok response)

/-- The server has accepted a create request for `key`. -/
def register (c : Client) (key : String × Int) : Client :=
  { c with registered := c.registered ++ [key] }

/-- A creation the server accepted failed on the client's side: the handle is
destroyed and the server's registration stays. -/
def leak (c : Client) (key : String × Int) : Client :=
  { c with leaked := c.leaked ++ [key] }

/-- A create request for channel `channelName` whose round trip failed: when the
server served it without error it registered the participant its response
names, whose creation has failed. -/
def leakServed (c : Client) (channelName : String) : Option Response → Client
  | some resp =>
    if resp.error = "" then (c.register (channelName, resp.participantId)).leak
      (channelName, resp.participantId)
    else c
  | none => c

/-- A remove request for `key` whose round trip failed: when the server served
it without error it dropped the participant, whose handle stays. -/
def orphanServed (c : Client) (key : String × Int) : Option Response → Client
  | some resp =>
    if resp.error = "" then
      { c with registered := c.registered.erase key, orphaned := c.orphaned ++ [key] }
    else c
  | none => c

/-- `channels_.insert(std::move(channel))` of a new handle at `addr`. -/
def insertHandle (c : Client) (addr : Nat) (h : Handle) : Client :=
  { c with channels := c.channels ++ [addr], handles := Function.update c.handles addr h }

/-- `Client::CreatePublisher(channel_name, slot_size, num_slots, opts)`.  The
handle keeps the caller's slot size and count.  An unreliable publisher then
takes a slot with `FindFreeSlot`; a reliable one runs
`ActivateReliableChannel`, which also fails when no slot is free. -/
def createPublisher (c : Client) (w : World) (channelName : String) (slotSize numSlots : Int)
    (reliable : Bool) : Client × Except String Nat :=
  match c.checkConnected with
  | .error e => (c, .error e)
  | .ok () =>
    let sent := c.sendRequestReceiveResponse
      (.createPublisher channelName slotSize numSlots reliable) w.roundTrip
    match sent.2 with
    | .error e => (sent.1.leakServed channelName w.roundTrip.served, .error e)
    | .ok resp =>
      if resp.error ≠ "" then (sent.1, .error resp.error)
      else
        let key := (channelName, resp.participantId)
        let c := sent.1.register key
        let mapped := (Channel.mk numSlots slotSize resp.channelId 0 0 none).map w.map
        match mapped.2 with
        | .error e => (c.leak key, .error e)
        | .ok () =>
          let h : Handle := ⟨channelName, true, reliable, resp.participantId,
            mapped.1.setNumUpdates resp.numUpdates⟩
          if !reliable then
            if w.slotFound then (c.insertHandle w.addr h, .ok w.addr)
            else (c.leak key, .error "No slot available for publisher")
          else
            if w.slotFound then (c.insertHandle w.addr h, .ok w.addr)
            else (c.leak key, .error ("Channel " ++ channelName ++ " has no free slots"))

/-- `Client::CreateSubscriber(channel_name, opts)`.  The handle takes its slot
size and count from the server's reply: both 0 for a placeholder, when the
channel has no publisher yet. -/
def createSubscriber (c : Client) (w : World) (channelName : String) (reliable : Bool) :
    Client × Except String Nat :=
  match c.checkConnected with
  | .error e => (c, .error e)
  | .ok () =>
    let sent := c.sendRequestReceiveResponse (.createSubscriber channelName (-1) reliable)
      w.roundTrip
    match sent.2 with
    | .error e => (sent.1.leakServed channelName w.roundTrip.served, .error e)
    | .ok resp =>
      if resp.error ≠ "" then (sent.1, .error resp.error)
      else
        let key := (channelName, resp.participantId)
        let c := sent.1.register key
        let mapped := (Channel.mk resp.numSlots resp.slotSize resp.channelId 0 0 none).map w.map
        match mapped.2 with
        | .error e => (c.leak key, .error e)
        | .ok () =>
          (c.insertHandle w.addr
            ⟨channelName, false, reliable, resp.participantId,
              mapped.1.setNumUpdates resp.numUpdates⟩, .ok w.addr)

/-- `Client::RemoveChannel(channel)`. -/
def removeChannel (c : Client) (addr : Nat) : Client × Except String Unit :=
  if addr ∈ c.channels then ({ c with channels := c.channels.erase addr }, .ok ())
  else (c, .error ("Channel " ++ (c.handles addr).name ++ " not found\n"))

/-- `Client::RemovePublisher` and `Client::RemoveSubscriber`, which differ only
in the request they send. -/
def removeParticipant (c : Client) (w : World) (addr : Nat) (request : String → Int → Request) :
    Client × Except String Unit :=
  match c.checkConnected with
  | .error e => (c, .error e)
  | .ok () =>
    let h := c.handles addr
    let sent := c.sendRequestReceiveResponse (request h.name h.participantId) w.roundTrip
    match sent.2 with
    | .error e => (sent.1.orphanServed h.key w.roundTrip.served, .error e)
    | .ok resp =>
      if resp.error ≠ "" then (sent.1, .error resp.error)
      else { sent.1 with registered := sent.1.registered.erase h.key }.removeChannel addr

/-- `Client::RemovePublisher(publisher)`. -/
def removePublisher (c : Client) (w : World) (addr : Nat) : Client × Except String Unit :=
  c.removeParticipant w addr .removePublisher

/-- `Client::RemoveSubscriber(subscriber)`. -/
def removeSubscriber (c : Client) (w : World) (addr : Nat) : Client × Except String Unit :=
  c.removeParticipant w addr .removeSubscriber

/-- `Client::RegisterDroppedMessageCallback(subscriber, callback)`. -/
def registerDroppedMessageCallback (c : Client) (addr callback : Nat) : Client :=
  { c with droppedMessageCallbacks := Function.update c.droppedMessageCallbacks addr (some callback) }

/-- `Client::UnregisterDroppedMessageCallback(subscriber)`. -/
def unregisterDroppedMessageCallback (c : Client) (addr : Nat) : Client × Except String Unit :=
  match c.droppedMessageCallbacks addr with
  | none =>
    (c, .error ("No dropped message callback has been registered for channel " ++
      (c.handles addr).name ++ "\n"))
  | some _ =>
    ({ c with droppedMessageCallbacks := Function.update c.droppedMessageCallbacks addr none },
      .ok ())

/-- `Client::ReloadSubscriber(subscriber)`.  It records the counter with
`SetNumUpdates` before it checks the connection and before the request can
fail; the request names the subscriber but leaves `is_reliable` unset. -/
def reloadSubscriber (c : Client) (w : World) (addr : Nat) : Client × Except String Unit :=
  let h := c.handles addr
  let updates := (w.scb h.channel.channelId).numPubUpdates
  if h.channel.numUpdates = updates then (c, .ok ())
  else
    let c := c.setChannel addr (h.channel.setNumUpdates updates.toNat)
    match c.checkConnected with
    | .error e => (c, .error e)
    | .ok () =>
      let sent := c.sendRequestReceiveResponse (.createSubscriber h.name h.participantId false)
        w.roundTrip
      match sent.2 with
      | .error e => (sent.1, .error e)
      | .ok resp =>
        if resp.error ≠ "" then (sent.1, .error resp.error)
        else
          let mapped :=
            (((sent.1.handles addr).channel.unmap).setSlots resp.slotSize resp.numSlots).map w.map
          (sent.1.setChannel addr mapped.1, mapped.2)

/-- `Client::ReloadSubscribersIfNecessary(publisher)` and
`Client::ReloadReliablePublishersIfNecessary(subscriber)`, which differ only
in the SCB counter they read.  They check the connection first, then record
the counter, then ask for the trigger fds. -/
def reloadTriggersIfNecessary (c : Client) (w : World) (addr : Nat)
    (counter : ChannelCounters → UInt16) : Client × Except String Unit :=
  match c.checkConnected with
  | .error e => (c, .error e)
  | .ok () =>
    let h := c.handles addr
    let updates := counter (w.scb h.channel.channelId)
    if h.channel.numUpdates = updates then (c, .ok ())
    else
      let sent := (c.setChannel addr (h.channel.setNumUpdates updates.toNat)).sendRequestReceiveResponse
        (.getTriggers h.name) w.roundTrip
      (sent.1, sent.2.map fun _ => ())

/-- `Client::ReloadSubscribersIfNecessary(publisher)`. -/
def reloadSubscribersIfNecessary (c : Client) (w : World) (addr : Nat) :
    Client × Except String Unit :=
  c.reloadTriggersIfNecessary w addr ChannelCounters.numSubUpdates

/-- `Client::ReloadReliablePublishersIfNecessary(subscriber)`. -/
def reloadReliablePublishersIfNecessary (c : Client) (w : World) (addr : Nat) :
    Client × Except String Unit :=
  c.reloadTriggersIfNecessary w addr ChannelCounters.numPubUpdates

/-- The start `ReadMessage` and `FindMessage` share: a placeholder reloads, and
gives up with `Message()` when that fails or leaves it a placeholder; then the
reliable publishers' triggers are reloaded.  `ok true` when the internal call
follows. -/
def subscriberPrologue (c : Client) (w : World) (addr : Nat) : Client × Except String Bool :=
  let reloadPublishers (c : Client) : Client × Except String Bool :=
    let r := c.reloadReliablePublishersIfNecessary w addr
    (r.1, r.2.map fun _ => true)
  if (c.handles addr).channel.isPlaceholder then
    let r := c.reloadSubscriber w addr
    match r.2 with
    | .error _ => (r.1, .ok false)
    | .ok () =>
      if (r.1.handles addr).channel.isPlaceholder then (r.1, .ok false) else reloadPublishers r.1
  else reloadPublishers c

/-- `Client::ReadMessage(subscriber, mode)`, up to `ReadMessageInternal`. -/
def readMessage (c : Client) (w : World) (addr : Nat) (mode : ReadMode) : Client × Reached :=
  let r := c.subscriberPrologue w addr
  match r.2 with
  | .error e => (r.1, .status e)
  | .ok false => (r.1, .empty)
  | .ok true => (r.1, .readInternal addr mode (r.1.droppedMessageCallbacks addr))

/-- `Client::FindMessage(subscriber, timestamp)`, up to `FindMessageInternal`. -/
def findMessage (c : Client) (w : World) (addr : Nat) (timestamp : Nat) : Client × Reached :=
  let r := c.subscriberPrologue w addr
  match r.2 with
  | .error e => (r.1, .status e)
  | .ok false => (r.1, .empty)
  | .ok true => (r.1, .findInternal addr timestamp)

/-! ## Reloads record the counter whatever they end with -/

@[simp] theorem sendRequestReceiveResponse_handles (c : Client) (req : Request) (rt : RoundTrip) :
    (c.sendRequestReceiveResponse req rt).1.handles = c.handles := by
  cases rt <;> rfl

@[simp] theorem sendRequestReceiveResponse_connected_of_reply (c : Client) (req : Request)
    (resp : Response) : (c.sendRequestReceiveResponse req (.reply resp)).1.connected = c.connected :=
  rfl

theorem setChannel_handles (c : Client) (addr : Nat) (ch : Channel) (a : Nat) :
    (c.setChannel addr ch).handles a = if a = addr then { c.handles addr with channel := ch }
      else c.handles a := by
  by_cases h : a = addr <;> simp [setChannel, Function.update, h]

@[simp] theorem setChannel_handles_self (c : Client) (addr : Nat) (ch : Channel) :
    ((c.setChannel addr ch).handles addr).channel = ch := by
  simp [setChannel_handles]

@[simp] theorem setChannel_connected (c : Client) (addr : Nat) (ch : Channel) :
    (c.setChannel addr ch).connected = c.connected := rfl

/-- Whatever it ends with (success, an error reply, a failed round trip, a
failed `Map`, or no connection), `ReloadSubscriber` leaves the handle's channel
id as it was and its `NumUpdates` at the SCB counter it read. -/
theorem reloadSubscriber_counter (c : Client) (w : World) (addr : Nat) :
    ((c.reloadSubscriber w addr).1.handles addr).channel.channelId =
        (c.handles addr).channel.channelId ∧
      ((c.reloadSubscriber w addr).1.handles addr).channel.numUpdates =
        (w.scb (c.handles addr).channel.channelId).numPubUpdates := by
  unfold reloadSubscriber
  dsimp only
  split_ifs with heq
  · exact ⟨rfl, heq⟩
  · split
    · simp
    · split
      · simp
      · split_ifs
        · simp
        · cases w.map <;> simp [Channel.map, Channel.unmap, Channel.setSlots]

/-- A reload of a subscriber whose `NumUpdates` matches the SCB counter sends
nothing and succeeds. -/
theorem reloadSubscriber_of_current (c : Client) (w : World) (addr : Nat)
    (h : (c.handles addr).channel.numUpdates =
      (w.scb (c.handles addr).channel.channelId).numPubUpdates) :
    c.reloadSubscriber w addr = (c, .ok ()) := by
  simp [reloadSubscriber, h]

/-- So, whatever the first `ReloadSubscriber` ended with, a second one at the
same SCB counter sends no request and reports success: a reload that failed
after `SetNumUpdates` has lost the update. -/
theorem reloadSubscriber_again (c : Client) (w w' : World) (addr : Nat) (hscb : w'.scb = w.scb) :
    (c.reloadSubscriber w addr).1.reloadSubscriber w' addr = ((c.reloadSubscriber w addr).1, .ok ()) := by
  obtain ⟨hid, hnum⟩ := c.reloadSubscriber_counter w addr
  exact reloadSubscriber_of_current _ w' addr (by rw [hscb, hid, hnum])

/-- A reload answered with an error reply, then one at the same counter. -/
theorem reloadSubscriber_again_after_error_reply :
    (connectedEmpty.reloadSubscriber
        ⟨fun _ => ⟨1, 0⟩, .reply ⟨"busy", 0, 0, 0, 0, 0⟩, none, true, 0⟩ 0).1.reloadSubscriber
      ⟨fun _ => ⟨1, 0⟩, .notSerialized, none, true, 0⟩ 0 =
    ((connectedEmpty.reloadSubscriber
      ⟨fun _ => ⟨1, 0⟩, .reply ⟨"busy", 0, 0, 0, 0, 0⟩, none, true, 0⟩ 0).1, .ok ()) :=
  reloadSubscriber_again _ _ ⟨fun _ => ⟨1, 0⟩, .notSerialized, none, true, 0⟩ 0 rfl

/-- A placeholder subscriber (`num_slots` 0) is created; the server then binds
the channel and bumps its counter, but answers the reload of the subscriber's
next `ReadMessage` with an error.  The client stays connected; the next
`ReadMessage` sends no request, and the subscriber stays a placeholder. -/
theorem readMessage_error_reply_loses_update :
    let c1 : Client := (connectedEmpty.createSubscriber
      ⟨fun _ => ⟨0, 0⟩, .reply ⟨"", 0, 5, 0, 0, 0⟩, none, true, 100⟩ "c" false).1
    let r1 := c1.readMessage
      ⟨fun _ => ⟨1, 0⟩, .reply ⟨"busy", 0, 0, 0, 0, 0⟩, none, true, 0⟩ 100 .readNext
    let r2 := r1.1.readMessage
      ⟨fun _ => ⟨1, 0⟩, .reply ⟨"", 0, 5, 64, 4, 1⟩, none, true, 0⟩ 100 .readNext
    r1.2 = .empty ∧ r1.1.connected = true ∧ r1.1.sent.length = 2 ∧
      r2.2 = .empty ∧ r2.1.sent.length = 2 ∧ (r2.1.handles 100).channel.numSlots = 0 := by
  decide

/-! ## A failed `Map` in `ReloadSubscriber` -/

/-- A placeholder subscriber is created; its next `ReadMessage` reloads it, the
server now reports 4 slots, and `Map` fails.  `ReloadSubscriber` has already
run `Unmap` and `SetSlots`: the handle keeps 4 slots and no mapping, and the
following `ReadMessage` goes on to `ReadMessageInternal` on it. -/
theorem readMessage_after_failed_map_reaches_internal :
    let c1 : Client := (connectedEmpty.createSubscriber
      ⟨fun _ => ⟨0, 0⟩, .reply ⟨"", 0, 5, 0, 0, 0⟩, none, true, 100⟩ "c" false).1
    let r1 := c1.readMessage
      ⟨fun _ => ⟨1, 0⟩, .reply ⟨"", 0, 5, 64, 4, 1⟩, some "mmap failed", true, 0⟩ 100 .readNext
    let r2 := r1.1.readMessage ⟨fun _ => ⟨1, 0⟩, .notSerialized, none, true, 0⟩ 100 .readNext
    r1.2 = .empty ∧ (r1.1.handles 100).channel.numSlots = 4 ∧
      (r1.1.handles 100).channel.mapped = none ∧ r2.2 = .readInternal 100 .readNext none := by
  decide

/-! ## Dropped-message callbacks outlive their subscriber -/

/-- A subscriber at address 100 registers callback 7 and is removed; the
callback stays registered under its address.  A new subscriber allocated at
the same address never registers one, yet its `ReadMessage` reaches
`ReadMessageInternal` with callback 7. -/
theorem removeSubscriber_keeps_callback :
    let w : World := ⟨fun _ => ⟨0, 0⟩, .reply ⟨"", 0, 5, 64, 4, 0⟩, none, true, 100⟩
    let c1 := (connectedEmpty.createSubscriber w "c" false).1.registerDroppedMessageCallback 100 7
    let c2 := (c1.removeSubscriber w 100).1
    let c3 := (c2.createSubscriber { w with roundTrip := .reply ⟨"", 0, 6, 64, 4, 0⟩ } "c" false).1
    c2.droppedMessageCallbacks 100 = some 7 ∧ 100 ∉ c2.channels ∧
      (c3.readMessage w 100 .readNext).2 = .readInternal 100 .readNext (some 7) := by
  decide

/-! ## The participants the server holds for the client -/

/-- The participants the handles in `channels_` stand for. -/
def keys (c : Client) : List (String × Int) := c.channels.map fun a => (c.handles a).key

/-- A call, or part of one, that leaves `channels_`, every handle's participant
and the server's registrations as they were. -/
structure SameRegistry (c c' : Client) : Prop where
  channels : c'.channels = c.channels
  registered : c'.registered = c.registered
  leaked : c'.leaked = c.leaked
  orphaned : c'.orphaned = c.orphaned
  key : ∀ a, (c'.handles a).key = (c.handles a).key

theorem SameRegistry.refl (c : Client) : SameRegistry c c := ⟨rfl, rfl, rfl, rfl, fun _ => rfl⟩

theorem SameRegistry.trans {c c' c'' : Client} (h : SameRegistry c c') (h' : SameRegistry c' c'') :
    SameRegistry c c'' :=
  ⟨h'.channels.trans h.channels, h'.registered.trans h.registered, h'.leaked.trans h.leaked,
    h'.orphaned.trans h.orphaned, fun a => (h'.key a).trans (h.key a)⟩

theorem SameRegistry.keys {c c' : Client} (h : SameRegistry c c') : c'.keys = c.keys := by
  simp only [Client.keys, h.channels, h.key]

theorem sameRegistry_send (c : Client) (req : Request) (rt : RoundTrip) :
    SameRegistry c (c.sendRequestReceiveResponse req rt).1 := by
  cases rt <;> exact ⟨rfl, rfl, rfl, rfl, fun _ => rfl⟩

theorem sameRegistry_setChannel (c : Client) (addr : Nat) (ch : Channel) :
    SameRegistry c (c.setChannel addr ch) :=
  ⟨rfl, rfl, rfl, rfl, fun a => by rw [setChannel_handles]; split_ifs with h <;> simp [h, Handle.key]⟩

theorem sameRegistry_reloadSubscriber (c : Client) (w : World) (addr : Nat) :
    SameRegistry c (c.reloadSubscriber w addr).1 := by
  unfold reloadSubscriber
  dsimp only
  have h1 := sameRegistry_setChannel c addr ((c.handles addr).channel.setNumUpdates
    (w.scb (c.handles addr).channel.channelId).numPubUpdates.toNat)
  have h2 := h1.trans (sameRegistry_send _
    (.createSubscriber (c.handles addr).name (c.handles addr).participantId false) w.roundTrip)
  split_ifs
  · exact .refl c
  · split
    · exact h1
    · split
      · exact h2
      · split_ifs
        · exact h2
        · exact h2.trans (sameRegistry_setChannel _ _ _)

theorem sameRegistry_reloadTriggersIfNecessary (c : Client) (w : World) (addr : Nat)
    (counter : ChannelCounters → UInt16) :
    SameRegistry c (c.reloadTriggersIfNecessary w addr counter).1 := by
  unfold reloadTriggersIfNecessary
  split
  · exact .refl c
  · dsimp only
    split_ifs
    · exact .refl c
    · exact (sameRegistry_setChannel _ _ _).trans (sameRegistry_send _ _ _)

theorem sameRegistry_subscriberPrologue (c : Client) (w : World) (addr : Nat) :
    SameRegistry c (c.subscriberPrologue w addr).1 := by
  have hp : ∀ c' : Client, SameRegistry c' (c'.reloadReliablePublishersIfNecessary w addr).1 :=
    fun c' => sameRegistry_reloadTriggersIfNecessary c' w addr _
  have hs := sameRegistry_reloadSubscriber c w addr
  unfold subscriberPrologue
  dsimp only
  by_cases h1 : (c.handles addr).channel.isPlaceholder
  · rw [if_pos h1]
    split
    · exact hs
    · split_ifs
      · exact hs
      · exact hs.trans (hp _)
  · rw [if_neg h1]
    exact hp c

/-- What the server holds for the client, counted with multiplicity: each of
its registrations is the participant of a handle in `channels_` (at one address
each) or of a creation that failed after the server accepted it; and each such
participant is registered, or its removal was accepted by the server while the
client never got the reply. -/
structure Inv (c : Client) : Prop where
  nodup : c.channels.Nodup
  held : c.registered.Subperm (c.keys ++ c.leaked)
  known : (c.keys ++ c.leaked).Subperm (c.registered ++ c.orphaned)

theorem SameRegistry.inv {c c' : Client} (h : SameRegistry c c') (hi : c.Inv) : c'.Inv :=
  ⟨h.channels ▸ hi.nodup, by rw [h.registered, h.keys, h.leaked]; exact hi.held,
    by rw [h.registered, h.keys, h.leaked, h.orphaned]; exact hi.known⟩

/-- `List.erase` on registrations elaborates with the pair instance of `BEq`,
the `Subperm` lemmas with the one from `DecidableEq`; both are lawful, so they
erase alike. -/
theorem erase_eq_decEq (l : List (String × Int)) (k : String × Int) :
    l.erase k = @List.erase _ instBEqOfDecidableEq l k := by
  rw [@lawful_beq_subsingleton _ instBEqProd (@instBEqOfDecidableEq _ fun a b => instDecidableEqProd a b)
    (inferInstanceAs (@LawfulBEq (String × Int) instBEqProd)) instLawfulBEq]

theorem subperm_erase_key {l₁ l₂ : List (String × Int)} (k : String × Int)
    (h : l₁.Subperm l₂) : (l₁.erase k).Subperm (l₂.erase k) := by
  rw [erase_eq_decEq, erase_eq_decEq]
  exact h.erase k

/-- One participant more on each side keeps a bound. -/
theorem subperm_insert {a b c d : List (String × Int)} (k : String × Int)
    (h : (a ++ b).Subperm (c ++ d)) : (a ++ k :: b).Subperm (c ++ k :: d) :=
  List.perm_middle.subperm.trans (((List.subperm_cons k).2 h).trans List.perm_middle.symm.subperm)

/-- Erasing from a concatenation erases from its first part, or from the
second when the first lacks the element. -/
theorem erase_append_sublist {α : Type} [BEq α] [LawfulBEq α] (l₁ l₂ : List α) (a : α) :
    ((l₁ ++ l₂).erase a).Sublist (l₁.erase a ++ l₂) := by
  by_cases h : a ∈ l₁
  · rw [List.erase_append_left _ h]
  · rw [List.erase_append_right _ h, List.erase_of_not_mem h]
    exact (List.Sublist.refl l₁).append (List.erase_sublist a l₂)

/-- A creation the server accepted that then fails keeps the invariant: the
registration joins the leaked ones. -/
theorem Inv.leak_register {c : Client} (hi : c.Inv) (key : String × Int) :
    ((c.register key).leak key).Inv := by
  refine ⟨hi.nodup, ?_, ?_⟩
  · show (c.registered ++ [key]).Subperm (c.keys ++ (c.leaked ++ [key]))
    rw [← List.append_assoc]
    exact subperm_insert key (b := []) (d := []) (by simpa using hi.held)
  · show (c.keys ++ (c.leaked ++ [key])).Subperm (c.registered ++ [key] ++ c.orphaned)
    rw [← List.append_assoc, List.append_assoc c.registered]
    exact subperm_insert key (b := []) (by simpa using hi.known)

/-- A creation that succeeds keeps the invariant: the new handle, at an address
no handle in `channels_` has, stands for the new registration. -/
theorem Inv.insert_register {c : Client} (hi : c.Inv) {addr : Nat} (haddr : addr ∉ c.channels)
    (h : Handle) : ((c.register h.key).insertHandle addr h).Inv := by
  have hkeys : ((c.register h.key).insertHandle addr h).keys = c.keys ++ [h.key] := by
    simp only [Client.keys, insertHandle, register, List.map_append, List.map_cons,
      List.map_nil, Function.update_same]
    congr 1
    exact List.map_congr_left fun a ha => by rw [Function.update_noteq (ne_of_mem_of_not_mem ha haddr)]
  refine ⟨hi.nodup.append (List.nodup_singleton addr) (by simpa using haddr), ?_, ?_⟩
  · show (c.registered ++ [h.key]).Subperm (_ ++ c.leaked)
    rw [hkeys, List.append_assoc]
    exact subperm_insert h.key (b := []) (by simpa using hi.held)
  · show (_ ++ c.leaked).Subperm (c.registered ++ [h.key] ++ c.orphaned)
    rw [hkeys, List.append_assoc, List.append_assoc]
    exact subperm_insert h.key hi.known

/-- A removal the server accepted keeps the invariant: the handle leaves
`channels_` and its registration goes. -/
theorem Inv.remove {c : Client} (hi : c.Inv) {addr : Nat} (hmem : addr ∈ c.channels) :
    ({ c with registered := c.registered.erase (c.handles addr).key
              channels := c.channels.erase addr } : Client).Inv := by
  have hk : (c.handles addr).key ∈ c.keys := List.mem_map_of_mem _ hmem
  have hmap : List.Perm ((c.keys ++ c.leaked).erase (c.handles addr).key)
      ((c.channels.erase addr).map (fun a => (c.handles a).key) ++ c.leaked) := by
    rw [List.erase_append_left _ hk, erase_eq_decEq]
    refine List.Perm.append_right _ (List.Perm.cons_inv (a := (c.handles addr).key) ?_)
    exact (List.perm_cons_erase hk).symm.trans ((List.perm_cons_erase hmem).map _)
  refine ⟨hi.nodup.erase addr, (subperm_erase_key _ hi.held).trans hmap.subperm, ?_⟩
  exact hmap.symm.subperm.trans
    ((subperm_erase_key _ hi.known).trans (erase_append_sublist _ _ _).subperm)

/-- A removal the server accepted whose reply the client never got keeps the
invariant: the registration goes, and the handle, which stays, is orphaned. -/
theorem Inv.orphan {c : Client} (hi : c.Inv) (key : String × Int) :
    ({ c with registered := c.registered.erase key, orphaned := c.orphaned ++ [key] } :
      Client).Inv := by
  refine ⟨hi.nodup, (List.erase_sublist key _).subperm.trans hi.held, hi.known.trans ?_⟩
  show List.Subperm _ (c.registered.erase key ++ (c.orphaned ++ [key]))
  rw [erase_eq_decEq, ← List.append_assoc]
  exact ((List.subperm_append_right _).2 (List.subperm_cons_erase key c.registered)).trans
    (@List.perm_append_comm _ [key] _).subperm

theorem Inv.leakServed {c : Client} (hi : c.Inv) (channelName : String)
    (served : Option Response) : (c.leakServed channelName served).Inv := by
  unfold Client.leakServed
  split
  · split_ifs
    · exact hi.leak_register _
    · exact hi
  · exact hi

theorem Inv.orphanServed {c : Client} (hi : c.Inv) (key : String × Int)
    (served : Option Response) : (c.orphanServed key served).Inv := by
  unfold Client.orphanServed
  split
  · split_ifs
    · exact hi.orphan key
    · exact hi
  · exact hi

theorem Inv.createPublisher {c : Client} (hi : c.Inv) (w : World) (haddr : w.addr ∉ c.channels)
    (channelName : String) (slotSize numSlots : Int) (reliable : Bool) :
    (c.createPublisher w channelName slotSize numSlots reliable).1.Inv := by
  have hs := sameRegistry_send c (.createPublisher channelName slotSize numSlots reliable)
    w.roundTrip
  have hi' := hs.inv hi
  have haddr' := hs.channels ▸ haddr
  unfold Client.createPublisher
  split
  · exact hi
  · dsimp only
    split
    · exact hi'.leakServed _ _
    · split_ifs
      · exact hi'
      all_goals
        split
        · exact hi'.leak_register _
        · first | exact hi'.leak_register _ | exact hi'.insert_register haddr' _

theorem Inv.createSubscriber {c : Client} (hi : c.Inv) (w : World) (haddr : w.addr ∉ c.channels)
    (channelName : String) (reliable : Bool) :
    (c.createSubscriber w channelName reliable).1.Inv := by
  have hs := sameRegistry_send c (.createSubscriber channelName (-1) reliable) w.roundTrip
  have hi' := hs.inv hi
  unfold Client.createSubscriber
  split
  · exact hi
  · dsimp only
    split
    · exact hi'.leakServed _ _
    · split_ifs
      · exact hi'
      · split
        · exact hi'.leak_register _
        · exact hi'.insert_register (hs.channels ▸ haddr) _

theorem Inv.removeParticipant {c : Client} (hi : c.Inv) (w : World) {addr : Nat}
    (hmem : addr ∈ c.channels) (request : String → Int → Request) :
    (c.removeParticipant w addr request).1.Inv := by
  have hs := sameRegistry_send c (request (c.handles addr).name (c.handles addr).participantId)
    w.roundTrip
  unfold Client.removeParticipant
  split
  · exact hi
  · dsimp only
    split
    · exact (hs.inv hi).orphanServed _ _
    · split_ifs
      · exact hs.inv hi
      · have hmem' := hs.channels ▸ hmem
        have hrem := (hs.inv hi).remove hmem'
        rw [hs.key addr] at hrem
        simpa [Client.removeChannel, hmem'] using hrem

theorem sameRegistry_readMessage (c : Client) (w : World) (addr : Nat) (mode : ReadMode) :
    SameRegistry c (c.readMessage w addr mode).1 := by
  unfold Client.readMessage
  dsimp only
  split <;> exact sameRegistry_subscriberPrologue c w addr

theorem sameRegistry_findMessage (c : Client) (w : World) (addr : Nat) (timestamp : Nat) :
    SameRegistry c (c.findMessage w addr timestamp).1 := by
  unfold Client.findMessage
  dsimp only
  split <;> exact sameRegistry_subscriberPrologue c w addr

theorem sameRegistry_unregisterDroppedMessageCallback (c : Client) (addr : Nat) :
    SameRegistry c (c.unregisterDroppedMessageCallback addr).1 := by
  unfold Client.unregisterDroppedMessageCallback
  split <;> exact ⟨rfl, rfl, rfl, rfl, fun _ => rfl⟩

end Client

/-- The calls a program makes on its client.  `publisherCall` is
`GetMessageBuffer` or `PublishMessage` on a publisher, whose part at the
client is `ReloadSubscribersIfNecessary`. -/
inductive Call
  | createPublisher (channelName : String) (slotSize numSlots : Int) (reliable : Bool)
  | createSubscriber (channelName : String) (reliable : Bool)
  | removePublisher (addr : Nat)
  | removeSubscriber (addr : Nat)
  | registerCallback (addr callback : Nat)
  | unregisterCallback (addr : Nat)
  | readMessage (addr : Nat) (mode : ReadMode)
  | findMessage (addr : Nat) (timestamp : Nat)
  | publisherCall (addr : Nat)

/-- The handle a call works on; none for a creation. -/
def Call.target : Call → Option Nat
  | .createPublisher .. => none
  | .createSubscriber .. => none
  | .removePublisher addr => some addr
  | .removeSubscriber addr => some addr
  | .registerCallback addr _ => some addr
  | .unregisterCallback addr => some addr
  | .readMessage addr _ => some addr
  | .findMessage addr _ => some addr
  | .publisherCall addr => some addr

/-- The client after one call. -/
def Client.call (c : Client) (w : World) : Call → Client
  | .createPublisher channelName slotSize numSlots reliable =>
    (c.createPublisher w channelName slotSize numSlots reliable).1
  | .createSubscriber channelName reliable => (c.createSubscriber w channelName reliable).1
  | .removePublisher addr => (c.removePublisher w addr).1
  | .removeSubscriber addr => (c.removeSubscriber w addr).1
  | .registerCallback addr callback => c.registerDroppedMessageCallback addr callback
  | .unregisterCallback addr => (c.unregisterDroppedMessageCallback addr).1
  | .readMessage addr mode => (c.readMessage w addr mode).1
  | .findMessage addr timestamp => (c.findMessage w addr timestamp).1
  | .publisherCall addr => (c.reloadSubscribersIfNecessary w addr).1

/-- The states a client reaches from `connectedEmpty` by calls on the handles it
created and has not removed, with each new handle at an address no handle in
`channels_` has. -/
inductive Client.Reachable : Client → Prop
  | start : Client.Reachable Client.connectedEmpty
  | call {c : Client} (w : World) (k : Call) : c.Reachable → w.addr ∉ c.channels →
      (∀ a, k.target = some a → a ∈ c.channels) → (c.call w k).Reachable

/-- Every call on a handle in `channels_`, with a new handle at a free address,
keeps the invariant. -/
theorem Client.Inv.call {c : Client} (hi : c.Inv) (w : World) (k : Call) (haddr : w.addr ∉ c.channels)
    (htarget : ∀ a, k.target = some a → a ∈ c.channels) : (c.call w k).Inv := by
  cases k with
  | createPublisher n ss ns r => exact hi.createPublisher w haddr n ss ns r
  | createSubscriber n r => exact hi.createSubscriber w haddr n r
  | removePublisher a => exact hi.removeParticipant w (htarget a rfl) _
  | removeSubscriber a => exact hi.removeParticipant w (htarget a rfl) _
  | registerCallback a cb =>
    exact (⟨rfl, rfl, rfl, rfl, fun _ => rfl⟩ :
      Client.SameRegistry c (c.registerDroppedMessageCallback a cb)).inv hi
  | unregisterCallback a => exact (c.sameRegistry_unregisterDroppedMessageCallback a).inv hi
  | readMessage a mode => exact (c.sameRegistry_readMessage w a mode).inv hi
  | findMessage a ts => exact (c.sameRegistry_findMessage w a ts).inv hi
  | publisherCall a => exact (c.sameRegistry_reloadTriggersIfNecessary w a _).inv hi

/-- In every reachable state, counted with multiplicity, every participant the
server holds for the client is that of a handle in `channels_` or of a creation
that failed after the server accepted it; and every such participant is held by
the server, unless the server accepted its handle's removal and the reply never
reached the client. -/
theorem registered_subperm_handles_leaked {c : Client} (h : c.Reachable) :
    c.registered.Subperm (c.keys ++ c.leaked) ∧
      (c.keys ++ c.leaked).Subperm (c.registered ++ c.orphaned) := by
  suffices hi : c.Inv from ⟨hi.held, hi.known⟩
  induction h with
  | start => exact ⟨List.nodup_nil, List.nil_subperm, List.nil_subperm⟩
  | call w k _ haddr htarget ih => exact ih.call w k haddr htarget

/-- A subscriber is created as participant 1 at address 100; the server accepts
its removal, but `ReceiveFds` fails: `RemoveSubscriber` returns the error and
keeps the handle, which the server no longer holds. -/
theorem registered_subperm_handles_leaked_lost_reply :
    let w : World := ⟨fun _ => ⟨0, 0⟩, .reply ⟨"", 0, 1, 64, 4, 0⟩, none, true, 100⟩
    let c := (Client.connectedEmpty.call w (.createSubscriber "c" false)).call
      { w with roundTrip := .fdsFailed ⟨"", 0, 0, 0, 0, 0⟩ "fds", addr := 101 } (.removeSubscriber 100)
    c.registered = [] ∧ c.keys = [("c", 1)] ∧ c.orphaned = [("c", 1)] ∧
      (c.registered.Subperm (c.keys ++ c.leaked) ∧
        (c.keys ++ c.leaked).Subperm (c.registered ++ c.orphaned)) := by
  intro w c
  refine ⟨by decide, by decide, by decide, registered_subperm_handles_leaked
    (.call _ _ (.call _ _ .start (by simp [Client.connectedEmpty]) (by simp [Call.target]))
      ?_ ?_)⟩
  · decide
  · intro a ha
    cases ha
    decide

/-- An unreliable `CreatePublisher` that the server accepts as participant 1 but
that finds no free slot fails, and the server keeps participant 1, which no
handle in `channels_` stands for. -/
theorem createPublisher_no_slot_keeps_registration :
    let r := Client.connectedEmpty.createPublisher
      ⟨fun _ => ⟨0, 0⟩, .reply ⟨"", 0, 1, 0, 0, 0⟩, none, false, 100⟩ "c" 64 4 false
    r.2 = .error "No slot available for publisher" ∧ r.1.registered = [("c", 1)] ∧
      r.1.keys = [] :=
  ⟨rfl, by decide, by decide⟩

end Subspace
