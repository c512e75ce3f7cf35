import Subspace.Client.Shared
set_option autoImplicit false

/-!
# Client: the two-party channel is a shared channel

`Sys` (`Subspace.Client.PubSub`) follows one publisher and one subscriber;
`Shared` (`Subspace.Client.Shared`) any number of each.  `Sys.toShared` reads a
two-party state as the shared channel whose publisher 0 and subscriber 0 are
its two parties.  Each call of `Sys` is the same action of that publisher or
that subscriber, with the same reply (`Sys.step_toShared`), and `Sys.create` is
their two joins (`Sys.create_toShared`): every reachable two-party state is a
reachable shared state (`Sys.Reachable.toShared`), and every run of calls a run
of actions with the same replies (`Sys.Inv.run_toShared`).  The two-party
results are the shared ones read through this map:

* the publisher never holds the subscriber's slot (`Sys.Reachable.pub_ne_sub`);
* with a reliable publisher and a reliable subscriber holding a slot, no run of
  the publisher's calls takes or writes a slot the subscriber has still to read
  (`Sys.Reachable.reliable_keeps_unread`);
* along a run of publishes and reads, the ordinals the reads deliver never
  decrease and each `kReadNext` delivery is newer than every earlier one, and a
  `kReadNewest` read by a subscriber holding the tail of the active list, an
  ordinary message, returns that message again (`deliveries_ordered`).
-/

namespace Subspace

/-! ## The map -/

/-- The shared channel of the one publisher and the one subscriber of `s`. -/
def Sys.toShared (s : Sys) : Shared :=
  ⟨s.name, s.ccb, [⟨s.pubReliable, s.pub⟩], [s.sub], s.messageSizes⟩

/-- The action of the one publisher or the one subscriber making call `e`. -/
def Event.toAction (e : Event) : Action := if e.byPublisher then .publisher 0 e else .subscriber 0 e

/-- A call of the two-party channel is the same call of its publisher or its
subscriber on the shared channel, with the same reply. -/
theorem Sys.step_toShared {s s' : Sys} (h : s.Inv) {e : Event} {r : Reply}
    (hs : s.step e = some (s', r)) : s.toShared.step e.toAction = some (s'.toShared, some r) := by
  unfold Event.toAction
  cases he : e.byPublisher
  · -- the subscriber's call, on the channel as it sees it
    obtain ⟨hframe, -⟩ := subscriberStep_spec he hs
    have hstep := step_withPub s false none he
    rw [hs] at hstep
    simp only [Bool.false_eq_true, if_false, Shared.step, Sys.toShared, List.getElem?_cons_zero,
      he]
    rw [show Shared.view ⟨s.name, s.ccb, [⟨s.pubReliable, s.pub⟩], [s.sub], s.messageSizes⟩
      ⟨false, none⟩ s.sub = { s with pubReliable := false, pub := none } from rfl, hstep, hframe]
    rfl
  · -- the publisher's call
    obtain ⟨hframe, -⟩ := publisherStep_spec h he hs
    have hstep := step_withSub s ⟨none, false⟩ he
    rw [hs] at hstep
    simp only [if_true, Shared.step, Sys.toShared, List.getElem?_cons_zero, he]
    rw [show Shared.view ⟨s.name, s.ccb, [⟨s.pubReliable, s.pub⟩], [s.sub], s.messageSizes⟩
      ⟨s.pubReliable, s.pub⟩ ⟨none, false⟩ = { s with sub := ⟨none, false⟩ } from rfl, hstep,
      hframe]
    rfl

/-- `Sys.create` is a publisher and then a subscriber joining a new shared
channel. -/
theorem Sys.create_toShared {name : String} {numSlots : Nat} {pubReliable subReliable : Bool}
    {timestamp : Nat} {s : Sys}
    (h : create name numSlots pubReliable subReliable timestamp = some s) :
    (Shared.initial name numSlots).run
        [.createPublisher pubReliable timestamp, .createSubscriber subReliable] =
      some (s.toShared,
        [(.createPublisher pubReliable timestamp, none),
          (.createSubscriber subReliable, none)]) := by
  unfold create at h
  simp only [Shared.run, Shared.step, Shared.createPublisher, Shared.initial]
  generalize (Ccb.allocated numSlots).findFreeSlot pubReliable = f at h ⊢
  rcases f with ⟨c, _ | slot⟩ <;> dsimp only at h ⊢
  · cases h
  · split_ifs at h ⊢ <;> cases h <;> rfl

/-- Every state the two-party channel reaches is a state of the shared channel
with its one publisher and its one subscriber: the results on `Shared` hold of
`Sys`. -/
theorem Sys.Reachable.toShared {s : Sys} (hs : s.Reachable) : s.toShared.Reachable := by
  induction hs with
  | create hc => exact Shared.Reachable.run (.initial _ _) (Sys.create_toShared hc)
  | step hs' hstep ih => exact ih.step (Sys.step_toShared hs'.inv hstep)

/-- A run of the two-party channel is the run of the same calls of its publisher
and its subscriber on the shared channel, with the same replies. -/
theorem Sys.Inv.run_toShared {evs : List Event} :
    ∀ {s s' : Sys} {out : List (Event × Reply)}, s.Inv → s.run evs = some (s', out) →
      s.toShared.run (evs.map Event.toAction) =
        some (s'.toShared, out.map fun x => (x.1.toAction, some x.2)) := by
  induction evs with
  | nil =>
    intro s s' out _ h
    simp only [Sys.run, Option.some.injEq, Prod.mk.injEq] at h
    obtain ⟨rfl, rfl⟩ := h
    rfl
  | cons e es ih =>
    intro s s' out hs h
    obtain ⟨s1, r, out', hstep, hrun, rfl⟩ := Sys.run_cons_eq_some h
    simp only [List.map_cons, Shared.run, Sys.step_toShared hs hstep, ih (hs.step hstep) hrun]

/-- Only the subscriber's own calls are its calls on the shared channel. -/
theorem Event.eq_of_toAction_eq {e e' : Event} {j : Nat} (h : e.toAction = .subscriber j e') :
    e = e' := by
  unfold Event.toAction at h
  split at h
  · cases h
  · cases h
    rfl

/-- The subscriber's deliveries are those to subscriber 0 of the shared
channel. -/
theorem deliveriesTo_toShared (out : List (Event × Reply)) :
    Shared.deliveriesTo 0 (out.map fun x => (x.1.toAction, some x.2)) = deliveries out := by
  simp only [Shared.deliveriesTo, deliveries, List.filterMap_map]
  congr 1
  funext x
  obtain ⟨e, r⟩ := x
  cases e <;> rfl

/-! ## The publisher and the subscriber -/

namespace Sys

/-- The publisher never writes the message the subscriber holds: in every
reachable state the slot whose buffer `GetMessageBuffer` hands out is not the
subscriber's, since on the shared channel a publisher's slot is busy and a
subscriber's active. -/
theorem Reachable.pub_ne_sub {s : Sys} (hs : s.Reachable) {p q : Nat} (hp : s.pub = some p)
    (hq : s.sub.slot = some q) : p ≠ q := by
  rintro rfl
  exact hs.toShared.inv.sub_ne_held (i := 0) hp s.sub (List.mem_singleton_self _) hq

/-- An unreliable channel after one publish and one read: the publisher holds
slot 1, the subscriber slot 0. -/
theorem pub_ne_sub_after_read :
    let s0 := (create "c" 4 false false 0).get rfl
    let s1 := ((s0.step (.publish 8 0)).get rfl).1
    let s2 := ((s1.step (.read .readNext)).get (by decide)).1
    s2.pub = some 1 ∧ s2.sub.slot = some 0 ∧ (1 : Nat) ≠ 0 := by
  intro s0 s1 s2
  have h2 : s2.Reachable :=
    .step (.step (.create (Option.some_get _).symm) (step_get (by rfl))) (step_get (by decide))
  exact ⟨by decide, by decide, h2.pub_ne_sub (by decide) (by decide)⟩

/-- Reliable delivery.  From any reachable state in which a reliable publisher
and a reliable subscriber holding slot `x` share the channel, a run of the
publisher's calls (`GetMessageBuffer`, `PublishMessage`) takes neither `x` nor
a slot after it: the subscriber stays on `x`, the slots after `x` before the
run are the first slots after it at the end, and they and `x` keep their table
entries and prefixes.  Every message the subscriber has still to read is there,
unchanged.  The shared channel's reference counts give the step
(`Sys.Inv.publisherCall_keeps_unread`, which `Shared.Inv.step_keeps_unread`
also takes); with one publisher the whole table entry is kept, counts
included. -/
theorem Reachable.reliable_keeps_unread {s : Sys} (hs : s.Reachable)
    (hpr : s.pubReliable = true) (hsr : s.sub.reliable = true) {x : Nat}
    (hx : s.sub.slot = some x) {evs : List Event} (hpub : ∀ e ∈ evs, e.byPublisher = true)
    {s' : Sys} {out : List (Event × Reply)} (hrun : s.run evs = some (s', out)) :
    s'.sub = s.sub ∧
      slotsAfter s.ccb.activeList (some x) <+: slotsAfter s'.ccb.activeList (some x) ∧
      ∀ t ∈ x :: slotsAfter s.ccb.activeList (some x),
        s'.ccb.slots t = s.ccb.slots t ∧ s'.ccb.prefixes t = s.ccb.prefixes t := by
  induction evs generalizing s out with
  | nil =>
    simp only [Sys.run, Option.some.injEq, Prod.mk.injEq] at hrun
    obtain ⟨rfl, -⟩ := hrun
    exact ⟨rfl, List.prefix_refl _, fun _ _ => ⟨rfl, rfl⟩⟩
  | cons e es ih =>
    obtain ⟨s1, r, out', hstep, hrun', -⟩ := run_cons_eq_some hrun
    obtain ⟨hsub1, hpr1, hpre1, hsl1⟩ := hs.inv.publisherCall_keeps_unread
      (hs.toShared.inv.reliableRefsOk (List.mem_singleton_self s.sub)) hpr
      hsr hx (hpub e (List.mem_cons_self e es)) hstep
    obtain ⟨hsub2, hpre2, hsl2⟩ := ih (hs.step hstep) (hpr1.trans hpr) (hsub1 ▸ hsr)
      (hsub1 ▸ hx) (fun e' he' => hpub e' (List.mem_cons_of_mem e he')) hrun'
    refine ⟨hsub2.trans hsub1, hpre1.trans hpre2, fun t ht => ?_⟩
    have ht1 : t ∈ x :: slotsAfter s1.ccb.activeList (some x) :=
      List.mem_cons.2 ((List.mem_cons.1 ht).imp_right fun h => hpre1.subset h)
    exact ⟨(hsl2 t ht1).1.trans (hsl1 t ht).1, (hsl2 t ht1).2.trans (hsl1 t ht).2⟩

/-- A reliable channel whose reliable subscriber has read past the activation
message, holding its slot 0; the publisher then takes a buffer and
publishes. -/
theorem reliable_keeps_unread_publish :
    let s0 := (create "c" 4 true true 0).get rfl
    let s1 := ((s0.step (.read .readNext)).get (by decide)).1
    let s2 := ((s1.run [.getBuffer 1, .publish 8 0]).get (by decide)).1
    s1.sub.slot = some 0 ∧ s2.sub = s1.sub ∧
      slotsAfter s1.ccb.activeList (some 0) <+: slotsAfter s2.ccb.activeList (some 0) ∧
      ∀ t ∈ 0 :: slotsAfter s1.ccb.activeList (some 0),
        s2.ccb.slots t = s1.ccb.slots t ∧ s2.ccb.prefixes t = s1.ccb.prefixes t := by
  intro s0 s1 s2
  have h1 : s1.Reachable := .step (.create (Option.some_get _).symm) (step_get (by decide))
  exact ⟨by decide, h1.reliable_keeps_unread (by decide) (by decide) (by decide) (by decide)
    (run_get (by decide))⟩

end Sys

/-! ## What the reads deliver -/

/-- Delivery order.  Along any run of publishes and reads from a reachable
state, without `FindMessage`, the ordinals the reads deliver never decrease,
and each one a `kReadNext` read delivers is newer than every earlier one (the
subscriber's deliveries on the shared channel).  A `kReadNewest` read that
finds nothing newer does not return an empty message: when the subscriber holds
the tail of the active list and it is an ordinary message, `LastSlot` gives it
back and the read returns its message again, leaving the subscriber there. -/
theorem deliveries_ordered {s s' : Sys} {evs : List Event} {out : List (Event × Reply)}
    (hs : s.Reachable) (h : s.run evs = some (s', out)) (hnf : ∀ t, Event.find t ∉ evs) :
    (deliveries out).Pairwise (fun d d' => d.2 ≤ d'.2 ∧ (d'.1 = .readNext → d.2 < d'.2)) ∧
      ∀ t, s'.sub.slot = some t → s'.ccb.activeList.getLast? = some t →
        (s'.ccb.prefixes t).isActivation = false →
        ∃ s'', s'.step (.read .readNewest) = some (s'', .message (s'.ccb.messageAt t)) ∧
          s''.sub.slot = some t := by
  refine ⟨?_, fun t _ ht hplain => s'.step_readNewest_of_plain ht hplain⟩
  rw [← deliveriesTo_toShared]
  refine hs.toShared.inv.run_deliveriesTo_ordered (hs.inv.run_toShared h) 0 fun t ht => ?_
  obtain ⟨e, he, hea⟩ := List.mem_map.1 ht
  exact hnf t (Event.eq_of_toAction_eq hea ▸ he)

/-- One publish and a `kReadNext` read, another publish and a `kReadNewest`
read, from a fresh channel: the subscriber ends on the tail, an ordinary
message. -/
theorem deliveries_ordered_publish_read :
    let s := (Sys.create "c" 4 false false 0).get rfl
    let evs : List Event := [.publish 8 0, .read .readNext, .publish 8 1, .read .readNewest]
    let r := (s.run evs).get (by decide)
    (deliveries r.2).Pairwise (fun d d' => d.2 ≤ d'.2 ∧ (d'.1 = .readNext → d.2 < d'.2)) ∧
      ∀ t, r.1.sub.slot = some t → r.1.ccb.activeList.getLast? = some t →
        (r.1.ccb.prefixes t).isActivation = false →
        ∃ s'', r.1.step (.read .readNewest) = some (s'', .message (r.1.ccb.messageAt t)) ∧
          s''.sub.slot = some t := by
  intro s evs r
  exact deliveries_ordered (.create (Option.some_get _).symm) (Sys.run_get _) (by simp [evs])

/-- From a fresh channel, one publish and two `kReadNewest` reads: the second
read finds nothing newer and delivers ordinal 1 again. -/
theorem readNewest_redelivers :
    ((Sys.create "c" 4 false false 0).bind fun s =>
      s.run [.publish 8 0, .read .readNewest, .read .readNewest]).map (deliveries ·.2) =
      some [(.readNewest, 1), (.readNewest, 1)] := by
  decide

end Subspace
