import RealmDirectory.Hub.Mailbox
import RealmDirectory.Proofs.Hub.Vacancy
import RealmDirectory.Proofs.Replica.Sendable

/-!
# What an upgrade comes to

An upgrade succeeds as soon as the slot is claimed. The list of realms is sent only then, and
whether the mailbox of the login takes it makes no difference to the answer: a full mailbox keeps
what it holds and the session goes on without a list, and a mailbox that nobody receives from costs
the session its slot before the login even learns its number. So the answer tells that the slot was
empty, and no more; the slot and the mailbox have to be looked at to tell what became of it. An
upgrade that is turned down changes nothing but the notices.

Between the cases decides the mailbox, since the list can be written unless it is too long for a
frame: no realm that a session registered stands in the way.

## Main results

* `Mailboxes.offer_of_receives` and its siblings — what becomes of a frame.
* `Hub.sendList_of_receives` and its siblings — what becomes of the list.
* `AdminLogin.upgrade_of_isAdmissible`, `AdminLogin.upgrade_of_not_isAdmissible` — an upgrade claims
  the slot and sends the list, or it is turned down.
* `AdminLogin.admission_run` — the whole upgrade, by slot and mailbox.
-/

namespace RealmDirectory

/-! ## Mailboxes -/

/-- What the sink takes is put at the end of what `queue` shows. -/
def Queues {σ : Type} [Transport σ] (sink : SinkId) (queue : σ → List (List UInt8)) : Prop :=
  ∀ {frame before after}, Transport.offer sink frame before = (.ok (), after) →
    queue after = queue before ++ [frame]

namespace Mailboxes

variable {boxes : Mailboxes} {sink : SinkId}

private theorem get?_set_self {box : Mailbox} (h : boxes.get? sink = some box) (after : Mailbox) :
    (boxes.set sink after).get? sink = some after := by
  have hlt : sink < boxes.all.size := (Array.getElem?_eq_some_iff.mp h).1
  unfold get? set
  rw [Array.getElem?_setIfInBounds_self_of_lt hlt]

/-- There is room for one more frame, and somebody to take it out. -/
def Receives (boxes : Mailboxes) (sink : SinkId) (box : Mailbox) : Prop :=
  boxes.get? sink = some box ∧ box.isOpen = true ∧ box.frames.length < box.capacity

/-- Somebody takes the frames out, but has fallen behind. -/
def Lags (boxes : Mailboxes) (sink : SinkId) : Prop :=
  ∃ box, boxes.get? sink = some box ∧ box.isOpen = true ∧ box.capacity ≤ box.frames.length

/-- Nobody receives any more. -/
def IsDeserted (boxes : Mailboxes) (sink : SinkId) : Prop :=
  ∀ box, boxes.get? sink = some box → box.isOpen = false

/-- A mailbox with room takes the frame as its last. -/
theorem offer_of_receives {box : Mailbox} (h : boxes.Receives sink box) (frame : List UInt8) :
    Transport.offer sink frame boxes =
      (.ok (), boxes.set sink { box with frames := box.frames ++ [frame] }) := by
  obtain ⟨hget, hopen, hroom⟩ := h
  show offer sink frame boxes = _
  simp [offer, hget, Mailbox.push, hopen, Nat.not_le.mpr hroom]

private theorem offer_of_lags (h : boxes.Lags sink) (frame : List UInt8) :
    Transport.offer sink frame boxes = (.error .full, boxes) := by
  obtain ⟨box, hget, hopen, hfull⟩ := h
  show offer sink frame boxes = _
  simp [offer, hget, Mailbox.push, hopen, hfull]

private theorem offer_of_isDeserted (h : boxes.IsDeserted sink) (frame : List UInt8) :
    Transport.offer sink frame boxes = (.error .closed, boxes) := by
  show offer sink frame boxes = _
  unfold offer
  cases hget : boxes.get? sink with
  | none => rfl
  | some box => simp [Mailbox.push, h box hget]

/-- The frames that wait for a sink. -/
def framesFor (sink : SinkId) (boxes : Mailboxes) : List (List UInt8) :=
  (boxes.get? sink).elim [] (·.frames)

/-- What a mailbox takes is put behind the frames that wait already. -/
theorem queues (sink : SinkId) : Queues sink (framesFor sink) := by
  intro frame before after hoffer
  change offer sink frame before = _ at hoffer
  unfold offer at hoffer
  cases hget : before.get? sink with
  | none =>
    rw [hget] at hoffer
    cases hoffer
  | some box =>
    rw [hget] at hoffer
    dsimp only at hoffer
    unfold Mailbox.push at hoffer
    split at hoffer
    · cases hoffer
    · next hpushed =>
      split at hpushed
      · cases hpushed
      split at hpushed
      · cases hpushed
      · cases hpushed
        cases hoffer
        rw [framesFor, get?_set_self hget, framesFor, hget]
        rfl

end Mailboxes

/-! ## The list -/

namespace Hub

variable {σ : Type} [Transport σ]

/-- A list that does not fit a frame is not sent at all. -/
theorem sendList_unwritten (hub : Hub σ) (session : AdminSession) {realms : List Snapshot}
    (hlong : 4294967296 ≤ (RealmList.bytes realms).length) :
    ∃ cause, hub.sendList session realms = hub.note (.listNotSent session.id cause) := by
  have hrefused : ∃ cause, (RealmList.encode realms >>= fun payload =>
      Frame.encode (⟨.realmList, payload⟩ : AdminFrame)) = .error cause := by
    cases hencode : RealmList.encode realms with
    | error cause => exact ⟨cause, rfl⟩
    | ok written =>
      obtain ⟨-, -, rfl⟩ := RealmList.encode_eq_ok_iff.mp hencode
      exact ⟨_, if_neg (Nat.not_lt.mpr hlong)⟩
  obtain ⟨cause, hcause⟩ := hrefused
  refine ⟨cause, ?_⟩
  unfold sendList
  simp only [hcause]

/-- A list that fits is offered, and read back by whoever receives it. -/
theorem sendList_written (hub : Hub σ) (session : AdminSession) {realms : List Snapshot}
    (hplain : ∀ realm ∈ realms, realm.IsPlain)
    (hfits : (RealmList.bytes realms).length < 4294967296) :
    ∃ frame payload, hub.sendList session realms = (hub.deliver session frame).2 ∧
      Frame.decode frame = .ok (⟨AdminOpcode.realmList, payload⟩, []) ∧
      RealmList.read payload = .ok (realms, []) := by
  obtain ⟨frame, hframe, hsend⟩ := sendList_eq hub session hplain hfits
  have hdecode := Frame.decode_encode hframe []
  rw [List.append_nil] at hdecode
  have hread := RealmList.reads_bytes hplain (RealmList.length_lt_of_fits hfits)
  exact ⟨frame, RealmList.bytes realms, hsend, hdecode, hread.read_all⟩

/-- A hub whose slot was just claimed for a sink. -/
def claimed (hub : Hub σ) (sink : SinkId) : Hub σ :=
  ({ hub with slot := ⟨some ⟨hub.slot.nextId, sink⟩, hub.slot.nextId + 1⟩ } : Hub σ).note
    (.admitted hub.slot.nextId)

end Hub

/-! ## The list in a mailbox -/

namespace Hub

variable (hub : Hub Mailboxes) (session : AdminSession) {realms : List Snapshot}

/-- A sink with room takes the list, and the session keeps the slot. -/
theorem sendList_of_receives {box : Mailbox} (h : hub.transport.Receives session.sink box)
    (hplain : ∀ realm ∈ realms, realm.IsPlain)
    (hfits : (RealmList.bytes realms).length < 4294967296) :
    (hub.sendList session realms).slot = hub.slot ∧ ∃ frame payload,
      (hub.sendList session realms).transport.get? session.sink =
        some { box with frames := box.frames ++ [frame] } ∧
      Frame.decode frame = .ok (⟨AdminOpcode.realmList, payload⟩, []) ∧
      RealmList.read payload = .ok (realms, []) := by
  obtain ⟨frame, payload, hsend, hdecode, hread⟩ := hub.sendList_written session hplain hfits
  have hdeliver : (hub.deliver session frame).2 = { hub with
      transport := hub.transport.set session.sink
        { box with frames := box.frames ++ [frame] } } := by
    unfold deliver
    rw [Mailboxes.offer_of_receives h]
  rw [hsend, hdeliver]
  exact ⟨rfl, frame, payload, Mailboxes.get?_set_self h.1 _, hdecode, hread⟩

/-- A full mailbox costs the session the list, and nothing else. -/
theorem sendList_of_lags (h : hub.transport.Lags session.sink)
    (hplain : ∀ realm ∈ realms, realm.IsPlain) :
    (hub.sendList session realms).slot = hub.slot ∧
      (hub.sendList session realms).transport = hub.transport := by
  by_cases hfits : (RealmList.bytes realms).length < 4294967296
  · obtain ⟨frame, -, hsend, -, -⟩ := hub.sendList_written session hplain hfits
    rw [hsend]
    unfold deliver
    rw [Mailboxes.offer_of_lags h]
    exact ⟨rfl, rfl⟩
  · obtain ⟨cause, hsend⟩ := hub.sendList_unwritten session (Nat.not_lt.mp hfits)
    rw [hsend]
    exact ⟨rfl, rfl⟩

/-- A mailbox that nobody receives from costs the session its slot. -/
theorem sendList_of_isDeserted (h : hub.transport.IsDeserted session.sink)
    (hplain : ∀ realm ∈ realms, realm.IsPlain)
    (hfits : (RealmList.bytes realms).length < 4294967296) :
    (hub.sendList session realms).slot = hub.slot.without session.id ∧
      (hub.sendList session realms).transport = hub.transport := by
  obtain ⟨frame, -, hsend, -, -⟩ := hub.sendList_written session hplain hfits
  rw [hsend]
  unfold deliver
  rw [Mailboxes.offer_of_isDeserted h]
  exact ⟨slot_sinkFailed _ _ _, transport_sinkFailed _ _ _⟩

end Hub

/-! ## Upgrades -/

namespace AdminLogin

variable {σ : Type} [Transport σ]

/-- Nothing stands against giving the slot to the login. -/
def IsAdmissible (login : AdminLogin) (access : AccessLevel) (hub : Hub σ) : Prop :=
  ¬access < .administrator ∧ login.session = none ∧ hub.slot.current = none

/-- An upgrade that is admissible claims the slot under the next number and then sends the list. -/
theorem upgrade_of_isAdmissible {login : AdminLogin} {access : AccessLevel} {hub : Hub σ}
    (h : login.IsAdmissible access hub) :
    login.upgrade access hub =
      (.ok hub.slot.nextId, { login with session := some hub.slot.nextId },
        ((hub.claimed login.sink).sendList ⟨hub.slot.nextId, login.sink⟩
          hub.realms.snapshots).note (.enteredAdminMode login.peer hub.slot.nextId)) := by
  obtain ⟨haccess, hsession, hcurrent⟩ := h
  unfold upgrade Hub.admitSession AdminSlot.claim?
  rw [if_neg haccess, hsession, hcurrent]
  rfl

/-- An upgrade that is turned down is noted, and that is all. -/
theorem upgrade_of_not_isAdmissible {login : AdminLogin} {access : AccessLevel} {hub : Hub σ}
    (h : ¬login.IsAdmissible access hub) :
    ∃ cause notices, login.upgrade access hub = (.error cause, login, { hub with notices }) := by
  unfold upgrade Hub.admitSession AdminSlot.claim?
  split
  · exact ⟨_, _, rfl⟩
  next haccess =>
  cases hsession : login.session with
  | some session => exact ⟨_, _, rfl⟩
  | none =>
    cases hcurrent : hub.slot.current with
    | some session => exact ⟨_, _, rfl⟩
    | none => exact absurd ⟨haccess, hsession, hcurrent⟩ h

end AdminLogin

/-- What an upgrade comes to, by the slot and by the mailbox of the login. -/
structure AdminLogin.Admission (login : AdminLogin) (access : AccessLevel) (hub : Hub Mailboxes)
    (answer : Except LoginError Nat) (after : AdminLogin) (final : Hub Mailboxes) : Prop where
  /-- The answer goes by the access level, the login and the slot, and not by the mailbox. -/
  succeeds_iff : (∃ id, answer = .ok id) ↔ login.IsAdmissible access hub
  numbered : ∀ {id}, answer = .ok id → id = hub.slot.nextId ∧
    after = { login with session := some id } ∧ final.slot.nextId = id + 1
  /-- A mailbox with room holds the list in the end. -/
  listed : ∀ {id box}, answer = .ok id → hub.transport.Receives login.sink box →
    (RealmList.bytes hub.realms.snapshots).length < 4294967296 →
    final.slot.current = some ⟨id, login.sink⟩ ∧ ∃ frame payload,
      final.transport.get? login.sink = some { box with frames := box.frames ++ [frame] } ∧
      Frame.decode frame = .ok (⟨AdminOpcode.realmList, payload⟩, []) ∧
      RealmList.read payload = .ok (hub.realms.snapshots, [])
  /-- If it is full, or if the list is too long, then the session goes on without a list. -/
  unlisted : ∀ {id}, answer = .ok id → hub.transport.Lags login.sink ∨
      4294967296 ≤ (RealmList.bytes hub.realms.snapshots).length →
    final.slot.current = some ⟨id, login.sink⟩ ∧ final.transport = hub.transport
  /-- If nobody receives, then the slot is empty again. -/
  lost : ∀ {id}, answer = .ok id → hub.transport.IsDeserted login.sink →
    (RealmList.bytes hub.realms.snapshots).length < 4294967296 →
    final.slot.current = none ∧ final.transport = hub.transport
  refused : ∀ {cause}, answer = .error cause → after = login ∧ final.slot = hub.slot ∧
    final.transport = hub.transport
  registry : final.realms = hub.realms ∧ final.links = hub.links

namespace AdminLogin

/-- With plain realms in the table, every upgrade ends as described. -/
theorem admission_of_plain {hub : Hub Mailboxes} (hplain : hub.realms.IsPlain)
    (login : AdminLogin) (access : AccessLevel) :
    login.Admission access hub (login.upgrade access hub).1 (login.upgrade access hub).2.1
      (login.upgrade access hub).2.2 := by
  by_cases h : login.IsAdmissible access hub
  · rw [upgrade_of_isAdmissible h]
    let claimed := hub.claimed login.sink
    let session : AdminSession := ⟨hub.slot.nextId, login.sink⟩
    have hregistry := claimed.registry_sendList session hub.realms.snapshots
    have hsends : claimed.Sends (claimed.sendList session hub.realms.snapshots) :=
      Hub.sends_sendList rfl _
    refine
      { succeeds_iff := ⟨fun _ => h, fun _ => ⟨_, rfl⟩⟩
        numbered := ?_
        listed := ?_
        unlisted := ?_
        lost := ?_
        refused := nofun
        registry := hregistry }
    · rintro id ⟨⟩
      refine ⟨rfl, rfl, ?_⟩
      cases hsends with
      | kept hslot => exact congrArg AdminSlot.nextId hslot
      | closed hcurrent hoffer hslot => exact congrArg AdminSlot.nextId hslot
    · rintro id box ⟨⟩ hreceives hfits
      obtain ⟨hslot, hlist⟩ := claimed.sendList_of_receives session hreceives hplain hfits
      exact ⟨congrArg AdminSlot.current hslot, hlist⟩
    · rintro id ⟨⟩ (hlags | hlong)
      · obtain ⟨hslot, htransport⟩ := claimed.sendList_of_lags session hlags hplain
        exact ⟨congrArg AdminSlot.current hslot, htransport⟩
      · obtain ⟨cause, hsend⟩ := claimed.sendList_unwritten session hlong
        exact ⟨congrArg (·.slot.current) hsend, congrArg (·.transport) hsend⟩
    · rintro id ⟨⟩ hdeserted hfits
      obtain ⟨hslot, htransport⟩ := claimed.sendList_of_isDeserted session hdeserted hplain hfits
      have hvacated : claimed.slot.without session.id = ⟨none, hub.slot.nextId + 1⟩ :=
        AdminSlot.without_current rfl
      exact ⟨congrArg AdminSlot.current (hslot.trans hvacated), htransport⟩
  · obtain ⟨cause, notices, heq⟩ := upgrade_of_not_isAdmissible h
    rw [heq]
    exact
      { succeeds_iff := ⟨nofun, fun hadmissible => absurd hadmissible h⟩
        numbered := nofun
        listed := nofun
        unlisted := nofun
        lost := nofun
        refused := fun _ => ⟨rfl, rfl, rfl⟩
        registry := ⟨rfl, rfl⟩ }

/-- Whatever the sessions dispatched before, and whoever has the slot. -/
theorem admission_run (transport : Mailboxes) {steps : List (TrafficStep Mailboxes)}
    (hsteps : ∀ step ∈ steps.filterMap TrafficStep.realm?, step.isDirect = false)
    (login : AdminLogin) (access : AccessLevel) :
    let hub := ((Traffic.start transport).run steps).2.hub
    let result := login.upgrade access hub
    login.Admission access hub result.1 result.2.1 result.2.2 := by
  have hstart : (Traffic.start transport).hub.realms.IsPlain := List.forall_mem_nil _
  exact admission_of_plain (Traffic.plain_run hstart hsteps) login access

/-- The next login is admitted after the first one was evicted, and its mailbox has just room for
the list. -/
theorem admission_run_watchedVisit :
    let boxes := ((Mailboxes.empty.add 2).2.add 1).2
    let hub := ((Traffic.start boxes).run Traffic.watchedVisit).2.hub
    let login := AdminLogin.create ⟨.v4 10 0 0 9, 5000, 0⟩ 1
    let result := login.upgrade .administrator hub
    (∀ step ∈ Traffic.watchedVisit.filterMap TrafficStep.realm?, step.isDirect = false) ∧
      login.Admission .administrator hub result.1 result.2.1 result.2.2 ∧
      result.1 = .ok 2 ∧ result.2.2.slot.current = some ⟨2, 1⟩ ∧
      (result.2.2.transport.get? 1).map (·.frames.length) = some 1 := by
  have hsteps : ∀ step ∈ Traffic.watchedVisit.filterMap TrafficStep.realm?,
      step.isDirect = false := by decide +kernel
  refine ⟨hsteps, admission_run _ hsteps _ _, ?_⟩
  decide +kernel

/-- An upgrade can succeed with a mailbox that is full, and that stays without the list, and with
one that nobody receives from, when nobody has the slot afterwards. -/
theorem upgrade_without_list :
    let login := AdminLogin.create ⟨.v4 10 0 0 9, 5000, 0⟩ 0
    let hub (box : Mailbox) : Hub Mailboxes := .start ⟨#[box]⟩
    let full := login.upgrade .administrator (hub ⟨1, [[3, 0, 0, 0, 0]], true⟩)
    let deserted := login.upgrade .administrator (hub ⟨1, [], false⟩)
    (full.1 = .ok 1 ∧ full.2.2.transport.get? 0 = some ⟨1, [[3, 0, 0, 0, 0]], true⟩) ∧
      deserted.1 = .ok 1 ∧ deserted.2.1.session = some 1 ∧ deserted.2.2.slot.current = none := by
  decide +kernel

end AdminLogin

end RealmDirectory
