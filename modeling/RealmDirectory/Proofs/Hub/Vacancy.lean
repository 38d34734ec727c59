import RealmDirectory.AdminLogin
import RealmDirectory.Proofs.Harvest.Round

/-!
# Who takes the admin slot, and what empties it

The slot changes in two ways. A login claims it while it is empty, under the next number; and a
session that is given up or that nobody receives for is taken out of it, by its number. A call that
announces something, and a round of the harvester, send to the session that has the slot, so they
empty it at most, and only when the sink of that very session answers that it is closed.

An upgrade is more than one step: the slot is claimed, the list of realms is sent, and only then
does the login know its number. `AdminLogin.request` and `AdminLogin.enter` are its first and its
last part.

## Main results

* `Hub.sends_run`, `Hub.sends_harvestAmid` — what a call does to the slot.
* `AdminLogin.request_cases` — a request is turned down, or it claims the slot.
* `AdminLogin.upgrade_eq` — an upgrade is its parts, one after another.
-/

namespace RealmDirectory

/-! ## Taking a session out of the slot -/

namespace AdminSlot

/-- The slot after a session has given it up, whoever has it. -/
def without (slot : AdminSlot) (id : Nat) : AdminSlot :=
  if slot.current.any (·.id = id) then { slot with current := none } else slot

/-- A slot is emptied of the session it holds, and left alone for any other. -/
theorem without_cases (slot : AdminSlot) (id : Nat) :
    ((∀ session, slot.current = some session → session.id ≠ id) ∧ slot.without id = slot) ∨
    ∃ session, slot.current = some session ∧ session.id = id ∧
      slot.without id = ⟨none, slot.nextId⟩ := by
  unfold without
  cases hcurrent : slot.current with
  | none => exact Or.inl ⟨nofun, if_neg nofun⟩
  | some session =>
    by_cases hid : session.id = id
    · exact Or.inr ⟨session, rfl, hid, if_pos (decide_eq_true hid)⟩
    · refine Or.inl ⟨fun other hother => ?_, if_neg fun h => hid (of_decide_eq_true h)⟩
      cases hother
      exact hid

theorem without_current {slot : AdminSlot} {session : AdminSession}
    (h : slot.current = some session) : slot.without session.id = ⟨none, slot.nextId⟩ := by
  unfold without
  rw [h]
  exact if_pos (decide_eq_true rfl)

end AdminSlot

namespace Hub

variable {σ : Type}

/-- An eviction empties the slot if the session has it. -/
theorem slot_evict (hub : Hub σ) (id : Nat) : (hub.evict id).2.slot = hub.slot.without id := by
  unfold evict AdminSlot.vacate? AdminSlot.without
  cases hub.slot.current with
  | none => rfl
  | some session =>
    by_cases hid : session.id = id
    · simp [hid, note]
    · simp [hid]

/-- A sink that is full costs nobody the slot. -/
theorem slot_sinkFailed (hub : Hub σ) (id : Nat) (cause : DeliveryError) :
    (hub.sinkFailed id cause).slot =
      match cause with
      | .full => hub.slot
      | .closed => hub.slot.without id := by
  cases cause with
  | full => rfl
  | closed => exact slot_evict _ _

variable [Transport σ]

/-! ## Calls that send to the session that has the slot -/

/-- What a call does to the slot that sends to whoever has it: the slot stays as it is, or it is
emptied because the sink of its session answered that it is closed. -/
inductive Sends (before after : Hub σ) : Prop where
  | kept (hslot : after.slot = before.slot)
  | closed {session : AdminSession} {bytes : List UInt8} {transport : σ}
      (hcurrent : before.slot.current = some session)
      (hoffer : Transport.offer session.sink bytes before.transport = (.error .closed, transport))
      (hslot : after.slot = ⟨none, before.slot.nextId⟩)

/-- Only the slot and the transport matter beforehand, and only the slot afterwards. -/
theorem Sends.congr {before after first last : Hub σ} (h : first.Sends last)
    (hslot : first.slot = before.slot) (htransport : first.transport = before.transport)
    (hafter : after.slot = last.slot) : before.Sends after := by
  cases h with
  | kept hkept => exact .kept (hafter.trans (hkept.trans hslot))
  | closed hcurrent hoffer hclosed =>
    rw [hslot] at hcurrent hclosed
    rw [htransport] at hoffer
    exact .closed hcurrent hoffer (hafter.trans hclosed)

/-- A refusal of a frame for the session that has the slot. -/
theorem sends_sinkFailed {hub offered : Hub σ} {session : AdminSession} {bytes : List UInt8}
    {cause : DeliveryError} {transport : σ} (hcurrent : hub.slot.current = some session)
    (hoffer : Transport.offer session.sink bytes hub.transport = (.error cause, transport))
    (hslot : offered.slot = hub.slot) : hub.Sends (offered.sinkFailed session.id cause) := by
  have hfailed := slot_sinkFailed offered session.id cause
  rw [hslot] at hfailed
  cases cause with
  | full => exact .kept hfailed
  | closed => exact .closed hcurrent hoffer (hfailed.trans (AdminSlot.without_current hcurrent))

private theorem sends_deliver {hub : Hub σ} {session : AdminSession}
    (hcurrent : hub.slot.current = some session) (bytes : List UInt8) :
    hub.Sends (hub.deliver session bytes).2 := by
  rcases hub.deliver_cases session bytes with
    ⟨transport, -, hdeliver⟩ | ⟨cause, transport, hoffer, hdeliver⟩
  · rw [hdeliver]
    exact .kept rfl
  · rw [hdeliver]
    exact sends_sinkFailed hcurrent hoffer rfl

private theorem sends_send {hub : Hub σ} {session : AdminSession}
    (hcurrent : hub.slot.current = some session) (frame : AdminFrame) :
    hub.Sends (hub.send session frame) := by
  unfold send
  split
  · exact .kept rfl
  · exact sends_deliver hcurrent _

private theorem sends_announce (hub : Hub σ) (announcement : Announcement) :
    hub.Sends (hub.announce announcement) := by
  unfold announce
  split
  · exact .kept rfl
  · exact .kept rfl
  · split
    · exact .kept rfl
    · next hcurrent => exact sends_send hcurrent _

/-- Sending the list to the session that has the slot can cost it the slot. -/
theorem sends_sendList {hub : Hub σ} {session : AdminSession}
    (hcurrent : hub.slot.current = some session) (realms : List Snapshot) :
    hub.Sends (hub.sendList session realms) := by
  unfold sendList
  dsimp only
  split
  · exact .kept rfl
  · exact sends_deliver hcurrent _

/-- What a call announces after it changed the realms. -/
theorem sends_announce_of_eq {hub changed : Hub σ} (hslot : changed.slot = hub.slot)
    (htransport : changed.transport = hub.transport) (announcement : Announcement) :
    hub.Sends (changed.announce announcement) :=
  (changed.sends_announce announcement).congr hslot htransport rfl

end Hub

/-- The operation is about the admin slot itself. -/
def Operation.isAboutSlot : Operation → Bool
  | login _ _ => true
  | evict _ => true
  | _ => false

namespace Hub

variable {σ : Type} [Transport σ]

/-- No call that is not about the slot does more to it than that. -/
theorem sends_run (hub : Hub σ) {op : Operation} (h : op.isAboutSlot = false) :
    hub.Sends (op.run hub) := by
  cases op with
  | register record =>
    show hub.Sends (hub.register record).2
    rcases hub.register_cases record with ⟨_, -, -, heq⟩ | ⟨-, _, heq⟩
    · rw [heq]
      exact .kept rfl
    · rw [heq]
      exact sends_announce_of_eq (by rfl) (by rfl) _
  | setOnline id online =>
    show hub.Sends (hub.setOnline id online).2
    unfold setOnline
    split
    · exact .kept rfl
    · next change realms _ =>
      unfold announceIfSome
      dsimp only
      split
      · exact .kept rfl
      · exact sends_announce_of_eq (by rfl) (by rfl) _
  | release id link =>
    show hub.Sends (hub.release id link).2
    unfold release
    split
    · exact .kept rfl
    · exact .kept rfl
    · dsimp only
      exact sends_announce_of_eq (by rfl) (by rfl) _
  | report id status =>
    show hub.Sends (hub.report id status).2
    unfold report
    split
    · exact .kept rfl
    · dsimp only
      exact sends_announce_of_eq (by rfl) (by rfl) _
  | append id line now =>
    refine .kept ?_
    show (hub.append id line now).2.slot = hub.slot
    unfold append
    split <;> rfl
  | clearLog id =>
    refine .kept ?_
    show (hub.clearLog id).2.slot = hub.slot
    unfold clearLog
    split <;> rfl
  | remove id =>
    refine .kept ?_
    show (hub.remove id).2.slot = hub.slot
    unfold remove
    split <;> rfl
  | login sink current => cases h
  | evict session => cases h

/-- Nor does a round of the harvester. -/
theorem sends_harvestAmid (hub : Hub σ) (arrivals : Arrivals) :
    hub.Sends (hub.harvestAmid arrivals).hub := by
  have hround := hub.harvests arrivals
  generalize hub.harvestAmid arrivals = round at hround
  cases hround with
  | idle => exact .kept rfl
  | quiet hgather houtcome => exact .kept rfl
  | sent hslot hgather hbatch hoffer => exact .kept rfl
  | refused hslot hgather hoffer => exact sends_sinkFailed hslot hoffer rfl

end Hub

/-! ## Claiming the slot -/

namespace AdminLogin

variable {σ : Type}

/-- The first part of an upgrade: the slot is claimed. -/
def request (login : AdminLogin) (access : AccessLevel) (hub : Hub σ) :
    Option AdminSession × Hub σ :=
  if access < .administrator then (none, hub.note (.accessRefused login.peer access))
  else
    match login.session with
    | some session => (none, hub.note (.admittedTwice session))
    | none =>
      match hub.slot.claim? login.sink with
      | none => (none, hub.note (.slotRefused login.peer))
      | some (session, slot) => (some session, { hub with slot }.note (.admitted session.id))

/-- The last part of an upgrade: the login knows its number. -/
def enter (login : AdminLogin) (session : AdminSession) (hub : Hub σ) : AdminLogin × Hub σ :=
  ({ login with session := some session.id },
    hub.note (.enteredAdminMode login.peer session.id))

/-- A request is turned down and leaves the slot alone, or it claims an empty slot under the next
number, for a login that has none. -/
theorem request_cases (login : AdminLogin) (access : AccessLevel) (hub : Hub σ) :
    (∃ after, login.request access hub = (none, after) ∧ after.slot = hub.slot) ∨
    (login.session = none ∧ hub.slot.current = none ∧
      ∃ after, login.request access hub = (some ⟨hub.slot.nextId, login.sink⟩, after) ∧
        after.slot = ⟨some ⟨hub.slot.nextId, login.sink⟩, hub.slot.nextId + 1⟩) := by
  unfold request AdminSlot.claim?
  split
  · exact Or.inl ⟨_, rfl, rfl⟩
  · cases login.session with
    | some session => exact Or.inl ⟨_, rfl, rfl⟩
    | none =>
      cases hub.slot.current with
      | some session => exact Or.inl ⟨_, rfl, rfl⟩
      | none => exact Or.inr ⟨rfl, rfl, _, rfl, rfl⟩

variable [Transport σ]

/-- An upgrade claims the slot, sends the list of realms and tells the login its number. -/
theorem upgrade_eq (login : AdminLogin) (access : AccessLevel) (hub : Hub σ) :
    (login.upgrade access hub).1.toOption = (login.request access hub).1.map (·.id) ∧
    (login.upgrade access hub).2 =
      match login.request access hub with
      | (none, after) => (login, after)
      | (some session, after) =>
        login.enter session (after.sendList session after.realms.snapshots) := by
  obtain ⟨peer, sink, session?⟩ := login
  unfold upgrade request Hub.admitSession
  split
  · exact ⟨rfl, rfl⟩
  · cases session? with
    | some session => exact ⟨rfl, rfl⟩
    | none =>
      dsimp only
      cases hub.slot.claim? sink with
      | none => exact ⟨rfl, rfl⟩
      | some claimed => exact ⟨rfl, rfl⟩

end AdminLogin

end RealmDirectory
