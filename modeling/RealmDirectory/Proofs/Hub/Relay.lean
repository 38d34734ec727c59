import RealmDirectory.Hub.Mailbox
import RealmDirectory.Proofs.Hub.Alike

/-!
# Calls that others interrupt

The realms and the admin slot are behind locks of their own, and no call holds both at once. A call
about realms makes its change, and what is to be announced of it, in one step; it looks up the
session that has the slot in another, and sends in a third. A login claims the slot, takes the list
of realms and sends it. Between any two steps of a call others may go on.

A `Relay` is a hub with the calls that have begun. Each of them is an `Errand`: what it still has
to do. `Move.go` lets one errand take its next step, so a list of moves is an interleaving. What
was taken by a sink is kept in order, stamped with the moves at which its errand made the change,
looked the session up and sent; the tables are kept, too, by the same clock.

## Main definitions

* `Hub.begin` — the first step of a call.
* `Relay.advance`, `Relay.step`, `Relay.run` — the others, and the interleavings.

## Main results

* `Hub.run_eq_begin` — a call is its change followed by its announcement.
* `Relay.hub_run_call`, `Relay.hub_run_claim` — a call that nobody interrupts.
-/

namespace RealmDirectory

variable {σ : Type}

/-! ## The first step of a call -/

namespace Hub

variable [Transport σ]

/-- The change that a call makes to the realms, and what is to be announced of it. -/
def begin (hub : Hub σ) : Operation → Option Announcement × Hub σ
  | .register record =>
    match hub.realms.register hub.links record with
    | .error _ => (none, hub)
    | .ok (outcome, snapshot, realms) =>
      (some (.realm snapshot), ({ hub with realms } : Hub σ).note
        (.registered snapshot.id snapshot.name outcome snapshot.address))
  | .setOnline id online =>
    match hub.realms.setOnline id online with
    | .error _ => (none, hub)
    | .ok (change, realms) => (change.map .status, { hub with realms })
  | .release id link =>
    match hub.realms.release? id link with
    | none => (none, hub)
    | some (none, realms) => (none, { hub with realms })
    | some (some change, realms) =>
      (some (.status change), ({ hub with realms } : Hub σ).note (.wentOffline id))
  | .report id status =>
    match hub.realms.report id status with
    | .error _ => (none, hub)
    | .ok (change, realms) => (some (.status change), { hub with realms })
  | op => (none, op.run hub)

/-- A call about realms makes its change and announces it. -/
theorem run_eq_begin (hub : Hub σ) {op : Operation} (h : op.isAboutSlot = false) :
    op.run hub = (hub.begin op).1.elim (hub.begin op).2 (hub.begin op).2.announce := by
  cases op with
  | register record =>
    show (hub.register record).2 = _
    unfold register begin
    dsimp only
    cases hub.realms.register hub.links record <;> rfl
  | setOnline id online =>
    show (hub.setOnline id online).2 = _
    unfold setOnline begin announceIfSome
    dsimp only
    rcases hub.realms.setOnline id online with cause | ⟨_ | change, realms⟩ <;> rfl
  | release id link =>
    show (hub.release id link).2 = _
    unfold release begin
    dsimp only
    rcases hub.realms.release? id link with _ | ⟨_ | change, realms⟩ <;> rfl
  | report id status =>
    show (hub.report id status).2 = _
    unfold report begin
    dsimp only
    cases hub.realms.report id status <;> rfl
  | append id line now => rfl
  | clearLog id => rfl
  | remove id => rfl
  | login sink current => cases h
  | evict session => cases h

end Hub

/-! ## Messages -/

/-- What a session is sent of the realms. -/
inductive Message where
  | announcement (announcement : Announcement)
  | list (realms : List Snapshot)
  deriving DecidableEq

namespace Message

/-- The frame of a message as it is sent. -/
def bytes : Message → Except Payload.FieldError (List UInt8)
  | .announcement told => do Frame.encode (← told.frame)
  | .list realms => do Frame.encode ⟨AdminOpcode.realmList, ← RealmList.encode realms⟩

def isList : Message → Bool
  | .announcement _ => false
  | .list _ => true

/-- What is noted of a message whose frame cannot be written. -/
def unsent (session : AdminSession) (cause : Payload.FieldError) : Message → Notice
  | .announcement (.realm _) => .frameNotSent .realmAdded cause
  | .announcement (.status _) => .frameNotSent .realmStatus cause
  | .list _ => .listNotSent session.id cause

end Message

/-- What is noted of an announcement whose payload cannot be written. -/
def Announcement.unsent (cause : Payload.FieldError) : Announcement → Notice
  | realm snapshot => .snapshotNotSent snapshot.id cause
  | status _ => .frameNotSent .realmStatus cause

namespace Hub

variable [Transport σ]

/-- What is sent of a message. -/
def post (hub : Hub σ) (session : AdminSession) (message : Message) : Hub σ :=
  match message.bytes with
  | .error cause => hub.note (message.unsent session cause)
  | .ok bytes => (hub.deliver session bytes).2

private theorem send_eq_post (hub : Hub σ) (session : AdminSession) {told : Announcement}
    {frame : AdminFrame} (hframe : told.frame = .ok frame) :
    hub.send session frame = hub.post session (.announcement told) := by
  have hbytes : (Message.announcement told).bytes = frame.encode := by
    show (told.frame >>= Frame.encode) = _
    rw [hframe]
    rfl
  unfold send post
  rw [hbytes]
  cases told with
  | realm snapshot =>
    have hopcode : frame.opcode = .realmAdded := by
      dsimp only [Announcement.frame] at hframe
      cases hencode : snapshot.encode with
      | error cause =>
        rw [hencode] at hframe
        cases hframe
      | ok payload =>
        rw [hencode] at hframe
        cases hframe
        rfl
    cases frame.encode with
    | error cause => exact congrArg (fun opcode => hub.note (.frameNotSent opcode cause)) hopcode
    | ok bytes => rfl
  | status change =>
    cases hframe
    rfl

/-- Announcing is looking the session up and posting the announcement. -/
theorem announce_eq (hub : Hub σ) (told : Announcement) :
    hub.announce told =
      match told.frame with
      | .error cause => hub.note (told.unsent cause)
      | .ok _ => hub.slot.current.elim hub (hub.post · (.announcement told)) := by
  unfold announce
  cases hframe : told.frame with
  | error cause => cases told <;> rfl
  | ok frame =>
    cases hcurrent : hub.slot.current with
    | none => cases told <;> rfl
    | some session =>
      have hsend := hub.send_eq_post session hframe
      cases told <;> exact hsend

end Hub

/-! ## Errands -/

/-- A message to a session, with the moves at which it was made and the session was looked up; the
login whose list it is had claimed the slot then. -/
structure Letter where
  session : AdminSession
  message : Message
  made : Nat
  fetched : Nat
  deriving DecidableEq

/-- A letter that a sink took. -/
structure Arrival extends Letter where
  sent : Nat
  bytes : List UInt8

/-- What a call still has to do. -/
inductive Errand where
  /-- To look up whom to announce the change to. -/
  | announcing (announcement : Announcement) (made : Nat)
  /-- To take the list for the session that it has the slot for. -/
  | listing (session : AdminSession) (claimed : Nat)
  /-- To send. -/
  | sending (letter : Letter)
  /-- To deal with a sink that did not take what was sent. -/
  | failing (session : AdminSession) (cause : DeliveryError)
  | done
  deriving DecidableEq

/-- A hub with the calls that have begun. -/
structure Relay (σ : Type) where
  hub : Hub σ
  errands : List Errand
  /-- The realms before the first move and after every move so far. -/
  tables : List RealmTable
  /-- What was taken by a sink, in order. -/
  arrivals : List Arrival
  /-- The numbers of the sessions that something was not sent to, or not taken for. -/
  missed : List Nat

/-- What may happen next. -/
inductive Move (σ : Type) where
  /-- A call about realms makes its change. -/
  | call (op : Operation) (h : op.isAboutSlot = false)
  /-- A login claims the slot. -/
  | claim (sink : SinkId)
  | evict (session : Nat)
  /-- A call that has begun takes its next step. -/
  | go (place : Nat)
  /-- A delivery mark moves. -/
  | mark (id : UInt32) (stamp : Instant)
  /-- The links, the transport and the notices change in any way at all. -/
  | surroundings (links : Links) (transport : σ) (notices : List Notice)

namespace Relay

def start (transport : σ) : Relay σ := ⟨Hub.start transport, [], [RealmTable.empty], [], []⟩

/-- The number of the next move. -/
def now (relay : Relay σ) : Nat := relay.tables.length

/-- No call has anything left to do. -/
def IsIdle (relay : Relay σ) : Prop := ∀ errand ∈ relay.errands, errand = .done

instance (relay : Relay σ) : Decidable relay.IsIdle :=
  inferInstanceAs (Decidable (∀ errand ∈ relay.errands, errand = .done))

variable [Transport σ]

/-- The next step of an errand that has something to send. -/
def send (relay : Relay σ) (place : Nat) (letter : Letter) : Relay σ :=
  match letter.message.bytes with
  | .error cause =>
    { relay with
      hub := relay.hub.note (letter.message.unsent letter.session cause)
      errands := relay.errands.set place .done
      missed := relay.missed ++ [letter.session.id] }
  | .ok bytes =>
    match Transport.offer letter.session.sink bytes relay.hub.transport with
    | (.ok (), transport) =>
      { relay with
        hub.transport := transport
        errands := relay.errands.set place .done
        arrivals := relay.arrivals ++ [⟨letter, relay.now, bytes⟩] }
    | (.error cause, transport) =>
      { relay with
        hub.transport := transport
        errands := relay.errands.set place (.failing letter.session cause)
        missed := relay.missed ++ [letter.session.id] }

/-- The next step of an errand that has something to announce. -/
def announce (relay : Relay σ) (place : Nat) (announcement : Announcement) (made : Nat) :
    Relay σ :=
  match announcement.frame with
  | .error cause =>
    { relay with
      hub := relay.hub.note (announcement.unsent cause)
      errands := relay.errands.set place .done
      missed := relay.missed ++ (relay.hub.slot.current.map (·.id)).toList }
  | .ok _ =>
    match relay.hub.slot.current with
    | none => { relay with errands := relay.errands.set place .done }
    | some session =>
      { relay with
        errands := relay.errands.set place
          (.sending ⟨session, .announcement announcement, made, relay.now⟩) }

/-- An errand takes its next step. -/
def advance (relay : Relay σ) (place : Nat) : Errand → Relay σ
  | .announcing announcement made => relay.announce place announcement made
  | .listing session claimed =>
    { relay with
      errands := relay.errands.set place
        (.sending ⟨session, .list relay.hub.realms.snapshots, relay.now, claimed⟩) }
  | .sending letter => relay.send place letter
  | .failing session cause =>
    { relay with
      hub := relay.hub.sinkFailed session.id cause
      errands := relay.errands.set place .done }
  | .done => relay

/-- What a move does, but for the clock. -/
def change (relay : Relay σ) : Move σ → Relay σ
  | .call op _ =>
    let (told, hub) := relay.hub.begin op
    { relay with
      hub
      errands := relay.errands ++ (told.map (.announcing · relay.now)).toList }
  | .claim sink =>
    match relay.hub.slot.claim? sink with
    | none => relay
    | some (session, slot) =>
      { relay with
        hub := ({ relay.hub with slot } : Hub σ).note (.admitted session.id)
        errands := relay.errands ++ [.listing session relay.now] }
  | .evict session => { relay with hub := (relay.hub.evict session).2 }
  | .go place =>
    match relay.errands[place]? with
    | none => relay
    | some errand => relay.advance place errand
  | .mark id stamp => { relay with hub.realms := relay.hub.realms.setCheckpoint id stamp }
  | .surroundings links transport notices =>
    { relay with hub := { relay.hub with links, transport, notices } }

/-- A move. -/
def step (relay : Relay σ) (move : Move σ) : Relay σ :=
  { relay.change move with tables := relay.tables ++ [(relay.change move).hub.realms] }

def run (relay : Relay σ) (moves : List (Move σ)) : Relay σ := moves.foldl step relay

/-! ## Calls that nobody interrupts -/

omit [Transport σ] in
private theorem set_last (before : List Errand) (errand next : Errand) :
    (before ++ [errand]).set before.length next = before ++ [next] := by
  rw [List.set_append_right _ _ (Nat.le_refl _), Nat.sub_self, List.set_cons_zero]

/-- The errand that was begun last takes its next step. -/
theorem step_go_last {relay : Relay σ} {before : List Errand} {errand : Errand}
    (h : relay.errands = before ++ [errand]) :
    (relay.step (.go before.length)).hub = (relay.advance before.length errand).hub ∧
      (relay.step (.go before.length)).errands = (relay.advance before.length errand).errands := by
  have hget : relay.errands[before.length]? = some errand := by
    rw [h, List.getElem?_append_right (Nat.le_refl _), Nat.sub_self]
    rfl
  unfold step change
  simp only [hget, and_self]

/-- Sending, and dealing with a refusal, are a delivery. -/
theorem hub_run_sending {relay : Relay σ} {before : List Errand} {letter : Letter}
    (h : relay.errands = before ++ [.sending letter]) :
    (relay.run [.go before.length, .go before.length]).hub =
      relay.hub.post letter.session letter.message := by
  obtain ⟨hhub, herrands⟩ := step_go_last h
  show ((relay.step (.go before.length)).step (.go before.length)).hub = _
  unfold advance send at hhub herrands
  unfold Hub.post
  cases hbytes : letter.message.bytes with
  | error cause =>
    simp only [hbytes, h, set_last] at hhub herrands
    rw [(step_go_last herrands).1]
    exact hhub
  | ok bytes =>
    dsimp only
    rcases relay.hub.deliver_cases letter.session bytes with
      ⟨transport, hoffer, hdeliver⟩ | ⟨cause, transport, hoffer, hdeliver⟩
    · simp only [hbytes, hoffer, h, set_last] at hhub herrands
      rw [(step_go_last herrands).1, hdeliver]
      exact hhub
    · simp only [hbytes, hoffer, h, set_last] at hhub herrands
      rw [(step_go_last herrands).1, hdeliver]
      show (relay.step (.go before.length)).hub.sinkFailed _ _ = _
      rw [hhub]

/-- Nothing happens where there is no errand. -/
theorem hub_run_of_length_le {relay : Relay σ} {place : Nat} (h : relay.errands.length ≤ place)
    (count : Nat) : (relay.run (List.replicate count (.go place))).hub = relay.hub := by
  have hidle : ∀ {relay : Relay σ}, relay.errands.length ≤ place →
      (relay.step (.go place)).hub = relay.hub ∧
        (relay.step (.go place)).errands = relay.errands := by
    intro relay hlength
    unfold step change
    simp only [List.getElem?_eq_none hlength, and_self]
  induction count generalizing relay with
  | zero => rfl
  | succ count ih =>
    obtain ⟨hhub, herrands⟩ := hidle h
    show ((relay.step (.go place)).run (List.replicate count (.go place))).hub = relay.hub
    rw [ih (by rw [herrands]; exact h), hhub]

/-- An announcement that was made, if no other call comes between its steps. -/
theorem hub_run_announcing {relay : Relay σ} {before : List Errand} {told : Announcement}
    {made : Nat} (h : relay.errands = before ++ [.announcing told made]) :
    (relay.run [.go before.length, .go before.length, .go before.length]).hub =
      relay.hub.announce told := by
  obtain ⟨hhub, herrands⟩ := step_go_last h
  rw [Hub.announce_eq]
  show ((relay.step (.go before.length)).run [.go before.length, .go before.length]).hub = _
  generalize relay.step (.go before.length) = next at hhub herrands
  -- An errand that is done stays done.
  have hdone : next.errands = before ++ [.done] →
      (next.run [.go before.length, .go before.length]).hub = next.hub := by
    intro hnext
    obtain ⟨hfirst, herrands⟩ := step_go_last hnext
    show ((next.step (.go before.length)).step (.go before.length)).hub = next.hub
    rw [(step_go_last (herrands.trans hnext)).1]
    exact hfirst
  unfold advance announce at hhub herrands
  cases hframe : told.frame with
  | error cause =>
    simp only [hframe, h, set_last] at hhub herrands
    rw [hdone herrands]
    exact hhub
  | ok frame =>
    cases hcurrent : relay.hub.slot.current with
    | none =>
      simp only [hframe, hcurrent, h, set_last] at hhub herrands
      rw [hdone herrands]
      exact hhub
    | some session =>
      simp only [hframe, hcurrent, h, set_last] at hhub herrands
      rw [hub_run_sending herrands, hhub]
      rfl

/-- A call about realms, if no other comes between its steps. -/
theorem hub_run_call (relay : Relay σ) {op : Operation} (h : op.isAboutSlot = false) :
    let place := relay.errands.length
    (relay.run [.call op h, .go place, .go place, .go place]).hub = op.run relay.hub := by
  have hbegun : (relay.step (.call op h)).hub = (relay.hub.begin op).2 := rfl
  have herrands : (relay.step (.call op h)).errands = relay.errands ++
      ((relay.hub.begin op).1.map (.announcing · relay.now)).toList := rfl
  rw [relay.hub.run_eq_begin h]
  intro place
  show ((relay.step (.call op h)).run [.go place, .go place, .go place]).hub = _
  generalize relay.step (.call op h) = begun at hbegun herrands
  cases htold : (relay.hub.begin op).1 with
  | none =>
    have hlength : begun.errands.length ≤ place := by simp [herrands, htold, place]
    exact (hub_run_of_length_le hlength 3).trans hbegun
  | some told =>
    rw [htold] at herrands
    rw [hub_run_announcing herrands, hbegun]
    rfl

/-- The admission of a login that no session is in the way of. -/
theorem hub_run_claim (relay : Relay σ) (sink : SinkId) :
    let place := relay.errands.length
    (relay.run [.claim sink, .go place, .go place, .go place]).hub =
      (relay.hub.admitSession sink none).2 := by
  intro place
  unfold Hub.admitSession
  show ((relay.step (.claim sink)).run [.go place, .go place, .go place]).hub = _
  cases hclaim : relay.hub.slot.claim? sink with
  | none =>
    have hbegun : (relay.step (.claim sink)).hub = relay.hub ∧
        (relay.step (.claim sink)).errands.length ≤ place := by simp [step, change, hclaim, place]
    exact (hub_run_of_length_le hbegun.2 3).trans hbegun.1
  | some claimed =>
    obtain ⟨session, slot⟩ := claimed
    have hbegun : (relay.step (.claim sink)).hub =
          ({ relay.hub with slot } : Hub σ).note (.admitted session.id) ∧
        (relay.step (.claim sink)).errands = relay.errands ++ [.listing session relay.now] := by
      simp [step, change, hclaim]
    generalize relay.step (.claim sink) = begun at hbegun
    obtain ⟨hhub, herrands⟩ := hbegun
    obtain ⟨hlisted, hnext⟩ := step_go_last herrands
    show ((begun.step (.go place)).run [.go place, .go place]).hub = _
    simp only [advance, herrands, set_last] at hlisted hnext
    rw [hub_run_sending hnext, hlisted, hhub]
    rfl

end Relay

end RealmDirectory
