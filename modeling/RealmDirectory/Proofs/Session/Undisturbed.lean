import RealmDirectory.AdminLogin
import RealmDirectory.Connection
import RealmDirectory.Proofs.Hub.Alike
import RealmDirectory.Proofs.Session.Tenure

/-!
# The admin side does not show

A `Traffic` is a hub with the sessions of its connections. Two kinds of steps change it: those of
the realm side, each of which answers whoever made it, and those of the admin side. The realm side
learns nothing of the admin side. Take the steps of the realm side alone, in their order: whatever
the admin side does between them, and whatever the sinks answer, the answers are the same, and so
are the sessions, the realms and their logs in the end.

Every run is compared with the one that serves the steps of the realm side only. A step of the admin
side leaves the traffic as it was, as far as `Traffic.Agrees` goes; a step of the realm side does
the same to traffics that agree.

## Main results

* `Session.matches_dispatch` — an envelope, on hubs that are alike.
* `Traffic.Agrees.realmStep`, `Traffic.agrees_adminStep` — one step.
* `Traffic.undisturbed_run` — two runs with the same steps of the realm side.
-/

namespace RealmDirectory

variable {σ τ : Type}

/-! ## Sessions on hubs that are alike -/

namespace Session

/-- The same reply, the same session, and hubs that are alike. -/
structure Matches {ρ : Type} (first : ρ × Session × Hub σ) (second : ρ × Session × Hub τ) :
    Prop where
  reply_eq : first.1 = second.1
  session_eq : first.2.1 = second.2.1
  hubs : first.2.2.Alike second.2.2

variable {a : Hub σ} {b : Hub τ}

private theorem unmarked_written (envelope : Envelope) (now : Instant) (record : RealmRecord) :
    (written envelope now record.unmarked).unmarked = (written envelope now record).unmarked := by
  unfold written
  split
  · split <;> rfl
  · split <;> rfl
  · rfl

private theorem alike_ifRegistered (h : a.Alike b) (session : Session) (opcode : RealmOpcode)
    {first : UInt32 → Hub σ} {second : UInt32 → Hub τ} (huse : ∀ id, (first id).Alike (second id)) :
    (session.ifRegistered opcode a first).Alike (session.ifRegistered opcode b second) := by
  unfold ifRegistered
  cases session.state.realm with
  | none => exact h.note _ _
  | some id => exact huse id

variable [Transport σ] [Transport τ]

private theorem matches_enroll (h : a.Alike b) (session : Session) (registration : Registration) :
    Matches (session.enroll registration a) (session.enroll registration b) := by
  unfold enroll
  dsimp only
  generalize RealmRecord.ofRegistration registration _ _ = record
  have hanswer := h.register_eq record
  have hafter : (a.register record).2.Alike (b.register record).2 := h.operate (.register record)
  generalize a.register record = first at hanswer hafter ⊢
  generalize b.register record = second at hanswer hafter ⊢
  obtain ⟨outcome, first⟩ := first
  obtain ⟨outcome', second⟩ := second
  obtain rfl : outcome = outcome' := hanswer
  cases outcome with
  | error cause => exact ⟨rfl, rfl, hafter.note _ _⟩
  | ok outcome => exact ⟨rfl, rfl, hafter.note _ _⟩

private theorem matches_register (h : a.Alike b) (session : Session) (payload : List UInt8) :
    Matches (session.register payload a) (session.register payload b) := by
  unfold register
  cases session.state.realm with
  | some id => exact ⟨rfl, rfl, h.note _ _⟩
  | none =>
    rcases Registration.decode payload with cause | ⟨registration, _ | trailing⟩
    · exact ⟨rfl, rfl, h.note _ _⟩
    · exact matches_enroll h session registration
    · exact matches_enroll (h.note _ _) session registration

private theorem alike_report (h : a.Alike b) (id : UInt32) (payload : List UInt8) :
    (report id payload a).Alike (report id payload b) := by
  constructor
  · rw [(steady_report id payload a).links_eq, (steady_report id payload b).links_eq, h.links_eq]
  · rw [realms_report id payload 0 a, realms_report id payload 0 b]
    exact h.realms.adjust id (id_written _ _) (unmarked_written _ _)

private theorem alike_append (h : a.Alike b) (id : UInt32) (payload : List UInt8) (now : Instant) :
    (append id payload now a).Alike (append id payload now b) := by
  constructor
  · rw [(steady_append id payload now a).links_eq, (steady_append id payload now b).links_eq,
      h.links_eq]
  · rw [realms_append, realms_append]
    exact h.realms.adjust id (id_written _ _) (unmarked_written _ _)

/-- A dispatch gives the same reply and the same session over alike hubs, and leaves them alike. -/
theorem matches_dispatch (h : a.Alike b) (session : Session) (envelope : Envelope)
    (now : Instant) :
    Matches (session.dispatch envelope now a) (session.dispatch envelope now b) := by
  unfold dispatch
  split
  · have hregister := matches_register h session envelope.payload
    exact ⟨congrArg some hregister.reply_eq, hregister.session_eq, hregister.hubs⟩
  · exact ⟨rfl, rfl, alike_ifRegistered h session _ fun id => alike_report h id _⟩
  · exact ⟨rfl, rfl, alike_ifRegistered h session _ fun id => alike_append h id _ now⟩
  · exact ⟨rfl, rfl, h⟩
  · exact ⟨rfl, rfl, h.note _ _⟩

private theorem alike_release (h : a.Alike b) (session : Session) :
    (session.release a).Alike (session.release b) := by
  unfold release
  cases session.state.realm with
  | none => exact h
  | some id => exact h.operate (.release id session.link)

/-- Tears a session down: its link is closed before the realm is given up. -/
def close (session : Session) (hub : Hub σ) : Session × Hub σ :=
  ({ session with state := session.state.cancel },
    session.release { hub with links := hub.links.close session.link })

/-- This is what tearing a connection down does to its session. -/
theorem close_eq_finish (c : Connection) (hub : Hub σ) :
    (c.finish hub).1.session = (c.session.close hub).1 ∧
      (c.finish hub).2 = (c.session.close hub).2.note (.ended c.session.peer) := ⟨rfl, rfl⟩

end Session

/-! ## What the admin side does -/

namespace AdminLogin

variable [Transport σ]

private theorem alike_upgrade (login : AdminLogin) (access : AccessLevel) (hub : Hub σ) :
    hub.Alike (login.upgrade access hub).2.2 := by
  have hadmit := hub.registry_admitSession login.sink login.session
  unfold upgrade
  split
  · exact Hub.alike_of_registry ⟨rfl, rfl⟩
  generalize hub.admitSession login.sink login.session = admitted at hadmit ⊢
  rcases admitted with ⟨_ | session, after⟩
  · dsimp only
    split
    · exact Hub.alike_of_registry hadmit
    · exact Hub.alike_of_registry hadmit
  · exact Hub.alike_of_registry hadmit

omit [Transport σ] in
private theorem alike_close (login : AdminLogin) (hub : Hub σ) : hub.Alike (login.close hub).2 := by
  unfold close
  cases login.session with
  | none => exact .refl hub
  | some session => exact Hub.alike_of_registry (hub.registry_evict session)

end AdminLogin

/-! ## Traffic -/

/-- A hub with the sessions of its connections. -/
structure Traffic (σ : Type) where
  hub : Hub σ
  sessions : List Session

/-- Something that the realm side does. -/
inductive RealmStep where
  | join (peer : Endpoint)
  | dispatch (place : Nat) (envelope : Envelope) (now : Instant)
  | close (place : Nat)
  /-- Nobody holds the link of a session any more. -/
  | drop (place : Nat)
  /-- A call that is not about the admin slot. -/
  | call (op : Operation) (h : op.isAboutSlot = false)

/-- Something that the admin side does. -/
inductive AdminStep (σ : Type) where
  /-- A session is admitted or evicted. -/
  | seat (op : Operation) (h : op.isAboutSlot = true)
  | upgrade (login : AdminLogin) (access : AccessLevel)
  | leave (login : AdminLogin)
  | harvest
  /-- A delivery mark moves, in a round that the realm side interrupts. -/
  | mark (id : UInt32) (stamp : Instant)
  /-- The slot, the transport and the notices change in any way at all. -/
  | surroundings (slot : AdminSlot) (transport : σ) (notices : List Notice)

inductive TrafficStep (σ : Type) where
  | realm (step : RealmStep)
  | admin (step : AdminStep σ)

/-- The step, if it is one of the realm side. -/
def TrafficStep.realm? : TrafficStep σ → Option RealmStep
  | realm step => some step
  | admin _ => none

/-- What a step of the realm side gives back. -/
inductive Reply where
  | nothing
  | envelope (envelope : Option Envelope)
  | answer (answer : Answer)
  deriving DecidableEq

namespace Traffic

def start (transport : σ) : Traffic σ := ⟨Hub.start transport, []⟩

/-- A step of one session; nothing happens if there is no such session. -/
def turn (traffic : Traffic σ) (place : Nat) (change : Session → Reply × Traffic σ) :
    Reply × Traffic σ :=
  match traffic.sessions[place]? with
  | none => (.nothing, traffic)
  | some session => change session

section Run

variable [Transport σ]

/-- The traffic after a step of the realm side, and what the step gives back. -/
def realmStep (traffic : Traffic σ) : RealmStep → Reply × Traffic σ
  | .join peer =>
    let (session, hub) := Session.start peer traffic.hub
    (.nothing, ⟨hub, traffic.sessions ++ [session]⟩)
  | .dispatch place envelope now =>
    traffic.turn place fun session =>
      let (reply, session, hub) := session.dispatch envelope now traffic.hub
      (.envelope reply, ⟨hub, traffic.sessions.set place session⟩)
  | .close place =>
    traffic.turn place fun session =>
      let (session, hub) := session.close traffic.hub
      (.nothing, ⟨hub, traffic.sessions.set place session⟩)
  | .drop place =>
    traffic.turn place fun session =>
      (.nothing, { traffic with
        hub := { traffic.hub with links := traffic.hub.links.forget session.link } })
  | .call op _ => (.answer (op.answer traffic.hub), { traffic with hub := op.run traffic.hub })

/-- The hub after a step of the admin side. -/
def adminStep (hub : Hub σ) : AdminStep σ → Hub σ
  | .seat op _ => op.run hub
  | .upgrade login access => (login.upgrade access hub).2.2
  | .leave login => (login.close hub).2
  | .harvest => hub.harvest.2
  | .mark id stamp => { hub with realms := hub.realms.setCheckpoint id stamp }
  | .surroundings slot transport notices => { hub with slot, transport, notices }

/-- The traffic after some steps, and what those of the realm side gave back, in order. -/
def run (traffic : Traffic σ) : List (TrafficStep σ) → List Reply × Traffic σ
  | [] => ([], traffic)
  | .realm step :: rest =>
    let (reply, traffic) := traffic.realmStep step
    let (replies, traffic) := traffic.run rest
    (reply :: replies, traffic)
  | .admin step :: rest => run { traffic with hub := adminStep traffic.hub step } rest

/-- A run without an admin side. -/
def serve (traffic : Traffic σ) (steps : List RealmStep) : List Reply × Traffic σ :=
  traffic.run (steps.map .realm)

end Run

/-- The sessions are the same, and the hubs differ on the admin side only. -/
structure Agrees (first : Traffic σ) (second : Traffic τ) : Prop where
  sessions_eq : first.sessions = second.sessions
  hubs : first.hub.Alike second.hub

theorem Agrees.refl (traffic : Traffic σ) : traffic.Agrees traffic := ⟨rfl, .refl traffic.hub⟩

/-- Before anything has happened only the admin side differs. -/
theorem agrees_start (first : σ) (second : τ) : (start first).Agrees (start second) :=
  ⟨rfl, rfl, .refl _⟩

/-- The same was given back, and the traffics agree. -/
structure Same {ρ : Type} (first : ρ × Traffic σ) (second : ρ × Traffic τ) : Prop where
  reply_eq : first.1 = second.1
  agrees : first.2.Agrees second.2

variable {first : Traffic σ} {second : Traffic τ}

theorem Agrees.turn (h : first.Agrees second) {place : Nat} {change : Session → Reply × Traffic σ}
    {change' : Session → Reply × Traffic τ}
    (hchange : ∀ session, Same (change session) (change' session)) :
    Same (first.turn place change) (second.turn place change') := by
  unfold Traffic.turn
  rw [h.sessions_eq]
  cases second.sessions[place]? with
  | none => exact ⟨rfl, h⟩
  | some session => exact hchange session

section Run

variable [Transport σ] [Transport τ]

/-- A step of the realm side does the same to traffics that agree. -/
theorem Agrees.realmStep (h : first.Agrees second) (step : RealmStep) :
    Same (first.realmStep step) (second.realmStep step) := by
  have hset : ∀ place {session session' : Session}, session = session' →
      first.sessions.set place session = second.sessions.set place session' :=
    fun place _ _ heq => by rw [h.sessions_eq, heq]
  cases step with
  | join peer =>
    refine ⟨rfl, ?_, ?_, h.hubs.realms⟩
    · show first.sessions ++ [⟨peer, first.hub.links.all.size, _⟩] = second.sessions ++ [_]
      rw [h.sessions_eq, h.hubs.links_eq]
    · show (first.hub.links.add peer).2 = (second.hub.links.add peer).2
      rw [h.hubs.links_eq]
  | dispatch place envelope now =>
    refine h.turn fun session => ?_
    have hdispatch := Session.matches_dispatch h.hubs session envelope now
    exact ⟨congrArg Reply.envelope hdispatch.reply_eq, hset place hdispatch.session_eq,
      hdispatch.hubs⟩
  | close place =>
    refine h.turn fun session => ⟨rfl, hset place rfl, ?_⟩
    exact Session.alike_release (h.hubs.setState session.link .closed) session
  | drop place =>
    exact h.turn fun session => ⟨rfl, h.sessions_eq, h.hubs.setState session.link .gone⟩
  | call op hop =>
    exact ⟨congrArg Reply.answer (h.hubs.answer_eq hop), h.sessions_eq, h.hubs.operate op⟩

omit [Transport τ] in
/-- A step of the admin side does nothing that the realm side could see. -/
theorem alike_adminStep (hub : Hub σ) (step : AdminStep σ) : hub.Alike (adminStep hub step) := by
  cases step with
  | seat op hop => exact hub.alike_run_of_isAboutSlot hop
  | upgrade login access => exact login.alike_upgrade access hub
  | leave login => exact login.alike_close hub
  | harvest => exact hub.alike_harvest
  | mark id stamp => exact ⟨rfl, hub.realms.alike_setCheckpoint id stamp⟩
  | surroundings slot transport notices => exact ⟨rfl, .refl _⟩

/-- A run gives what it would give without its admin side. -/
theorem Agrees.run_serve (h : first.Agrees second) (steps : List (TrafficStep σ)) :
    Same (first.run steps) (second.serve (steps.filterMap TrafficStep.realm?)) := by
  induction steps generalizing first second with
  | nil => exact ⟨rfl, h⟩
  | cons step rest ih =>
    cases step with
    | realm step =>
      have hstep := h.realmStep step
      have hrest := ih hstep.agrees
      exact ⟨congrArg₂ List.cons hstep.reply_eq hrest.reply_eq, hrest.agrees⟩
    | admin step =>
      exact ih ⟨h.sessions_eq, (alike_adminStep first.hub step).symm.trans h.hubs⟩

end Run

/-- Two runs that the realm side cannot tell apart, with what they gave back. -/
structure Undisturbed (first : List Reply × Traffic σ) (second : List Reply × Traffic τ) :
    Prop where
  /-- Every envelope that was dispatched got the same reply, and every call the same answer. -/
  replies_eq : first.1 = second.1
  sessions_eq : first.2.sessions = second.2.sessions
  links_eq : first.2.hub.links = second.2.hub.links
  snapshots_eq : first.2.hub.realms.snapshots = second.2.hub.realms.snapshots
  /-- The logs hold the same lines under the same stamps. -/
  log_eq : ∀ id, (first.2.hub.realms.find? id).map (·.log) =
    (second.2.hub.realms.find? id).map (·.log)
  /-- The records differ in their delivery marks at most. -/
  unmarked_eq : ∀ id, (first.2.hub.realms.find? id).map (·.unmarked) =
    (second.2.hub.realms.find? id).map (·.unmarked)

/-- Runs that differ in their admin sides only, from traffics that do. -/
theorem undisturbed_run [Transport σ] [Transport τ] (hstart : first.Agrees second)
    {steps : List (TrafficStep σ)} {others : List (TrafficStep τ)}
    (h : steps.filterMap TrafficStep.realm? = others.filterMap TrafficStep.realm?) :
    Undisturbed (first.run steps) (second.run others) := by
  have hfirst := hstart.run_serve steps
  have hsecond := (Agrees.refl second).run_serve others
  rw [h] at hfirst
  have hhubs := hfirst.agrees.hubs.trans hsecond.agrees.hubs.symm
  exact
    { replies_eq := hfirst.reply_eq.trans hsecond.reply_eq.symm
      sessions_eq := hfirst.agrees.sessions_eq.trans hsecond.agrees.sessions_eq.symm
      links_eq := hhubs.links_eq
      snapshots_eq := hhubs.realms.snapshots_eq
      log_eq := hhubs.realms.map_find?_eq fun _ => rfl
      unmarked_eq := hhubs.realms }

/-- A realm is registered, logs two lines and goes offline again. -/
def visit : List RealmStep :=
  let registration : Registration :=
    ⟨7, "Realm 7", 8085, 200, 50, .player, ⟨0⟩, .normal, .english, []⟩
  let line : Envelope := ⟨.logMessage, LogLine.encode ⟨1, "line"⟩⟩
  [.join ⟨.v4 10 0 0 5, 41000, 0⟩,
    .dispatch 0 ⟨.registeringRequest, registration.encode.toOption.getD []⟩ 0,
    .dispatch 0 line 5, .call (.setOnline 9 true) rfl, .dispatch 0 line 5, .close 0]

/-- The same with an admin session, whose mailbox is full after the first batch. -/
def watchedVisit : List (TrafficStep Mailboxes) :=
  (visit.take 2).map .realm ++ [.admin (.seat (.login 0 none) rfl)] ++
    ((visit.drop 2).take 1).map .realm ++ [.admin .harvest] ++ (visit.drop 3).map .realm ++
    [.admin .harvest, .admin (.seat (.evict 1) rfl)]

/-- Only the delivery mark tells whether the admin session was there. -/
theorem undisturbed_run_watchedVisit :
    let watched := (start (Mailboxes.empty.add 2).2).run watchedVisit
    let unwatched := (start Mailboxes.empty).serve visit
    Undisturbed watched unwatched ∧
      watched.1 = [.nothing, .envelope (some (Session.answer true)), .envelope none,
        .answer (.done (.error (.notFound 9))), .envelope none, .nothing] ∧
      (watched.2.hub.realms.find? 7).map (·.checkpoint) = some (some 5) ∧
      (unwatched.2.hub.realms.find? 7).map (·.checkpoint) = some none := by
  refine ⟨undisturbed_run (agrees_start _ _) rfl, ?_⟩
  decide +kernel

end Traffic

end RealmDirectory
