import RealmDirectory.Proofs.Session.Tenure

/-!
# What comes of an envelope

An envelope is about one realm at most. A registration of a session without a realm is about the
realm that it asks for; a status report and a log line are about the realm that the session has.
What comes of the envelope, that is the reply, the session and the realms after it, is decided by
the session, the links and the record of that realm. The admin session is told, but has no say.

## Main definitions

* `Session.offered?`, `Session.passedTo?` — what an envelope wants of the table.
* `Session.taken?`, `Session.onTable` — what the table gives and becomes.

## Main results

* `Session.reply_dispatch`, `Session.session_dispatch`, `Session.registry_dispatch` — the reply, the
  session and the realms after an envelope.
* `Session.added_iff_taken` — what is answered with added.
* `Session.find?_dispatch_of_ne` — the realms that an envelope is not about.
-/

namespace RealmDirectory

variable {σ : Type}

/-- A served link holds the realm. -/
def RealmTable.isHeld (table : RealmTable) (links : Links) (id : UInt32) : Bool :=
  (table.find? id).any (·.hasLiveOwner links)

namespace Session

/-- The record of a realm that is registered over this connection. -/
def record (session : Session) (registration : Registration) : RealmRecord :=
  .ofRegistration registration session.peer.address.toText (some session.link)

/-- The session with a realm. -/
def withRealm (session : Session) (id : UInt32) : Session :=
  { session with state := { session.state with realm := some id } }

/-- The registration that an envelope offers to the table. A session that has a realm offers no
other. -/
def offered? (session : Session) (envelope : Envelope) : Option Registration :=
  match envelope.opcode, session.state.realm with
  | .registeringRequest, none => (Registration.decode envelope.payload).toOption.map (·.1)
  | _, _ => none

/-- The realm that an envelope is passed on to. -/
def passedTo? (session : Session) (envelope : Envelope) : Option UInt32 :=
  match envelope.opcode with
  | .statusUpdate => session.state.realm
  | .logMessage => session.state.realm
  | _ => none

/-- The realm that an envelope is about. -/
def subject? (session : Session) (envelope : Envelope) : Option UInt32 :=
  match session.offered? envelope with
  | some registration => some registration.id
  | none => session.passedTo? envelope

/-- The realm that the session gets by an envelope: what is offered is taken unless it is held. -/
def taken? (session : Session) (links : Links) (table : RealmTable) (envelope : Envelope) :
    Option UInt32 :=
  ((session.offered? envelope).map (·.id)).filter fun id => !table.isHeld links id

theorem offered?_eq_some_iff {session : Session} {envelope : Envelope}
    {registration : Registration} :
    session.offered? envelope = some registration ↔
      envelope.opcode = .registeringRequest ∧ session.state.realm = none ∧
        ∃ trailing, Registration.decode envelope.payload = .ok (registration, trailing) := by
  unfold offered?
  cases envelope.opcode
  case registeringRequest =>
    cases session.state.realm with
    | some bound => simp
    | none =>
      cases Registration.decode envelope.payload with
      | error cause => simp [Except.toOption]
      | ok decoded => simp [Except.toOption, Prod.ext_iff]
  all_goals simp

theorem taken?_eq_some_iff {session : Session} {links : Links} {table : RealmTable}
    {envelope : Envelope} {id : UInt32} :
    session.taken? links table envelope = some id ↔ ∃ registration,
      session.offered? envelope = some registration ∧ registration.id = id ∧
        table.isHeld links id = false := by
  unfold taken?
  rw [Option.filter_eq_some_iff, Option.map_eq_some_iff, Bool.not_eq_true']
  constructor
  · rintro ⟨⟨registration, hoffered, hid⟩, hfree⟩
    exact ⟨registration, hoffered, hid, hfree⟩
  · rintro ⟨registration, hoffered, hid, hfree⟩
    exact ⟨⟨registration, hoffered, hid⟩, hfree⟩

/-- The table after an envelope. -/
def onTable (session : Session) (links : Links) (table : RealmTable) (envelope : Envelope)
    (now : Instant) : RealmTable :=
  match session.offered? envelope with
  | some registration => (Operation.register (session.record registration)).onTable links table
  | none =>
    match session.passedTo? envelope with
    | some id => table.adjust id (written envelope now)
    | none => table

/-! ## Registrations -/

/-- The reply to a registration, the session and the hub after it. -/
structure Yields (session : Session) (hub : Hub σ) (taken : Option UInt32) (realms : RealmTable)
    (result : Envelope × Session × Hub σ) : Prop where
  reply_eq : result.1 = answer taken.isSome
  session_eq : result.2.1 = taken.elim session session.withRealm
  realms_eq : result.2.2.realms = realms
  links_eq : result.2.2.links = hub.links

variable [Transport σ]

private theorem yields_enroll {session : Session} (hunbound : session.state.realm = none)
    (registration : Registration) (hub : Hub σ) :
    session.Yields hub ((some registration.id).filter fun id => !hub.realms.isHeld hub.links id)
      ((Operation.register (session.record registration)).onTable hub.links hub.realms)
      (session.enroll registration hub) := by
  obtain ⟨hrealms, hlinks⟩ := hub.registry_register (session.record registration)
  have hsession : { session with state := (session.state.bind registration.id).2 } =
      session.withRealm registration.id := by
    unfold withRealm SessionState.bind
    rw [hunbound]
  rcases hub.register_cases (session.record registration) with
    ⟨existing, hfind, hlive, heq⟩ | ⟨hvacant, outcome, heq⟩
  · have hheld : hub.realms.isHeld hub.links registration.id = true := by
      unfold RealmTable.isHeld
      rw [show hub.realms.find? registration.id = some existing from hfind]
      exact hlive
    rw [Option.filter_some, hheld]
    rw [heq] at hrealms hlinks
    unfold record at heq
    unfold enroll
    dsimp only
    rw [heq]
    exact ⟨rfl, rfl, hrealms, hlinks⟩
  · have hheld : hub.realms.isHeld hub.links registration.id = false := by
      unfold RealmTable.isHeld
      cases hfind : hub.realms.find? registration.id with
      | none => rfl
      | some existing => exact hvacant existing hfind
    rw [Option.filter_some, hheld]
    rw [heq] at hrealms hlinks
    unfold record at heq
    unfold enroll
    dsimp only
    rw [heq]
    exact ⟨rfl, hsession, hrealms, hlinks⟩

private theorem yields_register (session : Session) (payload : List UInt8) (now : Instant)
    (hub : Hub σ) :
    session.Yields hub (session.taken? hub.links hub.realms ⟨.registeringRequest, payload⟩)
      (session.onTable hub.links hub.realms ⟨.registeringRequest, payload⟩ now)
      (session.register payload hub) := by
  unfold register taken? onTable offered?
  dsimp only
  cases hrealm : session.state.realm with
  | some id => exact ⟨rfl, rfl, rfl, rfl⟩
  | none =>
    rcases Registration.decode payload with cause | ⟨registration, _ | trailing⟩
    · exact ⟨rfl, rfl, rfl, rfl⟩
    · exact yields_enroll hrealm registration hub
    · have hyields := yields_enroll hrealm registration
        (hub.note (.trailingBytes session.peer (trailing + 1)))
      exact ⟨hyields.reply_eq, hyields.session_eq, hyields.realms_eq, hyields.links_eq⟩

/-! ## Envelopes -/

/-- Registrations are answered, and nothing else is. -/
theorem reply_dispatch (session : Session) (envelope : Envelope) (now : Instant) (hub : Hub σ) :
    (session.dispatch envelope now hub).1 =
      if envelope.opcode = .registeringRequest then
        some (answer (session.taken? hub.links hub.realms envelope).isSome)
      else none := by
  obtain ⟨opcode, payload⟩ := envelope
  cases opcode
  case registeringRequest =>
    exact congrArg some (session.yields_register payload now hub).reply_eq
  all_goals rfl

/-- An envelope is answered with added if it brings the session a realm, and not otherwise. -/
theorem added_iff_taken {session : Session} {envelope : Envelope} {now : Instant} {hub : Hub σ} :
    (session.dispatch envelope now hub).1 = some (answer true) ↔
      ∃ id, session.taken? hub.links hub.realms envelope = some id := by
  rw [reply_dispatch, ← Option.isSome_iff_exists]
  cases htaken : session.taken? hub.links hub.realms envelope with
  | none =>
    split
    · exact iff_of_false answer_false_ne Bool.false_ne_true
    · exact iff_of_false nofun Bool.false_ne_true
  | some id =>
    obtain ⟨registration, hoffered, -⟩ := taken?_eq_some_iff.mp htaken
    rw [if_pos (offered?_eq_some_iff.mp hoffered).1]
    exact iff_of_true rfl rfl

/-- The session changes only in that it gets a realm. -/
theorem session_dispatch (session : Session) (envelope : Envelope) (now : Instant) (hub : Hub σ) :
    (session.dispatch envelope now hub).2.1 =
      (session.taken? hub.links hub.realms envelope).elim session session.withRealm := by
  obtain ⟨opcode, payload⟩ := envelope
  cases opcode
  case registeringRequest => exact (session.yields_register payload now hub).session_eq
  all_goals rfl

/-- What an envelope does to the realms is decided by the realms and the links, and it leaves the
links alone. -/
theorem registry_dispatch (session : Session) (envelope : Envelope) (now : Instant)
    (hub : Hub σ) :
    (session.dispatch envelope now hub).2.2.realms =
        session.onTable hub.links hub.realms envelope now ∧
      (session.dispatch envelope now hub).2.2.links = hub.links := by
  obtain ⟨opcode, payload⟩ := envelope
  cases opcode
  case registeringRequest =>
    have hyields := session.yields_register payload now hub
    exact ⟨hyields.realms_eq, hyields.links_eq⟩
  case statusUpdate =>
    unfold dispatch ifRegistered onTable offered? passedTo?
    cases session.state.realm with
    | none => exact ⟨rfl, rfl⟩
    | some id => exact ⟨realms_report id payload now hub, (steady_report id payload hub).links_eq⟩
  case logMessage =>
    unfold dispatch ifRegistered onTable offered? passedTo?
    cases session.state.realm with
    | none => exact ⟨rfl, rfl⟩
    | some id =>
      exact ⟨realms_append id payload now hub, (steady_append id payload now hub).links_eq⟩
  all_goals exact ⟨rfl, rfl⟩

omit [Transport σ] in
private theorem find?_onTable_of_ne {session : Session} {envelope : Envelope} {id : UInt32}
    (h : session.subject? envelope ≠ some id) (links : Links) (table : RealmTable)
    (now : Instant) :
    (session.onTable links table envelope now).find? id = table.find? id := by
  unfold subject? at h
  unfold onTable
  cases hoffered : session.offered? envelope with
  | some registration =>
    rw [hoffered] at h
    have hne : registration.id ≠ id := fun heq => h (congrArg some heq)
    unfold Operation.onTable
    dsimp only
    split
    · rfl
    · rw [RealmTable.find?_put, RealmRecord.id_entering]
      exact if_neg hne
  | none =>
    rw [hoffered] at h
    dsimp only at h ⊢
    cases hpassed : session.passedTo? envelope with
    | none => rfl
    | some realm =>
      rw [hpassed] at h
      have hne : id ≠ realm := fun heq => h (congrArg some heq.symm)
      dsimp only
      rw [RealmTable.find?_adjust _ _ _ (id_written envelope now), if_neg hne]

/-- An envelope leaves the realms alone that it is not about. -/
theorem find?_dispatch_of_ne {session : Session} {envelope : Envelope} {id : UInt32}
    (h : session.subject? envelope ≠ some id) (now : Instant) (hub : Hub σ) :
    (session.dispatch envelope now hub).2.2.realms.find? id = hub.realms.find? id := by
  rw [(session.registry_dispatch envelope now hub).1]
  exact find?_onTable_of_ne h hub.links hub.realms now

end Session

end RealmDirectory
