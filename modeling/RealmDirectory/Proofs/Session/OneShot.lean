import RealmDirectory.Proofs.Session.Apart

/-!
# Registering once

A session gets at most one realm in its life, whatever it is sent and whatever becomes of the hub
between two envelopes. What an envelope finds is therefore not the hub that the last one left, but
any hub that others made of it, and the timers of the session may have moved on as well.

An envelope is answered with added exactly when `Session.taken?` gives the session a realm. Nothing
ever takes the realm from the session again, so of two envelopes at most one is answered so; this
is the one fact about a whole run, `Session.pairwise_exchanges`, and the rest follows from it. An
envelope that comes to nothing leaves no trace but notices: the refusal of the table comes before
anything is put in, so that this is read off the cases of `Hub.register_cases`.

## Main definitions

* `Session.Fruitless` — the reasons for which an envelope comes to nothing.
* `Session.exchanges` — the envelopes of a session, each with what it found.

## Main results

* `Session.onlyNoted_dispatch` — an envelope that comes to nothing.
* `Session.oneShot_exchanges` — the envelopes of a session, from its first one.
-/

namespace RealmDirectory

variable {σ : Type}

/-! ## Hubs to which nothing happened -/

/-- Notices were taken down, and nothing else happened. -/
def Hub.OnlyNoted (before after : Hub σ) : Prop :=
  ∃ latest, after = { before with notices := latest ++ before.notices }

namespace Hub.OnlyNoted

theorem refl (hub : Hub σ) : hub.OnlyNoted hub := ⟨[], rfl⟩

theorem note {before after : Hub σ} (h : before.OnlyNoted after) (notice : Notice) :
    before.OnlyNoted (after.note notice) := by
  obtain ⟨latest, rfl⟩ := h
  exact ⟨notice :: latest, rfl⟩

end Hub.OnlyNoted

open Hub (OnlyNoted)

namespace Session

/-! ## What is answered with added -/

/-- The reasons for which an envelope with this reply comes to nothing. -/
inductive Fruitless (session : Session) (envelope : Envelope) (reply : Option Envelope) : Prop where
  /-- A registration was answered with not added. -/
  | refused (h : reply = some (answer false))
  /-- The session had no realm and did not get one. -/
  | unregistered (hunbound : session.state.realm = none) (h : reply ≠ some (answer true))
  | malformedStatus {cause : Payload.FieldError} (hopcode : envelope.opcode = .statusUpdate)
    (h : StatusReport.read.decode envelope.payload = .error cause)
  | malformedLine {cause : Payload.FieldError} (hopcode : envelope.opcode = .logMessage)
    (h : LogLine.read.decode envelope.payload = .error cause)
  /-- The opcode is that of a heartbeat, or it is not meant for the directory. -/
  | unheeded (h : envelope.opcode ∉ [.registeringRequest, .statusUpdate, .logMessage])

variable {session : Session} {envelope : Envelope} {links : Links} {table : RealmTable}

private theorem taken?_of_bound {id : UInt32} (h : session.state.realm = some id) :
    session.taken? links table envelope = none := by
  refine Option.eq_none_iff_forall_ne_some.mpr fun taken htaken => ?_
  obtain ⟨registration, hoffered, -⟩ := taken?_eq_some_iff.mp htaken
  obtain ⟨-, hunbound, -⟩ := offered?_eq_some_iff.mp hoffered
  cases h.symm.trans hunbound

section Dispatch

variable [Transport σ] {hub : Hub σ} {now : Instant}

private theorem taken?_of_not_added
    (h : (session.dispatch envelope now hub).1 ≠ some (answer true)) :
    session.taken? hub.links hub.realms envelope = none :=
  Option.eq_none_iff_forall_ne_some.mpr fun id htaken => h (added_iff_taken.mpr ⟨id, htaken⟩)

/-! ## What comes to nothing -/

private theorem Fruitless.not_added
    (h : session.Fruitless envelope (session.dispatch envelope now hub).1) :
    (session.dispatch envelope now hub).1 ≠ some (answer true) := by
  have hother : envelope.opcode ≠ .registeringRequest →
      (session.dispatch envelope now hub).1 ≠ some (answer true) := by
    intro hopcode
    rw [reply_dispatch, if_neg hopcode]
    exact nofun
  cases h with
  | refused h =>
    rw [h]
    exact answer_false_ne
  | unregistered hunbound h => exact h
  | malformedStatus hopcode h => exact hother (by rw [hopcode]; decide)
  | malformedLine hopcode h => exact hother (by rw [hopcode]; decide)
  | unheeded h => exact hother fun hopcode => h (hopcode ▸ List.mem_cons_self)

/-- A registration of a realm that is held. -/
theorem onlyNoted_enroll {before : Hub σ} (h : before.OnlyNoted hub) {registration : Registration}
    (hheld : hub.realms.isHeld hub.links registration.id = true) :
    before.OnlyNoted (session.enroll registration hub).2.2 := by
  rcases hub.register_cases (session.record registration) with
    ⟨existing, -, -, heq⟩ | ⟨hvacant, -⟩
  · unfold record at heq
    unfold enroll
    dsimp only
    rw [heq]
    exact h.note _
  · unfold RealmTable.isHeld at hheld
    cases hfind : hub.realms.find? registration.id with
    | none =>
      rw [hfind] at hheld
      cases hheld
    | some existing =>
      rw [hfind] at hheld
      cases hheld.symm.trans (hvacant existing hfind)

/-- A registration that takes no realm leaves nothing but a notice. -/
theorem onlyNoted_register {payload : List UInt8}
    (h : session.taken? hub.links hub.realms ⟨.registeringRequest, payload⟩ = none) :
    hub.OnlyNoted (session.register payload hub).2.2 := by
  unfold register
  cases hrealm : session.state.realm with
  | some id => exact (OnlyNoted.refl hub).note _
  | none =>
    cases hdecode : Registration.decode payload with
    | error cause => exact (OnlyNoted.refl hub).note _
    | ok decoded =>
      obtain ⟨registration, trailing⟩ := decoded
      have hheld : hub.realms.isHeld hub.links registration.id = true := by
        by_contra hfree
        have hoffered : session.offered? ⟨.registeringRequest, payload⟩ = some registration :=
          offered?_eq_some_iff.mpr ⟨rfl, hrealm, trailing, hdecode⟩
        have htaken := taken?_eq_some_iff.mpr
          ⟨registration, hoffered, rfl, Bool.eq_false_iff.mpr hfree⟩
        cases h.symm.trans htaken
      cases trailing with
      | zero => exact onlyNoted_enroll (.refl hub) hheld
      | succ trailing => exact onlyNoted_enroll ((OnlyNoted.refl hub).note _) hheld

omit [Transport σ] in
private theorem onlyNoted_ifRegistered (opcode : RealmOpcode) {use : UInt32 → Hub σ}
    (huse : ∀ id, session.state.realm = some id → hub.OnlyNoted (use id)) :
    hub.OnlyNoted (session.ifRegistered opcode hub use) := by
  unfold ifRegistered
  cases hrealm : session.state.realm with
  | none => exact (OnlyNoted.refl hub).note _
  | some id => exact huse id hrealm

omit [Transport σ] in
private theorem onlyNoted_append {id : UInt32} {payload : List UInt8} {cause : Payload.FieldError}
    (h : LogLine.read.decode payload = .error cause) :
    hub.OnlyNoted (append id payload now hub) := by
  unfold append
  rw [h]
  exact (OnlyNoted.refl hub).note _

private theorem onlyNoted_report {id : UInt32} {payload : List UInt8} {cause : Payload.FieldError}
    (h : StatusReport.read.decode payload = .error cause) :
    hub.OnlyNoted (report id payload hub) := by
  unfold report
  rw [h]
  exact (OnlyNoted.refl hub).note _

/-- An envelope that comes to nothing leaves notices, and nothing else is different after it. -/
theorem onlyNoted_dispatch (h : session.Fruitless envelope (session.dispatch envelope now hub).1) :
    hub.OnlyNoted (session.dispatch envelope now hub).2.2 := by
  have htaken := taken?_of_not_added h.not_added
  obtain ⟨opcode, payload⟩ := envelope
  cases opcode
  case registeringRequest => exact onlyNoted_register htaken
  case statusUpdate =>
    refine onlyNoted_ifRegistered _ fun id hrealm => ?_
    cases h with
    | refused h => cases h
    | unregistered hunbound h => cases hrealm.symm.trans hunbound
    | malformedStatus hopcode h => exact onlyNoted_report h
    | malformedLine hopcode h => cases hopcode
    | unheeded h => exact absurd (by simp) h
  case logMessage =>
    refine onlyNoted_ifRegistered _ fun id hrealm => ?_
    cases h with
    | refused h => cases h
    | unregistered hunbound h => cases hrealm.symm.trans hunbound
    | malformedStatus hopcode h => cases hopcode
    | malformedLine hopcode h => exact onlyNoted_append h
    | unheeded h => exact absurd (by simp) h
  case heartbeat => exact .refl hub
  all_goals exact (OnlyNoted.refl hub).note _

end Dispatch

/-! ## The envelopes of a session -/

/-- An envelope, with what happened since the one before it: others changed the hub, and the timers
of the session moved on. -/
structure Incoming (σ : Type) extends Turn where
  others : Hub σ → Hub σ
  timers : Option Timers

/-- An envelope with the session and the hub that it found. -/
structure Exchange (σ : Type) extends Turn where
  session : Session
  hub : Hub σ

namespace Exchange

variable [Transport σ]

def reply (exchange : Exchange σ) : Option Envelope :=
  (exchange.session.dispatch exchange.envelope exchange.now exchange.hub).1

def sessionAfter (exchange : Exchange σ) : Session :=
  (exchange.session.dispatch exchange.envelope exchange.now exchange.hub).2.1

def hubAfter (exchange : Exchange σ) : Hub σ :=
  (exchange.session.dispatch exchange.envelope exchange.now exchange.hub).2.2

/-- The session registered a realm. -/
def IsAdded (exchange : Exchange σ) : Prop := exchange.reply = some (answer true)

/-- The same session, with the same state, on a hub to which nothing happened. -/
structure Inert (exchange : Exchange σ) : Prop where
  session_eq : exchange.sessionAfter = exchange.session
  onlyNoted : exchange.hub.OnlyNoted exchange.hubAfter

/-- What holds of every envelope, whatever it found. -/
structure Regular (exchange : Exchange σ) : Prop where
  /-- Registrations are answered, and nothing else is. -/
  answered_iff : exchange.reply.isSome ↔ exchange.envelope.opcode = .registeringRequest
  answer : ∀ {reply}, exchange.reply = some reply →
    ∃ added, reply = ⟨.registrationResponse, RegistrationAnswer.encode ⟨added⟩⟩
  added_iff : exchange.IsAdded ↔
    exchange.envelope.opcode = .registeringRequest ∧ exchange.session.state.realm = none ∧
      ∃ registration trailing,
        Registration.decode exchange.envelope.payload = .ok (registration, trailing) ∧
        exchange.hub.realms.isHeld exchange.hub.links registration.id = false
  /-- The session gets the realm that it asked for. -/
  bound : ∀ {registration trailing}, exchange.IsAdded →
    Registration.decode exchange.envelope.payload = .ok (registration, trailing) →
    exchange.sessionAfter = exchange.session.withRealm registration.id
  inert : exchange.session.Fruitless exchange.envelope exchange.reply → exchange.Inert

private theorem regular (exchange : Exchange σ) : exchange.Regular where
  answered_iff := by
    rw [reply, reply_dispatch]
    split <;> simp [*]
  answer := by
    intro reply h
    rw [Exchange.reply, reply_dispatch] at h
    split at h
    · cases h
      exact ⟨_, rfl⟩
    · cases h
  added_iff := by
    refine added_iff_taken.trans ⟨?_, ?_⟩
    · rintro ⟨id, htaken⟩
      obtain ⟨registration, hoffered, rfl, hfree⟩ := taken?_eq_some_iff.mp htaken
      obtain ⟨hopcode, hunbound, trailing, hdecode⟩ := offered?_eq_some_iff.mp hoffered
      exact ⟨hopcode, hunbound, registration, trailing, hdecode, hfree⟩
    · rintro ⟨hopcode, hunbound, registration, trailing, hdecode, hfree⟩
      have hoffered := offered?_eq_some_iff.mpr ⟨hopcode, hunbound, trailing, hdecode⟩
      exact ⟨registration.id, taken?_eq_some_iff.mpr ⟨registration, hoffered, rfl, hfree⟩⟩
  bound := by
    intro registration trailing hadded hdecode
    obtain ⟨id, htaken⟩ := added_iff_taken.mp hadded
    obtain ⟨decoded, hoffered, rfl, -⟩ := taken?_eq_some_iff.mp htaken
    obtain ⟨-, -, _, hdecoded⟩ := offered?_eq_some_iff.mp hoffered
    cases hdecode.symm.trans hdecoded
    rw [sessionAfter, session_dispatch, htaken]
    rfl
  inert := by
    intro h
    refine ⟨?_, onlyNoted_dispatch h⟩
    rw [sessionAfter, session_dispatch, taken?_of_not_added h.not_added]
    rfl

private theorem sessionAfter_of_bound {exchange : Exchange σ} {id : UInt32}
    (h : exchange.session.state.realm = some id) : exchange.sessionAfter = exchange.session := by
  rw [sessionAfter, session_dispatch, taken?_of_bound h]
  rfl

/-- A session with a realm turns every registration down. -/
theorem refused_of_bound {exchange : Exchange σ} {id : UInt32}
    (h : exchange.session.state.realm = some id)
    (hopcode : exchange.envelope.opcode = .registeringRequest) :
    exchange.reply = some (Session.answer false) := by
  rw [reply, reply_dispatch, if_pos hopcode, taken?_of_bound h]
  rfl

private theorem unbound_of_added {exchange : Exchange σ} (h : exchange.IsAdded) :
    exchange.session.state.realm = none :=
  (exchange.regular.added_iff.mp h).2.1

/-- A session that was told yes is bound to the realm it asked for. -/
theorem bound_of_added {exchange : Exchange σ} (h : exchange.IsAdded) :
    ∃ registration trailing,
      Registration.decode exchange.envelope.payload = .ok (registration, trailing) ∧
      exchange.sessionAfter = exchange.session.withRealm registration.id := by
  obtain ⟨-, -, registration, trailing, hdecode, -⟩ := exchange.regular.added_iff.mp h
  exact ⟨registration, trailing, hdecode, exchange.regular.bound h hdecode⟩

/-- An envelope that leaves the session without a realm came to nothing. -/
theorem inert_of_unbound {exchange : Exchange σ}
    (h : exchange.sessionAfter.state.realm = none) : exchange.Inert := by
  have hunbound : exchange.session.state.realm = none := by
    cases hrealm : exchange.session.state.realm with
    | none => rfl
    | some id =>
      rw [sessionAfter_of_bound hrealm, hrealm] at h
      cases h
  refine exchange.regular.inert (.unregistered hunbound fun hadded => ?_)
  obtain ⟨registration, trailing, -, hafter⟩ := bound_of_added hadded
  rw [hafter] at h
  cases h

end Exchange

section Run

variable [Transport σ]

/-- The envelopes of a session in the order of their dispatch, each with what it found. -/
def exchanges (session : Session) (hub : Hub σ) : List (Incoming σ) → List (Exchange σ)
  | [] => []
  | incoming :: rest =>
    let state := { session.state with timers := incoming.timers }
    let exchange : Exchange σ := ⟨incoming.toTurn, { session with state }, incoming.others hub⟩
    exchange :: exchange.sessionAfter.exchanges exchange.hubAfter rest

/-- No envelope finds a session without the realm that it had before. -/
theorem bound_exchanges {id : UInt32} (h : session.state.realm = some id) (hub : Hub σ)
    (incoming : List (Incoming σ)) :
    ∀ exchange ∈ session.exchanges hub incoming, exchange.session.state.realm = some id := by
  induction incoming generalizing session hub with
  | nil => exact List.forall_mem_nil _
  | cons first rest ih =>
    rintro exchange (_ | ⟨_, hmem⟩)
    · exact h
    · refine ih ?_ _ exchange hmem
      rw [Exchange.sessionAfter_of_bound h]
      exact h

/-- The realm that an envelope leaves the session with is what every later one finds. -/
theorem pairwise_exchanges (session : Session) (hub : Hub σ) (incoming : List (Incoming σ)) :
    (session.exchanges hub incoming).Pairwise fun earlier later =>
      ∀ id, earlier.sessionAfter.state.realm = some id → later.session.state.realm = some id := by
  induction incoming generalizing session hub with
  | nil => exact List.Pairwise.nil
  | cons first rest ih =>
    refine List.pairwise_cons.mpr ⟨fun later hlater id hid => ?_, ih _ _⟩
    exact bound_exchanges hid _ rest later hlater

/-- What is answered with added finds a session that no earlier envelope left with a realm. -/
theorem pairwise_unbound (session : Session) (hub : Hub σ) (incoming : List (Incoming σ)) :
    (session.exchanges hub incoming).Pairwise fun earlier later =>
      later.IsAdded → earlier.sessionAfter.state.realm = none := by
  refine (session.pairwise_exchanges hub incoming).imp fun hkept hadded => ?_
  refine Option.eq_none_iff_forall_ne_some.mpr fun id hid => ?_
  cases (hkept id hid).symm.trans (Exchange.unbound_of_added hadded)

/-- The envelopes of a session register one realm at most, and the session keeps it. -/
structure OneShot (exchanges : List (Exchange σ)) : Prop where
  regular : ∀ exchange ∈ exchanges, exchange.Regular
  /-- At most one envelope is answered with added. -/
  once : exchanges.Pairwise fun earlier later => ¬(earlier.IsAdded ∧ later.IsAdded)
  /-- The envelopes before that one came to nothing. -/
  before : ∀ {earlier exchange later}, exchanges = earlier ++ exchange :: later →
    exchange.IsAdded → ∀ other ∈ earlier, other.Inert
  /-- From then on the session has the realm that it asked for, and every registration comes to
  nothing. -/
  since : ∀ {earlier exchange later}, exchanges = earlier ++ exchange :: later →
    exchange.IsAdded → ∃ registration trailing,
      Registration.decode exchange.envelope.payload = .ok (registration, trailing) ∧
      exchange.sessionAfter = exchange.session.withRealm registration.id ∧
      ∀ other ∈ later, other.session.state.realm = some registration.id ∧
        other.sessionAfter = other.session ∧
        (other.envelope.opcode = .registeringRequest →
          other.reply = some (answer false) ∧ other.Inert)

/-- Whatever the session is sent, and whatever others make of the hub in between. -/
theorem oneShot_exchanges (session : Session) (hub : Hub σ) (incoming : List (Incoming σ)) :
    OneShot (session.exchanges hub incoming) := by
  have hkept := session.pairwise_exchanges hub incoming
  have hunbound := session.pairwise_unbound hub incoming
  refine ⟨fun exchange _ => exchange.regular, hunbound.imp ?_, ?_, ?_⟩
  · rintro earlier later hnone ⟨hearlier, hlater⟩
    obtain ⟨registration, trailing, -, hafter⟩ := Exchange.bound_of_added hearlier
    cases (hnone hlater).symm.trans (congrArg (·.state.realm) hafter)
  · intro earlier exchange later heq hadded other hmem
    rw [heq] at hunbound
    have hnone := (List.pairwise_append.mp hunbound).2.2 other hmem exchange List.mem_cons_self
    exact Exchange.inert_of_unbound (hnone hadded)
  · intro earlier exchange later heq hadded
    rw [heq] at hkept
    obtain ⟨registration, trailing, hdecode, hafter⟩ := Exchange.bound_of_added hadded
    refine ⟨registration, trailing, hdecode, hafter, fun other hmem => ?_⟩
    have hlater := (List.pairwise_cons.mp (List.pairwise_append.mp hkept).2.1).1 other hmem
    have hrealm : other.session.state.realm = some registration.id :=
      hlater registration.id (by rw [hafter]; rfl)
    refine ⟨hrealm, Exchange.sessionAfter_of_bound hrealm, fun hopcode => ?_⟩
    have hrefused := Exchange.refused_of_bound hrealm hopcode
    exact ⟨hrefused, other.regular.inert (.refused hrefused)⟩

/-- Something malformed, a registration, and the same again after the realm was removed. -/
example :
    let (session, hub) := Session.start ⟨.v4 10 0 0 5, 41000, 0⟩ (Hub.start Mailboxes.empty)
    let registration : Registration :=
      ⟨7, "Realm 7", 8085, 200, 50, .player, ⟨0⟩, .normal, .english, []⟩
    let request : Turn := ⟨⟨.registeringRequest, registration.encode.toOption.getD []⟩, 0⟩
    let removed (hub : Hub Mailboxes) : Hub Mailboxes := (hub.remove 7).2
    (session.exchanges hub [⟨⟨⟨.registeringRequest, [7]⟩, 0⟩, id, none⟩, ⟨request, id, none⟩,
      ⟨request, removed, none⟩]).map (·.reply) =
        [some (answer false), some (answer true), some (answer false)] := by
  decide +kernel

end Run

end Session

end RealmDirectory
