import RealmDirectory.Proofs.Harvest.Round
import RealmDirectory.Session

/-!
# The standing of a realm

The standing of a realm is all that depends on the connections: the link that registered it, and
whether it is marked online. This module says what each operation and each envelope does to the
standings. Only two things change one. An accepted registration enters the realm, online whatever
its flags say, under the link of the session; and a release takes the realm of that very link
offline. Status reports, log lines, the admin side and the harvester leave every standing as it is.

## Main results

* `Hub.steady_run_of_isAside`, `Hub.steady_harvestAmid` — calls that change no standing.
* `Session.dispatch_cases` — an envelope enters one realm, or changes no standing.
* `Hub.standing?_release` — what a release changes.
-/

namespace RealmDirectory

/-! ## The offline mark -/

namespace RealmFlags

theorem isOffline_setOnline (flags : RealmFlags) (online : Bool) :
    (flags.setOnline online).isOffline = !online := by
  cases online with
  | true =>
    have hclear : flags.bits &&& ~~~offline.bits &&& offline.bits = 0 := by
      rw [UInt8.and_assoc]
      exact UInt8.and_zero
    show (flags.bits &&& ~~~offline.bits &&& offline.bits == offline.bits) = false
    rw [hclear]
    rfl
  | false =>
    have hset : (flags.bits ||| offline.bits) &&& offline.bits = offline.bits := by
      apply UInt8.toBitVec_inj.mp
      apply BitVec.eq_of_getElem_eq
      intro i hi
      simp only [UInt8.toBitVec_and, UInt8.toBitVec_or, BitVec.getElem_and, BitVec.getElem_or]
      cases offline.bits.toBitVec[i] with
      | false => exact Bool.and_false _
      | true => rw [Bool.or_true, Bool.and_true]
    show ((flags.bits ||| offline.bits) &&& offline.bits == offline.bits) = true
    rw [hset]
    rfl

/-- No reported byte decides the offline mark. -/
theorem isOffline_report (current reported : RealmFlags) :
    (current.report reported).isOffline = current.isOffline := by
  rw [report, isOffline_setOnline, Bool.not_not]

end RealmFlags

/-! ## Standings -/

/-- Who registered a realm, and whether it is marked online. -/
structure Standing where
  owner : Option LinkId
  online : Bool
  deriving DecidableEq, Repr

namespace Standing

/-- The link that registered the realm is still served. -/
def isHeld (standing : Standing) (links : Links) : Bool := standing.owner.any links.isLive

/-- A link gives the realm up; only the one that registered it can. -/
def leave (standing : Standing) (link : LinkId) : Standing :=
  if standing.owner = some link then { standing with online := false } else standing

end Standing

namespace RealmRecord

def standing (record : RealmRecord) : Standing := ⟨record.owner, record.isOnline⟩

private theorem standing_setOnline (record : RealmRecord) (online : Bool) :
    (record.setOnline online).standing = ⟨record.owner, online⟩ := by
  unfold standing isOnline setOnline
  rw [RealmFlags.isOffline_setOnline, Bool.not_not]

private theorem standing_entering (record : RealmRecord) (previous : Option RealmRecord) :
    (record.entering previous).standing = ⟨record.owner, true⟩ := by
  rw [← record.standing_setOnline true]
  cases previous <;> rfl

private theorem standing_report (record : RealmRecord) (status : StatusReport) :
    (record.report status).standing = record.standing := by
  unfold standing isOnline report
  rw [RealmFlags.isOffline_report]

private theorem standing_append (record : RealmRecord) (line : LogLine) (now : Instant) :
    (record.append line now).standing = record.standing := rfl

end RealmRecord

namespace RealmTable

/-- The standing of a realm, if it is there. -/
def standing? (table : RealmTable) (id : UInt32) : Option Standing :=
  (table.find? id).map (·.standing)

/-- A change to one record, seen through the standings. -/
theorem standing?_adjust (table : RealmTable) (id other : UInt32)
    {change : RealmRecord → RealmRecord} (effect : Standing → Standing)
    (hid : ∀ record, (change record).id = record.id)
    (heffect : ∀ record, (change record).standing = effect record.standing) :
    (table.adjust id change).standing? other =
      if other = id then (table.standing? id).map effect else table.standing? other := by
  unfold standing?
  rw [find?_adjust _ _ _ hid]
  split
  · rw [Option.map_map, Option.map_map]
    congr 1
    funext record
    exact heffect record
  · rfl

private theorem standing?_adjust_of_kept (table : RealmTable) (id other : UInt32)
    {change : RealmRecord → RealmRecord} (hid : ∀ record, (change record).id = record.id)
    (hkept : ∀ record, (change record).standing = record.standing) :
    (table.adjust id change).standing? other = table.standing? other := by
  rw [table.standing?_adjust id other (fun standing => standing) hid hkept, Option.map_id']
  split
  · next heq => rw [heq]
  · rfl

/-- A realm that is entered stands online under its new owner, and no other changes. -/
theorem standing?_put_entering (table : RealmTable) (record : RealmRecord)
    (previous : Option RealmRecord) (other : UInt32) :
    (table.put (record.entering previous)).standing? other =
      if other = record.id then some ⟨record.owner, true⟩ else table.standing? other := by
  unfold standing?
  rw [find?_put, RealmRecord.id_entering]
  by_cases h : other = record.id
  · rw [if_pos h, if_pos h.symm, Option.map_some, RealmRecord.standing_entering]
  · rw [if_neg h, if_neg (Ne.symm h)]

end RealmTable

/-! ## Calls -/

variable {σ : Type}

namespace Hub

/-- No standing changed, and no link. -/
structure Steady (before after : Hub σ) : Prop where
  links_eq : after.links = before.links
  standing?_eq : ∀ id, after.realms.standing? id = before.realms.standing? id

/-- A link entered a realm that no served link held. -/
structure Enters (before after : Hub σ) (id : UInt32) (link : LinkId) : Prop where
  links_eq : after.links = before.links
  vacant : ∀ {standing}, before.realms.standing? id = some standing →
    standing.isHeld before.links = false
  standing?_eq : ∀ other, after.realms.standing? other =
    if other = id then some ⟨some link, true⟩ else before.realms.standing? other

theorem Steady.note {before after : Hub σ} (h : Steady before after) (notice : Notice) :
    Steady before (after.note notice) := ⟨h.links_eq, h.standing?_eq⟩

theorem Enters.note {before after : Hub σ} {id : UInt32} {link : LinkId}
    (h : Enters before after id link) (notice : Notice) :
    Enters before (after.note notice) id link := ⟨h.links_eq, h.vacant, h.standing?_eq⟩

private theorem Steady.of_note {before after : Hub σ} {notice : Notice}
    (h : Steady (before.note notice) after) : Steady before after := ⟨h.links_eq, h.standing?_eq⟩

private theorem Enters.of_note {before after : Hub σ} {notice : Notice} {id : UInt32}
    {link : LinkId} (h : Enters (before.note notice) after id link) : Enters before after id link :=
  ⟨h.links_eq, h.vacant, h.standing?_eq⟩

end Hub

/-- The operation neither registers a realm nor marks or drops one. -/
def Operation.isAside : Operation → Bool
  | register _ => false
  | setOnline _ _ => false
  | release _ _ => false
  | remove _ => false
  | _ => true

variable [Transport σ]

namespace Hub

/-- Calls that are aside change nobody's standing. -/
theorem steady_run_of_isAside (hub : Hub σ) {op : Operation} (h : op.isAside = true) :
    hub.Steady (op.run hub) := by
  obtain ⟨hrealms, hlinks⟩ := op.registry_run hub
  refine ⟨hlinks, fun other => ?_⟩
  rw [hrealms]
  cases op with
  | report id status =>
    exact RealmTable.standing?_adjust_of_kept _ _ _ (fun _ => rfl) fun record =>
      record.standing_report status
  | append id line now =>
    exact RealmTable.standing?_adjust_of_kept _ _ _ (fun _ => rfl) fun _ => rfl
  | clearLog id => exact RealmTable.standing?_adjust_of_kept _ _ _ (fun _ => rfl) fun _ => rfl
  | login sink current => rfl
  | evict session => rfl
  | register record => cases h
  | setOnline id online => cases h
  | release id link => cases h
  | remove id => cases h

/-- A round of the harvester changes nobody's standing. -/
theorem steady_harvestAmid (hub : Hub σ) (arrivals : Arrivals) :
    hub.Steady (hub.harvestAmid arrivals).hub :=
  ⟨hub.links_harvestAmid arrivals,
    hub.map_find?_harvestAmid RealmRecord.standing_append (fun _ _ => rfl) arrivals⟩

/-- A release takes the realm offline if it is its owner who releases it. -/
theorem standing?_release (hub : Hub σ) (id other : UInt32) (link : LinkId) :
    (hub.release id link).2.realms.standing? other =
      if other = id then (hub.realms.standing? id).map (·.leave link)
      else hub.realms.standing? other := by
  rw [(hub.registry_release id link).1]
  refine RealmTable.standing?_adjust _ _ _ (·.leave link) (fun record => ?_) fun record => ?_
  · split <;> rfl
  · unfold Standing.leave
    by_cases howned : record.standing.owner = some link
    · have hown : record.isOwnedBy link = true := beq_iff_eq.mpr howned
      rw [if_pos hown, if_pos howned]
      exact record.standing_setOnline false
    · have hown : ¬record.isOwnedBy link = true := fun h => howned (beq_iff_eq.mp h)
      rw [if_neg hown, if_neg howned]

end Hub

/-! ## Envelopes -/

namespace Session

/-- The realm that a payload registers, given the reply. -/
def accepted? (payload : List UInt8) (reply : Option Envelope) : Option UInt32 :=
  if reply = some (answer true) then (Registration.decode payload).toOption.map (·.1.id) else none

omit [Transport σ] in
private theorem steady_ifRegistered (session : Session) (opcode : RealmOpcode) (hub : Hub σ)
    {use : UInt32 → Hub σ} (huse : ∀ id, hub.Steady (use id)) :
    hub.Steady (session.ifRegistered opcode hub use) := by
  unfold ifRegistered
  cases session.state.realm with
  | none => exact ⟨rfl, fun _ => rfl⟩
  | some id => exact huse id

/-- A report does not say whether its realm is online. -/
theorem steady_report (id : UInt32) (payload : List UInt8) (hub : Hub σ) :
    hub.Steady (report id payload hub) := by
  unfold report
  cases StatusReport.read.decode payload with
  | error cause => exact ⟨rfl, fun _ => rfl⟩
  | ok status =>
    have haside : (Operation.report id status).isAside = true := rfl
    have hsteady : hub.Steady (hub.report id status).2 := hub.steady_run_of_isAside haside
    dsimp only
    cases hreport : hub.report id status with
    | mk answer after =>
      rw [hreport] at hsteady
      cases answer with
      | ok _ => exact hsteady
      | error cause => exact Hub.Steady.note hsteady _

theorem steady_append (id : UInt32) (payload : List UInt8) (now : Instant) (hub : Hub σ) :
    hub.Steady (append id payload now hub) := by
  unfold append
  cases LogLine.read.decode payload with
  | error cause => exact ⟨rfl, fun _ => rfl⟩
  | ok line =>
    have haside : (Operation.append id line now).isAside = true := rfl
    have hsteady : hub.Steady (hub.append id line now).2 := hub.steady_run_of_isAside haside
    dsimp only
    cases happend : hub.append id line now with
    | mk answer after =>
      rw [happend] at hsteady
      cases answer with
      | ok _ => exact hsteady
      | error cause => exact Hub.Steady.note hsteady _

theorem answer_false_ne : some (answer false) ≠ some (answer true) := by decide

/-- A session without a realm offers one to the table: refused, or entered and bound. -/
theorem enroll_cases {session : Session} (hunbound : session.state.realm = none)
    (registration : Registration) (hub : Hub σ) :
    ((session.enroll registration hub).1 = answer false ∧
      (session.enroll registration hub).2.1 = session ∧
      hub.Steady (session.enroll registration hub).2.2) ∨
    ((session.enroll registration hub).1 = answer true ∧
      (session.enroll registration hub).2.1 =
        { session with state := { session.state with realm := some registration.id } } ∧
      hub.Enters (session.enroll registration hub).2.2 registration.id session.link) := by
  unfold enroll
  dsimp only
  rcases hub.register_cases
      (.ofRegistration registration session.peer.address.toText (some session.link)) with
    ⟨existing, hfind, hlive, heq⟩ | ⟨hvacant, outcome, heq⟩
  · rw [heq]
    exact Or.inl ⟨rfl, rfl, rfl, fun _ => rfl⟩
  · rw [heq]
    refine Or.inr ⟨rfl, ?_, ?_⟩
    · unfold SessionState.bind
      rw [hunbound]
      rfl
    · refine Hub.Enters.note ⟨by simp, ?_, fun other => ?_⟩ _
      · intro standing hstanding
        obtain ⟨existing, hfind, rfl⟩ := Option.map_eq_some_iff.mp hstanding
        exact hvacant existing hfind
      · simp only [Hub.registry_announce, Hub.registry_note]
        exact RealmTable.standing?_put_entering _ _ _ _

/-- A session without a realm decodes a registration; bytes behind it are noted and ignored. -/
theorem register_cases {session : Session} (hunbound : session.state.realm = none)
    {payload : List UInt8} {registration : Registration} {trailing : Nat}
    (hdecode : Registration.decode payload = .ok (registration, trailing)) (hub : Hub σ) :
    ((session.register payload hub).1 = answer false ∧
      (session.register payload hub).2.1 = session ∧
      hub.Steady (session.register payload hub).2.2) ∨
    ((session.register payload hub).1 = answer true ∧
      (session.register payload hub).2.1 =
        { session with state := { session.state with realm := some registration.id } } ∧
      hub.Enters (session.register payload hub).2.2 registration.id session.link) := by
  unfold register
  rw [hunbound, hdecode]
  cases trailing with
  | zero => exact enroll_cases hunbound registration hub
  | succ count =>
    exact (enroll_cases hunbound registration (hub.note _)).imp
      (fun ⟨hreply, hsession, hsteady⟩ => ⟨hreply, hsession, hsteady.of_note⟩)
      fun ⟨hreply, hsession, henters⟩ => ⟨hreply, hsession, henters.of_note⟩

/-- An envelope enters a realm that the session is bound to from then on, or it changes no
standing, no link and not the session. -/
theorem dispatch_cases (session : Session) (envelope : Envelope) (now : Instant) (hub : Hub σ) :
    (∃ id, accepted? envelope.payload (session.dispatch envelope now hub).1 = some id ∧
      session.state.realm = none ∧
      (session.dispatch envelope now hub).2.1 =
        { session with state := { session.state with realm := some id } } ∧
      hub.Enters (session.dispatch envelope now hub).2.2 id session.link) ∨
    (accepted? envelope.payload (session.dispatch envelope now hub).1 = none ∧
      (session.dispatch envelope now hub).2.1 = session ∧
      hub.Steady (session.dispatch envelope now hub).2.2) := by
  have hsilent : accepted? envelope.payload none = none := rfl
  have hrefused : accepted? envelope.payload (some (answer false)) = none :=
    if_neg answer_false_ne
  unfold dispatch
  split
  · cases hrealm : session.state.realm with
    | some id =>
      unfold register
      rw [hrealm]
      exact Or.inr ⟨hrefused, rfl, rfl, fun _ => rfl⟩
    | none =>
      cases hdecode : Registration.decode envelope.payload with
      | error cause =>
        unfold register
        rw [hrealm, hdecode]
        exact Or.inr ⟨hrefused, rfl, rfl, fun _ => rfl⟩
      | ok decoded =>
        rcases register_cases hrealm hdecode hub with
          ⟨hreply, hsession, hsteady⟩ | ⟨hreply, hsession, henters⟩
        · refine Or.inr ⟨?_, hsession, hsteady⟩
          show accepted? envelope.payload (some (session.register envelope.payload hub).1) = none
          rw [hreply]
          exact hrefused
        · refine Or.inl ⟨decoded.1.id, ?_, rfl, hsession, henters⟩
          show accepted? envelope.payload (some (session.register envelope.payload hub).1) = _
          rw [hreply, accepted?, if_pos rfl, hdecode]
          rfl
  · exact Or.inr ⟨hsilent, rfl, session.steady_ifRegistered _ _ fun id => steady_report id _ hub⟩
  · exact Or.inr ⟨hsilent, rfl, session.steady_ifRegistered _ _ fun id => steady_append id _ _ hub⟩
  · exact Or.inr ⟨hsilent, rfl, rfl, fun _ => rfl⟩
  · exact Or.inr ⟨hsilent, rfl, rfl, fun _ => rfl⟩

end Session

end RealmDirectory
