import RealmDirectory.Proofs.Session.Roster

/-!
# Whose record a connection writes to

A status report or a log line goes to the realm its connection is bound to, whatever record that
realm has by now. A connection stays bound for good, so what keeps it away from the records of
others is that nobody else can register its realm as long as it is served. Removing the realm takes
that away: the connection stays bound, the realm is free, and whoever registers it next gets a
record that the first connection goes on writing to.

A `Tenure` is a roster whose realms can be removed at any moment, with the connections that lost
their realm in this way. A served connection owns the record it writes to if it is none of these,
and otherwise it does not.

## Main results

* `Roster.Tenured.step` and its siblings — the invariant, one step.
* `Tenure.writes_run` — what a status report or a log line changes after any run, and whose record
  that is.
-/

namespace RealmDirectory

/-! ## Owners -/

namespace RealmTable

/-- The link that registered a realm, if the realm is there. -/
def owner? (table : RealmTable) (id : UInt32) : Option LinkId :=
  (table.standing? id).bind (·.owner)

private theorem owner?_eq_some_iff {table : RealmTable} {id : UInt32} {record : RealmRecord}
    {link : LinkId} (h : table.find? id = some record) :
    table.owner? id = some link ↔ record.isOwnedBy link = true := by
  unfold owner? standing?
  rw [h]
  exact beq_iff_eq.symm

/-- To change nothing in a record changes nothing. -/
theorem adjust_self (table : RealmTable) (id : UInt32) :
    (table.adjust id fun record => record) = table := by
  unfold adjust
  cases hfind : table.find? id with
  | none => rfl
  | some record => exact put_self hfind

end RealmTable

namespace Hub

variable {σ : Type} {before after : Hub σ}

private theorem Steady.owner?_eq (h : before.Steady after) (id : UInt32) :
    after.realms.owner? id = before.realms.owner? id :=
  congrArg (fun standing? => standing?.bind Standing.owner) (h.standing?_eq id)

private theorem Enters.owner?_eq {id : UInt32} {link : LinkId} (h : before.Enters after id link)
    (other : UInt32) :
    after.realms.owner? other = if other = id then some link else before.realms.owner? other := by
  unfold RealmTable.owner?
  rw [h.standing?_eq]
  split <;> rfl

private theorem Enters.isLive_owner {id : UInt32} {link holder : LinkId}
    (h : before.Enters after id link) (howner : before.realms.owner? id = some holder) :
    before.links.isLive holder = false := by
  obtain ⟨standing, hstanding, hholder⟩ := Option.bind_eq_some_iff.mp howner
  have hheld := h.vacant hstanding
  unfold Standing.isHeld at hheld
  rw [hholder] at hheld
  exact hheld

private theorem owner?_remove (hub : Hub σ) (id other : UInt32) :
    (hub.remove id).2.realms.owner? other =
      if other = id then none else hub.realms.owner? other := by
  rw [(hub.registry_remove id).1]
  unfold RealmTable.owner? RealmTable.standing?
  rw [RealmTable.find?_erase]
  split <;> rfl

private theorem owner?_release [Transport σ] (hub : Hub σ) (id other : UInt32) (link : LinkId) :
    (hub.release id link).2.realms.owner? other = hub.realms.owner? other := by
  unfold RealmTable.owner?
  rw [standing?_release]
  split
  · next heq =>
    rw [heq, Option.bind_map]
    congr 1
    funext standing
    show (standing.leave link).owner = standing.owner
    unfold Standing.leave
    split <;> rfl
  · rfl

end Hub

/-! ## The invariant -/

namespace Roster

variable {σ : Type}

/-- The links are those of the connections, and the served ones are live. A served connection owns
the record of its realm, except that those who lost their realm own none. -/
structure Tenured (roster : Roster σ) (lost : List LinkId) : Prop where
  size_eq : roster.hub.links.all.size = roster.members.length
  link_eq : ∀ {link : LinkId} {member : Member}, roster.members[link]? = some member →
    member.session.link = link
  live : ∀ {link : LinkId} {member : Member}, roster.members[link]? = some member →
    member.stage = .served → roster.hub.links.isLive link = true
  bound : ∀ {link : LinkId}, link ∈ lost → ∃ member id, roster.members[link]? = some member ∧
    member.session.state.realm = some id
  kept : ∀ {link : LinkId} {member : Member} {id : UInt32}, roster.members[link]? = some member →
    member.stage = .served → member.session.state.realm = some id → link ∉ lost →
    roster.hub.realms.owner? id = some link
  gone : ∀ {link : LinkId} {member : Member} {id : UInt32}, roster.members[link]? = some member →
    member.session.state.realm = some id → link ∈ lost →
    roster.hub.realms.owner? id ≠ some link

section Steps

variable {roster : Roster σ} {lost : List LinkId} {link : LinkId} {member : Member}

/-- The connections bound to a realm. -/
def boundTo (roster : Roster σ) (id : UInt32) : List LinkId :=
  (List.range roster.members.length).filter fun link =>
    (roster.members[link]?.bind (·.session.state.realm)) = some id

private theorem mem_boundTo {id : UInt32} :
    link ∈ roster.boundTo id ↔
      ∃ member, roster.members[link]? = some member ∧ member.session.state.realm = some id := by
  unfold boundTo
  rw [List.mem_filter, decide_eq_true_iff, Option.bind_eq_some_iff, List.mem_range]
  constructor
  · exact fun ⟨_, hbound⟩ => hbound
  · intro hbound
    obtain ⟨member, hmember, hrealm⟩ := hbound
    obtain ⟨hlt, -⟩ := List.getElem?_eq_some_iff.mp hmember
    exact ⟨hlt, member, hmember, hrealm⟩

private theorem tenured_start (transport : σ) : (start transport).Tenured [] where
  size_eq := rfl
  link_eq := nofun
  live := nofun
  bound := nofun
  kept := nofun
  gone := nofun

/-- Only the links and the owners in the hub matter. -/
theorem Tenured.hub (h : roster.Tenured lost) {hub : Hub σ} (hlinks : hub.links = roster.hub.links)
    (howner : ∀ id, hub.realms.owner? id = roster.hub.realms.owner? id) :
    ({ roster with hub } : Roster σ).Tenured lost where
  size_eq := by rw [← h.size_eq, ← hlinks]
  link_eq := h.link_eq
  live := fun hmember hserved => by
    rw [← h.live hmember hserved, ← hlinks]
  bound := h.bound
  kept := fun hmember hserved hrealm hkept => by
    rw [← h.kept hmember hserved hrealm hkept, ← howner]
  gone := fun hmember hrealm hlost => by
    rw [howner]
    exact h.gone hmember hrealm hlost

theorem Tenured.joined (h : roster.Tenured lost) (peer : Endpoint) :
    (roster.joined peer).Tenured lost := by
  have hfresh : ∀ {link : LinkId} {member : Member},
      (roster.joined peer).members[link]? = some member →
      roster.members[link]? = some member ∧ link ≠ roster.members.length ∨
        link = roster.members.length ∧
          member = ⟨⟨peer, roster.hub.links.all.size, SessionState.start⟩, .served⟩ :=
    getElem?_concat_cases
  refine
    { size_eq := ?_
      link_eq := fun hmember => ?_
      live := fun hmember hserved => ?_
      bound := fun hlost => ?_
      kept := fun hmember hserved hrealm hkept => ?_
      gone := fun hmember hrealm hlost => ?_ }
  · show (roster.hub.links.all.push _).size = (roster.members ++ [_]).length
    rw [Array.size_push, List.length_append, h.size_eq]
    rfl
  · rcases hfresh hmember with ⟨hold, -⟩ | ⟨rfl, rfl⟩
    · exact h.link_eq hold
    · exact h.size_eq
  · show (roster.hub.links.add peer).2.isLive _ = true
    rw [Links.isLive_add, h.size_eq]
    rcases hfresh hmember with ⟨hold, hne⟩ | ⟨rfl, -⟩
    · rw [if_neg hne]
      exact h.live hold hserved
    · rw [if_pos rfl]
  · obtain ⟨member, id, hmember, hrealm⟩ := h.bound hlost
    obtain ⟨hlt, -⟩ := List.getElem?_eq_some_iff.mp hmember
    exact ⟨member, id, (List.getElem?_append_left hlt).trans hmember, hrealm⟩
  · rcases hfresh hmember with ⟨hold, -⟩ | ⟨rfl, rfl⟩
    · exact h.kept hold hserved hrealm hkept
    · cases hrealm
  · rcases hfresh hmember with ⟨hold, -⟩ | ⟨rfl, rfl⟩
    · exact h.gone hold hrealm hlost
    · cases hrealm

/-- A registration enters a realm that no served connection owned. -/
theorem Tenured.enrolled (h : roster.Tenured lost) (hmember : roster.members[link]? = some member)
    (hunbound : member.session.state.realm = none) {hub : Hub σ} {id : UInt32}
    (henters : roster.hub.Enters hub id link) :
    (roster.enrolled link member id hub).Tenured lost := by
  have hlookup : ∀ other, (roster.enrolled link member id hub).members[other]? =
      if other = link then
        some { member with session.state := { member.session.state with realm := some id } }
      else roster.members[other]? :=
    getElem?_set_member hmember _
  have hnew : link ∉ lost := by
    intro hlost
    obtain ⟨holder, realm, hholder, hrealm⟩ := h.bound hlost
    cases hholder.symm.trans hmember
    cases hrealm.symm.trans hunbound
  refine
    { size_eq := ?_
      link_eq := fun {other changed} hother => ?_
      live := fun {other changed} hother hserved => ?_
      bound := fun {other} hlost => ?_
      kept := fun {other changed realm} hother hserved hrealm hkept => ?_
      gone := fun {other changed realm} hother hrealm hlost => ?_ }
  · show hub.links.all.size = (roster.members.set link _).length
    rw [henters.links_eq, List.length_set]
    exact h.size_eq
  · rw [hlookup] at hother
    split at hother
    · next heq =>
      cases hother
      exact (h.link_eq hmember).trans heq.symm
    · exact h.link_eq hother
  · show hub.links.isLive other = true
    rw [henters.links_eq]
    rw [hlookup] at hother
    split at hother
    · next heq =>
      cases hother
      rw [heq]
      exact h.live hmember hserved
    · exact h.live hother hserved
  · obtain ⟨holder, realm, hholder, hrealm⟩ := h.bound hlost
    have hne : other ≠ link := fun heq => hnew (heq ▸ hlost)
    exact ⟨holder, realm, by rw [hlookup, if_neg hne, hholder], hrealm⟩
  · show hub.realms.owner? realm = some other
    rw [henters.owner?_eq]
    rw [hlookup] at hother
    by_cases hlink : other = link
    · rw [if_pos hlink] at hother
      cases hother
      cases hrealm
      rw [if_pos rfl, hlink]
    · rw [if_neg hlink] at hother
      have howner := h.kept hother hserved hrealm hkept
      -- The owner of the realm entered was not live, so it is not this served connection.
      have hne : realm ≠ id := by
        rintro rfl
        have hlive := h.live hother hserved
        rw [henters.isLive_owner howner] at hlive
        cases hlive
      rw [if_neg hne]
      exact howner
  · show hub.realms.owner? realm ≠ some other
    have hne : other ≠ link := fun heq => hnew (heq ▸ hlost)
    rw [hlookup, if_neg hne] at hother
    rw [henters.owner?_eq]
    split
    · exact fun heq => hne (Option.some.inj heq).symm
    · exact h.gone hother hrealm hlost

/-- A connection comes to a later stage, and all owners stay. -/
theorem Tenured.staged (h : roster.Tenured lost) (hmember : roster.members[link]? = some member)
    {stage : Stage} (hstage : stage ≠ .served) {hub : Hub σ}
    (hsize : hub.links.all.size = roster.hub.links.all.size)
    (hlive : ∀ other, other ≠ link → hub.links.isLive other = roster.hub.links.isLive other)
    (howner : ∀ id, hub.realms.owner? id = roster.hub.realms.owner? id) :
    (roster.staged link member stage hub).Tenured lost := by
  have hlookup : ∀ other, (roster.staged link member stage hub).members[other]? =
      if other = link then some { member with stage } else roster.members[other]? :=
    getElem?_set_member hmember _
  refine
    { size_eq := ?_
      link_eq := fun {other changed} hother => ?_
      live := fun {other changed} hother hserved => ?_
      bound := fun {other} hlost => ?_
      kept := fun {other changed realm} hother hserved hrealm hkept => ?_
      gone := fun {other changed realm} hother hrealm hlost => ?_ }
  · show hub.links.all.size = (roster.members.set link _).length
    rw [List.length_set]
    exact hsize.trans h.size_eq
  · rw [hlookup] at hother
    split at hother
    · next heq =>
      cases hother
      exact (h.link_eq hmember).trans heq.symm
    · exact h.link_eq hother
  · rw [hlookup] at hother
    split at hother
    · cases hother
      exact absurd hserved hstage
    · next hne => exact (hlive other hne).trans (h.live hother hserved)
  · obtain ⟨holder, realm, hholder, hrealm⟩ := h.bound hlost
    rw [hlookup]
    split
    · next heq =>
      rw [heq, hmember] at hholder
      cases hholder
      exact ⟨_, realm, rfl, hrealm⟩
    · exact ⟨holder, realm, hholder, hrealm⟩
  · rw [hlookup] at hother
    split at hother
    · cases hother
      exact absurd hserved hstage
    · exact (howner realm).trans (h.kept hother hserved hrealm hkept)
  · show hub.realms.owner? realm ≠ some other
    rw [howner]
    rw [hlookup] at hother
    split at hother
    · next heq =>
      cases hother
      rw [heq] at hlost ⊢
      exact h.gone hmember hrealm hlost
    · exact h.gone hother hrealm hlost

theorem Tenured.turn (h : roster.Tenured lost) {isTurn : Stage → Bool}
    {change : Member → Roster σ}
    (hchange : ∀ {member : Member}, roster.members[link]? = some member →
      (change member).Tenured lost) :
    (roster.turn link isTurn change).Tenured lost := by
  unfold Roster.turn
  split
  · exact h
  · next member hmember =>
    split
    · exact hchange hmember
    · exact h

/-- A link that leaves the served ones. -/
theorem Tenured.retired (h : roster.Tenured lost) (hmember : roster.members[link]? = some member)
    {stage : Stage} (hstage : stage ≠ .served) {state : LinkState} (hstate : state ≠ .live) :
    (roster.staged link member stage
      { roster.hub with
        links := roster.hub.links.setState member.session.link state }).Tenured lost := by
  refine h.staged hmember hstage (Links.size_setState _ _ _) (fun other hne => ?_) fun _ => rfl
  rw [Links.isLive_setState _ _ _ hstate, h.link_eq hmember, if_neg hne]

/-- The connections of a realm lose it. -/
theorem Tenured.removed (h : roster.Tenured lost) (id : UInt32) :
    ({ roster with hub := (roster.hub.remove id).2 } : Roster σ).Tenured
      (lost ++ roster.boundTo id) where
  size_eq := by
    rw [← h.size_eq, ← (roster.hub.registry_remove id).2]
  link_eq := h.link_eq
  live := fun hmember hserved => by
    rw [← h.live hmember hserved, ← (roster.hub.registry_remove id).2]
  bound := fun hlost => by
    rcases List.mem_append.mp hlost with hold | hnew
    · exact h.bound hold
    · obtain ⟨member, hmember, hrealm⟩ := mem_boundTo.mp hnew
      exact ⟨member, id, hmember, hrealm⟩
  kept := fun {link member realm} hmember hserved hrealm hkept => by
    rw [List.mem_append, not_or] at hkept
    have hne : realm ≠ id := fun heq =>
      hkept.2 (mem_boundTo.mpr ⟨member, hmember, hrealm.trans (congrArg some heq)⟩)
    rw [Hub.owner?_remove, if_neg hne]
    exact h.kept hmember hserved hrealm hkept.1
  gone := fun {link member realm} hmember hrealm hlost => by
    rw [Hub.owner?_remove]
    split
    · exact nofun
    next hne =>
    rcases List.mem_append.mp hlost with hold | hnew
    · exact h.gone hmember hrealm hold
    · obtain ⟨holder, hholder, hbound⟩ := mem_boundTo.mp hnew
      cases hholder.symm.trans hmember
      exact absurd (Option.some.inj (hrealm.symm.trans hbound)) hne

variable [Transport σ]

/-- A release does not change who owns a realm. -/
theorem Tenured.released (h : roster.Tenured lost)
    (hmember : roster.members[link]? = some member) :
    (roster.released link member).Tenured lost := by
  have hregistry : (member.session.release roster.hub).links = roster.hub.links ∧
      ∀ id, (member.session.release roster.hub).realms.owner? id =
        roster.hub.realms.owner? id := by
    unfold Session.release
    cases member.session.state.realm with
    | none => exact ⟨rfl, fun _ => rfl⟩
    | some id =>
      exact ⟨(roster.hub.registry_release id _).2, fun _ => roster.hub.owner?_release id _ _⟩
  refine h.staged hmember (by decide) ?_ (fun other _ => ?_) hregistry.2
  · rw [hregistry.1]
  · rw [hregistry.1]

/-- No step of the roster loses anybody a realm. -/
theorem Tenured.step (h : roster.Tenured lost) (step : RosterStep σ) :
    (roster.step step).Tenured lost := by
  cases step with
  | join peer => exact h.joined peer
  | dispatch link envelope now =>
    show (roster.turn link (· ≠ .released)
      fun member => roster.dispatched link member envelope now).Tenured lost
    apply h.turn
    intro member hmember
    rcases dispatched_cases hmember envelope now with
      ⟨id, hub, hunbound, henters, heq⟩ | ⟨hub, hsteady, heq⟩
    · rw [heq]
      rw [h.link_eq hmember] at henters
      exact h.enrolled hmember hunbound henters
    · rw [heq]
      exact h.hub hsteady.links_eq hsteady.owner?_eq
  | close link =>
    show (roster.turn link (· = .served) fun member => roster.closed link member).Tenured lost
    apply h.turn
    intro member hmember
    have hstage : Stage.closing ≠ .served := by decide
    have hstate : LinkState.closed ≠ .live := by decide
    exact h.retired hmember hstage hstate
  | release link =>
    show (roster.turn link (· = .closing) fun member => roster.released link member).Tenured lost
    apply h.turn
    intro member hmember
    exact h.released hmember
  | forget link =>
    show (roster.turn link (· = .released) fun member => roster.forgotten link member).Tenured lost
    apply h.turn
    intro member hmember
    have hstage : Stage.released ≠ .served := by decide
    have hstate : LinkState.gone ≠ .live := by decide
    exact h.retired hmember hstage hstate
  | aside op haside =>
    have hsteady := roster.hub.steady_run_of_isAside haside
    exact h.hub hsteady.links_eq hsteady.owner?_eq
  | harvest arrivals =>
    have hsteady := roster.hub.steady_harvestAmid arrivals
    exact h.hub hsteady.links_eq hsteady.owner?_eq
  | surroundings transport => exact h.hub rfl fun _ => rfl

end Steps

end Roster

/-! ## What an envelope writes -/

namespace Session

variable {σ : Type}

/-- A record after an envelope that its session passed on to it; what cannot be decoded, and what is
no status report or log line, leaves it as it is. -/
def written (envelope : Envelope) (now : Instant) (record : RealmRecord) : RealmRecord :=
  match envelope.opcode with
  | .statusUpdate =>
    match StatusReport.read.decode envelope.payload with
    | .error _ => record
    | .ok status => record.report status
  | .logMessage =>
    match LogLine.read.decode envelope.payload with
    | .error _ => record
    | .ok line => record.append line now
  | _ => record

theorem id_written (envelope : Envelope) (now : Instant) (record : RealmRecord) :
    (written envelope now record).id = record.id := by
  unfold written
  split
  · split <;> rfl
  · split <;> rfl
  · rfl

theorem realms_report [Transport σ] (id : UInt32) (payload : List UInt8) (now : Instant)
    (hub : Hub σ) :
    (report id payload hub).realms =
      hub.realms.adjust id (written ⟨.statusUpdate, payload⟩ now) := by
  unfold report written
  dsimp only
  cases StatusReport.read.decode payload with
  | error cause => exact (RealmTable.adjust_self _ _).symm
  | ok status =>
    dsimp only
    rw [← (hub.registry_report id status).1]
    rcases hub.report id status with ⟨_ | _, after⟩ <;> rfl

theorem realms_append (id : UInt32) (payload : List UInt8) (now : Instant) (hub : Hub σ) :
    (append id payload now hub).realms =
      hub.realms.adjust id (written ⟨.logMessage, payload⟩ now) := by
  unfold append written
  dsimp only
  cases LogLine.read.decode payload with
  | error cause => exact (RealmTable.adjust_self _ _).symm
  | ok line =>
    dsimp only
    rw [← (hub.registry_append id line now).1]
    rcases hub.append id line now with ⟨_ | _, after⟩ <;> rfl

/-- A status report or a log line changes at most the record of the realm that its session is bound
to, whoever registered that. -/
theorem find?_dispatch [Transport σ] (session : Session) {envelope : Envelope}
    (h : envelope.opcode = .statusUpdate ∨ envelope.opcode = .logMessage) (now : Instant)
    (hub : Hub σ) (id : UInt32) :
    (session.dispatch envelope now hub).2.2.realms.find? id =
      if session.state.realm = some id then (hub.realms.find? id).map (written envelope now)
      else hub.realms.find? id := by
  have hrealms : (session.dispatch envelope now hub).2.2.realms =
      session.state.realm.elim hub.realms fun realm =>
        hub.realms.adjust realm (written envelope now) := by
    obtain ⟨opcode, payload⟩ := envelope
    unfold dispatch ifRegistered
    rcases h with rfl | rfl
    · cases session.state.realm with
      | none => rfl
      | some realm => exact realms_report realm payload now hub
    · cases session.state.realm with
      | none => rfl
      | some realm => exact realms_append realm payload now hub
  rw [hrealms]
  cases session.state.realm with
  | none => rw [Option.elim_none, if_neg nofun]
  | some realm =>
    rw [Option.elim_some, RealmTable.find?_adjust _ _ _ (id_written envelope now)]
    by_cases hid : id = realm
    · rw [if_pos hid, if_pos (congrArg some hid.symm), hid]
    · rw [if_neg hid, if_neg fun heq => hid (Option.some.inj heq).symm]

end Session

/-! ## Runs -/

/-- A roster whose realms can be removed. -/
structure Tenure (σ : Type) where
  roster : Roster σ
  /-- The connections whose realm was removed while they were bound to it. -/
  lost : List LinkId

inductive TenureStep (σ : Type) where
  | roster (step : RosterStep σ)
  /-- A realm is dropped for good; no connection hears of it. -/
  | remove (id : UInt32)

namespace Tenure

variable {σ : Type}

def start (transport : σ) : Tenure σ := ⟨Roster.start transport, []⟩

variable [Transport σ]

/-- The roster after a step, and who lost a realm so far. -/
def step (tenure : Tenure σ) : TenureStep σ → Tenure σ
  | .roster step => { tenure with roster := tenure.roster.step step }
  | .remove id =>
    { roster := { tenure.roster with hub := (tenure.roster.hub.remove id).2 }
      lost := tenure.lost ++ tenure.roster.boundTo id }

def run (tenure : Tenure σ) (steps : List (TenureStep σ)) : Tenure σ := steps.foldl step tenure

/-- What a served connection writes with a status report or a log line, and whose record it is. -/
structure Writes (tenure : Tenure σ) : Prop where
  /-- The record of the realm the connection is bound to takes the envelope over, if there is one,
  and no other record changes. -/
  effect : ∀ {link : LinkId} {member : Member}, tenure.roster.members[link]? = some member →
    member.stage = .served → ∀ {envelope : Envelope},
    envelope.opcode = .statusUpdate ∨ envelope.opcode = .logMessage → ∀ now id,
    (tenure.step (.roster (.dispatch link envelope now))).roster.hub.realms.find? id =
      if member.session.state.realm = some id then
        (tenure.roster.hub.realms.find? id).map (Session.written envelope now)
      else tenure.roster.hub.realms.find? id
  /-- A record that changes belongs to the connection if and only if the realm was not removed since
  the connection registered it. -/
  owned_iff : ∀ {link : LinkId} {member : Member}, tenure.roster.members[link]? = some member →
    member.stage = .served → ∀ {envelope : Envelope},
    envelope.opcode = .statusUpdate ∨ envelope.opcode = .logMessage → ∀ now id,
    (tenure.step (.roster (.dispatch link envelope now))).roster.hub.realms.find? id ≠
      tenure.roster.hub.realms.find? id →
    member.session.state.realm = some id ∧
      ∃ record, tenure.roster.hub.realms.find? id = some record ∧
        (record.isOwnedBy link = true ↔ link ∉ tenure.lost)

variable {tenure : Tenure σ} {link : LinkId} {member : Member}

/-- After any run, `lost` names all who lost a realm. -/
theorem tenured_run (tenure : Tenure σ) (h : tenure.roster.Tenured tenure.lost)
    (steps : List (TenureStep σ)) :
    (tenure.run steps).roster.Tenured (tenure.run steps).lost := by
  induction steps generalizing tenure with
  | nil => exact h
  | cons step rest ih =>
    refine ih (tenure.step step) ?_
    cases step with
    | roster step => exact h.step step
    | remove id => exact h.removed id

private theorem find?_step_dispatch (hmember : tenure.roster.members[link]? = some member)
    (hserved : member.stage = .served) {envelope : Envelope}
    (h : envelope.opcode = .statusUpdate ∨ envelope.opcode = .logMessage) (now : Instant)
    (id : UInt32) :
    (tenure.step (.roster (.dispatch link envelope now))).roster.hub.realms.find? id =
      if member.session.state.realm = some id then
        (tenure.roster.hub.realms.find? id).map (Session.written envelope now)
      else tenure.roster.hub.realms.find? id := by
  rw [← member.session.find?_dispatch h]
  show (tenure.roster.turn link (· ≠ .released) _).hub.realms.find? id = _
  unfold Roster.turn
  rw [hmember]
  dsimp only
  rw [hserved]
  rfl

omit [Transport σ] in
/-- A served connection owns the record of its realm as long as it has not lost it. -/
theorem owner_iff (h : tenure.roster.Tenured tenure.lost)
    (hmember : tenure.roster.members[link]? = some member) (hserved : member.stage = .served)
    {id : UInt32} (hrealm : member.session.state.realm = some id) {record : RealmRecord}
    (hfind : tenure.roster.hub.realms.find? id = some record) :
    record.isOwnedBy link = true ↔ link ∉ tenure.lost := by
  rw [← RealmTable.owner?_eq_some_iff hfind]
  exact ⟨fun howner hlost => h.gone hmember hrealm hlost howner,
    h.kept hmember hserved hrealm⟩

/-- After any steps of any connections and any removals, in any order. -/
theorem writes_run (transport : σ) (steps : List (TenureStep σ)) :
    ((start transport).run steps).Writes := by
  have htenured := tenured_run (start transport) (Roster.tenured_start transport) steps
  refine ⟨fun hmember hserved _ h => find?_step_dispatch hmember hserved h, ?_⟩
  intro link member hmember hserved envelope h now id hchanged
  rw [find?_step_dispatch hmember hserved h] at hchanged
  split at hchanged
  case isFalse => exact absurd rfl hchanged
  case isTrue hrealm =>
    refine ⟨hrealm, ?_⟩
    cases hfind : ((start transport).run steps).roster.hub.realms.find? id with
    | none =>
      rw [hfind] at hchanged
      exact absurd rfl hchanged
    | some record => exact ⟨record, rfl, owner_iff htenured hmember hserved hrealm hfind⟩

/-- Realm 7 is registered by one connection, removed, and registered by another one. -/
def drift : List (TenureStep Mailboxes) :=
  let registration : Registration :=
    ⟨7, "Realm 7", 8085, 200, 50, .player, ⟨0⟩, .normal, .english, []⟩
  let envelope : Envelope := ⟨.registeringRequest, registration.encode.toOption.getD []⟩
  [.roster (.join ⟨.v4 10 0 0 5, 41000, 0⟩), .roster (.join ⟨.v4 10 0 0 6, 41000, 0⟩),
    .roster (.dispatch 0 envelope 0), .remove 7, .roster (.dispatch 1 envelope 0)]

/-- The first connection, still served, changes the record that the second one owns. -/
theorem written_by_stranger :
    let tenure := (start Mailboxes.empty).run drift
    let report : Envelope := ⟨.statusUpdate, StatusReport.encode ⟨⟨0⟩, ⟨5⟩⟩⟩
    let after := tenure.step (.roster (.dispatch 0 report 0))
    tenure.roster.members[0]?.map (·.stage) = some .served ∧
      (tenure.roster.hub.realms.find? 7).map (fun record =>
        (record.info.population, record.isOwnedBy 0, record.isOwnedBy 1)) =
          some (Binary32.share 50 200, false, true) ∧
      (after.roster.hub.realms.find? 7).map (·.info.population) = some ⟨5⟩ := by
  decide +kernel

end Tenure

end RealmDirectory
