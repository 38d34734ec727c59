import RealmDirectory.Hub.Mailbox
import RealmDirectory.Proofs.Session.Standing

/-!
# Which connections keep the realms online

A `Roster` is a hub with all connections that realm servers ever made to it. A connection joins,
dispatches envelopes, is closed, and gives its realm up later, in a step of its own; the steps of
different connections come in any order, with calls that are no connection's business between
them. Beside the connections the roster keeps who registered which realm, the latest first, as the
replies told it.

What the hub knows of a realm follows from that list alone: the owner of the record is whoever
registered the realm last, and the realm is online until that connection has given it up. That a
realm has one served connection at most rests on the other half of the invariant, that a served
connection bound to a realm is the one that registered it last: a registration is refused as long
as that connection is served.

## Main results

* `Consistent.step` — the invariant, one step.
* `Roster.presence_run` — what holds after any run.
-/

namespace RealmDirectory

/-! ## Links -/

namespace Links

theorem isLive_add (links : Links) (peer : Endpoint) (id : LinkId) :
    (links.add peer).2.isLive id = if id = links.all.size then true else links.isLive id := by
  unfold isLive state? add
  rw [Array.getElem?_push]
  by_cases h : id = links.all.size
  · rw [if_pos h, if_pos h]
    rfl
  · rw [if_neg h, if_neg h]

/-- A link that is closed or gone is not served, and the others are as they were. -/
theorem isLive_setState (links : Links) (link id : LinkId) {state : LinkState}
    (hstate : state ≠ .live) :
    (links.setState link state).isLive id = if id = link then false else links.isLive id := by
  unfold isLive state? setState
  rw [Array.getElem?_modify]
  by_cases h : link = id
  · rw [if_pos h, if_pos h.symm]
    cases links.all[id]? with
    | none => rfl
    | some found =>
      by_cases hgone : found.state = .gone
      · simp [hgone]
      · simp [hgone, hstate]
  · rw [if_neg h, if_neg (Ne.symm h)]

theorem size_setState (links : Links) (link : LinkId) (state : LinkState) :
    (links.setState link state).all.size = links.all.size := Array.size_modify

end Links

/-! ## Rosters -/

/-- How far a connection has come. -/
inductive Stage where
  | served
  /-- It was marked closed and has not given its realm up. -/
  | closing
  | released
  deriving DecidableEq, Repr

structure Member where
  session : Session
  stage : Stage

/-- A hub with all its connections. -/
structure Roster (σ : Type) where
  hub : Hub σ
  /-- The place of a connection is its link. -/
  members : List Member
  /-- Who registered which realm, the latest first. -/
  registrations : List (UInt32 × LinkId)

inductive RosterStep (σ : Type) where
  | join (peer : Endpoint)
  | dispatch (link : LinkId) (envelope : Envelope) (now : Instant)
  | close (link : LinkId)
  | release (link : LinkId)
  /-- Nobody holds the link any more. -/
  | forget (link : LinkId)
  /-- A call that is no connection's business. -/
  | aside (op : Operation) (h : op.isAside = true)
  | harvest (arrivals : Arrivals)
  | surroundings (transport : σ)

namespace Roster

variable {σ : Type}

def start (transport : σ) : Roster σ := ⟨Hub.start transport, [], []⟩

/-- Who registered a realm last. -/
def lastRegistrant (roster : Roster σ) (id : UInt32) : Option LinkId :=
  (roster.registrations.find? (·.1 = id)).map (·.2)

/-- The realm is there and marked online. -/
def online? (roster : Roster σ) (id : UInt32) : Option Bool :=
  (roster.hub.realms.find? id).map (·.isOnline)

def joined (roster : Roster σ) (peer : Endpoint) : Roster σ :=
  let (session, hub) := Session.start peer roster.hub
  { roster with hub, members := roster.members ++ [⟨session, .served⟩] }

/-- A connection comes to a stage, and the hub to a state. -/
def staged (roster : Roster σ) (link : LinkId) (member : Member) (stage : Stage) (hub : Hub σ) :
    Roster σ :=
  { roster with hub, members := roster.members.set link { member with stage } }

def closed (roster : Roster σ) (link : LinkId) (member : Member) : Roster σ :=
  roster.staged link member .closing
    { roster.hub with links := roster.hub.links.close member.session.link }

def forgotten (roster : Roster σ) (link : LinkId) (member : Member) : Roster σ :=
  roster.staged link member .released
    { roster.hub with links := roster.hub.links.forget member.session.link }

/-- A step of one connection; nothing happens if it is not the turn of this connection. -/
def turn (roster : Roster σ) (link : LinkId) (isTurn : Stage → Bool)
    (change : Member → Roster σ) : Roster σ :=
  match roster.members[link]? with
  | none => roster
  | some member => if isTurn member.stage then change member else roster

section Run

variable [Transport σ]

/-- A connection that has not given its realm up deals with an envelope. -/
def dispatched (roster : Roster σ) (link : LinkId) (member : Member) (envelope : Envelope)
    (now : Instant) : Roster σ :=
  let (reply, session, hub) := member.session.dispatch envelope now roster.hub
  { hub
    members := roster.members.set link { member with session }
    registrations :=
      match Session.accepted? envelope.payload reply with
      | none => roster.registrations
      | some id => (id, link) :: roster.registrations }

def released (roster : Roster σ) (link : LinkId) (member : Member) : Roster σ :=
  roster.staged link member .released (member.session.release roster.hub)

/-- The roster after a step. -/
def step (roster : Roster σ) : RosterStep σ → Roster σ
  | .join peer => roster.joined peer
  | .dispatch link envelope now =>
    roster.turn link (· ≠ .released) fun member => roster.dispatched link member envelope now
  | .close link => roster.turn link (· = .served) fun member => roster.closed link member
  | .release link => roster.turn link (· = .closing) fun member => roster.released link member
  | .forget link => roster.turn link (· = .released) fun member => roster.forgotten link member
  | .aside op _ => { roster with hub := op.run roster.hub }
  | .harvest arrivals => { roster with hub := (roster.hub.harvestAmid arrivals).hub }
  | .surroundings transport => { roster with hub := { roster.hub with transport } }

def run (roster : Roster σ) (steps : List (RosterStep σ)) : Roster σ := steps.foldl step roster

end Run

/-! ## The invariant -/

/-- The links follow the stages of the connections, and the realms follow the list of who
registered them. -/
structure Consistent (roster : Roster σ) : Prop where
  size_eq : roster.hub.links.all.size = roster.members.length
  link_eq : ∀ {link : LinkId} {member : Member}, roster.members[link]? = some member →
    member.session.link = link
  live_iff : ∀ {link : LinkId} {member : Member}, roster.members[link]? = some member →
    (roster.hub.links.isLive link = true ↔ member.stage = .served)
  absent : ∀ {id : UInt32}, roster.lastRegistrant id = none →
    roster.hub.realms.standing? id = none
  /-- The owner is whoever registered the realm last, and the realm is online until that
  connection has given it up. -/
  present : ∀ {id : UInt32} {link : LinkId}, roster.lastRegistrant id = some link →
    ∃ member, roster.members[link]? = some member ∧ member.session.state.realm = some id ∧
      roster.hub.realms.standing? id = some ⟨some link, decide (member.stage ≠ .released)⟩
  /-- A served connection is the last that registered its realm. -/
  bound : ∀ {link : LinkId} {member : Member} {id : UInt32}, roster.members[link]? = some member →
    member.stage = .served → member.session.state.realm = some id →
    roster.lastRegistrant id = some link

theorem getElem?_concat_cases {α : Type} {l : List α} {last found : α} {i : Nat}
    (h : (l ++ [last])[i]? = some found) :
    l[i]? = some found ∧ i ≠ l.length ∨ i = l.length ∧ found = last := by
  rw [List.getElem?_append] at h
  split at h
  · next hlt => exact Or.inl ⟨h, by omega⟩
  · next hge =>
    obtain ⟨hzero, hlast⟩ := List.getElem?_eq_some_iff.mp h
    rw [List.length_singleton] at hzero
    rw [List.getElem_singleton] at hlast
    exact Or.inr ⟨by omega, hlast.symm⟩

section Steps

variable {roster : Roster σ} {link : LinkId} {member : Member}

private theorem consistent_start (transport : σ) : (start transport).Consistent where
  size_eq := rfl
  link_eq := nofun
  live_iff := nofun
  absent := fun _ => rfl
  present := nofun
  bound := nofun

/-- Only the links and the standings of the hub matter. -/
theorem Consistent.steady (h : roster.Consistent) {hub : Hub σ} (hsteady : roster.hub.Steady hub) :
    ({ roster with hub } : Roster σ).Consistent where
  size_eq := by rw [← h.size_eq, ← hsteady.links_eq]
  link_eq := h.link_eq
  live_iff := fun hmember => by
    rw [← h.live_iff hmember, ← hsteady.links_eq]
  absent := fun hlast => (hsteady.standing?_eq _).trans (h.absent hlast)
  present := fun hlast => by
    obtain ⟨member, hmember, hrealm, hstanding⟩ := h.present hlast
    exact ⟨member, hmember, hrealm, (hsteady.standing?_eq _).trans hstanding⟩
  bound := h.bound

theorem Consistent.joined (h : roster.Consistent) (peer : Endpoint) :
    (roster.joined peer).Consistent := by
  have hfresh : ∀ {link : LinkId} {member : Member},
      (roster.joined peer).members[link]? = some member →
      roster.members[link]? = some member ∧ link ≠ roster.members.length ∨
        link = roster.members.length ∧
          member = ⟨⟨peer, roster.hub.links.all.size, SessionState.start⟩, .served⟩ :=
    getElem?_concat_cases
  have hkept : ∀ {link : LinkId} {member : Member}, roster.members[link]? = some member →
      (roster.joined peer).members[link]? = some member := by
    intro link member hmember
    obtain ⟨hlt, -⟩ := List.getElem?_eq_some_iff.mp hmember
    exact (List.getElem?_append_left hlt).trans hmember
  refine
    { size_eq := ?_
      link_eq := fun hmember => ?_
      live_iff := fun hmember => ?_
      absent := h.absent
      present := fun hlast => ?_
      bound := fun hmember hserved hrealm => ?_ }
  · show (roster.hub.links.all.push _).size = (roster.members ++ [_]).length
    rw [Array.size_push, List.length_append, h.size_eq]
    rfl
  · rcases hfresh hmember with ⟨hold, -⟩ | ⟨rfl, rfl⟩
    · exact h.link_eq hold
    · exact h.size_eq
  · show (roster.hub.links.add peer).2.isLive _ = true ↔ _
    rw [Links.isLive_add, h.size_eq]
    rcases hfresh hmember with ⟨hold, hne⟩ | ⟨rfl, rfl⟩
    · rw [if_neg hne]
      exact h.live_iff hold
    · rw [if_pos rfl]
      exact ⟨fun _ => rfl, fun _ => rfl⟩
  · obtain ⟨member, hmember, hrealm, hstanding⟩ := h.present hlast
    exact ⟨member, hkept hmember, hrealm, hstanding⟩
  · rcases hfresh hmember with ⟨hold, -⟩ | ⟨rfl, rfl⟩
    · exact h.bound hold hserved hrealm
    · cases hrealm

/-- The members after one of them changed. -/
theorem getElem?_set_member {α : Type} {members : List α} {link : Nat} {member : α}
    (hmember : members[link]? = some member) (changed : α) (other : Nat) :
    (members.set link changed)[other]? =
      if other = link then some changed else members[other]? := by
  obtain ⟨hlt, -⟩ := List.getElem?_eq_some_iff.mp hmember
  rw [List.getElem?_set]
  by_cases h : link = other
  · rw [if_pos h, if_pos h.symm, if_pos hlt]
  · rw [if_neg h, if_neg (Ne.symm h)]

/-- A connection becomes the last that registered a realm, and is bound to it. -/
def enrolled (roster : Roster σ) (link : LinkId) (member : Member) (id : UInt32) (hub : Hub σ) :
    Roster σ where
  hub
  members := roster.members.set link
    { member with session.state := { member.session.state with realm := some id } }
  registrations := (id, link) :: roster.registrations

private theorem lastRegistrant_enrolled (roster : Roster σ) (link : LinkId) (member : Member)
    (id : UInt32) (hub : Hub σ) (other : UInt32) :
    (roster.enrolled link member id hub).lastRegistrant other =
      if other = id then some link else roster.lastRegistrant other := by
  unfold lastRegistrant enrolled
  by_cases hid : other = id
  · rw [if_pos hid, List.find?_cons_of_pos (by simpa using hid.symm)]
    rfl
  · rw [if_neg hid, List.find?_cons_of_neg (by simpa using Ne.symm hid)]

/-- A registration enters a realm that no served connection held, so no served connection is bound
to it but the new one. -/
theorem Consistent.enrolled (h : roster.Consistent)
    (hmember : roster.members[link]? = some member) (hstage : member.stage ≠ .released)
    (hunbound : member.session.state.realm = none) {hub : Hub σ} {id : UInt32}
    (henters : roster.hub.Enters hub id link) :
    (roster.enrolled link member id hub).Consistent := by
  have hlookup : ∀ other, (roster.enrolled link member id hub).members[other]? =
      if other = link then
        some { member with session.state := { member.session.state with realm := some id } }
      else roster.members[other]? :=
    getElem?_set_member hmember _
  refine
    { size_eq := ?_
      link_eq := fun {other changed} hother => ?_
      live_iff := fun {other changed} hother => ?_
      absent := fun {other} hnone => ?_
      present := fun {other last} hsome => ?_
      bound := fun {other changed realm} hother hserved hrealm => ?_ }
  · show hub.links.all.size = (roster.members.set link _).length
    rw [henters.links_eq, List.length_set]
    exact h.size_eq
  · rw [hlookup] at hother
    split at hother
    · next heq =>
      cases hother
      have hlink := h.link_eq hmember
      rw [heq]
      exact hlink
    · exact h.link_eq hother
  · show hub.links.isLive other = true ↔ _
    rw [henters.links_eq]
    rw [hlookup] at hother
    split at hother
    · next heq =>
      cases hother
      have hlive := h.live_iff hmember
      rw [heq]
      exact hlive
    · exact h.live_iff hother
  · rw [lastRegistrant_enrolled] at hnone
    split at hnone
    · cases hnone
    · next hne =>
      show hub.realms.standing? other = none
      rw [henters.standing?_eq, if_neg hne]
      exact h.absent hnone
  · show ∃ member', _ ∧ _ ∧ hub.realms.standing? other = _
    rw [henters.standing?_eq]
    rw [lastRegistrant_enrolled] at hsome
    by_cases hid : other = id
    · rw [if_pos hid] at hsome ⊢
      cases hsome
      refine ⟨_, (hlookup link).trans (if_pos rfl), by rw [hid], ?_⟩
      rw [decide_eq_true hstage]
    · rw [if_neg hid] at hsome ⊢
      obtain ⟨holder, hholder, hrealm, hstanding⟩ := h.present hsome
      have hne : last ≠ link := by
        rintro rfl
        rw [hmember] at hholder
        cases hholder
        rw [hunbound] at hrealm
        cases hrealm
      exact ⟨holder, by rw [hlookup, if_neg hne, hholder], hrealm, hstanding⟩
  · rw [lastRegistrant_enrolled]
    rw [hlookup] at hother
    by_cases hlink : other = link
    · rw [if_pos hlink] at hother
      cases hother
      cases hrealm
      rw [if_pos rfl, hlink]
    · rw [if_neg hlink] at hother
      have hlast := h.bound hother hserved hrealm
      by_cases hid : realm = id
      · -- Whoever is served holds its realm, but the realm entered was vacant.
        obtain ⟨holder, hholder, -, hstanding⟩ := h.present hlast
        have hheld := henters.vacant (hid ▸ hstanding)
        have hlive := (h.live_iff hother).mpr hserved
        exact absurd hlive (by simpa [Standing.isHeld] using hheld)
      · rw [if_neg hid]
        exact hlast

/-- A connection comes to a later stage. The realms it registered last follow its stage, and the
others are as they were. -/
theorem Consistent.staged (h : roster.Consistent) (hmember : roster.members[link]? = some member)
    {stage : Stage} (hstage : stage ≠ .served) {hub : Hub σ}
    (hsize : hub.links.all.size = roster.hub.links.all.size)
    (hlive : ∀ other, hub.links.isLive other =
      if other = link then false else roster.hub.links.isLive other)
    (habsent : ∀ id, roster.hub.realms.standing? id = none → hub.realms.standing? id = none)
    (hown : ∀ id, member.session.state.realm = some id →
      roster.hub.realms.standing? id = some ⟨some link, decide (member.stage ≠ .released)⟩ →
      hub.realms.standing? id = some ⟨some link, decide (stage ≠ .released)⟩)
    (hothers : ∀ id other online, other ≠ link →
      roster.hub.realms.standing? id = some ⟨some other, online⟩ →
      hub.realms.standing? id = some ⟨some other, online⟩) :
    (roster.staged link member stage hub).Consistent := by
  have hlookup : ∀ other, (roster.staged link member stage hub).members[other]? =
      if other = link then some { member with stage } else roster.members[other]? :=
    getElem?_set_member hmember _
  refine
    { size_eq := ?_
      link_eq := fun {other changed} hother => ?_
      live_iff := fun {other changed} hother => ?_
      absent := fun hnone => habsent _ (h.absent hnone)
      present := fun {id last} hsome => ?_
      bound := fun {other changed realm} hother hserved hrealm => ?_ }
  · show hub.links.all.size = (roster.members.set link _).length
    rw [List.length_set]
    exact hsize.trans h.size_eq
  · rw [hlookup] at hother
    split at hother
    · next heq =>
      cases hother
      have hlink := h.link_eq hmember
      rw [heq]
      exact hlink
    · exact h.link_eq hother
  · show hub.links.isLive other = true ↔ _
    rw [hlive]
    rw [hlookup] at hother
    by_cases heq : other = link
    · rw [if_pos heq] at hother ⊢
      cases hother
      exact ⟨nofun, fun hserved => absurd hserved hstage⟩
    · rw [if_neg heq] at hother ⊢
      exact h.live_iff hother
  · obtain ⟨holder, hholder, hrealm, hstanding⟩ := h.present hsome
    show ∃ member', _ ∧ _ ∧ hub.realms.standing? id = _
    by_cases heq : last = link
    · rw [heq, hmember] at hholder
      cases hholder
      rw [heq] at hstanding ⊢
      exact ⟨_, (hlookup link).trans (if_pos rfl), hrealm, hown id hrealm hstanding⟩
    · exact ⟨holder, (hlookup last).trans ((if_neg heq).trans hholder), hrealm,
        hothers id last _ heq hstanding⟩
  · rw [hlookup] at hother
    split at hother
    · cases hother
      exact absurd hserved hstage
    · exact h.bound hother hserved hrealm

/-- Only a member whose turn it is changes the roster. -/
theorem Consistent.turn (h : roster.Consistent) {isTurn : Stage → Bool}
    {change : Member → Roster σ}
    (hchange : ∀ {member : Member}, roster.members[link]? = some member →
      isTurn member.stage = true → (change member).Consistent) :
    (roster.turn link isTurn change).Consistent := by
  unfold Roster.turn
  split
  · exact h
  · next member hmember =>
    split
    · next hturn => exact hchange hmember hturn
    · exact h

/-- A member that closes waits to release its realm. -/
theorem Consistent.closed (h : roster.Consistent) (hmember : roster.members[link]? = some member)
    (hserved : member.stage = .served) : (roster.closed link member).Consistent := by
  have hstage : Stage.closing ≠ .served := by decide
  have hlink := h.link_eq hmember
  refine h.staged hmember hstage (Links.size_setState _ _ _) (fun other => ?_)
    (fun _ hnone => hnone) (fun id _ hstanding => ?_) fun _ _ _ _ hkept => hkept
  · rw [← hlink]
    exact Links.isLive_setState _ _ _ (by decide)
  · rw [hserved] at hstanding
    exact hstanding

/-- A member that released its realm can be forgotten. -/
theorem Consistent.forgotten (h : roster.Consistent)
    (hmember : roster.members[link]? = some member) (hreleased : member.stage = .released) :
    (roster.forgotten link member).Consistent := by
  have hstage : Stage.released ≠ .served := by decide
  have hlink := h.link_eq hmember
  refine h.staged hmember hstage (Links.size_setState _ _ _) (fun other => ?_)
    (fun _ hnone => hnone) (fun id _ hstanding => ?_) fun _ _ _ _ hkept => hkept
  · rw [← hlink]
    exact Links.isLive_setState _ _ _ (by decide)
  · rw [hreleased] at hstanding
    exact hstanding

section Transport

variable [Transport σ]

/-- A connection gives its realm up. The realm goes offline if this was the last connection that
registered it. -/
theorem Consistent.released (h : roster.Consistent) (hmember : roster.members[link]? = some member)
    (hclosing : member.stage = .closing) : (roster.released link member).Consistent := by
  have hstage : Stage.released ≠ .served := by decide
  have hlink := h.link_eq hmember
  have hdead : roster.hub.links.isLive link = false := by
    rw [Bool.eq_false_iff, ne_eq, h.live_iff hmember, hclosing]
    decide
  have hlinks : (member.session.release roster.hub).links = roster.hub.links := by
    unfold Session.release
    cases member.session.state.realm with
    | none => rfl
    | some id => exact (roster.hub.registry_release id _).2
  have hlive : ∀ other, (member.session.release roster.hub).links.isLive other =
      if other = link then false else roster.hub.links.isLive other := by
    intro other
    rw [hlinks]
    split
    · next heq => rw [heq, hdead]
    · rfl
  have hsize : (member.session.release roster.hub).links.all.size =
      roster.hub.links.all.size := by rw [hlinks]
  cases hrealm : member.session.state.realm with
  | none =>
    have hhub : member.session.release roster.hub = roster.hub := by
      unfold Session.release
      rw [hrealm]
    refine h.staged hmember hstage hsize hlive ?_ ?_ ?_ <;> rw [hhub]
    · exact fun _ hnone => hnone
    · intro id hid
      rw [hrealm] at hid
      cases hid
    · exact fun _ _ _ _ hkept => hkept
  | some realm =>
    have hstanding : ∀ id, (member.session.release roster.hub).realms.standing? id =
        if id = realm then (roster.hub.realms.standing? realm).map (·.leave link)
        else roster.hub.realms.standing? id := by
      intro id
      unfold Session.release
      rw [hrealm, ← hlink]
      exact roster.hub.standing?_release realm id _
    refine h.staged hmember hstage hsize hlive ?_ ?_ ?_
    · intro id hnone
      rw [hstanding]
      split
      · next heq => rw [← heq, hnone]; rfl
      · exact hnone
    · intro id hid hown
      rw [hrealm] at hid
      cases hid
      rw [hstanding, if_pos rfl, hown]
      exact congrArg some (if_pos rfl)
    · intro id other online hne hother
      rw [hstanding]
      split
      · next heq =>
        have howner : ¬some other = some link := fun howner => hne (Option.some.inj howner)
        rw [← heq, hother]
        exact congrArg some (if_neg howner)
      · exact hother

private theorem set_member_self {members : List Member} (hmember : members[link]? = some member) :
    members.set link member = members := by
  obtain ⟨hlt, rfl⟩ := List.getElem?_eq_some_iff.mp hmember
  exact List.set_getElem_self hlt

/-- An envelope makes its connection the last that registered some realm, or changes no standing. -/
theorem dispatched_cases (hmember : roster.members[link]? = some member) (envelope : Envelope)
    (now : Instant) :
    (∃ id hub, member.session.state.realm = none ∧
      roster.hub.Enters hub id member.session.link ∧
      roster.dispatched link member envelope now = roster.enrolled link member id hub) ∨
    (∃ hub, roster.hub.Steady hub ∧
      roster.dispatched link member envelope now = { roster with hub }) := by
  unfold dispatched
  rcases member.session.dispatch_cases envelope now roster.hub with
    ⟨id, haccepted, hunbound, hsession, henters⟩ | ⟨hnone, hsession, hsteady⟩
  · refine Or.inl ⟨id, _, hunbound, henters, ?_⟩
    dsimp only
    rw [haccepted, hsession]
    rfl
  · refine Or.inr ⟨_, hsteady, ?_⟩
    dsimp only
    rw [hnone, hsession, set_member_self hmember]

/-- An envelope keeps the roster consistent, whichever stage its session is in. -/
theorem Consistent.dispatched (h : roster.Consistent)
    (hmember : roster.members[link]? = some member) (hstage : member.stage ≠ .released)
    (envelope : Envelope) (now : Instant) :
    (roster.dispatched link member envelope now).Consistent := by
  rcases dispatched_cases hmember envelope now with
    ⟨id, hub, hunbound, henters, heq⟩ | ⟨hub, hsteady, heq⟩
  · rw [heq]
    rw [h.link_eq hmember] at henters
    exact h.enrolled hmember hstage hunbound henters
  · rw [heq]
    exact h.steady hsteady

/-- Every step keeps the roster consistent. -/
theorem Consistent.step (h : roster.Consistent) (step : RosterStep σ) :
    (roster.step step).Consistent := by
  cases step with
  | join peer => exact h.joined peer
  | dispatch link envelope now =>
    show (roster.turn link (· ≠ .released)
      fun member => roster.dispatched link member envelope now).Consistent
    apply h.turn
    intro member hmember hturn
    exact h.dispatched hmember (of_decide_eq_true hturn) envelope now
  | close link =>
    show (roster.turn link (· = .served) fun member => roster.closed link member).Consistent
    apply h.turn
    intro member hmember hturn
    exact h.closed hmember (of_decide_eq_true hturn)
  | release link =>
    show (roster.turn link (· = .closing) fun member => roster.released link member).Consistent
    apply h.turn
    intro member hmember hturn
    exact h.released hmember (of_decide_eq_true hturn)
  | forget link =>
    show (roster.turn link (· = .released) fun member => roster.forgotten link member).Consistent
    apply h.turn
    intro member hmember hturn
    exact h.forgotten hmember (of_decide_eq_true hturn)
  | aside op haside => exact h.steady (roster.hub.steady_run_of_isAside haside)
  | harvest arrivals => exact h.steady (roster.hub.steady_harvestAmid arrivals)
  | surroundings transport => exact h.steady ⟨rfl, fun _ => rfl⟩

theorem Consistent.run (h : roster.Consistent) (steps : List (RosterStep σ)) :
    (roster.run steps).Consistent := by
  induction steps generalizing roster with
  | nil => exact h
  | cons step rest ih => exact ih (h.step step)

end Transport

end Steps

/-! ## What the invariant says of the realms -/

section Presence

variable [Transport σ]

/-- The realms as the connections see them. -/
structure Presence (roster : Roster σ) : Prop where
  /-- A realm has one served connection at most. -/
  unique : ∀ {first second : LinkId} {a b : Member} {id : UInt32},
    roster.members[first]? = some a → roster.members[second]? = some b →
    a.stage = .served → b.stage = .served →
    a.session.state.realm = some id → b.session.state.realm = some id → first = second
  /-- And that connection owns the record. -/
  owned : ∀ {link : LinkId} {member : Member} {id : UInt32},
    roster.members[link]? = some member → member.stage = .served →
    member.session.state.realm = some id →
    ∃ record, roster.hub.realms.find? id = some record ∧
      record.isOwnedBy member.session.link = true
  /-- A realm that is there was registered, and it is online until the connection that registered
  it last has given it up. -/
  online_iff : ∀ {id : UInt32} {record : RealmRecord}, roster.hub.realms.find? id = some record →
    ∃ link member, roster.lastRegistrant id = some link ∧ roster.members[link]? = some member ∧
      member.session.state.realm = some id ∧
      (record.isOnline = true ↔ member.stage ≠ .released)
  /-- A realm that was registered is there. -/
  registered : ∀ {id : UInt32} {link : LinkId}, roster.lastRegistrant id = some link →
    ∃ record, roster.hub.realms.find? id = some record
  /-- Nobody else can take a realm offline. -/
  late_release : ∀ {link : LinkId} {member : Member} {id : UInt32},
    roster.members[link]? = some member → member.session.state.realm = some id →
    roster.lastRegistrant id ≠ some link →
    ∀ other, (roster.step (.release link)).online? other = roster.online? other
  /-- No envelope changes an offline mark, whatever flags it carries, except that an accepted
  registration, whatever flags it carries, puts its realm online. -/
  envelope : ∀ (link : LinkId) (envelope : Envelope) (now : Instant),
    let after := roster.step (.dispatch link envelope now)
    (after.registrations = roster.registrations ∧
      ∀ id, after.online? id = roster.online? id) ∨
    (∃ realm, after.registrations = (realm, link) :: roster.registrations ∧
      ∀ id, after.online? id = if id = realm then some true else roster.online? id)
  /-- Once every connection has given its realm up, every realm is offline. -/
  all_offline : (∀ member ∈ roster.members, member.stage = .released) →
    ∀ record ∈ roster.hub.realms.records, record.isOnline = false

variable {roster : Roster σ} {link : LinkId} {member : Member}

omit [Transport σ] in
private theorem online?_eq (roster : Roster σ) (id : UInt32) :
    roster.online? id = (roster.hub.realms.standing? id).map (·.online) := by
  unfold online? RealmTable.standing?
  rw [Option.map_map]
  rfl

omit [Transport σ] in
/-- A served member that is bound to a realm finds it there, and owns it. -/
theorem Consistent.owned (h : roster.Consistent) {id : UInt32}
    (hmember : roster.members[link]? = some member) (hserved : member.stage = .served)
    (hrealm : member.session.state.realm = some id) :
    ∃ record, roster.hub.realms.find? id = some record ∧
      record.isOwnedBy member.session.link = true := by
  obtain ⟨holder, -, -, hstanding⟩ := h.present (h.bound hmember hserved hrealm)
  obtain ⟨record, hfind, heq⟩ := Option.map_eq_some_iff.mp hstanding
  refine ⟨record, hfind, ?_⟩
  rw [h.link_eq hmember]
  exact beq_iff_eq.mpr (congrArg Standing.owner heq)

omit [Transport σ] in
private theorem Consistent.online_iff (h : roster.Consistent) {id : UInt32} {record : RealmRecord}
    (hfind : roster.hub.realms.find? id = some record) :
    ∃ link member, roster.lastRegistrant id = some link ∧ roster.members[link]? = some member ∧
      member.session.state.realm = some id ∧
      (record.isOnline = true ↔ member.stage ≠ .released) := by
  have hthere : roster.hub.realms.standing? id = some record.standing := by
    unfold RealmTable.standing?
    rw [hfind]
    rfl
  cases hlast : roster.lastRegistrant id with
  | none =>
    rw [h.absent hlast] at hthere
    cases hthere
  | some link =>
    obtain ⟨member, hmember, hrealm, hstanding⟩ := h.present hlast
    rw [hthere] at hstanding
    have honline : record.isOnline = decide (member.stage ≠ .released) :=
      congrArg Standing.online (Option.some.inj hstanding)
    refine ⟨link, member, rfl, hmember, hrealm, ?_⟩
    rw [honline, decide_eq_true_iff]

/-- A release by a connection that did not register its realm last. -/
theorem Consistent.late_release (h : roster.Consistent) {id : UInt32}
    (hmember : roster.members[link]? = some member)
    (hrealm : member.session.state.realm = some id)
    (hlate : roster.lastRegistrant id ≠ some link) (other : UInt32) :
    (roster.step (.release link)).online? other = roster.online? other := by
  show (roster.turn link _ _).online? other = _
  unfold Roster.turn
  rw [hmember]
  dsimp only
  split
  · rw [online?_eq, online?_eq]
    show ((member.session.release roster.hub).realms.standing? other).map _ = _
    unfold Session.release
    rw [hrealm, h.link_eq hmember]
    dsimp only
    rw [Hub.standing?_release]
    split
    · next heq =>
      rw [heq, Option.map_map]
      cases hlast : roster.lastRegistrant id with
      | none => rw [h.absent hlast]; rfl
      | some last =>
        obtain ⟨_, -, -, hstanding⟩ := h.present hlast
        have hne : ¬some last = some link := fun heq => hlate (hlast.trans heq)
        rw [hstanding, Option.map_some, Function.comp_apply, Standing.leave, if_neg hne]
        rfl
    · rfl
  · rfl

private theorem envelope_cases (roster : Roster σ) (link : LinkId) (envelope : Envelope)
    (now : Instant) :
    let after := roster.step (.dispatch link envelope now)
    (after.registrations = roster.registrations ∧
      ∀ id, after.online? id = roster.online? id) ∨
    (∃ realm, after.registrations = (realm, link) :: roster.registrations ∧
      ∀ id, after.online? id = if id = realm then some true else roster.online? id) := by
  unfold step
  dsimp only
  unfold turn
  cases hmember : roster.members[link]? with
  | none => exact Or.inl ⟨rfl, fun _ => rfl⟩
  | some member =>
    dsimp only
    split
    · rcases dispatched_cases hmember envelope now with
        ⟨realm, hub, -, henters, heq⟩ | ⟨hub, hsteady, heq⟩
      · rw [heq]
        refine Or.inr ⟨realm, rfl, fun id => ?_⟩
        rw [online?_eq, online?_eq]
        show (hub.realms.standing? id).map _ = _
        rw [henters.standing?_eq]
        split <;> rfl
      · rw [heq]
        refine Or.inl ⟨rfl, fun id => ?_⟩
        rw [online?_eq, online?_eq]
        exact congrArg _ (hsteady.standing?_eq id)
    · exact Or.inl ⟨rfl, fun _ => rfl⟩

/-- What is online in a consistent roster is what its members say. -/
theorem Consistent.presence (h : roster.Consistent) : roster.Presence where
  unique := fun hfirst hsecond haserved hbserved ha hb =>
    Option.some.inj ((h.bound hfirst haserved ha).symm.trans (h.bound hsecond hbserved hb))
  owned := h.owned
  online_iff := h.online_iff
  registered := fun hlast => by
    obtain ⟨_, -, -, hstanding⟩ := h.present hlast
    obtain ⟨record, hfind, -⟩ := Option.map_eq_some_iff.mp hstanding
    exact ⟨record, hfind⟩
  late_release := h.late_release
  envelope := roster.envelope_cases
  all_offline := fun hgone record hrecord => by
    obtain ⟨link, member, -, hmember, -, hiff⟩ :=
      h.online_iff (RealmTable.mem_records_iff.mp hrecord)
    rw [Bool.eq_false_iff, ne_eq, hiff, not_not]
    exact hgone member (List.mem_of_getElem? hmember)

/-- After any steps of any connections, in any order. -/
theorem presence_run (transport : σ) (steps : List (RosterStep σ)) :
    ((start transport).run steps).Presence :=
  ((consistent_start transport).run steps).presence

/-- Two connections register realm 7, the second one while the first one is closing, and then the
first one gives up a realm that is no longer its own. -/
def takeover : List (RosterStep Mailboxes) :=
  let registration : Registration :=
    ⟨7, "Realm 7", 8085, 200, 50, .player, .offline, .normal, .english, []⟩
  let envelope : Envelope := ⟨.registeringRequest, registration.encode.toOption.getD []⟩
  [.join ⟨.v4 10 0 0 5, 41000, 0⟩, .join ⟨.v4 10 0 0 6, 41000, 0⟩,
    .dispatch 0 envelope 0, .close 0, .dispatch 1 envelope 0, .release 0]

example : ((start Mailboxes.empty).run takeover).online? 7 = some true := by decide +kernel

end Presence

end Roster

end RealmDirectory
