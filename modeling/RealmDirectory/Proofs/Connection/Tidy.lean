import RealmDirectory.Proofs.Connection.Watch
import RealmDirectory.Proofs.Hub.Alike

/-!
# What a connection leaves behind

A connection changes the links and the realms under its own link only, and so does a call that names
a link; all others are spared (`Hub.Spares`). A connection is tidy if no realm is under its link but
the one that it registered, and if its timers are stopped, its link is closed and that realm is
offline once the connection has ended. Whatever happens to a tidy connection leaves it tidy.

## Main results

* `Hub.spares_run` — a call to the hub.
* `Connection.serves_handle`, `Connection.serves_breakDown` — what happens to a connection.
-/

namespace RealmDirectory

variable {σ : Type}

/-! ## The links that are spared -/

/-- Nothing happens under any link but one. No other link is opened again, and what stands under
another link stood there before. -/
structure Hub.Spares (link : Option LinkId) (before after : Hub σ) : Prop where
  size_le : before.links.all.size ≤ after.links.all.size
  isLive : ∀ {other}, other < before.links.all.size → after.links.isLive other = true →
    before.links.isLive other = true
  standing?_eq : ∀ {id standing other}, after.realms.standing? id = some standing →
    standing.owner = some other → link ≠ some other → before.realms.standing? id = some standing

/-- The link that a call names. -/
def Operation.link? : Operation → Option LinkId
  | register record => record.owner
  | release _ link => some link
  | _ => none

/-- The call marks a realm as online or offline, whoever owns it. -/
def Operation.isMark : Operation → Bool
  | setOnline _ _ => true
  | _ => false

namespace Hub

variable {before after : Hub σ}

theorem Spares.refl (link : Option LinkId) (hub : Hub σ) : hub.Spares link hub where
  size_le := Nat.le_refl _
  isLive _ hlive := hlive
  standing?_eq hstanding _ _ := hstanding

theorem Spares.trans {link : Option LinkId} {between : Hub σ} (hfirst : before.Spares link between)
    (hnext : between.Spares link after) : before.Spares link after where
  size_le := Nat.le_trans hfirst.size_le hnext.size_le
  isLive hother hlive :=
    hfirst.isLive hother (hnext.isLive (Nat.lt_of_lt_of_le hother hfirst.size_le) hlive)
  standing?_eq hstanding howner hlink :=
    hfirst.standing?_eq (hnext.standing?_eq hstanding howner hlink) howner hlink

/-- A change that keeps all standings happens under no link. -/
theorem Steady.spares (h : before.Steady after) (link : Option LinkId) :
    before.Spares link after where
  size_le := by rw [h.links_eq]
  isLive _ hlive := by rwa [h.links_eq] at hlive
  standing?_eq hstanding _ _ := by rwa [h.standing?_eq] at hstanding

/-- A registration happens under the link that registers. -/
theorem Enters.spares {id : UInt32} {link : LinkId} (h : before.Enters after id link) :
    before.Spares (some link) after where
  size_le := by rw [h.links_eq]
  isLive _ hlive := by rwa [h.links_eq] at hlive
  standing?_eq := by
    intro other standing owner hstanding howner hlink
    rw [h.standing?_eq] at hstanding
    by_cases heq : other = id
    · rw [if_pos heq] at hstanding
      cases hstanding
      exact absurd howner hlink
    · rwa [if_neg heq] at hstanding

/-- Closing or losing a link is nothing to the others. -/
theorem spares_setState (hub : Hub σ) (link : LinkId) {state : LinkState} (hstate : state ≠ .live) :
    hub.Spares (some link) { hub with links := hub.links.setState link state } where
  size_le := Nat.le_of_eq (Links.size_setState _ _ _).symm
  isLive := by
    intro other _ hlive
    rw [Links.isLive_setState _ _ _ hstate] at hlive
    by_cases heq : other = link
    · simp [heq] at hlive
    · simpa [heq] using hlive
  standing?_eq hstanding _ _ := hstanding

/-- Somebody is given a new link. -/
theorem spares_lend (hub : Hub σ) (peer : Endpoint) (link : Option LinkId) :
    hub.Spares link { hub with links := (hub.links.add peer).2 } where
  size_le := by simp [Links.add]
  isLive := by
    intro other hlt hlive
    rw [Links.isLive_add] at hlive
    have hne : other ≠ hub.links.all.size := by omega
    simpa [hne] using hlive
  standing?_eq hstanding _ _ := hstanding

private theorem steady_of_alike (h : before.Alike after) : before.Steady after :=
  ⟨h.links_eq.symm, fun id => (h.realms.map_find?_eq (fun _ => rfl) id).symm⟩

variable [Transport σ]

/-- A round of the harvester. -/
theorem steady_harvestRound (hub : Hub σ) : hub.Steady hub.harvestRound := by
  have hsteady := steady_of_alike hub.alike_harvest
  unfold harvestRound
  generalize hub.harvest = result at hsteady
  obtain ⟨answer, after⟩ := result
  cases answer with
  | ok report => exact hsteady
  | error cause => exact hsteady.note _

private theorem spares_release (hub : Hub σ) (id : UInt32) (link : LinkId) :
    hub.Spares (some link) (hub.release id link).2 := by
  have hlinks := (hub.registry_release id link).2
  refine
    { size_le := by rw [hlinks]
      isLive := fun _ hlive => by rwa [hlinks] at hlive
      standing?_eq := ?_ }
  intro other standing owner hstanding howner hlink
  rw [standing?_release] at hstanding
  by_cases heq : other = id
  · rw [if_pos heq] at hstanding
    obtain ⟨old, hold, rfl⟩ := Option.map_eq_some_iff.mp hstanding
    unfold Standing.leave at howner ⊢
    by_cases howned : old.owner = some link
    · rw [if_pos howned] at howner
      exact absurd (howned.symm.trans howner) hlink
    · rw [if_neg howned, heq]
      exact hold
  · rwa [if_neg heq] at hstanding

private theorem spares_register (hub : Hub σ) (record : RealmRecord) :
    hub.Spares record.owner (hub.register record).2 := by
  obtain ⟨hrealms, hlinks⟩ := hub.registry_register record
  refine
    { size_le := by rw [hlinks]
      isLive := fun _ hlive => by rwa [hlinks] at hlive
      standing?_eq := ?_ }
  intro id standing other hstanding howner hlink
  rw [hrealms] at hstanding
  unfold Operation.onTable at hstanding
  dsimp only at hstanding
  split at hstanding
  · exact hstanding
  · rw [RealmTable.standing?_put_entering] at hstanding
    by_cases heq : id = record.id
    · rw [if_pos heq] at hstanding
      cases hstanding
      exact absurd howner hlink
    · rwa [if_neg heq] at hstanding

/-- A call changes nothing but under the link that it names. -/
theorem spares_run (hub : Hub σ) {op : Operation} (h : op.isMark = false) :
    hub.Spares op.link? (op.run hub) := by
  cases op with
  | register record => exact hub.spares_register record
  | release id link => exact hub.spares_release id link
  | remove id =>
    obtain ⟨hrealms, hlinks⟩ := hub.registry_remove id
    have hrun : (Operation.remove id).run hub = (hub.remove id).2 := rfl
    refine
      { size_le := by rw [hrun, hlinks]
        isLive := fun _ hlive => by rwa [hrun, hlinks] at hlive
        standing?_eq := ?_ }
    intro other standing owner hstanding _ _
    rw [hrun, hrealms] at hstanding
    unfold RealmTable.standing? at hstanding ⊢
    rw [RealmTable.find?_erase] at hstanding
    split at hstanding
    · cases hstanding
    · exact hstanding
  | setOnline id online => cases h
  | report id status => exact (hub.steady_run_of_isAside rfl).spares none
  | append id line now => exact (hub.steady_run_of_isAside rfl).spares none
  | clearLog id => exact (hub.steady_run_of_isAside rfl).spares none
  | login sink current => exact (hub.steady_run_of_isAside rfl).spares none
  | evict session => exact (hub.steady_run_of_isAside rfl).spares none

end Hub

/-! ## Giving a realm up -/

namespace Session

variable [Transport σ]

private theorem spares_release (session : Session) (hub : Hub σ) :
    hub.Spares (some session.link) (session.release hub) := by
  unfold release
  cases session.state.realm with
  | none => exact .refl _ _
  | some id => exact hub.spares_release id session.link

private theorem links_release (session : Session) (hub : Hub σ) :
    (session.release hub).links = hub.links := by
  unfold release
  cases session.state.realm with
  | none => rfl
  | some id => exact (hub.registry_release id session.link).2

/-- If a session has no realm under its link but the one that it registered, that one is offline
once it was given up. -/
theorem standing_release {session : Session} {hub : Hub σ}
    (howned : ∀ {id standing}, hub.realms.standing? id = some standing →
      standing.owner = some session.link → session.state.realm = some id)
    {id : UInt32} {standing : Standing}
    (hstanding : (session.release hub).realms.standing? id = some standing)
    (howner : standing.owner = some session.link) :
    session.state.realm = some id ∧ standing.online = false := by
  unfold release at hstanding
  cases hrealm : session.state.realm with
  | none =>
    rw [hrealm] at hstanding howned
    cases howned hstanding howner
  | some realm =>
    rw [hrealm] at hstanding howned
    dsimp only at hstanding
    rw [Hub.standing?_release] at hstanding
    by_cases heq : id = realm
    · rw [if_pos heq] at hstanding
      obtain ⟨old, hold, rfl⟩ := Option.map_eq_some_iff.mp hstanding
      refine ⟨congrArg some heq.symm, ?_⟩
      unfold Standing.leave at howner ⊢
      by_cases hown : old.owner = some session.link
      · rw [if_pos hown]
      · rw [if_neg hown] at howner
        exact absurd howner hown
    · rw [if_neg heq] at hstanding
      exact absurd (Option.some.inj (howned hstanding howner)).symm heq

end Session

/-! ## Tidy connections -/

namespace Connection

/-- Only the realm of the connection is under its link; of a connection that has ended the timers
are stopped, the link is closed and the realm is offline. -/
structure Tidy (c : Connection) (hub : Hub σ) : Prop where
  owned : ∀ {id standing}, hub.realms.standing? id = some standing →
    standing.owner = some c.session.link →
    c.session.state.realm = some id ∧ (c.hasEnded = true → standing.online = false)
  stopped : c.hasEnded = true → c.session.state.timers = none
  closed : c.hasEnded = true → hub.links.isLive c.session.link = false

/-- What happens to a connection and the hub when the connection does something. -/
structure Serves (c : Connection) (hub : Hub σ) (after : Connection × Hub σ) : Prop where
  peer_eq : after.1.session.peer = c.session.peer
  link_eq : after.1.session.link = c.session.link
  ended : c.hasEnded = true → after.1.hasEnded = true
  spares : hub.Spares (some c.session.link) after.2
  tidy : c.Tidy hub → after.1.Tidy after.2

variable {c : Connection} {hub : Hub σ}

/-- What happens under another link leaves a connection tidy. -/
theorem Tidy.spares (h : c.Tidy hub) {after : Hub σ} {link : Option LinkId}
    (hspares : hub.Spares link after) (hne : link ≠ some c.session.link)
    (hlt : c.session.link < hub.links.all.size) : c.Tidy after where
  owned hstanding howner := h.owned (hspares.standing?_eq hstanding howner hne) howner
  stopped := h.stopped
  closed hended := by
    by_contra hlive
    have hbefore := hspares.isLive hlt (Bool.of_not_eq_false hlive)
    simp [h.closed hended] at hbefore

theorem Serves.refl (c : Connection) (hub : Hub σ) : c.Serves hub (c, hub) :=
  ⟨rfl, rfl, id, .refl _ _, id⟩

theorem Serves.trans {between after : Connection × Hub σ} (hfirst : c.Serves hub between)
    (hnext : between.1.Serves between.2 after) : c.Serves hub after where
  peer_eq := hnext.peer_eq.trans hfirst.peer_eq
  link_eq := hnext.link_eq.trans hfirst.link_eq
  ended h := hnext.ended (hfirst.ended h)
  spares := hfirst.spares.trans (hfirst.link_eq ▸ hnext.spares)
  tidy h := hnext.tidy (hfirst.tidy h)

/-- Nothing happens to the session, nor to any realm or link. -/
theorem serves_aside (c after : Connection) (hsession : after.session = c.session)
    (hended : after.hasEnded = c.hasEnded) {hub' : Hub σ} (hsteady : hub.Steady hub') :
    c.Serves hub (after, hub') where
  peer_eq := congrArg Session.peer hsession
  link_eq := congrArg Session.link hsession
  ended h := hended.trans h
  spares := hsteady.spares _
  tidy h := by
    refine ⟨?_, ?_, ?_⟩
    · intro id standing hstanding howner
      rw [hsteady.standing?_eq] at hstanding
      rw [hsession] at howner ⊢
      rw [hended]
      exact h.owned hstanding howner
    · rw [hended, hsession]
      exact h.stopped
    · rw [hended, hsession, hsteady.links_eq]
      exact h.closed

/-- An open connection stays open and keeps its realm. -/
theorem serves_open (c after : Connection) (hpeer : after.session.peer = c.session.peer)
    (hlink : after.session.link = c.session.link)
    (hrealm : after.session.state.realm = c.session.state.realm) (hopen : c.hasEnded = false)
    (hstays : after.hasEnded = false) {hub' : Hub σ} (hsteady : hub.Steady hub') :
    c.Serves hub (after, hub') where
  peer_eq := hpeer
  link_eq := hlink
  ended h := by simp [hopen] at h
  spares := hsteady.spares _
  tidy h := by
    refine ⟨?_, ?_, ?_⟩
    · intro id standing hstanding howner
      rw [hsteady.standing?_eq] at hstanding
      rw [hlink] at howner
      rw [hrealm]
      exact ⟨(h.owned hstanding howner).1, by simp [hstays]⟩
    · simp [hstays]
    · simp [hstays]

/-- The link of a connection is closed, or forgotten. -/
theorem serves_mark (c : Connection) {state : LinkState} (hstate : state ≠ .live) (hub : Hub σ) :
    c.Serves hub (c, { hub with links := hub.links.setState c.session.link state }) where
  peer_eq := rfl
  link_eq := rfl
  ended := id
  spares := hub.spares_setState c.session.link hstate
  tidy h := by
    refine ⟨h.owned, h.stopped, fun _ => ?_⟩
    show (hub.links.setState c.session.link state).isLive c.session.link = false
    rw [Links.isLive_setState _ _ _ hstate, if_pos rfl]

variable [Transport σ]

/-- An envelope enters a realm under the link of the connection, or it changes no standing. -/
theorem serves_dispatch (hopen : c.hasEnded = false) (envelope : Envelope) (now : Instant)
    (hub : Hub σ) :
    c.Serves hub ({ c with session := (c.session.dispatch envelope now hub).2.1 },
      (c.session.dispatch envelope now hub).2.2) := by
  rcases c.session.dispatch_cases envelope now hub with
    ⟨realm, -, hunbound, hsession, henters⟩ | ⟨-, hsession, hsteady⟩
  · rw [hsession]
    refine
      { peer_eq := rfl
        link_eq := rfl
        ended := id
        spares := henters.spares
        tidy := ?_ }
    intro h
    refine ⟨?_, fun hended => ?_, fun hended => ?_⟩
    · intro id standing hstanding howner
      rw [henters.standing?_eq] at hstanding
      by_cases heq : id = realm
      · exact ⟨congrArg some heq.symm, fun hended => absurd (hopen.symm.trans hended) nofun⟩
      · rw [if_neg heq] at hstanding
        have hrealm := (h.owned hstanding howner).1
        rw [hunbound] at hrealm
        cases hrealm
    · exact absurd (hopen.symm.trans hended) nofun
    · exact absurd (hopen.symm.trans hended) nofun
  · rw [hsession]
    exact serves_aside c c rfl rfl hsteady

private theorem serves_finish (c : Connection) (hub : Hub σ) : c.Serves hub (c.finish hub) := by
  let closed : Hub σ := { hub with links := hub.links.close c.session.link }
  have hlinks : (c.finish hub).2.links = closed.links := c.session.links_release closed
  refine
    { peer_eq := rfl
      link_eq := rfl
      ended := fun _ => rfl
      spares := ?_
      tidy := ?_ }
  · have hnoted : (c.session.release closed).Steady (c.finish hub).2 := ⟨rfl, fun _ => rfl⟩
    exact (hub.spares_setState c.session.link (by decide)).trans
      ((c.session.spares_release closed).trans (hnoted.spares _))
  · intro h
    refine ⟨?_, fun _ => rfl, fun _ => ?_⟩
    · intro id standing hstanding howner
      have hbefore : ∀ {id standing}, closed.realms.standing? id = some standing →
          standing.owner = some c.session.link → c.session.state.realm = some id :=
        fun hstanding howner => (h.owned hstanding howner).1
      have hgiven := Session.standing_release hbefore hstanding howner
      exact ⟨hgiven.1, fun _ => hgiven.2⟩
    · rw [hlinks]
      show (hub.links.close c.session.link).isLive c.session.link = false
      rw [Links.close, Links.isLive_setState _ _ _ (by decide), if_pos rfl]

omit [Transport σ] in
/-- A notice is taken down first. -/
theorem serves_noted (notice : Notice) {after : Connection × Hub σ}
    (h : c.Serves (hub.note notice) after) : c.Serves hub after := by
  have hnoted : c.Serves hub (c, hub.note notice) := serves_aside c c rfl rfl ⟨rfl, fun _ => rfl⟩
  exact hnoted.trans h

private theorem serves_fail (c : Connection) (what : Writing) (reason : String) (hub : Hub σ) :
    c.Serves hub (c.fail what reason hub) := serves_noted _ (serves_finish c _)

private theorem serves_send (c : Connection) (hopen : c.hasEnded = false) (what : Writing)
    (envelope : Envelope) (hub : Hub σ) : c.Serves hub (c.send what envelope hub) := by
  unfold send
  cases envelope.encode with
  | error cause => exact serves_fail c what _ hub
  | ok bytes =>
    exact serves_open c { c with phase := .writing what bytes } rfl rfl rfl hopen rfl
      ⟨rfl, fun _ => rfl⟩

/-- Handling envelopes is nothing to other connections. -/
theorem serves_process (c : Connection) (hopen : c.hasEnded = false)
    (discarded : Option Discarded) (now : Instant) (hub : Hub σ) (frames : List Envelope) :
    c.Serves hub (c.process discarded now hub frames) := by
  induction frames generalizing c hub with
  | nil =>
    refine serves_open c { c with phase := .idle } rfl rfl rfl hopen rfl ?_
    cases discarded <;> exact ⟨rfl, fun _ => rfl⟩
  | cons envelope rest ih =>
    have hdispatch := serves_dispatch hopen envelope now hub
    unfold process
    generalize c.session.dispatch envelope now hub = result at hdispatch
    obtain ⟨reply, session, hub'⟩ := result
    dsimp only at hdispatch ⊢
    cases reply with
    | none => exact hdispatch.trans (ih { c with session } hopen hub')
    | some reply => exact hdispatch.trans (serves_send { c with session } hopen _ reply hub')

private theorem serves_read (c : Connection) (hopen : c.hasEnded = false) (now : Instant)
    (hub : Hub σ) : c.Serves hub (c.read now hub) := by
  unfold read
  dsimp only
  split
  · exact serves_noted _ (serves_finish c _)
  · let taken : Connection :=
      { c with
        inbound := (c.inbound.pull maxChunk).2
        session.state := c.session.state.rearmDeadline now }
    have htaken : c.Serves hub (taken, hub) :=
      serves_open c taken rfl rfl rfl hopen hopen ⟨rfl, fun _ => rfl⟩
    exact htaken.trans (serves_process taken hopen _ now hub _)

private theorem serves_write (c : Connection) (hopen : c.hasEnded = false) (what : Writing)
    (unsent : List UInt8) (now : Instant) (hub : Hub σ) :
    c.Serves hub (c.write what unsent now hub) := by
  unfold write
  dsimp only
  split
  · exact serves_fail c what _ hub
  let pushed : Connection := { c with outbound := (c.outbound.push unsent).2 }
  split
  · exact serves_open c { pushed with phase := .writing what (c.outbound.push unsent).1 }
      rfl rfl rfl hopen rfl ⟨rfl, fun _ => rfl⟩
  · let written : Connection :=
      { pushed with session.state := c.session.state.postponeHeartbeat now }
    cases what with
    | heartbeat =>
      exact serves_open c { written with phase := .idle } rfl rfl rfl hopen rfl ⟨rfl, fun _ => rfl⟩
    | reply rest =>
      have hwritten : c.Serves hub (written, hub) :=
        serves_open c written rfl rfl rfl hopen hopen ⟨rfl, fun _ => rfl⟩
      exact hwritten.trans (serves_process written hopen _ now hub _)

/-- Whatever event is made to happen. -/
theorem serves_handle (c : Connection) (event : Event) (now : Instant) (hub : Hub σ) :
    c.Serves hub (c.handle event now hub) := by
  unfold handle
  cases hphase : c.phase with
  | idle =>
    have hopen : c.hasEnded = false := by rw [hasEnded, hphase]; rfl
    cases event with
    | shutdown => exact serves_noted _ (serves_finish c _)
    | heartbeat => exact serves_send c hopen _ _ hub
    | deadline => exact serves_noted _ (serves_finish c _)
    | read => exact serves_read c hopen now hub
    | write => exact .refl c hub
  | writing what unsent =>
    have hopen : c.hasEnded = false := by rw [hasEnded, hphase]; rfl
    cases event with
    | shutdown => exact serves_fail c what _ hub
    | deadline => exact serves_fail c what _ hub
    | write => exact serves_write c hopen what unsent now hub
    | heartbeat => exact .refl c hub
    | read => exact .refl c hub
  | ended => cases event <;> exact .refl c hub

/-- A fault is nothing to other connections. -/
theorem serves_breakDown (c : Connection) (reason : String) (hub : Hub σ) :
    c.Serves hub (c.breakDown reason hub) := by
  unfold breakDown
  cases c.phase with
  | idle => exact serves_noted _ (serves_finish c _)
  | writing what unsent => exact serves_fail c what reason hub
  | ended => exact .refl c hub

end Connection

end RealmDirectory
