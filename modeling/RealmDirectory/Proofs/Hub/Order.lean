import Mathlib.Data.List.Nodup
import RealmDirectory.Proofs.Hub.Stamps

/-!
# In which order an admin session is told

A frame says what was so when its call changed the realms, or took the list of them; it is sent
later. So of two frames for a session the one sent first can be the newer one: then the other's call
was under way all the while.

Nothing is lost by that. As long as the session that has the slot was sent everything, the newest
message about each realm, on its way or arrived, says how the realm is (`Relay.Informs`). When no
call is under way it has arrived, and whatever was sent after it came from a call that it overtook.

## Main results

* `Relay.Informs.step` — what a move does to that.
* `Relay.orderly_run` — for every interleaving.
* `Relay.misled` — what it can look like in the session's queue.
-/

namespace RealmDirectory

namespace Relay

variable {σ : Type} {relay after : Relay σ}

/-! ## What a move does to the messages that are on their way -/

/-- A message that is new describes the latest table. -/
theorem Changes.of_carries (h : relay.Changes after) {session : AdminSession} {message : Message}
    {made : Nat} (hcarries : after.Carries session message made) :
    relay.Carries session message made ∨
      made = relay.now ∧ message.Describes after.hub.realms := by
  rcases hcarries with ⟨errand, hmem, hbrings⟩ | ⟨arrival, hmem, hsession, hmessage, hmade⟩
  · rcases h.errand hmem with hold | hspent | hnew
    · exact Or.inl (Or.inl ⟨errand, hold, hbrings⟩)
    · cases hbrings <;> cases hspent
    · cases hnew with
      | announcing hdescribes =>
        cases hbrings
        exact Or.inr ⟨rfl, hdescribes⟩
      | listing hid hslot => cases hbrings
      | addressed hold hcurrent =>
        cases hbrings
        exact Or.inl (Or.inl ⟨_, hold, .announcing⟩)
      | listed hold hrealms =>
        cases hbrings
        exact Or.inr ⟨rfl, congrArg RealmTable.snapshots hrealms.symm⟩
  · rcases h.arrivals with heq | ⟨letter, bytes, hsending, -, heq⟩
    · rw [heq] at hmem
      exact Or.inl (Or.inr ⟨arrival, hmem, hsession, hmessage, hmade⟩)
    · rw [heq, List.mem_append, List.mem_singleton] at hmem
      rcases hmem with hold | rfl
      · exact Or.inl (Or.inr ⟨arrival, hold, hsession, hmessage, hmade⟩)
      · subst hmessage hmade
        exact Or.inl (Or.inl ⟨_, hsending, .sending hsession⟩)

/-- A message stays on its way until it arrives or the session misses it. -/
theorem Changes.carries (h : relay.Changes after) {session : AdminSession}
    (hcurrent : relay.hub.slot.current = some session) (hmissed : session.id ∉ after.missed)
    {message : Message} {made : Nat} (hcarries : relay.Carries session message made) :
    after.Carries session message made := by
  rcases hcarries with ⟨errand, hmem, hbrings⟩ | ⟨arrival, hmem, htold⟩
  · cases h with
    | aside _ _ herrands _ _ => exact Or.inl ⟨errand, by rwa [herrands], hbrings⟩
    | begun _ herrands _ _ =>
      exact Or.inl ⟨errand, by rw [herrands]; exact List.mem_append_left _ hmem, hbrings⟩
    | claimed hvacant _ _ _ _ _ _ => cases hvacant.symm.trans hcurrent
    | @ended place old next hget _ _ _ _ herrands _ _ hlost =>
      by_cases heq : errand = old
      · subst heq
        exact absurd (hlost hcurrent hbrings) hmissed
      · refine Or.inl ⟨errand, ?_, hbrings⟩
        rw [herrands]
        exact mem_set_of_ne _ hmem hget heq
    | @addressed place told time seated hget hseated _ herrands _ _ =>
      rw [hcurrent] at hseated
      cases hseated
      by_cases heq : errand = .announcing told time
      · subst heq
        cases hbrings
        refine Or.inl ⟨.sending ⟨session, .announcement told, made, relay.now⟩, ?_, .sending rfl⟩
        rw [herrands]
        exact mem_set_self _ hget
      · refine Or.inl ⟨errand, ?_, hbrings⟩
        rw [herrands]
        exact mem_set_of_ne _ hmem hget heq
    | listed hget _ herrands _ _ =>
      refine Or.inl ⟨errand, ?_, hbrings⟩
      rw [herrands]
      refine mem_set_of_ne _ hmem hget ?_
      rintro rfl
      cases hbrings
    | @arrived place letter bytes hget _ _ _ herrands harrivals _ =>
      by_cases heq : errand = .sending letter
      · subst heq
        cases hbrings with
        | sending hsession =>
          refine Or.inr ⟨⟨letter, relay.now, bytes⟩, ?_, hsession, rfl, rfl⟩
          rw [harrivals]
          exact List.mem_append_right _ (List.mem_singleton_self _)
      · refine Or.inl ⟨errand, ?_, hbrings⟩
        rw [herrands]
        exact mem_set_of_ne _ hmem hget heq
  · refine Or.inr ⟨arrival, ?_, htold⟩
    rcases h.arrivals with heq | ⟨_, _, _, _, heq⟩
    · rwa [heq]
    · rw [heq]
      exact List.mem_append_left _ hmem

/-- A login that is to take the list still is, or it has taken it. -/
theorem Changes.listing (h : relay.Changes after) {session : AdminSession} {claimed : Nat}
    (hmem : .listing session claimed ∈ relay.errands) :
    .listing session claimed ∈ after.errands ∨ ∃ realms,
      after.Carries session (.list realms) relay.now ∧ realms = after.hub.realms.snapshots := by
  cases h with
  | aside _ _ herrands _ _ => exact Or.inl (by rwa [herrands])
  | begun _ herrands _ _ => exact Or.inl (by rw [herrands]; exact List.mem_append_left _ hmem)
  | claimed _ _ _ _ herrands _ _ =>
    exact Or.inl (by rw [herrands]; exact List.mem_append_left _ hmem)
  | ended hget hlisting _ _ _ herrands _ _ _ =>
    rw [herrands]
    exact Or.inl (mem_set_of_ne _ hmem hget (hlisting _ _).symm)
  | addressed hget _ _ herrands _ _ =>
    rw [herrands]
    exact Or.inl (mem_set_of_ne _ hmem hget nofun)
  | @listed place other time hget hhub herrands _ _ =>
    by_cases heq : Errand.listing session claimed = .listing other time
    · cases heq
      have hmem : .sending ⟨session, .list relay.hub.realms.snapshots, relay.now, claimed⟩ ∈
          after.errands := by
        rw [herrands]
        exact mem_set_self _ hget
      exact Or.inr ⟨_, Or.inl ⟨_, hmem, .sending rfl⟩, congrArg (·.realms.snapshots) hhub.symm⟩
    · rw [herrands]
      exact Or.inl (mem_set_of_ne _ hmem hget heq)
  | arrived hget _ _ _ herrands _ _ =>
    rw [herrands]
    exact Or.inl (mem_set_of_ne _ hmem hget nofun)

/-- The data of a realm are as they were, or what they are now is announced. -/
theorem Changes.info (h : relay.Changes after) {id : UInt32} {record : RealmRecord}
    (hfind : after.hub.realms.find? id = some record) :
    (relay.hub.realms.find? id).map (·.info) = some record.info ∨
      ∃ told, .announcing told relay.now ∈ after.errands ∧
        (Message.announcement told).IsAbout id ∧
        (Message.announcement told).Describes after.hub.realms := by
  -- In most cases the table is the same.
  have hsame : after.hub.realms = relay.hub.realms →
      (relay.hub.realms.find? id).map (·.info) = some record.info := by
    intro hrealms
    rw [← hrealms, hfind]
    rfl
  cases h with
  | aside _ hinfo _ _ _ =>
    left
    rw [← hinfo id, hfind]
    rfl
  | @begun told hbegins herrands _ _ =>
    by_cases habout : ∃ announcement, told = some announcement ∧
        (Message.announcement announcement).IsAbout id
    · obtain ⟨announcement, rfl, habout⟩ := habout
      refine Or.inr ⟨announcement, ?_, habout, hbegins.described rfl⟩
      rw [herrands]
      exact List.mem_append_right _ (List.mem_singleton_self _)
    · exact Or.inl (hbegins.kept hfind fun announcement htold hid =>
        habout ⟨announcement, htold, hid⟩)
  | claimed _ _ _ hrealms _ _ _ => exact Or.inl (hsame hrealms)
  | ended _ _ _ _ hrealms _ _ _ _ => exact Or.inl (hsame hrealms)
  | addressed _ _ hhub _ _ _ => exact Or.inl (hsame (congrArg Hub.realms hhub))
  | listed _ hhub _ _ _ => exact Or.inl (hsame (congrArg Hub.realms hhub))
  | arrived _ _ _ hrealms _ _ _ => exact Or.inl (hsame hrealms)

private theorem Changes.missed_subset (h : relay.Changes after) : relay.missed ⊆ after.missed := by
  have hsame : after.missed = relay.missed → relay.missed ⊆ after.missed := by
    intro heq
    rw [heq]
    exact List.Subset.refl _
  cases h with
  | aside _ _ _ _ hmissed => exact hsame hmissed
  | begun _ _ _ hmissed => exact hsame hmissed
  | claimed _ _ _ _ _ _ hmissed => exact hsame hmissed
  | ended _ _ _ _ _ _ _ hmissed _ => exact hmissed
  | addressed _ _ _ _ _ hmissed => exact hsame hmissed
  | listed _ _ _ _ hmissed => exact hsame hmissed
  | arrived _ _ _ _ _ _ hmissed => exact hsame hmissed

/-- Whoever has the slot had it before, or has just claimed it. -/
theorem Changes.seated (h : relay.Changes after) {session : AdminSession}
    (hcurrent : after.hub.slot.current = some session) :
    relay.hub.slot.current = some session ∨ .listing session relay.now ∈ after.errands := by
  have hkept : relay.KeepsSlot after → relay.hub.slot.current = some session := by
    rintro (heq | heq)
    · rwa [← heq]
    · rw [heq] at hcurrent
      cases hcurrent
  cases h with
  | aside hslot _ _ _ _ => exact Or.inl (hkept hslot)
  | begun hbegins _ _ _ => exact Or.inl (hkept (Or.inl hbegins.slot_eq))
  | claimed _ _ hslot _ herrands _ _ =>
    rw [hslot] at hcurrent
    cases hcurrent
    rw [herrands]
    exact Or.inr (List.mem_append_right _ (List.mem_singleton_self _))
  | ended _ _ _ hslot _ _ _ _ _ => exact Or.inl (hkept hslot)
  | addressed _ _ hhub _ _ _ => exact Or.inl (hkept (Or.inl (congrArg Hub.slot hhub)))
  | listed _ hhub _ _ _ => exact Or.inl (hkept (Or.inl (congrArg Hub.slot hhub)))
  | arrived _ _ hslot _ _ _ _ => exact Or.inl (hkept (Or.inl hslot))

/-! ## What the session that has the slot is told -/

/-- The session was sent the list or will be, and the newest message about each realm, among those
that it was sent or may be sent, says how the realm is. -/
structure Informs (relay : Relay σ) (session : AdminSession) : Prop where
  listed : (∃ claimed, .listing session claimed ∈ relay.errands) ∨
    ∃ realms made, relay.Carries session (.list realms) made
  newest : ∀ {id record}, relay.hub.realms.find? id = some record →
    (∃ claimed, .listing session claimed ∈ relay.errands) ∨
    ∃ message made, relay.Carries session message made ∧ message.IsAbout id ∧
      message.Shows record.info ∧
      ∀ {other late}, relay.Carries session other late → other.IsAbout id → late ≤ made

private theorem Sound.carries_lt (h : relay.Sound) {session : AdminSession} {message : Message}
    {made : Nat} (hcarries : relay.Carries session message made) : made < relay.now := by
  rcases hcarries with ⟨errand, hmem, hbrings⟩ | ⟨arrival, hmem, -, -, rfl⟩
  · cases hbrings with
    | announcing => exact (h.announcing hmem).lt
    | sending _ => exact (h.made (Or.inl hmem)).lt
  · exact (h.made (Or.inr ⟨arrival, hmem, rfl⟩)).lt

namespace Informs

/-- A session that a login claims the slot for will be sent the list. -/
theorem of_listing {session : AdminSession} {claimed : Nat}
    (hmem : .listing session claimed ∈ relay.errands) : relay.Informs session :=
  ⟨Or.inl ⟨claimed, hmem⟩, fun _ => Or.inl ⟨claimed, hmem⟩⟩

private theorem listed_step {session : AdminSession} (h : relay.Informs session)
    (hchanges : relay.Changes after) (hcurrent : relay.hub.slot.current = some session)
    (hmissed : session.id ∉ after.missed) :
    (∃ claimed, .listing session claimed ∈ after.errands) ∨
      ∃ realms made, after.Carries session (.list realms) made := by
  rcases h.listed with ⟨claimed, hmem⟩ | ⟨realms, made, hcarries⟩
  · rcases hchanges.listing hmem with hold | ⟨realms, hcarries, -⟩
    · exact Or.inl ⟨claimed, hold⟩
    · exact Or.inr ⟨realms, _, hcarries⟩
  · exact Or.inr ⟨realms, made, hchanges.carries hcurrent hmissed hcarries⟩

/-- The session keeps the slot and misses nothing. -/
theorem step {session : AdminSession} (h : relay.Informs session) (hsound : relay.Sound)
    (hchanges : relay.Changes after) (hcurrent : relay.hub.slot.current = some session)
    (hmissed : session.id ∉ after.missed) : after.Informs session := by
  refine ⟨h.listed_step hchanges hcurrent hmissed, ?_⟩
  intro id record hfind
  by_cases hfresh : ∃ message, after.Carries session message relay.now ∧ message.IsAbout id ∧
      message.Describes after.hub.realms
  · -- A message that was made by this very move is the newest.
    obtain ⟨message, hcarries, habout, hdescribes⟩ := hfresh
    refine Or.inr ⟨message, relay.now, hcarries, habout, hdescribes.shows habout hfind, ?_⟩
    intro other late hother _
    rcases hchanges.of_carries hother with hold | ⟨rfl, -⟩
    · exact Nat.le_of_lt (hsound.carries_lt hold)
    · exact Nat.le_refl _
  · -- Otherwise nothing new is said of the realm, and its data are as they were.
    rcases hchanges.info hfind with hinfo | ⟨told, hmem, habout, hdescribes⟩
    · obtain ⟨old, hold, hsame⟩ := Option.map_eq_some_iff.mp hinfo
      rcases h.newest hold with ⟨claimed, hmem⟩ | ⟨message, made, hcarries, habout, hshows, hlast⟩
      · rcases hchanges.listing hmem with hold | ⟨realms, hcarries, hrealms⟩
        · exact Or.inl ⟨claimed, hold⟩
        · exact absurd ⟨_, hcarries, trivial, hrealms⟩ hfresh
      · rw [hsame] at hshows
        have hkept := hchanges.carries hcurrent hmissed hcarries
        refine Or.inr ⟨message, made, hkept, habout, hshows, ?_⟩
        intro other late hother hotherAbout
        rcases hchanges.of_carries hother with hold | ⟨rfl, hdescribes⟩
        · exact hlast hold hotherAbout
        · exact absurd ⟨other, hother, hotherAbout, hdescribes⟩ hfresh
    · exact absurd ⟨_, Or.inl ⟨_, hmem, .announcing⟩, habout, hdescribes⟩ hfresh

end Informs

/-! ## Every interleaving -/

/-- What holds after every move. -/
structure Invariant (relay : Relay σ) : Prop where
  sound : relay.Sound
  informs : ∀ {session}, relay.hub.slot.current = some session → session.id ∉ relay.missed →
    relay.Informs session

/-- Before the first move nobody has the slot and nothing is on its way. -/
theorem invariant_start (transport : σ) : (start transport).Invariant :=
  ⟨sound_start transport, nofun⟩

/-- A move keeps the stamps in order, and the session of the slot informed or marked as one that
missed something. -/
theorem Invariant.step (h : relay.Invariant) (hchanges : relay.Changes after)
    (hticks : relay.Ticks after) : after.Invariant := by
  refine ⟨h.sound.step hchanges hticks, ?_⟩
  intro session hcurrent hmissed
  rcases hchanges.seated hcurrent with hseated | hlisting
  · have hkept : session.id ∉ relay.missed := fun hmem => hmissed (hchanges.missed_subset hmem)
    exact (h.informs hseated hkept).step h.sound hchanges hseated hmissed
  · exact .of_listing hlisting

/-- All moves together do, too. -/
theorem Invariant.run [Transport σ] (h : relay.Invariant) (moves : List (Move σ)) :
    (relay.run moves).Invariant := by
  induction moves generalizing relay with
  | nil => exact h
  | cons move moves ih => exact ih (h.step (relay.changes_step move) rfl)

/-- What the sessions are told, in whatever order the calls take their steps. -/
structure Orderly (relay : Relay σ) : Prop where
  /-- A frame is what is written of a message that was so when it was made. -/
  described : ∀ arrival ∈ relay.arrivals, arrival.message.bytes = .ok arrival.bytes ∧
    arrival.made < arrival.sent ∧
    ∃ table, relay.tables[arrival.made]? = some table ∧ arrival.message.Describes table
  /-- Of two frames the first says what was so before, or the other's call was under way during the
  whole of its call. -/
  ordered : relay.arrivals.Pairwise fun first later =>
    first.made < later.made ∨
      later.made < first.made ∧ first.made < first.sent ∧ first.sent < later.sent
  /-- No session is sent two lists. -/
  listed_once : relay.arrivals.Pairwise fun first later => first.session = later.session →
    first.message.isList = true → later.message.isList = false
  /-- When no call is under way, then the session that has the slot, if it has missed nothing, was
  sent the list and knows how every realm is, but for frames of calls that were under way during
  the whole call of the frame that says so. -/
  settled : relay.IsIdle → ∀ {session}, relay.hub.slot.current = some session →
    session.id ∉ relay.missed →
    (∃ list ∈ relay.arrivals, list.session = session ∧ list.message.isList = true) ∧
    ∀ {id record}, relay.hub.realms.find? id = some record → ∃ newest ∈ relay.arrivals,
      newest.session = session ∧ newest.message.IsAbout id ∧ newest.message.Shows record.info ∧
      ∀ late ∈ relay.arrivals, late.session = session → late.message.IsAbout id →
        newest.sent < late.sent → late.made < newest.made

/-- What is on its way when no call is under way has arrived. -/
theorem IsIdle.arrived (h : relay.IsIdle) {session : AdminSession} {message : Message} {made : Nat}
    (hcarries : relay.Carries session message made) : ∃ arrival ∈ relay.arrivals,
      arrival.session = session ∧ arrival.message = message ∧ arrival.made = made := by
  rcases hcarries with ⟨errand, hmem, hbrings⟩ | harrived
  · rw [h errand hmem] at hbrings
    cases hbrings
  · exact harrived

private theorem IsIdle.not_listing (h : relay.IsIdle) {session : AdminSession} :
    ¬∃ claimed, .listing session claimed ∈ relay.errands := by
  rintro ⟨claimed, hmem⟩
  cases h _ hmem

namespace Sound

/-- No two arrivals were made at the same move. -/
theorem arrivals_made_nodup (h : relay.Sound) : (relay.arrivals.map (·.made)).Nodup := by
  have hnodup := h.made_nodup.sublist (List.sublist_append_right _ _)
  rwa [show (Errand.made? <| .sending ·.toLetter) = some ∘ (fun arrival : Arrival => arrival.made)
    from rfl, List.filterMap_eq_map] at hnodup

/-- Stamps are given once, so that of two frames either was made first. -/
theorem ordered (h : relay.Sound) : relay.arrivals.Pairwise fun first later =>
    first.made < later.made ∨
      later.made < first.made ∧ first.made < first.sent ∧ first.sent < later.sent := by
  have hmade := List.pairwise_map.mp h.arrivals_made_nodup
  refine (hmade.and h.sent_lt).imp_of_mem ?_
  intro first later hfirst _ hpair
  have hbefore := (h.arrived first hfirst).2.1
  omega

/-- Whatever a session is sent before its list was addressed to it after the slot was claimed for
it. -/
theorem opening (h : relay.Sound) : relay.arrivals.Pairwise fun first later =>
    later.message.isList = true → first.session = later.session →
    first.message.isList = false ∧ later.fetched < first.fetched ∧ first.fetched < first.sent ∧
      first.sent < later.sent := by
  have hlisted := List.pairwise_filterMap.mp
    (h.listed_nodup.sublist (List.sublist_append_right _ _))
  refine (hlisted.and h.sent_lt).imp_of_mem ?_
  intro first later hfirst hlater hpair hlist hsession
  obtain ⟨hdistinct, hsent⟩ := hpair
  have hevent : first.message.isList = false := by
    by_contra hother
    have hfirst : Errand.listed? (.sending first.toLetter) = some first.session.id :=
      if_pos (Bool.of_not_eq_false hother)
    have hlater : Errand.listed? (.sending later.toLetter) = some later.session.id := if_pos hlist
    exact hdistinct _ hfirst _ hlater (congrArg AdminSession.id hsession)
  refine ⟨hevent, ?_, (h.arrived first hfirst).2.2.1, hsent⟩
  have hopens : relay.Opens later.session later.fetched :=
    Or.inr ⟨later.toLetter, Or.inr ⟨later, hlater, rfl⟩, hlist, rfl, rfl⟩
  exact h.opened hopens (Or.inr ⟨first, hfirst, rfl⟩) hevent hsession

private theorem listed_once (h : relay.Sound) : relay.arrivals.Pairwise fun first later =>
    first.session = later.session → first.message.isList = true →
      later.message.isList = false := by
  refine h.opening.imp ?_
  intro first later hopening hsession hfirst
  by_contra hlater
  have hevent := (hopening (Bool.of_not_eq_false hlater) hsession).1
  rw [hfirst] at hevent
  cases hevent

end Sound

/-- With no call under way, the newest message about a realm has arrived and shows how it is. -/
theorem Invariant.settled (h : relay.Invariant) (hidle : relay.IsIdle) {session : AdminSession}
    (hcurrent : relay.hub.slot.current = some session) (hmissed : session.id ∉ relay.missed) :
    (∃ list ∈ relay.arrivals, list.session = session ∧ list.message.isList = true) ∧
    ∀ {id record}, relay.hub.realms.find? id = some record → ∃ newest ∈ relay.arrivals,
      newest.session = session ∧ newest.message.IsAbout id ∧ newest.message.Shows record.info ∧
      ∀ late ∈ relay.arrivals, late.session = session → late.message.IsAbout id →
        newest.sent < late.sent → late.made < newest.made := by
  have hinforms := h.informs hcurrent hmissed
  constructor
  · obtain ⟨realms, made, hcarries⟩ := hinforms.listed.resolve_left hidle.not_listing
    obtain ⟨list, hmem, hsession, hmessage, -⟩ := hidle.arrived hcarries
    exact ⟨list, hmem, hsession, by rw [hmessage]; rfl⟩
  · intro id record hfind
    obtain ⟨message, made, hcarries, habout, hshows, hlast⟩ :=
      (hinforms.newest hfind).resolve_left hidle.not_listing
    obtain ⟨newest, hnewest, hsession, rfl, rfl⟩ := hidle.arrived hcarries
    refine ⟨newest, hnewest, hsession, habout, hshows, ?_⟩
    intro late hlate hlateSession hlateAbout hsent
    have hle := hlast (Or.inr ⟨late, hlate, hlateSession, rfl, rfl⟩) hlateAbout
    have hne : late.made ≠ newest.made := by
      intro heq
      have hsame := List.inj_on_of_nodup_map h.sound.arrivals_made_nodup hlate hnewest heq
      exact absurd hsent (by rw [hsame]; exact Nat.lt_irrefl _)
    omega

/-- However the steps of the calls are interleaved, what a session is sent comes in the order of the
changes as far as its calls do, and in the end says how every realm is. -/
theorem orderly_run [Transport σ] (transport : σ) (moves : List (Move σ)) :
    ((start transport).run moves).Orderly := by
  have h := (invariant_start transport).run moves
  refine
    { described := ?_
      ordered := h.sound.ordered
      listed_once := h.sound.listed_once
      settled := h.settled }
  intro arrival hmem
  obtain ⟨hbytes, hmade, -, -⟩ := h.sound.arrived arrival hmem
  exact ⟨hbytes, hmade, h.sound.made (Or.inr ⟨arrival, hmem, rfl⟩)⟩

/-- A status can be queued after a newer one, and a queue that is full when a status is sent never
tells of it. -/
theorem misled :
    let record : RealmRecord :=
      .ofRegistration ⟨7, "Realm 7", 8085, 200, 50, .player, ⟨0⟩, .normal, .english, []⟩
        "10.0.0.5" none
    let told (online : Bool) : Option (List UInt8) :=
      (Message.announcement (.status (record.setOnline online).info.status)).bytes.toOption
    let visited (capacity : Nat) (moves : List (Move Mailboxes)) : Relay Mailboxes :=
      (start (Mailboxes.empty.add capacity).2).run
        ([.call (.register record) rfl, .go 0, .claim 0] ++ moves)
    let queue (relay : Relay Mailboxes) : List (List UInt8) :=
      ((relay.hub.transport.get? 0).map (·.frames)).getD []
    let online (relay : Relay Mailboxes) : Option Bool :=
      (relay.hub.realms.find? 7).map (·.isOnline)
    let overtaken := visited 3 [.go 1, .go 1, .call (.setOnline 7 false) rfl,
      .call (.setOnline 7 true) rfl, .go 3, .go 3, .go 2, .go 2]
    let full := visited 1 [.go 1, .go 1, .call (.setOnline 7 false) rfl, .go 2, .go 2, .go 2]
    (overtaken.IsIdle ∧ overtaken.missed = [] ∧ online overtaken = some true ∧
      (queue overtaken).getLast? = told false) ∧
    full.IsIdle ∧ full.hub.slot.current = some ⟨1, 0⟩ ∧ online full = some false ∧
      (Message.list [(record.setOnline true).info]).bytes.toOption.map ([·]) =
        some (queue full) := by
  decide +kernel

end Relay

end RealmDirectory
