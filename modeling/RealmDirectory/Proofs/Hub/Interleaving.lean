import RealmDirectory.Proofs.Hub.Relay

/-!
# What a move changes

A message says something of one realm or, if it is a list, of all of them. The first step of a call
announces what it changes: the announcement describes the table as it is then, and no other realm
has new data (`Hub.begins`). The other steps look at the table at most.

`Relay.Changes` says everything that a move can come to. The rest is read off it: which errands are
new after a move, and what has arrived, and that the number of a session is never used again.

## Main results

* `Hub.begins` — the first step of a call.
* `Relay.changes_step` — a move.
* `Relay.Changes.errand`, `Relay.Changes.arrivals`, `Relay.Changes.slot` — its parts.
-/

namespace RealmDirectory

variable {σ : Type}

/-! ## What a message says -/

namespace Message

/-- The message says something of the realm. -/
def IsAbout (id : UInt32) : Message → Prop
  | .announcement (.realm snapshot) => snapshot.id = id
  | .announcement (.status change) => change.id = id
  | .list _ => True

/-- What the message says is so in the table. -/
def Describes (table : RealmTable) : Message → Prop
  | .announcement (.realm snapshot) => (table.find? snapshot.id).map (·.info) = some snapshot
  | .announcement (.status change) => (table.find? change.id).map (·.info.status) = some change
  | .list realms => realms = table.snapshots

/-- What the message says of a realm agrees with the data of the realm. -/
def Shows (info : Snapshot) : Message → Prop
  | .announcement (.realm snapshot) => snapshot = info
  | .announcement (.status change) => change = info.status
  | .list realms => info ∈ realms

/-- A message that describes the table shows every realm that it is about as it is. -/
theorem Describes.shows {table : RealmTable} {message : Message} (h : message.Describes table)
    {id : UInt32} (habout : message.IsAbout id) {record : RealmRecord}
    (hfind : table.find? id = some record) : message.Shows record.info := by
  cases message with
  | announcement told =>
    cases told with
    | realm snapshot =>
      obtain rfl : snapshot.id = id := habout
      simpa [Describes, hfind, Shows, eq_comm] using h
    | status change =>
      obtain rfl : change.id = id := habout
      simpa [Describes, hfind, Shows, eq_comm] using h
  | list realms =>
    obtain rfl : realms = table.snapshots := h
    exact List.mem_map_of_mem (RealmTable.find?_eq_some_iff.mp hfind).1

end Message

/-! ## What a call changes -/

private theorem RealmTable.info_adjust {table : RealmTable} {id : UInt32}
    {change : RealmRecord → RealmRecord} {other : UInt32} {record : RealmRecord}
    (hfind : (table.adjust id change).find? other = some record)
    (hid : ∀ record, (change record).id = record.id)
    (hinfo : ∀ record, (change record).info = record.info) :
    (table.find? other).map (·.info) = some record.info := by
  rw [find?_adjust _ _ _ hid] at hfind
  split at hfind
  · next heq =>
    obtain ⟨old, hold, rfl⟩ := Option.map_eq_some_iff.mp hfind
    rw [heq, hold, hinfo]
    rfl
  · rw [hfind]
    rfl

/-- What the first step of a call does: it announces what it changes. -/
structure Hub.Begins (hub : Hub σ) (told : Option Announcement) (after : Hub σ) : Prop where
  slot_eq : after.slot = hub.slot
  described : ∀ {announcement}, told = some announcement →
    (Message.announcement announcement).Describes after.realms
  kept : ∀ {id record}, after.realms.find? id = some record →
    (∀ announcement, told = some announcement → ¬(Message.announcement announcement).IsAbout id) →
    (hub.realms.find? id).map (·.info) = some record.info

namespace Hub

/-- A record that is put in is announced as it is, or it has the data of the one before. -/
theorem begins_put (hub : Hub σ) (record : RealmRecord) {told : Option Announcement}
    {after : Hub σ} (hslot : after.slot = hub.slot) (hrealms : after.realms = hub.realms.put record)
    (htold : told = some (.realm record.info) ∨ told = some (.status record.info.status) ∨
      told = none ∧ (hub.realms.find? record.id).map (·.info) = some record.info) :
    hub.Begins told after := by
  have hself : after.realms.find? record.id = some record := by
    rw [hrealms, RealmTable.find?_put, if_pos rfl]
  refine ⟨hslot, ?_, ?_⟩
  · rintro announcement rfl
    rcases htold with h | h | ⟨h, -⟩
    · cases h
      exact congrArg (Option.map (·.info)) hself
    · cases h
      exact congrArg (Option.map (·.info.status)) hself
    · cases h
  · intro id other hfind hnot
    rw [hrealms, RealmTable.find?_put] at hfind
    by_cases hid : record.id = id
    · rw [if_pos hid] at hfind
      cases hfind
      rcases htold with h | h | ⟨-, h⟩
      · exact absurd hid (hnot _ h)
      · exact absurd hid (hnot _ h)
      · rwa [hid] at h
    · rw [if_neg hid] at hfind
      rw [hfind]
      rfl

/-- A change of the offline mark is announced. -/
theorem begins_mark (hub : Hub σ) {id : UInt32} {record : RealmRecord}
    (hfind : hub.realms.find? id = some record) (online : Bool) (after : Hub σ)
    (hslot : after.slot = hub.slot) (hrealms : after.realms = (hub.realms.mark record online).2) :
    hub.Begins ((hub.realms.mark record online).1.map .status) after := by
  refine hub.begins_put (record.setOnline online) hslot hrealms ?_
  unfold RealmTable.mark
  dsimp only
  split
  · next hflags =>
    refine Or.inr (Or.inr ⟨rfl, ?_⟩)
    have hinfo : (record.setOnline online).info = record.info := by
      show { record.info with flags := record.info.flags.setOnline online } = record.info
      rw [show record.info.flags.setOnline online = record.info.flags from hflags]
    rw [RealmRecord.id_setOnline, RealmTable.id_of_find? hfind, hfind, hinfo]
    rfl
  · exact Or.inr (Or.inl rfl)

/-- Nothing is announced, and no data of a realm changes. -/
theorem begins_quiet {hub after : Hub σ} (hslot : after.slot = hub.slot)
    (hrealms : ∀ {id record}, after.realms.find? id = some record →
      (hub.realms.find? id).map (·.info) = some record.info) : hub.Begins none after :=
  ⟨hslot, nofun, fun hfind _ => hrealms hfind⟩

private theorem begins_refl (hub : Hub σ) : hub.Begins none hub :=
  begins_quiet rfl fun hfind => congrArg (Option.map (·.info)) hfind

variable [Transport σ]

/-- The first step of a call changes the table and announces exactly that. -/
theorem begins (hub : Hub σ) {op : Operation} (h : op.isAboutSlot = false) :
    hub.Begins (hub.begin op).1 (hub.begin op).2 := by
  cases op with
  | register record =>
    unfold begin RealmTable.register
    dsimp only
    cases hub.realms.find? (record.setOnline true).id with
    | none => exact hub.begins_put (record.setOnline true) rfl rfl (Or.inl rfl)
    | some existing =>
      by_cases hlive : existing.hasLiveOwner hub.links = true
      · simp only [if_pos hlive]
        exact hub.begins_refl
      · simp only [if_neg hlive]
        exact hub.begins_put ((record.setOnline true).inherit existing) rfl rfl (Or.inl rfl)
  | setOnline id online =>
    unfold begin RealmTable.setOnline
    dsimp only
    cases hfind : hub.realms.find? id with
    | none => exact hub.begins_refl
    | some record => exact hub.begins_mark hfind online _ rfl rfl
  | release id link =>
    unfold begin RealmTable.release?
    dsimp only
    cases hfind : hub.realms.find? id with
    | none => exact hub.begins_refl
    | some record =>
      by_cases howned : record.isOwnedBy link = true
      · simp only [if_pos howned]
        have hbegins := hub.begins_mark hfind false
        rcases hmark : hub.realms.mark record false with ⟨_ | change, realms⟩
        · rw [hmark] at hbegins
          exact hbegins _ rfl rfl
        · rw [hmark] at hbegins
          exact hbegins _ rfl rfl
      · simp only [if_neg howned]
        exact hub.begins_refl
  | report id status =>
    unfold begin RealmTable.report
    dsimp only
    cases hub.realms.find? id with
    | none => exact hub.begins_refl
    | some record => exact hub.begins_put (record.report status) rfl rfl (Or.inr (Or.inl rfl))
  | append id line now =>
    refine begins_quiet ?_ ?_
    · show (hub.append id line now).2.slot = hub.slot
      unfold append
      split <;> rfl
    · show ∀ {other record}, (hub.append id line now).2.realms.find? other = some record → _
      rw [(hub.registry_append id line now).1]
      intro other record hfind
      exact RealmTable.info_adjust hfind (fun _ => rfl) fun _ => rfl
  | clearLog id =>
    refine begins_quiet ?_ ?_
    · show (hub.clearLog id).2.slot = hub.slot
      unfold clearLog
      split <;> rfl
    · show ∀ {other record}, (hub.clearLog id).2.realms.find? other = some record → _
      rw [(hub.registry_clearLog id).1]
      intro other record hfind
      exact RealmTable.info_adjust hfind (fun _ => rfl) fun _ => rfl
  | remove id =>
    refine begins_quiet ?_ ?_
    · show (hub.remove id).2.slot = hub.slot
      unfold remove
      split <;> rfl
    · show ∀ {other record}, (hub.remove id).2.realms.find? other = some record → _
      rw [(hub.registry_remove id).1]
      intro other record hfind
      rw [RealmTable.find?_erase] at hfind
      split at hfind
      · cases hfind
      · rw [hfind]
        rfl
  | login sink current => cases h
  | evict session => cases h

end Hub

/-! ## What a move changes -/

namespace Errand

/-- There is nothing more that a session could be sent. -/
def isSpent : Errand → Bool
  | .failing _ _ => true
  | .done => true
  | _ => false

/-- The errand has a message that a session may be sent, made at the given move. -/
inductive Brings (session : AdminSession) : Errand → Message → Nat → Prop
  | announcing {told : Announcement} {made : Nat} :
    Brings session (.announcing told made) (.announcement told) made
  | sending {letter : Letter} (h : letter.session = session) :
    Brings session (.sending letter) letter.message letter.made

end Errand

namespace Relay

/-- The slot is as it was, or it has been emptied. -/
def KeepsSlot (relay after : Relay σ) : Prop :=
  after.hub.slot = relay.hub.slot ∨ after.hub.slot = ⟨none, relay.hub.slot.nextId⟩

/-- Everything that a move can come to, but for the clock. -/
inductive Changes (relay after : Relay σ) : Prop
  /-- No call has a part in it. -/
  | aside (hslot : relay.KeepsSlot after)
      (hinfo : ∀ id, (after.hub.realms.find? id).map (·.info) =
        (relay.hub.realms.find? id).map (·.info))
      (herrands : after.errands = relay.errands) (harrivals : after.arrivals = relay.arrivals)
      (hmissed : after.missed = relay.missed)
  | begun {told : Option Announcement} (hbegins : relay.hub.Begins told after.hub)
      (herrands : after.errands = relay.errands ++ (told.map (.announcing · relay.now)).toList)
      (harrivals : after.arrivals = relay.arrivals) (hmissed : after.missed = relay.missed)
  | claimed {session : AdminSession} (hvacant : relay.hub.slot.current = none)
      (hid : session.id = relay.hub.slot.nextId)
      (hslot : after.hub.slot = ⟨some session, relay.hub.slot.nextId + 1⟩)
      (hrealms : after.hub.realms = relay.hub.realms)
      (herrands : after.errands = relay.errands ++ [.listing session relay.now])
      (harrivals : after.arrivals = relay.arrivals) (hmissed : after.missed = relay.missed)
  /-- An errand comes to nothing, or it is over. -/
  | ended {place : Nat} {errand next : Errand} (hget : relay.errands[place]? = some errand)
      (hlisting : ∀ session claimed, errand ≠ .listing session claimed)
      (hspent : next.isSpent = true) (hslot : relay.KeepsSlot after)
      (hrealms : after.hub.realms = relay.hub.realms)
      (herrands : after.errands = relay.errands.set place next)
      (harrivals : after.arrivals = relay.arrivals) (hmissed : relay.missed ⊆ after.missed)
      (hlost : ∀ {session message made}, relay.hub.slot.current = some session →
        errand.Brings session message made → session.id ∈ after.missed)
  | addressed {place : Nat} {told : Announcement} {made : Nat} {session : AdminSession}
      (hget : relay.errands[place]? = some (.announcing told made))
      (hcurrent : relay.hub.slot.current = some session) (hhub : after.hub = relay.hub)
      (herrands : after.errands = relay.errands.set place
        (.sending ⟨session, .announcement told, made, relay.now⟩))
      (harrivals : after.arrivals = relay.arrivals) (hmissed : after.missed = relay.missed)
  | listed {place : Nat} {session : AdminSession} {claimed : Nat}
      (hget : relay.errands[place]? = some (.listing session claimed))
      (hhub : after.hub = relay.hub)
      (herrands : after.errands = relay.errands.set place
        (.sending ⟨session, .list relay.hub.realms.snapshots, relay.now, claimed⟩))
      (harrivals : after.arrivals = relay.arrivals) (hmissed : after.missed = relay.missed)
  | arrived {place : Nat} {letter : Letter} {bytes : List UInt8}
      (hget : relay.errands[place]? = some (.sending letter))
      (hbytes : letter.message.bytes = .ok bytes) (hslot : after.hub.slot = relay.hub.slot)
      (hrealms : after.hub.realms = relay.hub.realms)
      (herrands : after.errands = relay.errands.set place .done)
      (harrivals : after.arrivals = relay.arrivals ++ [⟨letter, relay.now, bytes⟩])
      (hmissed : after.missed = relay.missed)

private theorem keepsSlot_without {relay after : Relay σ} {id : Nat}
    (h : after.hub.slot = relay.hub.slot.without id) : relay.KeepsSlot after := by
  rcases relay.hub.slot.without_cases id with ⟨-, heq⟩ | ⟨session, -, -, heq⟩
  · exact Or.inl (h.trans heq)
  · exact Or.inr (h.trans heq)

/-- Nothing at all happens. -/
theorem changes_refl (relay : Relay σ) : relay.Changes relay :=
  .aside (Or.inl rfl) (fun _ => rfl) rfl rfl rfl

variable {relay : Relay σ} {place : Nat}

private theorem changes_announce {told : Announcement} {made : Nat}
    (hget : relay.errands[place]? = some (.announcing told made)) :
    relay.Changes (relay.announce place told made) := by
  unfold announce
  cases told.frame with
  | error cause =>
    refine .ended hget nofun rfl (Or.inl rfl) rfl rfl rfl (List.subset_append_left _ _) ?_
    intro session message made hcurrent _
    simp [hcurrent]
  | ok frame =>
    cases hcurrent : relay.hub.slot.current with
    | none =>
      refine .ended hget nofun rfl (Or.inl rfl) rfl rfl rfl (List.Subset.refl _) ?_
      intro session message made hsome _
      cases hcurrent.symm.trans hsome
    | some session => exact .addressed hget hcurrent rfl rfl rfl rfl

variable [Transport σ]

private theorem changes_send {letter : Letter}
    (hget : relay.errands[place]? = some (.sending letter)) :
    relay.Changes (relay.send place letter) := by
  -- Whatever keeps the message from being taken, its session has missed it.
  have hlost : ∀ {session message made} {missed : List Nat}, letter.session.id ∈ missed →
      (Errand.sending letter).Brings session message made → session.id ∈ missed := by
    rintro session _ _ missed hmem (_ | hsession)
    rwa [← hsession]
  unfold send
  cases hbytes : letter.message.bytes with
  | error cause =>
    exact .ended hget nofun rfl (Or.inl rfl) rfl rfl rfl (List.subset_append_left _ _)
      fun _ => hlost (by simp)
  | ok bytes =>
    dsimp only
    split
    · exact .arrived hget hbytes rfl rfl rfl rfl rfl
    · exact .ended hget nofun rfl (Or.inl rfl) rfl rfl rfl (List.subset_append_left _ _)
        fun _ => hlost (by simp)

private theorem changes_advance {errand : Errand} (hget : relay.errands[place]? = some errand) :
    relay.Changes (relay.advance place errand) := by
  cases errand with
  | announcing told made => exact changes_announce hget
  | listing session claimed => exact .listed hget rfl rfl rfl rfl
  | sending letter => exact changes_send hget
  | failing session cause =>
    have hslot : relay.KeepsSlot (relay.advance place (.failing session cause)) := by
      cases cause with
      | full => exact Or.inl rfl
      | closed => exact keepsSlot_without (Hub.slot_evict _ _)
    exact .ended hget nofun rfl hslot (Hub.registry_sinkFailed _ _ _).1 rfl rfl
      (List.Subset.refl _) nofun
  | done => exact changes_refl relay

/-- A move comes to nothing else. -/
theorem changes (relay : Relay σ) (move : Move σ) : relay.Changes (relay.change move) := by
  cases move with
  | call op hop => exact .begun (relay.hub.begins hop) rfl rfl rfl
  | claim sink =>
    unfold change AdminSlot.claim?
    cases hcurrent : relay.hub.slot.current with
    | some session =>
      exact changes_refl relay
    | none => exact .claimed hcurrent rfl rfl rfl rfl rfl rfl
  | evict session =>
    have hrealms := (relay.hub.registry_evict session).1
    exact .aside (keepsSlot_without (relay.hub.slot_evict session))
      (fun id => congrArg (fun realms => (RealmTable.find? realms id).map (·.info)) hrealms)
      rfl rfl rfl
  | go place =>
    unfold change
    dsimp only
    cases hget : relay.errands[place]? with
    | none => exact changes_refl relay
    | some errand => exact changes_advance hget
  | mark id stamp =>
    have halike := relay.hub.realms.alike_setCheckpoint id stamp
    exact .aside (Or.inl rfl) (fun other => (halike.map_find?_eq (fun _ => rfl) other).symm)
      rfl rfl rfl
  | surroundings links transport notices =>
    exact .aside (Or.inl rfl) (fun _ => rfl) rfl rfl rfl

omit [Transport σ] in
/-- The tables that are remembered play no part in what a move can do. -/
theorem Changes.tick {relay after : Relay σ} (h : relay.Changes after) (tables : List RealmTable) :
    relay.Changes { after with tables } := by
  cases h with
  | aside hslot hinfo herrands harrivals hmissed =>
    exact .aside hslot hinfo herrands harrivals hmissed
  | begun hbegins herrands harrivals hmissed => exact .begun hbegins herrands harrivals hmissed
  | claimed hvacant hid hslot hrealms herrands harrivals hmissed =>
    exact .claimed hvacant hid hslot hrealms herrands harrivals hmissed
  | ended hget hlisting hspent hslot hrealms herrands harrivals hmissed hlost =>
    exact .ended hget hlisting hspent hslot hrealms herrands harrivals hmissed hlost
  | addressed hget hcurrent hhub herrands harrivals hmissed =>
    exact .addressed hget hcurrent hhub herrands harrivals hmissed
  | listed hget hhub herrands harrivals hmissed =>
    exact .listed hget hhub herrands harrivals hmissed
  | arrived hget hbytes hslot hrealms herrands harrivals hmissed =>
    exact .arrived hget hbytes hslot hrealms herrands harrivals hmissed

/-- A move with the clock comes to nothing else, either. -/
theorem changes_step (relay : Relay σ) (move : Move σ) : relay.Changes (relay.step move) :=
  (relay.changes move).tick _

end Relay

/-! ## What is on its way -/

namespace Relay

/-- A message is on its way to a session, or it has arrived. -/
def Carries (relay : Relay σ) (session : AdminSession) (message : Message) (made : Nat) : Prop :=
  (∃ errand ∈ relay.errands, errand.Brings session message made) ∨
    ∃ arrival ∈ relay.arrivals,
      arrival.session = session ∧ arrival.message = message ∧ arrival.made = made

/-- A letter is about to be sent, or it has arrived. -/
def HasLetter (relay : Relay σ) (letter : Letter) : Prop :=
  .sending letter ∈ relay.errands ∨ ∃ arrival ∈ relay.arrivals, arrival.toLetter = letter

/-- A letter brings its message to its session. -/
theorem HasLetter.carries {relay : Relay σ} {letter : Letter} (h : relay.HasLetter letter) :
    relay.Carries letter.session letter.message letter.made := by
  rcases h with hsending | ⟨arrival, hmem, rfl⟩
  · exact Or.inl ⟨_, hsending, .sending rfl⟩
  · exact Or.inr ⟨arrival, hmem, rfl, rfl, rfl⟩

theorem mem_set_of_ne {α : Type} {l : List α} {place : Nat} {a old : α} (next : α) (hmem : a ∈ l)
    (hget : l[place]? = some old) (hne : a ≠ old) : a ∈ l.set place next := by
  obtain ⟨other, hother⟩ := List.mem_iff_getElem?.mp hmem
  refine List.mem_iff_getElem?.mpr ⟨other, ?_⟩
  have hplace : place ≠ other := by
    rintro rfl
    exact hne (Option.some.inj (hother.symm.trans hget))
  rw [List.getElem?_set_ne hplace]
  exact hother

theorem mem_set_self {α : Type} {l : List α} {place : Nat} {old : α} (next : α)
    (hget : l[place]? = some old) : next ∈ l.set place next := by
  obtain ⟨hlt, -⟩ := List.getElem?_eq_some_iff.mp hget
  exact List.mem_iff_getElem?.mpr ⟨place, List.getElem?_set_self hlt⟩

variable {relay after : Relay σ}

/-- An errand that is new after a move, or that a move has turned an old one into. -/
inductive Begets (relay after : Relay σ) : Errand → Prop
  | announcing {told : Announcement}
      (hdescribes : (Message.announcement told).Describes after.hub.realms) :
    Begets relay after (.announcing told relay.now)
  | listing {session : AdminSession} (hid : session.id = relay.hub.slot.nextId)
      (hslot : after.hub.slot.nextId = relay.hub.slot.nextId + 1) :
    Begets relay after (.listing session relay.now)
  | addressed {told : Announcement} {made : Nat} {session : AdminSession}
      (hmem : .announcing told made ∈ relay.errands)
      (hcurrent : relay.hub.slot.current = some session) :
    Begets relay after (.sending ⟨session, .announcement told, made, relay.now⟩)
  | listed {session : AdminSession} {claimed : Nat}
      (hmem : .listing session claimed ∈ relay.errands)
      (hrealms : after.hub.realms = relay.hub.realms) :
    Begets relay after (.sending ⟨session, .list relay.hub.realms.snapshots, relay.now, claimed⟩)

/-- After a move, an errand was there before, is spent, or was begotten by the move. -/
theorem Changes.errand (h : relay.Changes after) {errand : Errand} (hmem : errand ∈ after.errands) :
    errand ∈ relay.errands ∨ errand.isSpent = true ∨ relay.Begets after errand := by
  cases h with
  | aside _ _ herrands _ _ =>
    rw [herrands] at hmem
    exact Or.inl hmem
  | begun hbegins herrands _ _ =>
    rw [herrands, List.mem_append] at hmem
    rcases hmem with hold | hnew
    · exact Or.inl hold
    · obtain ⟨told, htold, rfl⟩ := Option.map_eq_some_iff.mp (Option.mem_toList.mp hnew)
      exact Or.inr (Or.inr (.announcing (hbegins.described htold)))
  | claimed _ hid hslot _ herrands _ _ =>
    rw [herrands, List.mem_append, List.mem_singleton] at hmem
    rcases hmem with hold | rfl
    · exact Or.inl hold
    · exact Or.inr (Or.inr (.listing hid (congrArg AdminSlot.nextId hslot)))
  | ended _ _ hspent _ _ herrands _ _ _ =>
    rw [herrands] at hmem
    rcases List.mem_or_eq_of_mem_set hmem with hold | rfl
    · exact Or.inl hold
    · exact Or.inr (Or.inl hspent)
  | addressed hget hcurrent _ herrands _ _ =>
    rw [herrands] at hmem
    rcases List.mem_or_eq_of_mem_set hmem with hold | rfl
    · exact Or.inl hold
    · exact Or.inr (Or.inr (.addressed (List.mem_of_getElem? hget) hcurrent))
  | listed hget hhub herrands _ _ =>
    rw [herrands] at hmem
    rcases List.mem_or_eq_of_mem_set hmem with hold | rfl
    · exact Or.inl hold
    · exact Or.inr (Or.inr (.listed (List.mem_of_getElem? hget) (congrArg Hub.realms hhub)))
  | arrived _ _ _ _ herrands _ _ =>
    rw [herrands] at hmem
    rcases List.mem_or_eq_of_mem_set hmem with hold | rfl
    · exact Or.inl hold
    · exact Or.inr (Or.inl rfl)

/-- What has arrived was there before, or it has just been sent, after everything else. -/
theorem Changes.arrivals (h : relay.Changes after) :
    after.arrivals = relay.arrivals ∨ ∃ letter bytes, .sending letter ∈ relay.errands ∧
      letter.message.bytes = .ok bytes ∧
      after.arrivals = relay.arrivals ++ [⟨letter, relay.now, bytes⟩] := by
  cases h with
  | aside _ _ _ harrivals _ => exact Or.inl harrivals
  | begun _ _ harrivals _ => exact Or.inl harrivals
  | claimed _ _ _ _ _ harrivals _ => exact Or.inl harrivals
  | ended _ _ _ _ _ _ harrivals _ _ => exact Or.inl harrivals
  | addressed _ _ _ _ harrivals _ => exact Or.inl harrivals
  | listed _ _ _ harrivals _ => exact Or.inl harrivals
  | arrived hget hbytes _ _ _ harrivals _ =>
    exact Or.inr ⟨_, _, List.mem_of_getElem? hget, hbytes, harrivals⟩

/-- A number that was handed out is never handed out again. -/
theorem Changes.slot (h : relay.Changes after) :
    (relay.KeepsSlot after) ∨ relay.hub.slot.current = none ∧
      ∃ session, session.id = relay.hub.slot.nextId ∧
        after.hub.slot = ⟨some session, relay.hub.slot.nextId + 1⟩ := by
  cases h with
  | aside hslot _ _ _ _ => exact Or.inl hslot
  | begun hbegins _ _ _ => exact Or.inl (Or.inl hbegins.slot_eq)
  | claimed hvacant hid hslot _ _ _ _ => exact Or.inr ⟨hvacant, _, hid, hslot⟩
  | ended _ _ _ hslot _ _ _ _ _ => exact Or.inl hslot
  | addressed _ _ hhub _ _ _ => exact Or.inl (Or.inl (congrArg Hub.slot hhub))
  | listed _ hhub _ _ _ => exact Or.inl (Or.inl (congrArg Hub.slot hhub))
  | arrived _ _ hslot _ _ _ _ => exact Or.inl (Or.inl hslot)

/-- A letter was there before, or an errand has just become it. -/
theorem Changes.hasLetter (h : relay.Changes after) {letter : Letter}
    (hletter : after.HasLetter letter) :
    relay.HasLetter letter ∨ relay.Begets after (.sending letter) := by
  rcases hletter with hsending | ⟨arrival, hmem, rfl⟩
  · rcases h.errand hsending with hold | hspent | hnew
    · exact Or.inl (Or.inl hold)
    · cases hspent
    · exact Or.inr hnew
  · rcases h.arrivals with heq | ⟨letter, bytes, hsending, -, heq⟩
    · rw [heq] at hmem
      exact Or.inl (Or.inr ⟨arrival, hmem, rfl⟩)
    · rw [heq, List.mem_append, List.mem_singleton] at hmem
      rcases hmem with hold | rfl
      · exact Or.inl (Or.inr ⟨arrival, hold, rfl⟩)
      · exact Or.inl (Or.inl hsending)

end Relay

end RealmDirectory
