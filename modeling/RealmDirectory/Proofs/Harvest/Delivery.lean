import RealmDirectory.Hub.Mailbox
import RealmDirectory.Proofs.Harvest.Account

/-!
# What the rounds deliver

A run starts with an empty hub and takes any steps: calls to the hub, rounds of the harvester with
lines arriving amid them, and changes of the links and of the transport from outside. Whatever the
sinks answer and whatever the clocks say, a round that reports a delivery has handed over exactly
what the account of each realm says is due, and any other round has handed over nothing and moved
no mark.

A realm that is removed, or whose log is cleared, loses lines for good, so a run that is judged by
the account of a realm must not do that to this realm.

## Main results

* `Tracks.harvestAmid` — one round, given that record and account agree.
* `Tracks.operate` — one call.
* `Chronicle.faithful_run` — a round after any run.
-/

namespace RealmDirectory

variable {σ : Type} [Transport σ]

/-! ## One round -/

/-- What a round does, as it must be for a realm with this account before it. -/
structure Round.Faithful (round : Round σ) (id : UInt32) (account : Account) (hub : Hub σ) :
    Prop where
  /-- One batch is handed over, with what is due of the realm. -/
  sent : ∀ {realms lines : Nat}, round.outcome = .ok (.sent realms lines) →
    ∃ session before batch bytes after,
      hub.slot.current = some session ∧
      batchFrame batch = .ok bytes ∧
      Transport.offer session.sink bytes hub.transport = (.ok (), round.hub.transport) ∧
      round.history = before ++ .delivered batch :: after ∧
      Undelivered (before ++ after) ∧
      (∀ record, hub.realms.find? id = some record → .gathered id ∈ before) ∧
      batch.length = realms ∧ (batch.map (·.lines.length)).foldl (· + ·) 0 = lines ∧
      batch.filter (·.realm = id) = (account.afterAll id before).due id
  /-- Nothing is handed over, and the mark of no realm moves. -/
  unsent : (∀ realms lines, round.outcome ≠ .ok (.sent realms lines)) →
    Undelivered round.history ∧
      (∀ realm, (round.hub.realms.find? realm).map (·.checkpoint) =
        (hub.realms.find? realm).map (·.checkpoint)) ∧
      (round.hub.transport = hub.transport ∨ ∃ session bytes cause,
        hub.slot.current = some session ∧
        Transport.offer session.sink bytes hub.transport = (.error cause, round.hub.transport))

private theorem RealmRecord.checkpoint_append (record : RealmRecord) (line : LogLine)
    (now : Instant) : (record.append line now).checkpoint = record.checkpoint := rfl

private theorem RealmTable.gathered_mem_gatherAmid (arrivals : Arrivals) {id : UInt32}
    {ids : List UInt32} (hid : id ∈ ids) (table : RealmTable) :
    .gathered id ∈ (gatherAmid arrivals ids table).2.1 := by
  induction ids generalizing table with
  | nil => cases hid
  | cons realm rest ih =>
    rw [gatherAmid]
    apply List.mem_append_right
    rcases List.mem_cons.mp hid with rfl | hid
    · exact List.mem_cons_self
    · exact List.mem_cons_of_mem _ (ih hid _)

private theorem RealmTable.mem_ids_of_find? {table : RealmTable} {id : UInt32}
    {record : RealmRecord} (h : table.find? id = some record) : id ∈ table.ids := by
  obtain ⟨hmem, hid⟩ := find?_eq_some_iff.mp h
  exact hid ▸ List.mem_map_of_mem hmem

/-- A round that hands nothing over. -/
theorem Round.faithful_of_unsent {round : Round σ} {id : UInt32} {account : Account} {hub : Hub σ}
    (houtcome : ∀ realms lines, round.outcome ≠ .ok (.sent realms lines))
    (hhistory : Undelivered round.history)
    (hmarks : ∀ realm, (round.hub.realms.find? realm).map (·.checkpoint) =
      (hub.realms.find? realm).map (·.checkpoint))
    (htransport : round.hub.transport = hub.transport ∨ ∃ session bytes cause,
      hub.slot.current = some session ∧
      Transport.offer session.sink bytes hub.transport = (.error cause, round.hub.transport)) :
    round.Faithful id account hub :=
  { sent := fun hsent => absurd hsent (houtcome _ _)
    unsent := fun _ => ⟨hhistory, hmarks, htransport⟩ }

/-- A round does what it must for a realm, and then record and account agree again. -/
theorem Tracks.harvestAmid {hub : Hub σ} {id : UInt32} {account : Account}
    (h : Tracks (hub.realms.find? id) account) (arrivals : Arrivals) :
    (hub.harvestAmid arrivals).Faithful id account hub ∧
      Tracks ((hub.harvestAmid arrivals).hub.realms.find? id)
        (account.afterAll id (hub.harvestAmid arrivals).history) := by
  obtain ⟨found, hfound, hholding⟩ := h.gatherAll arrivals
  have hread := RealmTable.undelivered_gatherAmid arrivals hub.realms.ids hub.realms
  have hmarks := RealmTable.map_find?_gatherAmid RealmRecord.checkpoint_append arrivals
    hub.realms.ids hub.realms
  have hmem := fun record (hrecord : hub.realms.find? id = some record) =>
    RealmTable.gathered_mem_gatherAmid arrivals (RealmTable.mem_ids_of_find? hrecord) hub.realms
  have hround := hub.harvests arrivals
  generalize hub.harvestAmid arrivals = round at hround ⊢
  cases hround with
  | idle =>
    refine ⟨Round.faithful_of_unsent nofun ?_ (fun _ => rfl) (Or.inl rfl), h⟩
    exact fun _ => List.not_mem_nil
  | quiet hgather houtcome =>
    rw [hgather] at hfound hholding hread hmarks
    exact ⟨Round.faithful_of_unsent houtcome hread hmarks (Or.inl rfl), hholding.tracks⟩
  | @refused session gathered read realms bytes cause transport hslot hgather hoffer =>
    rw [hgather] at hfound hholding hread hmarks
    have hlanded := Enduring.land (holding_enduring id found) hholding (arrivals .sending)
    have hregistry := Hub.registry_sinkFailed
      ({ hub with realms := (realms.land (arrivals .sending)).2, transport } : Hub σ)
      session.id cause
    refine ⟨Round.faithful_of_unsent nofun ?_ (fun realm => ?_) ?_, ?_⟩
    · exact hread.append (realms.undelivered_land (arrivals .sending))
    · rw [hregistry.1, RealmTable.map_find?_land RealmRecord.checkpoint_append]
      exact hmarks realm
    · refine Or.inr ⟨session, bytes, cause, hslot, ?_⟩
      rw [Hub.transport_sinkFailed]
      exact hoffer
    · rw [hregistry.1, Account.afterAll_append]
      exact hlanded.tracks
  | @sent session gathered read realms bytes transport hslot hgather hbatch hoffer =>
    rw [hgather] at hfound hholding hread hmarks hmem
    have hlanded := Enduring.land (holding_enduring id found) hholding (arrivals .sending)
    have hsettled := Holding.settleAmid arrivals hfound hlanded
    refine ⟨⟨fun hsent => ?_, fun hnot => absurd rfl (hnot _ _)⟩, ?_⟩
    · cases hsent
      have hbefore := hread.append (realms.undelivered_land (arrivals .sending))
      have hlate := RealmTable.undelivered_settleAmid arrivals gathered
        (realms.land (arrivals .sending)).2
      refine ⟨session, _, _, bytes, _, hslot, hbatch, hoffer, rfl, hbefore.append hlate,
        fun record hrecord => List.mem_append_left _ (hmem record hrecord),
        List.length_map _, by rw [List.map_map]; rfl, ?_⟩
      rw [Account.afterAll_append, ← hlanded.due_eq, ← hfound, List.filter_map]
      rfl
    · simpa only [Account.afterAll_append, Account.afterAll_cons] using hsettled

/-! ## One call -/

/-- A record as a registration makes it: nothing in its log, nothing delivered. -/
def RealmRecord.IsFresh (record : RealmRecord) : Prop :=
  record.log = LogRing.create logCapacity ∧ record.checkpoint = none

private theorem RealmRecord.isFresh_ofRegistration (registration : Registration) (address : String)
    (owner : Option LinkId) : (ofRegistration registration address owner).IsFresh := ⟨rfl, rfl⟩

namespace Operation

/-- What an operation does to the logs. -/
def happenings (table : RealmTable) : Operation → List Happening
  | append id line _ => if (table.find? id).isSome then [.appended id line] else []
  | _ => []

/-- The operation drops no lines of the realm, and registers it with a fresh record only. -/
def Keeps (id : UInt32) : Operation → Prop
  | register record => record.id = id → record.IsFresh
  | clearLog other => other ≠ id
  | remove other => other ≠ id
  | _ => True

end Operation

/-- A line for the realm is received, unless there is no record. -/
theorem Account.afterAll_happenings_append (id : UInt32) (account : Account) (table : RealmTable)
    (realm : UInt32) (line : LogLine) (now : Instant) :
    account.afterAll id ((Operation.append realm line now).happenings table) =
      if realm = id then account.receive (table.find? id) [line] else account := by
  show account.afterAll id (if (table.find? realm).isSome then [.appended realm line] else []) = _
  by_cases hid : realm = id
  · subst hid
    cases table.find? realm with
    | none => simp [receive]
    | some record => simp [receive, after]
  · cases table.find? realm with
    | none => simp [hid]
    | some record => simp [hid, after]

section Tracks

variable {table : RealmTable} {id : UInt32} {account : Account}

/-- A change that leaves log and mark alone. -/
theorem Tracks.adjust (h : Tracks (table.find? id) account) (realm : UInt32)
    {change : RealmRecord → RealmRecord} (hid : ∀ record, (change record).id = record.id)
    (hlog : ∀ record, (change record).log = record.log)
    (hmark : ∀ record, (change record).checkpoint = record.checkpoint) :
    Tracks ((table.adjust realm change).find? id) account := by
  rw [RealmTable.find?_adjust _ _ _ hid]
  split
  · next heq =>
    subst heq
    cases hfind : table.find? id with
    | none => exact ⟨fun _ => h.absent hfind, nofun⟩
    | some record =>
      refine ⟨nofun, fun hsome => ?_⟩
      cases hsome
      exact (h.owes hfind).congr (hlog record) (hmark record)
  · exact h

/-- A registration starts with a fresh record or takes over log and mark. -/
theorem Tracks.put_entering (h : Tracks (table.find? id) account) (record : RealmRecord)
    (hfresh : record.id = id → record.IsFresh) :
    Tracks ((table.put (record.entering (table.find? record.id))).find? id) account := by
  rw [RealmTable.find?_put, RealmRecord.id_entering]
  split
  · next heq =>
    rw [heq]
    refine ⟨nofun, fun hsome => ?_⟩
    cases hsome
    cases hfind : table.find? id with
    | none =>
      rw [h.absent hfind]
      exact RealmRecord.owes_of_fresh (hfresh heq).1 (hfresh heq).2
    | some previous => exact (h.owes hfind).congr rfl rfl
  · exact h

/-- A line comes into the log of a realm. -/
theorem Tracks.append (h : Tracks (table.find? id) account) (realm : UInt32) (line : LogLine)
    (now : Instant) :
    Tracks ((table.adjust realm (·.append line now)).find? id)
      (account.afterAll id ((Operation.append realm line now).happenings table)) := by
  rw [RealmTable.find?_adjust _ _ _ fun record => record.id_append line now]
  by_cases heq : id = realm
  · subst heq
    rw [if_pos rfl, Account.afterAll_happenings_append, if_pos rfl]
    exact tracks_enduring [⟨id, line, now⟩] h
  · rw [if_neg heq, Account.afterAll_happenings_append, if_neg (Ne.symm heq)]
    exact h

/-- A call that drops no lines keeps record and account in agreement. -/
theorem Tracks.operate (h : Tracks (table.find? id) account) (links : Links) {op : Operation}
    (hkeeps : op.Keeps id) :
    Tracks ((op.onTable links table).find? id) (account.afterAll id (op.happenings table)) := by
  cases op with
  | register record =>
    unfold Operation.onTable
    dsimp only
    split
    · exact h
    · exact h.put_entering record hkeeps
  | setOnline realm online => exact h.adjust realm (fun _ => rfl) (fun _ => rfl) fun _ => rfl
  | release realm link =>
    refine h.adjust realm ?_ ?_ ?_ <;> intro record <;> split <;> rfl
  | report realm status => exact h.adjust realm (fun _ => rfl) (fun _ => rfl) fun _ => rfl
  | append realm line now => exact h.append realm line now
  | clearLog realm =>
    show Tracks ((table.adjust realm _).find? id) account
    rw [RealmTable.find?_adjust, if_neg (Ne.symm hkeeps)]
    · exact h
    · exact fun _ => rfl
  | remove realm =>
    show Tracks ((table.erase realm).find? id) account
    rw [RealmTable.find?_erase, if_neg (Ne.symm hkeeps)]
    exact h
  | login sink current => exact h
  | evict session => exact h

end Tracks

/-! ## Runs -/

/-- A step of a run. -/
inductive HubStep (σ : Type) where
  | operate (op : Operation)
  /-- A round of the harvester, with lines arriving amid it. -/
  | harvest (arrivals : Arrivals)
  /-- Links change from outside. -/
  | relink (links : Links)
  /-- The sinks change from outside. -/
  | transport (transport : σ)

/-- The step drops no lines of the realm, and registers it with a fresh record only. -/
def HubStep.Keeps (id : UInt32) : HubStep σ → Prop
  | operate op => op.Keeps id
  | harvest _ => True
  | relink _ => True
  | transport _ => True

/-- A hub and what happened to its logs so far. -/
structure Chronicle (σ : Type) where
  hub : Hub σ
  history : List Happening

namespace Chronicle

omit [Transport σ] in
/-- An empty hub, to which nothing has happened. -/
def start (transport : σ) : Chronicle σ := ⟨Hub.start transport, []⟩

/-- The hub and its history after a step. -/
def step (past : Chronicle σ) : HubStep σ → Chronicle σ
  | .operate op => ⟨op.run past.hub, past.history ++ op.happenings past.hub.realms⟩
  | .harvest arrivals =>
    let round := past.hub.harvestAmid arrivals
    ⟨round.hub, past.history ++ round.history⟩
  | .relink links => ⟨{ past.hub with links }, past.history⟩
  | .transport transport => ⟨{ past.hub with transport }, past.history⟩

/-- The hub and its history after some steps. -/
def run (past : Chronicle σ) (steps : List (HubStep σ)) : Chronicle σ := steps.foldl step past

/-- What happened to the log of a realm, as an account. -/
def account (past : Chronicle σ) (id : UInt32) : Account := Account.empty.afterAll id past.history

/-- The record of a realm agrees with its account. -/
def Agrees (past : Chronicle σ) (id : UInt32) : Prop :=
  Tracks (past.hub.realms.find? id) (past.account id)

variable {past : Chronicle σ} {id : UInt32}

omit [Transport σ] in
/-- Without any realm there is nothing to account for. -/
theorem agrees_start (transport : σ) (id : UInt32) : (start transport).Agrees id :=
  ⟨fun _ => rfl, nofun⟩

/-- A step that keeps the lines of the realm is booked as it is done. -/
theorem Agrees.step (h : past.Agrees id) {step : HubStep σ} (hkeeps : step.Keeps id) :
    (past.step step).Agrees id := by
  unfold Agrees account Chronicle.step
  cases step with
  | operate op =>
    dsimp only
    rw [(op.registry_run past.hub).1, Account.afterAll_append]
    exact Tracks.operate h past.hub.links hkeeps
  | harvest arrivals =>
    dsimp only
    rw [Account.afterAll_append]
    exact (Tracks.harvestAmid h arrivals).2
  | relink links => exact h
  | transport transport => exact h

/-- The account is right after any run, by induction over its steps. -/
theorem Agrees.run (h : past.Agrees id) {steps : List (HubStep σ)}
    (hkeeps : ∀ step ∈ steps, step.Keeps id) : (past.run steps).Agrees id := by
  induction steps generalizing past with
  | nil => exact h
  | cons step rest ih =>
    exact ih (h.step (hkeeps step List.mem_cons_self))
      fun other hmem => hkeeps other (List.mem_cons_of_mem _ hmem)

/-- After any run that drops no lines of a realm, a round delivers of this realm what came in since
the last delivery, and nothing if it reports no delivery. Without lines arriving amid it, the round
is the one of `Hub.harvest`. -/
theorem faithful_run (transport : σ) {id : UInt32} {steps : List (HubStep σ)}
    (hkeeps : ∀ step ∈ steps, step.Keeps id) (arrivals : Arrivals) :
    let past := (start transport).run steps
    (past.hub.harvestAmid arrivals).Faithful id (past.account id) past.hub ∧
      ((past.hub.harvestAmid RealmTable.noArrivals).outcome,
        (past.hub.harvestAmid RealmTable.noArrivals).hub) = past.hub.harvest :=
  ⟨(((agrees_start transport id).run hkeeps).harvestAmid arrivals).1,
    Hub.harvestAmid_quiet _⟩

/-- Two lines of one instant are delivered, and a third one lands before the mark is moved. -/
def lateLine : List (HubStep Mailboxes) :=
  [.operate (.register (.ofRegistration
      ⟨7, "Realm 7", 8085, 200, 50, .player, ⟨0⟩, .normal, .english, [5875]⟩ "127.0.0.1" none)),
    .transport (Mailboxes.empty.add 8).2,
    .operate (.login 0 none),
    .operate (.append 7 ⟨1, "first"⟩ 5),
    .operate (.append 7 ⟨1, "second"⟩ 5),
    .harvest fun moment => if moment = .marking 7 then [⟨7, ⟨1, "late"⟩, 0⟩] else []]

/-- The next round delivers the late line and only that. -/
theorem faithful_run_lateLine :
    (∀ step ∈ lateLine, step.Keeps 7) ∧
      let past := (start Mailboxes.empty).run lateLine
      (past.hub.harvestAmid RealmTable.noArrivals).history =
          [.gathered 7, .delivered [⟨7, [⟨1, "late"⟩]⟩]] ∧
        (past.hub.harvestAmid RealmTable.noArrivals).Faithful 7 (past.account 7) past.hub := by
  have hkeeps : ∀ step ∈ lateLine, step.Keeps 7 := by
    simp [lateLine, HubStep.Keeps, Operation.Keeps, RealmRecord.isFresh_ofRegistration]
  refine ⟨hkeeps, ?_, (faithful_run Mailboxes.empty hkeeps RealmTable.noArrivals).1⟩
  decide +kernel

end Chronicle

end RealmDirectory
