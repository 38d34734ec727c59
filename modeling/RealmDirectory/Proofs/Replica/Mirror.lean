import RealmDirectory.Proofs.Harvest.Delivery
import RealmDirectory.Proofs.Replica.Frames

/-!
# The admin session sees the realms as they are

An admin session whose sink takes every frame can keep a replica of the realms, and the replica is
exact after every step. The list sent on admission is the whole table; from then on each operation
that changes a snapshot announces just this change, after it was made, and the operations that
announce nothing change no snapshot.

The invariant is `Hub.Feeds`: the session is still seated, and what was queued for it since it was
admitted replays to a given replica. A `Mirrored` hub feeds the snapshots of its own table.

A realm that is removed is not announced as gone, and an evicted session gets no more frames, so
these two operations are left out.

## Main results

* `Hub.Feeds.announce_realm`, `Hub.Feeds.announce_status` — announcements reach the replica.
* `Mirrored.operate`, `Mirrored.harvest` — one step.
* `Chronicle.mirrored_run` — after every step of a run.
-/

namespace RealmDirectory

/-- A changed record whose snapshot is the old one changes no snapshot. -/
theorem RealmTable.snapshots_adjust_of_kept (table : RealmTable) (id : UInt32)
    {change : RealmRecord → RealmRecord} (hinfo : ∀ record, (change record).info = record.info) :
    (table.adjust id change).snapshots = table.snapshots := by
  unfold adjust
  cases hfind : table.find? id with
  | none => rfl
  | some record =>
    show (table.put (change record)).snapshots = table.snapshots
    rw [← Replica.put_snapshots, hinfo, Replica.put_snapshots, put_self hfind]

variable {σ : Type} [Transport σ]

/-- The sink takes whatever it is offered, and `queue` shows what was taken. -/
def Accepts (sink : SinkId) (queue : σ → List (List UInt8)) : Prop :=
  ∀ bytes transport, ∃ after,
    Transport.offer sink bytes transport = (.ok (), after) ∧
      queue after = queue transport ++ [bytes]

namespace Hub

/-- A list that can be written goes to the session as one frame. -/
theorem sendList_eq (hub : Hub σ) (session : AdminSession) {realms : List Snapshot}
    (hplain : ∀ realm ∈ realms, realm.IsPlain)
    (hfits : (RealmList.bytes realms).length < 4294967296) :
    ∃ bytes, Frame.encode ⟨AdminOpcode.realmList, RealmList.bytes realms⟩ = .ok bytes ∧
      hub.sendList session realms = (hub.deliver session bytes).2 := by
  obtain ⟨bytes, hbytes⟩ :=
    Frame.exists_encode (⟨.realmList, RealmList.bytes realms⟩ : AdminFrame) hfits
  have hencode : (RealmList.encode realms >>= fun payload =>
      Frame.encode (⟨.realmList, payload⟩ : AdminFrame)) = .ok bytes := by
    rw [RealmList.encode_eq_ok hplain hfits]
    exact hbytes
  refine ⟨bytes, hbytes, ?_⟩
  unfold sendList
  simp only [hencode]

/-- The admin session has this sink, and what was queued after `before` replays to `replica`. -/
structure Feeds (hub : Hub σ) (sink : SinkId) (queue : σ → List (List UInt8))
    (before : List (List UInt8)) (replica : Replica) : Prop where
  seated : ∃ session, hub.slot.current = some session ∧ session.sink = sink
  queued : ∃ frames, queue hub.transport = before ++ frames ∧ Replica.replay frames = some replica

section Feeds

variable {hub : Hub σ} {sink : SinkId} {queue : σ → List (List UInt8)}
variable {before : List (List UInt8)} {replica after : Replica}

omit [Transport σ] in
private theorem Feeds.queue_concat (h : hub.Feeds sink queue before replica) {bytes : List UInt8}
    (hreceive : replica.receive bytes = some after) {transport : σ}
    (hqueue : queue transport = queue hub.transport ++ [bytes]) :
    ∃ frames, queue transport = before ++ frames ∧ Replica.replay frames = some after := by
  obtain ⟨frames, hframes, hreplay⟩ := h.queued
  refine ⟨frames ++ [bytes], ?_, ?_⟩
  · rw [hqueue, hframes, List.append_assoc]
  · rw [Replica.replay_concat, hreplay]
    exact hreceive

/-- Whatever is sent to the session reaches the replica. -/
theorem Feeds.deliver (h : hub.Feeds sink queue before replica) (haccepts : Accepts sink queue)
    {session : AdminSession} (hsession : hub.slot.current = some session) {bytes : List UInt8}
    (hreceive : replica.receive bytes = some after) :
    (hub.deliver session bytes).2.Feeds sink queue before after := by
  obtain ⟨seated, hseated, hsink⟩ := h.seated
  rw [hsession] at hseated
  cases hseated
  obtain ⟨taken, hoffer, hqueue⟩ := haccepts bytes hub.transport
  rw [← hsink] at hoffer
  unfold Hub.deliver
  rw [hoffer]
  exact ⟨⟨session, hsession, hsink⟩, h.queue_concat hreceive hqueue⟩

/-- An announcement brings the replica on by its frame. -/
theorem Feeds.announce (h : hub.Feeds sink queue before replica) (haccepts : Accepts sink queue)
    {announcement : Announcement} {frame : AdminFrame} {bytes : List UInt8}
    (hframe : announcement.frame = .ok frame) (hbytes : frame.encode = .ok bytes)
    (hreceive : replica.receive bytes = some after) :
    (hub.announce announcement).Feeds sink queue before after := by
  obtain ⟨session, hsession, -⟩ := h.seated
  have hsend : hub.announce announcement = hub.send session frame := by
    unfold Hub.announce
    cases announcement <;> rw [hframe, hsession]
  rw [hsend]
  unfold Hub.send
  rw [hbytes]
  exact h.deliver haccepts hsession hreceive

/-- A realm that is announced is put into the replica. -/
theorem Feeds.announce_realm (h : hub.Feeds sink queue before replica)
    (haccepts : Accepts sink queue) {realm : Snapshot} (hplain : realm.IsPlain)
    (hfits : realm.bytes.length < 4294967296) :
    (hub.announce (.realm realm)).Feeds sink queue before (Replica.put realm replica) := by
  have hframe : (Announcement.realm realm).frame = .ok ⟨.realmAdded, realm.bytes⟩ := by
    simp only [Announcement.frame, Snapshot.encode_eq_ok hplain.builds]
    rfl
  obtain ⟨bytes, hbytes⟩ := Frame.exists_encode (⟨.realmAdded, realm.bytes⟩ : AdminFrame) hfits
  exact h.announce haccepts hframe hbytes (Replica.receive_added hplain hbytes replica)

/-- A change of status that is announced is applied by the replica. -/
theorem Feeds.announce_status (h : hub.Feeds sink queue before replica)
    (haccepts : Accepts sink queue) {change : StatusChange}
    (hupdate : Replica.update change replica = some after) :
    (hub.announce (.status change)).Feeds sink queue before after := by
  have hfits : change.encode.length < 4294967296 := by
    rw [change.length_encode]
    decide
  obtain ⟨bytes, hbytes⟩ := Frame.exists_encode (⟨.realmStatus, change.encode⟩ : AdminFrame) hfits
  refine h.announce haccepts rfl hbytes ?_
  rw [Replica.receive_status hbytes, hupdate]

/-- The list starts the replica of its session. -/
theorem Feeds.sendList (h : hub.Feeds sink queue before replica) (haccepts : Accepts sink queue)
    {session : AdminSession} (hsession : hub.slot.current = some session) {realms : List Snapshot}
    (hplain : ∀ realm ∈ realms, realm.IsPlain)
    (hfits : (RealmList.bytes realms).length < 4294967296) :
    (hub.sendList session realms).Feeds sink queue before (Replica.ofList realms) := by
  obtain ⟨bytes, hbytes, hsend⟩ := sendList_eq hub session hplain hfits
  rw [hsend]
  exact h.deliver haccepts hsession (Replica.receive_list hplain hfits hbytes replica)

/-- A marked record is announced unless its flags are as they were. -/
theorem Feeds.announceIfSome_mark (h : hub.Feeds sink queue before replica)
    (haccepts : Accepts sink queue) {table : RealmTable} (hreplica : replica = table.snapshots)
    {id : UInt32} {record : RealmRecord} (hfind : table.find? id = some record) (online : Bool) :
    (hub.announceIfSome (table.mark record online).1).Feeds sink queue before
      (table.mark record online).2.snapshots := by
  subst hreplica
  unfold RealmTable.mark
  dsimp only
  split
  · next hflags =>
    have hinfo : (record.setOnline online).info = record.info := by
      show { record.info with flags := (record.setOnline online).info.flags } = record.info
      rw [hflags]
    rw [← Replica.put_snapshots, hinfo, Replica.put_snapshots, RealmTable.put_self hfind]
    exact h
  · exact h.announce_status haccepts (Replica.update_snapshots hfind rfl)

end Feeds

end Hub

/-! ## One step -/

/-- The replica kept by the admin session is the table. -/
def Mirrored (sink : SinkId) (queue : σ → List (List UInt8)) (before : List (List UInt8))
    (hub : Hub σ) : Prop :=
  hub.Feeds sink queue before hub.realms.snapshots

/-- The operation is announced as far as it changes a snapshot, and what it registers can be
announced. -/
def Operation.IsMirrored : Operation → Prop
  | register record => record.info.IsPlain
  | remove _ => False
  | evict _ => False
  | _ => True

section Mirrored

variable {sink : SinkId} {queue : σ → List (List UInt8)} {before : List (List UInt8)}
variable {hub : Hub σ}

/-- A registration is announced as the realm that it puts in. -/
theorem Mirrored.register (h : Mirrored sink queue before hub) (haccepts : Accepts sink queue)
    {record : RealmRecord} (hplain : record.info.IsPlain)
    (hfits : (RealmList.bytes (hub.register record).2.realms.snapshots).length < 4294967296) :
    Mirrored sink queue before (hub.register record).2 := by
  rcases hub.register_cases record with ⟨existing, -, -, heq⟩ | ⟨-, outcome, heq⟩
  · rw [heq]
    exact h
  · rw [heq] at hfits ⊢
    unfold Mirrored
    simp only [Hub.registry_announce, Hub.registry_note] at hfits ⊢
    rw [← Replica.put_snapshots, RealmRecord.info_entering] at hfits ⊢
    have honline : (record.setOnline true).info.IsPlain :=
      ⟨hplain.name, hplain.address, hplain.builds⟩
    have hsmall := RealmList.length_bytes_of_mem
      (Replica.mem_put (record.setOnline true).info hub.realms.snapshots)
    refine Hub.Feeds.announce_realm ?_ haccepts honline (Nat.lt_of_le_of_lt hsmall hfits)
    exact ⟨h.seated, h.queued⟩

/-- A mark is announced if it changes something. -/
theorem Mirrored.setOnline (h : Mirrored sink queue before hub) (haccepts : Accepts sink queue)
    (id : UInt32) (online : Bool) : Mirrored sink queue before (hub.setOnline id online).2 := by
  unfold Hub.setOnline RealmTable.setOnline
  cases hfind : hub.realms.find? id with
  | none => exact h
  | some record =>
    unfold Mirrored
    simp only [Hub.registry_announceIfSome]
    refine Hub.Feeds.announceIfSome_mark ?_ haccepts rfl hfind online
    exact ⟨h.seated, h.queued⟩

/-- A release is announced if it takes the realm offline. -/
theorem Mirrored.release (h : Mirrored sink queue before hub) (haccepts : Accepts sink queue)
    (id : UInt32) (link : LinkId) : Mirrored sink queue before (hub.release id link).2 := by
  unfold Hub.release RealmTable.release?
  cases hfind : hub.realms.find? id with
  | none => exact h
  | some record =>
    by_cases howned : record.isOwnedBy link = true
    · have hfeeds : ∀ other : Hub σ, other.slot = hub.slot → other.transport = hub.transport →
          (other.announceIfSome (hub.realms.mark record false).1).Feeds sink queue before
            (hub.realms.mark record false).2.snapshots := by
        intro other hslot htransport
        refine Hub.Feeds.announceIfSome_mark ?_ haccepts rfl hfind false
        exact ⟨hslot ▸ h.seated, htransport ▸ h.queued⟩
      simp only [howned, if_true]
      cases hmark : hub.realms.mark record false with
      | mk change realms =>
        rw [hmark] at hfeeds
        cases change with
        | none => exact hfeeds { hub with realms } rfl rfl
        | some change =>
          unfold Mirrored
          simp only [Hub.registry_announce, Hub.registry_note]
          exact hfeeds (({ hub with realms } : Hub σ).note (.wentOffline id)) rfl rfl
    · simp only [howned]
      exact h

/-- A report is announced as the status that it leaves. -/
theorem Mirrored.report (h : Mirrored sink queue before hub) (haccepts : Accepts sink queue)
    (id : UInt32) (status : StatusReport) :
    Mirrored sink queue before (hub.report id status).2 := by
  unfold Hub.report RealmTable.report
  cases hfind : hub.realms.find? id with
  | none => exact h
  | some record =>
    unfold Mirrored
    simp only [Hub.registry_announce]
    refine Hub.Feeds.announce_status ?_ haccepts (Replica.update_snapshots hfind rfl)
    exact ⟨h.seated, h.queued⟩

omit [Transport σ] in
theorem Mirrored.append (h : Mirrored sink queue before hub) (id : UInt32) (line : LogLine)
    (now : Instant) : Mirrored sink queue before (hub.append id line now).2 := by
  have hsnapshots := hub.realms.snapshots_adjust_of_kept id fun record =>
    show (record.append line now).info = record.info from rfl
  unfold Mirrored
  rw [(hub.registry_append id line now).1, hsnapshots]
  unfold Hub.append
  split <;> exact ⟨h.seated, h.queued⟩

omit [Transport σ] in
theorem Mirrored.clearLog (h : Mirrored sink queue before hub) (id : UInt32) :
    Mirrored sink queue before (hub.clearLog id).2 := by
  have hsnapshots := hub.realms.snapshots_adjust_of_kept id fun record =>
    show ({ record with log := record.log.clear } : RealmRecord).info = record.info from rfl
  unfold Mirrored
  rw [(hub.registry_clearLog id).1, hsnapshots]
  unfold Hub.clearLog
  split <;> exact ⟨h.seated, h.queued⟩

/-- Another login is turned down. -/
theorem Mirrored.login (h : Mirrored sink queue before hub) (other : SinkId)
    (current : Option Nat) : Mirrored sink queue before (hub.admitSession other current).2 := by
  obtain ⟨session, hsession, -⟩ := h.seated
  unfold Hub.admitSession
  cases current with
  | some number => exact ⟨h.seated, h.queued⟩
  | none =>
    unfold AdminSlot.claim?
    rw [hsession]
    exact h

/-- Every call that is mirrored says to the sink what it does to the table. -/
theorem Mirrored.operate (h : Mirrored sink queue before hub) (haccepts : Accepts sink queue)
    {op : Operation} (hop : op.IsMirrored)
    (hfits : (RealmList.bytes (op.run hub).realms.snapshots).length < 4294967296) :
    Mirrored sink queue before (op.run hub) := by
  cases op with
  | register record => exact h.register haccepts hop hfits
  | setOnline id online => exact h.setOnline haccepts id online
  | release id link => exact h.release haccepts id link
  | report id status => exact h.report haccepts id status
  | append id line now => exact h.append id line now
  | clearLog id => exact h.clearLog id
  | remove id => exact hop.elim
  | login other current => exact h.login other current
  | evict session => exact hop.elim

/-- A round sends lines and moves marks, neither of which a replica holds. -/
theorem Mirrored.harvest (h : Mirrored sink queue before hub) (haccepts : Accepts sink queue)
    (arrivals : Arrivals) : Mirrored sink queue before (hub.harvestAmid arrivals).hub := by
  have hsnapshots : (hub.harvestAmid arrivals).hub.realms.snapshots = hub.realms.snapshots :=
    Replica.snapshots_ext
      (hub.map_find?_harvestAmid (fun _ _ _ => rfl) (fun _ _ => rfl) arrivals)
  unfold Mirrored
  rw [hsnapshots]
  obtain ⟨seated, hseated, hsink⟩ := h.seated
  have hround := hub.harvests arrivals
  generalize hub.harvestAmid arrivals = round at hround
  cases hround with
  | idle => exact h
  | quiet hgather houtcome => exact ⟨h.seated, h.queued⟩
  | @refused session gathered read realms bytes cause transport hslot hgather hoffer =>
    rw [hseated] at hslot
    cases hslot
    obtain ⟨taken, haccepted, -⟩ := haccepts bytes hub.transport
    rw [hsink, haccepted] at hoffer
    cases hoffer
  | @sent session gathered read realms bytes transport hslot hgather hbatch hoffer =>
    rw [hseated] at hslot
    cases hslot
    obtain ⟨taken, haccepted, hqueue⟩ := haccepts bytes hub.transport
    rw [hsink, haccepted] at hoffer
    cases hoffer
    exact ⟨h.seated, h.queue_concat (Replica.receive_batch hbatch _) hqueue⟩

end Mirrored

/-! ## Runs -/

/-- The step leaves the session seated and the sink as it is, and announces what it changes. -/
def HubStep.IsMirrored : HubStep σ → Prop
  | operate op => op.IsMirrored
  | harvest _ => True
  | relink _ => True
  | transport _ => False

section Runs

variable {sink : SinkId} {queue : σ → List (List UInt8)}

/-- The session is admitted with the whole list. -/
theorem mirrored_admitSession (haccepts : Accepts sink queue) {hub : Hub σ}
    (hvacant : hub.slot.current = none) (hplain : ∀ realm ∈ hub.realms.snapshots, realm.IsPlain)
    (hfits : (RealmList.bytes hub.realms.snapshots).length < 4294967296) :
    Mirrored sink queue (queue hub.transport) (hub.admitSession sink none).2 := by
  unfold Mirrored
  rw [(hub.registry_admitSession sink none).1, ← Replica.ofList_snapshots]
  unfold Hub.admitSession AdminSlot.claim?
  rw [hvacant]
  refine Hub.Feeds.sendList (?_ : Hub.Feeds _ sink queue (queue hub.transport) []) haccepts rfl
    hplain hfits
  exact ⟨⟨_, rfl, rfl⟩, [], (List.append_nil _).symm, rfl⟩

/-- A step of the chronicle keeps the replica in step. -/
theorem Mirrored.step {before : List (List UInt8)} {past : Chronicle σ}
    (h : Mirrored sink queue before past.hub) (haccepts : Accepts sink queue) {step : HubStep σ}
    (hstep : step.IsMirrored)
    (hfits : (RealmList.bytes (past.step step).hub.realms.snapshots).length < 4294967296) :
    Mirrored sink queue before (past.step step).hub := by
  cases step with
  | operate op => exact h.operate haccepts hstep hfits
  | harvest arrivals => exact h.harvest haccepts arrivals
  | relink links => exact ⟨h.seated, h.queued⟩
  | transport transport => exact hstep.elim

theorem Mirrored.run {before : List (List UInt8)} {past : Chronicle σ}
    (h : Mirrored sink queue before past.hub) (haccepts : Accepts sink queue)
    {steps : List (HubStep σ)} (hsteps : ∀ step ∈ steps, step.IsMirrored)
    (hfits : ∀ count, (RealmList.bytes
      (past.run (steps.take count)).hub.realms.snapshots).length < 4294967296) :
    Mirrored sink queue before (past.run steps).hub := by
  induction steps generalizing past with
  | nil => exact h
  | cons step rest ih =>
    have hstep := h.step haccepts (hsteps step List.mem_cons_self) (hfits 1)
    refine ih hstep (fun other hmem => hsteps other (List.mem_cons_of_mem _ hmem)) fun count => ?_
    exact hfits (count + 1)

/-- An admin session with a sink that takes every frame sees the realms as they are: after every
step, what was queued for it since it was admitted replays to the snapshots of the table. -/
theorem Chronicle.mirrored_run (haccepts : Accepts sink queue) {hub : Hub σ}
    (hvacant : hub.slot.current = none) (hplain : ∀ realm ∈ hub.realms.snapshots, realm.IsPlain)
    {steps : List (HubStep σ)} (hsteps : ∀ step ∈ steps, step.IsMirrored)
    (hfits : ∀ count, (RealmList.bytes ((Chronicle.mk (hub.admitSession sink none).2 []).run
      (steps.take count)).hub.realms.snapshots).length < 4294967296) (count : Nat) :
    let past := (Chronicle.mk (hub.admitSession sink none).2 []).run (steps.take count)
    ∃ frames, queue past.hub.transport = queue hub.transport ++ frames ∧
      Replica.replay frames = some past.hub.realms.snapshots := by
  have hstart := hfits 0
  have hadmitted : Mirrored sink queue (queue hub.transport) (hub.admitSession sink none).2 := by
    rw [List.take_zero] at hstart
    refine mirrored_admitSession haccepts hvacant hplain ?_
    rw [← (hub.registry_admitSession sink none).1]
    exact hstart
  have hrun : Mirrored sink queue (queue hub.transport)
      ((Chronicle.mk (hub.admitSession sink none).2 []).run (steps.take count)).hub := by
    refine Mirrored.run hadmitted haccepts
      (fun step hmem => hsteps step (List.mem_of_mem_take hmem)) fun shorter => ?_
    rw [List.take_take]
    exact hfits _
  exact hrun.queued

end Runs

/-! ## A sink without bounds -/

/-- A transport with one queue, which takes everything. -/
structure Spool where
  frames : List (List UInt8)

namespace Spool

instance : Transport Spool where
  offer _ bytes spool := (.ok (), ⟨spool.frames ++ [bytes]⟩)

private theorem accepts (sink : SinkId) : Accepts sink Spool.frames := fun _ _ => ⟨_, rfl, rfl⟩

def record (id : UInt32) (link : LinkId) : RealmRecord :=
  .ofRegistration ⟨id, "Realm", 8085, 200, 50, .player, .offline, .normal, .english, [5875, 12340]⟩
    "127.0.0.1" (some link)

/-- One realm was registered before the session is admitted. -/
def hub : Hub Spool := (Operation.register (record 7 0)).run (Hub.start ⟨[]⟩)

/-- A second realm is registered, the status of the first one changes, a line is harvested, and the
first realm is given up. -/
def steps : List (HubStep Spool) :=
  [.operate (.register (record 3 1)), .operate (.report 7 ⟨⟨0x22⟩, ⟨0x3f000000⟩⟩),
    .operate (.append 3 ⟨1, "line"⟩ 5), .harvest RealmTable.noArrivals, .operate (.release 7 0)]

private theorem fits_steps (count : Nat) :
    (RealmList.bytes ((Chronicle.mk (hub.admitSession 0 none).2 []).run
      (steps.take count)).hub.realms.snapshots).length < 4294967296 := by
  match count with
  | 0 | 1 | 2 | 3 | 4 => decide +kernel
  | more + 5 =>
    rw [List.take_of_length_le (Nat.le_add_left 5 more)]
    decide +kernel

end Spool

/-- The list, the second realm, two changes of status and the batch. -/
theorem Chronicle.mirrored_run_spool :
    let past := (Chronicle.mk (Spool.hub.admitSession 0 none).2 []).run (Spool.steps.take 5)
    past.hub.transport.frames.length = 5 ∧
      ∃ frames, past.hub.transport.frames = Spool.hub.transport.frames ++ frames ∧
        Replica.replay frames = some past.hub.realms.snapshots := by
  have hsteps : ∀ step ∈ Spool.steps, step.IsMirrored := by
    have hplain : (Spool.record 3 1).info.IsPlain := by decide +kernel
    simpa [Spool.steps, HubStep.IsMirrored, Operation.IsMirrored] using hplain
  have hplain : ∀ realm ∈ Spool.hub.realms.snapshots, realm.IsPlain := by decide +kernel
  refine ⟨by decide +kernel, ?_⟩
  exact mirrored_run (Spool.accepts 0) rfl hplain hsteps Spool.fits_steps 5

end RealmDirectory
