import RealmDirectory.Hub

/-!
# Operations on the hub

An `Operation` is one call to the hub as data, so that a run is a list of them. What an operation
does to the realms never depends on the admin session: announcing, evicting and sending change
neither the table nor the links. So the table after an operation is the old one with one record put
in or dropped, and each operation has one lemma that says which.

## Main results

* `Hub.registry_announce` and its siblings — what the admin side leaves alone.
* `Hub.register_cases` — a registration is refused without a trace, or puts one record in.
* `Operation.registry_run` — the table after an operation, from the table and the links before.
-/

namespace RealmDirectory

variable {σ : Type}

/-! ## What the admin side leaves alone -/

namespace Hub

/-- Noting something changes no realm and no connection. -/
@[simp] theorem registry_note (hub : Hub σ) (notice : Notice) :
    (hub.note notice).realms = hub.realms ∧ (hub.note notice).links = hub.links := ⟨rfl, rfl⟩

@[simp] theorem registry_evict (hub : Hub σ) (session : Nat) :
    (hub.evict session).2.realms = hub.realms ∧ (hub.evict session).2.links = hub.links := by
  unfold evict
  split <;> exact ⟨rfl, rfl⟩

@[simp] theorem registry_sinkFailed (hub : Hub σ) (session : Nat) (cause : DeliveryError) :
    (hub.sinkFailed session cause).realms = hub.realms ∧
      (hub.sinkFailed session cause).links = hub.links := by
  cases cause with
  | full => exact ⟨rfl, rfl⟩
  | closed => simp [sinkFailed]

variable [Transport σ]

@[simp] theorem registry_deliver (hub : Hub σ) (session : AdminSession) (bytes : List UInt8) :
    (hub.deliver session bytes).2.realms = hub.realms ∧
      (hub.deliver session bytes).2.links = hub.links := by
  unfold deliver
  split <;> simp

@[simp] theorem registry_send (hub : Hub σ) (session : AdminSession) (frame : AdminFrame) :
    (hub.send session frame).realms = hub.realms ∧
      (hub.send session frame).links = hub.links := by
  unfold send
  split <;> simp

/-- Announcing changes no realm and no connection. -/
@[simp] theorem registry_announce (hub : Hub σ) (announcement : Announcement) :
    (hub.announce announcement).realms = hub.realms ∧
      (hub.announce announcement).links = hub.links := by
  unfold announce
  split
  · simp
  · simp
  · split <;> simp

@[simp] theorem registry_announceIfSome (hub : Hub σ) (change : Option StatusChange) :
    (hub.announceIfSome change).realms = hub.realms ∧
      (hub.announceIfSome change).links = hub.links := by
  unfold announceIfSome
  split <;> simp

@[simp] theorem registry_sendList (hub : Hub σ) (session : AdminSession)
    (realms : List Snapshot) :
    (hub.sendList session realms).realms = hub.realms ∧
      (hub.sendList session realms).links = hub.links := by
  unfold sendList
  dsimp only
  split <;> simp

/-- Admitting an admin session changes no realm and no connection. -/
@[simp] theorem registry_admitSession (hub : Hub σ) (sink : SinkId) (current : Option Nat) :
    (hub.admitSession sink current).2.realms = hub.realms ∧
      (hub.admitSession sink current).2.links = hub.links := by
  unfold admitSession
  split
  · simp
  · split <;> simp

end Hub

/-! ## The record that a registration puts in -/

namespace RealmRecord

/-- The record that goes into the table for a registration, given the one it replaces. -/
def entering (record : RealmRecord) : Option RealmRecord → RealmRecord
  | none => record.setOnline true
  | some previous => (record.setOnline true).inherit previous

@[simp] theorem id_entering (record : RealmRecord) (previous : Option RealmRecord) :
    (record.entering previous).id = record.id := by
  cases previous <;> rfl

/-- A realm that registers is online, whatever was there before. -/
@[simp] theorem info_entering (record : RealmRecord) (previous : Option RealmRecord) :
    (record.entering previous).info = (record.setOnline true).info := by
  cases previous <;> rfl

end RealmRecord

namespace Hub

variable [Transport σ]

/-- A registration is refused, and then nothing has happened, or its record is put in and
announced. It is refused exactly if the realm's link is served. -/
theorem register_cases (hub : Hub σ) (record : RealmRecord) :
    (∃ existing, hub.realms.find? record.id = some existing ∧
      existing.hasLiveOwner hub.links = true ∧
      hub.register record = (.error (.owned record.id), hub)) ∨
    ((∀ existing, hub.realms.find? record.id = some existing →
        existing.hasLiveOwner hub.links = false) ∧
      ∃ outcome, hub.register record = (.ok outcome,
        ({ hub with
            realms := hub.realms.put (record.entering (hub.realms.find? record.id)) }.note
          (.registered record.id record.info.name outcome record.info.address)).announce
            (.realm (record.setOnline true).info))) := by
  unfold register RealmTable.register
  simp only [RealmRecord.id_setOnline]
  cases hfind : hub.realms.find? record.id with
  | none =>
    refine Or.inr ⟨fun _ h => ?_, .added, rfl⟩
    cases h
  | some existing =>
    by_cases hlive : existing.hasLiveOwner hub.links = true
    · exact Or.inl ⟨existing, rfl, hlive, by simp [hlive]⟩
    · refine Or.inr ⟨fun _ h => ?_, .replaced, ?_⟩
      · cases h
        simpa using hlive
      · simp only [if_neg hlive]
        rfl

end Hub

/-! ## Changing one record -/

namespace RealmTable

/-- The table with the record of a realm changed, if there is one. -/
def adjust (table : RealmTable) (id : UInt32) (change : RealmRecord → RealmRecord) : RealmTable :=
  match table.find? id with
  | none => table
  | some record => table.put (change record)

/-- An adjustment is to one record, if it is there. -/
theorem find?_adjust (table : RealmTable) (id other : UInt32) {change : RealmRecord → RealmRecord}
    (hid : ∀ record, (change record).id = record.id) :
    (table.adjust id change).find? other =
      if other = id then (table.find? id).map change else table.find? other := by
  unfold adjust
  cases hfind : table.find? id with
  | none =>
    by_cases h : other = id
    · subst h
      simp [hfind]
    · simp [h]
  | some record =>
    have hrecord := id_of_find? hfind
    by_cases h : other = id
    · subst h
      simp [hid, hrecord]
    · simp [hid, hrecord, h, Ne.symm h]

/-- A change that leaves the record as it is leaves the table as it is. -/
theorem put_self {table : RealmTable} {id : UInt32} {record : RealmRecord}
    (h : table.find? id = some record) : table.put record = table := by
  apply ext_find?
  intro other
  rw [find?_put]
  split
  · next heq => rw [← heq, id_of_find? h, h]
  · rfl

end RealmTable

/-! ## Operations as data -/

/-- A call to the hub, other than a round of the harvester. -/
inductive Operation where
  | register (record : RealmRecord)
  | setOnline (id : UInt32) (online : Bool)
  | release (id : UInt32) (link : LinkId)
  | report (id : UInt32) (status : StatusReport)
  | append (id : UInt32) (line : LogLine) (now : Instant)
  | clearLog (id : UInt32)
  | remove (id : UInt32)
  | login (sink : SinkId) (current : Option Nat)
  | evict (session : Nat)

namespace Operation

/-- What an operation does to the table of realms. -/
def onTable (links : Links) (table : RealmTable) : Operation → RealmTable
  | register record =>
    let previous := table.find? record.id
    if previous.any (·.hasLiveOwner links) then table else table.put (record.entering previous)
  | setOnline id online => table.adjust id (·.setOnline online)
  | release id link =>
    table.adjust id fun record => if record.isOwnedBy link then record.setOnline false else record
  | report id status => table.adjust id (·.report status)
  | append id line now => table.adjust id (·.append line now)
  | clearLog id => table.adjust id fun record => { record with log := record.log.clear }
  | remove id => table.erase id
  | login _ _ => table
  | evict _ => table

variable [Transport σ]

/-- The hub after an operation. -/
def run (hub : Hub σ) : Operation → Hub σ
  | register record => (hub.register record).2
  | setOnline id online => (hub.setOnline id online).2
  | release id link => (hub.release id link).2
  | report id status => (hub.report id status).2
  | append id line now => (hub.append id line now).2
  | clearLog id => (hub.clearLog id).2
  | remove id => (hub.remove id).2
  | login sink current => (hub.admitSession sink current).2
  | evict session => (hub.evict session).2

end Operation

namespace Hub

section Registry

variable [Transport σ]

/-- A registration changes the table, unless a live connection owns the realm. -/
theorem registry_register (hub : Hub σ) (record : RealmRecord) :
    (hub.register record).2.realms = (Operation.register record).onTable hub.links hub.realms ∧
      (hub.register record).2.links = hub.links := by
  unfold Operation.onTable
  rcases hub.register_cases record with ⟨existing, hfind, hlive, heq⟩ | ⟨hnone, _, heq⟩
  · simp [heq, hfind, hlive]
  · rw [heq]
    cases hfind : hub.realms.find? record.id with
    | none => simp [hfind]
    | some existing => simp [hfind, hnone existing hfind]

private theorem registry_setOnline (hub : Hub σ) (id : UInt32) (online : Bool) :
    (hub.setOnline id online).2.realms = hub.realms.adjust id (·.setOnline online) ∧
      (hub.setOnline id online).2.links = hub.links := by
  unfold setOnline RealmTable.setOnline RealmTable.adjust
  cases hub.realms.find? id with
  | none => simp
  | some record => simp [RealmTable.mark]

/-- A release changes the table as it says and no connection. -/
theorem registry_release (hub : Hub σ) (id : UInt32) (link : LinkId) :
    (hub.release id link).2.realms = (Operation.release id link).onTable hub.links hub.realms ∧
      (hub.release id link).2.links = hub.links := by
  unfold release RealmTable.release? Operation.onTable RealmTable.adjust
  cases hfind : hub.realms.find? id with
  | none => simp [hfind]
  | some record =>
    by_cases howned : record.isOwnedBy link = true
    · simp only [hfind, howned, if_true, RealmTable.mark]
      split <;> simp_all
    · simp [hfind, howned, RealmTable.put_self hfind]

/-- A report changes the record of its realm only. -/
theorem registry_report (hub : Hub σ) (id : UInt32) (status : StatusReport) :
    (hub.report id status).2.realms = hub.realms.adjust id (·.report status) ∧
      (hub.report id status).2.links = hub.links := by
  unfold report RealmTable.report RealmTable.adjust
  cases hub.realms.find? id with
  | none => simp
  | some record => simp

end Registry

theorem registry_append (hub : Hub σ) (id : UInt32) (line : LogLine) (now : Instant) :
    (hub.append id line now).2.realms = hub.realms.adjust id (·.append line now) ∧
      (hub.append id line now).2.links = hub.links := by
  unfold append RealmTable.append RealmTable.adjust
  cases hub.realms.find? id with
  | none => simp
  | some record => simp

theorem registry_clearLog (hub : Hub σ) (id : UInt32) :
    (hub.clearLog id).2.realms =
        hub.realms.adjust id (fun record => { record with log := record.log.clear }) ∧
      (hub.clearLog id).2.links = hub.links := by
  unfold clearLog RealmTable.clearLog RealmTable.adjust
  cases hub.realms.find? id with
  | none => simp
  | some record => simp

/-- A removal takes one record out. -/
theorem registry_remove (hub : Hub σ) (id : UInt32) :
    (hub.remove id).2.realms = hub.realms.erase id ∧ (hub.remove id).2.links = hub.links := by
  unfold remove RealmTable.remove?
  cases hfind : hub.realms.find? id with
  | none =>
    refine ⟨RealmTable.ext_find? fun other => ?_, rfl⟩
    rw [RealmTable.find?_erase]
    by_cases h : other = id
    · rw [if_pos h, h]
      exact hfind
    · rw [if_neg h]
      rfl
  | some record => simp

end Hub

/-- What an operation does to the realms is decided by the realms and the links alone, and it
leaves the links alone. -/
theorem Operation.registry_run [Transport σ] (hub : Hub σ) (op : Operation) :
    (op.run hub).realms = op.onTable hub.links hub.realms ∧ (op.run hub).links = hub.links := by
  cases op with
  | register record => exact hub.registry_register record
  | setOnline id online => exact hub.registry_setOnline id online
  | release id link => exact hub.registry_release id link
  | report id status => exact hub.registry_report id status
  | append id line now => exact hub.registry_append id line now
  | clearLog id => exact hub.registry_clearLog id
  | remove id => exact hub.registry_remove id
  | login sink current => exact hub.registry_admitSession sink current
  | evict session => exact hub.registry_evict session

end RealmDirectory
