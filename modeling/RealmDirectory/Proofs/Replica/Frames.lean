import Mathlib.Data.List.Pairwise
import Mathlib.Data.List.Perm.Basic
import RealmDirectory.Hub.Harvest
import RealmDirectory.Proofs.Hub.Operation
import RealmDirectory.Proofs.Message.Announced

/-!
# A replica of the realms

A `Replica` is what somebody knows of the realms who has nothing but the frames of the admin
session: the snapshots in ascending order of the ids. A list of realms replaces it, an added realm
is put into its place, a change of status overwrites two fields of a realm that must be there, and
a batch of log lines changes nothing. Whatever is not one whole frame with a payload read to its
end ends the replica, so a replay that gives a replica has understood every frame.

`Replica.put` does to the snapshots what `RealmTable.put` does to the records, so a table and a
replica of it stay in step as long as the frame describes the record that was put.

## Main results

* `Replica.receive_list`, `receive_added`, `receive_status`, `receive_batch` — one frame.
* `Replica.put_snapshots`, `Replica.update_snapshots` — a frame and the table.
-/

namespace RealmDirectory

open Payload (Reader Reads)

/-- The snapshots of the realms, in ascending order of the ids. -/
abbrev Replica := List Snapshot

namespace Replica

/-- Puts a snapshot into its place, instead of one with the same id. -/
def put (realm : Snapshot) : Replica → Replica
  | [] => [realm]
  | first :: rest =>
    if realm.id < first.id then realm :: first :: rest
    else if realm.id = first.id then realm :: rest
    else first :: put realm rest

/-- The snapshots of a list, each put into its place. -/
def ofList (realms : List Snapshot) : Replica :=
  realms.foldl (fun replica realm => put realm replica) []

/-- Overwrites flags and population of a realm; `none` if there is no such realm. -/
def update (change : StatusChange) (replica : Replica) : Option Replica :=
  (replica.find? (·.id = change.id)).map fun realm =>
    put { realm with flags := change.flags, population := change.population } replica

/-- What a payload holds if it is read to its end. -/
def whole? {α : Type} (reader : Reader α) (payload : List UInt8) : Option α :=
  match reader payload with
  | .ok (value, []) => some value
  | _ => none

/-- The replica after a frame; `none` if the frame makes no sense. -/
def follow (replica : Replica) (frame : AdminFrame) : Option Replica :=
  match frame.opcode with
  | .realmList => (whole? RealmList.read frame.payload).map ofList
  | .realmAdded => (whole? Snapshot.read frame.payload).map (put · replica)
  | .realmStatus => (whole? StatusChange.read frame.payload).bind (update · replica)
  | .logBatch => some replica

/-- The replica after some bytes; `none` if they are not one whole frame. -/
def receive (replica : Replica) (bytes : List UInt8) : Option Replica :=
  match (Frame.decode bytes : Except FrameError (AdminFrame × List UInt8)) with
  | .ok (frame, []) => replica.follow frame
  | _ => none

/-- The replica after frames that were queued one after another. -/
def replay (frames : List (List UInt8)) : Option Replica := frames.foldlM receive []

/-- The last frame is received by the replica that the frames before it made. -/
theorem replay_concat (frames : List (List UInt8)) (bytes : List UInt8) :
    replay (frames ++ [bytes]) = (replay frames).bind (·.receive bytes) := by
  unfold replay
  rw [List.foldlM_append]
  cases frames.foldlM receive [] with
  | none => rfl
  | some replica =>
    show (receive replica bytes >>= fun after => pure after) = receive replica bytes
    exact bind_pure _

/-! ## One frame -/

private theorem whole?_eq_some {α : Type} {reader : Reader α} {bytes : List UInt8} {value : α}
    (h : Reads reader bytes value) : whole? reader bytes = some value := by
  rw [whole?, h.read_all]

private theorem receive_encode {frame : AdminFrame} {bytes : List UInt8}
    (h : frame.encode = .ok bytes) (replica : Replica) :
    replica.receive bytes = replica.follow frame := by
  have hdecode := Frame.decode_encode h []
  rw [List.append_nil] at hdecode
  rw [receive, hdecode]

/-- A list replaces whatever the replica held. -/
theorem receive_list {realms : List Snapshot} {bytes : List UInt8}
    (hplain : ∀ realm ∈ realms, realm.IsPlain)
    (hfits : (RealmList.bytes realms).length < 4294967296)
    (h : Frame.encode ⟨AdminOpcode.realmList, RealmList.bytes realms⟩ = .ok bytes)
    (replica : Replica) : replica.receive bytes = some (ofList realms) := by
  rw [receive_encode h]
  show (whole? RealmList.read (RealmList.bytes realms)).map ofList = _
  rw [whole?_eq_some (RealmList.reads_bytes hplain (RealmList.length_lt_of_fits hfits))]
  rfl

/-- A realm that is announced is put in, or in the place of the one with its id. -/
theorem receive_added {realm : Snapshot} {bytes : List UInt8} (hplain : realm.IsPlain)
    (h : Frame.encode ⟨AdminOpcode.realmAdded, realm.bytes⟩ = .ok bytes) (replica : Replica) :
    replica.receive bytes = some (put realm replica) := by
  rw [receive_encode h]
  show (whole? Snapshot.read realm.bytes).map (put · replica) = _
  rw [whole?_eq_some (Snapshot.reads_bytes hplain)]
  rfl

/-- A change of status is applied to the realm that it names. -/
theorem receive_status {change : StatusChange} {bytes : List UInt8}
    (h : Frame.encode ⟨AdminOpcode.realmStatus, change.encode⟩ = .ok bytes) (replica : Replica) :
    replica.receive bytes = update change replica := by
  rw [receive_encode h]
  show (whole? StatusChange.read change.encode).bind (update · replica) = _
  rw [whole?_eq_some (StatusChange.reads_encode change)]
  rfl

/-- A batch of log lines says nothing about the realms. -/
theorem receive_batch {logs : List RealmLog} {bytes : List UInt8} (h : batchFrame logs = .ok bytes)
    (replica : Replica) : replica.receive bytes = some replica := by
  unfold batchFrame at h
  cases hraw : LogBatch.encode logs with
  | error cause => rw [hraw] at h; cases h
  | ok raw =>
    cases hbody : LogArchive.pack raw with
    | error cause =>
      rw [hraw] at h
      change (LogArchive.pack raw >>= fun body => _) = _ at h
      rw [hbody] at h
      cases h
    | ok body =>
      rw [hraw] at h
      change (LogArchive.pack raw >>= fun body => Frame.encode ⟨AdminOpcode.logBatch, body⟩) = _
        at h
      rw [hbody] at h
      exact receive_encode h replica

/-! ## Replicas and tables -/

/-- Putting a record into the table is putting its realm into the replica. -/
theorem put_snapshots (table : RealmTable) (record : RealmRecord) :
    put record.info table.snapshots = (table.put record).snapshots := by
  show put record.info (table.records.map (·.info)) =
    (RealmTable.putAscending record table.records).map (·.info)
  induction table.records with
  | nil => rfl
  | cons first rest ih =>
    rw [List.map_cons, put, RealmTable.putAscending]
    show (if record.id < first.id then _ else if record.id = first.id then _ else _) = _
    by_cases hlt : record.id < first.id
    · rw [if_pos hlt, if_pos hlt]
      rfl
    · rw [if_neg hlt, if_neg hlt]
      by_cases heq : record.id = first.id
      · rw [if_pos heq, if_pos heq]
        rfl
      · rw [if_neg heq, ih, if_neg heq]
        rfl

theorem mem_put (realm : Snapshot) (replica : Replica) : realm ∈ put realm replica := by
  induction replica with
  | nil => exact List.mem_cons_self
  | cons first rest ih =>
    unfold put
    split
    · exact List.mem_cons_self
    split
    · exact List.mem_cons_self
    · exact List.mem_cons_of_mem _ ih

private theorem find?_snapshots (table : RealmTable) (id : UInt32) :
    table.snapshots.find? (·.id = id) = (table.find? id).map (·.info) := by
  unfold RealmTable.snapshots RealmTable.find?
  rw [List.find?_map]
  rfl

/-- A change of status is replayed if nothing else of the record changed. -/
theorem update_snapshots {table : RealmTable} {id : UInt32} {record changed : RealmRecord}
    (hfind : table.find? id = some record)
    (hchanged : changed.info = { record.info with
      flags := changed.info.flags, population := changed.info.population }) :
    update changed.info.status table.snapshots = some (table.put changed).snapshots := by
  have hid : changed.info.status.id = id := by
    rw [← RealmTable.id_of_find? hfind]
    show changed.info.id = record.info.id
    rw [hchanged]
  rw [update, hid, find?_snapshots, hfind, Option.map_some, Option.map_some, ← put_snapshots]
  show some (put { record.info with
    flags := changed.info.flags, population := changed.info.population } _) = _
  rw [← hchanged]

private theorem ascending_snapshots (table : RealmTable) :
    table.snapshots.Pairwise (fun a b => a.id < b.id) :=
  List.pairwise_map.mpr table.ascending

/-- A snapshot beyond all others goes to the end. -/
theorem put_of_forall_lt {realm : Snapshot} {replica : Replica}
    (h : ∀ other ∈ replica, other.id < realm.id) : put realm replica = replica ++ [realm] := by
  induction replica with
  | nil => rfl
  | cons first rest ih =>
    have hfirst := h first List.mem_cons_self
    have hrest := ih fun other hmem => h other (List.mem_cons_of_mem _ hmem)
    have hlt : ¬realm.id < first.id := fun hlt => UInt32.lt_irrefl _ (UInt32.lt_trans hlt hfirst)
    have hne : realm.id ≠ first.id := fun heq => UInt32.lt_irrefl _ (heq ▸ hfirst)
    rw [put, if_neg hlt, if_neg hne, hrest]
    rfl

private theorem foldl_put {front back : List Snapshot}
    (h : (front ++ back).Pairwise (fun a b => a.id < b.id)) :
    back.foldl (fun replica realm => put realm replica) front = front ++ back := by
  induction back generalizing front with
  | nil => rw [List.append_nil]; rfl
  | cons first rest ih =>
    have hfront : ∀ other ∈ front, other.id < first.id := fun other hmem =>
      (List.pairwise_append.mp h).2.2 other hmem first List.mem_cons_self
    rw [List.foldl_cons, put_of_forall_lt hfront]
    rw [← List.singleton_append, ← List.append_assoc] at h
    rw [ih h, List.append_assoc, List.singleton_append]

/-- A list of the table makes a replica of the table. -/
theorem ofList_snapshots (table : RealmTable) : ofList table.snapshots = table.snapshots :=
  foldl_put (ascending_snapshots table)

private theorem mem_snapshots_iff {table : RealmTable} {realm : Snapshot} :
    realm ∈ table.snapshots ↔ (table.find? realm.id).map (·.info) = some realm := by
  rw [Option.map_eq_some_iff]
  constructor
  · intro hmem
    obtain ⟨record, hrecord, rfl⟩ := List.mem_map.mp hmem
    exact ⟨record, RealmTable.mem_records_iff.mp hrecord, rfl⟩
  · rintro ⟨record, hfind, rfl⟩
    exact List.mem_map_of_mem (RealmTable.find?_eq_some_iff.mp hfind).1

/-- The snapshots are determined by what is found under each id. -/
theorem snapshots_ext {a b : RealmTable}
    (h : ∀ id, (a.find? id).map (·.info) = (b.find? id).map (·.info)) :
    a.snapshots = b.snapshots := by
  have hnodup : ∀ table : RealmTable, table.snapshots.Nodup := fun table =>
    (ascending_snapshots table).imp fun hlt heq => UInt32.ne_of_lt hlt (congrArg Snapshot.id heq)
  have hperm : a.snapshots.Perm b.snapshots := by
    rw [List.perm_ext_iff_of_nodup (hnodup a) (hnodup b)]
    intro realm
    rw [mem_snapshots_iff, mem_snapshots_iff, h]
  refine hperm.eq_of_pairwise (fun x y _ _ hxy hyx => ?_) (ascending_snapshots a)
    (ascending_snapshots b)
  exact absurd (UInt32.lt_trans hxy hyx) (UInt32.lt_irrefl _)

end Replica

end RealmDirectory
