import Mathlib.Data.List.Basic
import RealmDirectory.Hub.Harvest
import RealmDirectory.Proofs.Hub.Operation

/-!
# A round of the harvester with lines arriving meanwhile

A round keeps the table of realms to itself, but not the logs: whoever holds a handle on a log can
push a line at any moment, also between the reading of that log and the moving of its mark.
`Hub.harvestAmid` is a round with such lines: `Arrivals` says which of them land at which moment,
and what happened to the logs is kept as a list of `Happening`s in the order of time. With no
arrivals it is `Hub.harvest`.

## Main results

* `Hub.harvestAmid_quiet` — a round in which nothing arrives.
* `RealmTable.find?_land` — a realm's record while lines arrive.
* `Hub.deliver_cases` — a batch is taken, or it is refused and only the admin side changes.
* `Hub.harvests` — everything that a round can come to.
* `Hub.map_find?_harvestAmid` — a round touches nothing but logs and marks.
-/

namespace RealmDirectory

/-- A line that goes straight into the log of a realm. -/
structure Push where
  realm : UInt32
  line : LogLine
  time : Instant
  deriving DecidableEq, Repr

/-- A moment of a round. -/
inductive Moment where
  /-- The log of a realm is about to be read. -/
  | reading (realm : UInt32)
  /-- The batch is about to be offered to the sink. -/
  | sending
  /-- The mark of a realm is about to be moved. -/
  | marking (realm : UInt32)
  deriving DecidableEq, Repr

/-- The lines that land at each moment of a round. -/
abbrev Arrivals := Moment → List Push

/-- Something that happened to the logs. -/
inductive Happening where
  /-- A line came into the log of a realm. -/
  | appended (realm : UInt32) (line : LogLine)
  /-- A round read the log of a realm. -/
  | gathered (realm : UInt32)
  /-- The sink took a batch. -/
  | delivered (batch : List RealmLog)
  deriving DecidableEq, Repr

namespace RealmTable

/-! ## Lines that arrive -/

/-- Lets lines land. One for a realm that is not there goes into a log that nobody reads. -/
def land (table : RealmTable) : List Push → List Happening × RealmTable
  | [] => ([], table)
  | push :: rest =>
    match table.find? push.realm with
    | none => table.land rest
    | some record =>
      let (history, after) := (table.put (record.append push.line push.time)).land rest
      (.appended push.realm push.line :: history, after)

/-- Reads the logs of some realms one after another; what is to be delivered, what happened
meanwhile, and the table at the end. -/
def gatherAmid (arrivals : Arrivals) :
    List UInt32 → RealmTable → List Harvested × List Happening × RealmTable
  | [], table => ([], [], table)
  | id :: rest, table =>
    let (landed, table) := table.land (arrivals (.reading id))
    let (found, history, after) := gatherAmid arrivals rest table
    (((table.find? id).bind (·.harvested?)).toList ++ found,
      landed ++ .gathered id :: history, after)

/-- Moves the marks of what was delivered one after another. -/
def settleAmid (arrivals : Arrivals) : List Harvested → RealmTable → List Happening × RealmTable
  | [], table => ([], table)
  | harvested :: rest, table =>
    let (landed, table) := table.land (arrivals (.marking harvested.log.realm))
    let (history, after) :=
      settleAmid arrivals rest (table.setCheckpoint harvested.log.realm harvested.newest)
    (landed ++ history, after)

/-- The realms there are, in the order in which their logs are read. -/
def ids (table : RealmTable) : List UInt32 := table.records.map (·.id)

end RealmTable

/-- What a round did, what happened to the logs meanwhile, and the hub after it. -/
structure Round (σ : Type) where
  outcome : Except HarvestError HarvestReport
  history : List Happening
  hub : Hub σ

/-- A round of the harvester during which lines arrive. -/
def Hub.harvestAmid [Transport σ] (hub : Hub σ) (arrivals : Arrivals) : Round σ :=
  match hub.slot.current with
  | none => ⟨.ok .idle, [], hub⟩
  | some session =>
    if hub.realms.isEmpty then ⟨.ok .idle, [], hub⟩
    else
      let (gathered, read, realms) := RealmTable.gatherAmid arrivals hub.realms.ids hub.realms
      if gathered.isEmpty then ⟨.ok .nothingNew, read, { hub with realms }⟩
      else
        match batchFrame (gathered.map (·.log)) with
        | .error cause => ⟨.error (.payload cause), read, { hub with realms }⟩
        | .ok bytes =>
          let (landed, realms) := realms.land (arrivals .sending)
          match ({ hub with realms } : Hub σ).deliver session bytes with
          | (.error cause, hub) => ⟨.error (.send cause), read ++ landed, hub⟩
          | (.ok (), hub) =>
            let (settled, realms) := RealmTable.settleAmid arrivals gathered hub.realms
            ⟨.ok (.sent gathered.length ((gathered.map (·.log.lines.length)).foldl (· + ·) 0)),
              read ++ landed ++ .delivered (gathered.map (·.log)) :: settled,
              { hub with realms }⟩

/-! ## A round in which nothing arrives -/

namespace RealmTable

/-- No line arrives at any moment. -/
def noArrivals : Arrivals := fun _ => []

private theorem gatherAmid_quiet (ids : List UInt32) (table : RealmTable) :
    gatherAmid noArrivals ids table =
      (ids.filterMap (fun id => (table.find? id).bind (·.harvested?)), ids.map .gathered,
        table) := by
  induction ids with
  | nil => rfl
  | cons id rest ih =>
    rw [gatherAmid]
    simp only [noArrivals, land] at ih ⊢
    rw [ih]
    cases hfound : (table.find? id).bind (·.harvested?) with
    | none => simp [hfound]
    | some harvested => simp [hfound]

private theorem filterMap_ids (table : RealmTable) :
    table.ids.filterMap (fun id => (table.find? id).bind (·.harvested?)) = table.gather := by
  unfold ids gather
  rw [List.filterMap_map]
  apply List.filterMap_congr
  intro record hrecord
  rw [Function.comp_apply, mem_records_iff.mp hrecord, Option.bind_some]

private theorem settleAmid_quiet (delivered : List Harvested) (table : RealmTable) :
    settleAmid noArrivals delivered table = ([], table.settle delivered) := by
  induction delivered generalizing table with
  | nil => rfl
  | cons harvested rest ih =>
    rw [settleAmid]
    simp only [noArrivals, land] at ih ⊢
    rw [ih]
    rfl

end RealmTable

/-- A round into which nothing arrives is the round that is run. -/
theorem Hub.harvestAmid_quiet [Transport σ] (hub : Hub σ) :
    ((hub.harvestAmid RealmTable.noArrivals).outcome,
      (hub.harvestAmid RealmTable.noArrivals).hub) = hub.harvest := by
  unfold harvestAmid harvest
  cases hub.slot.current with
  | none => rfl
  | some session =>
    simp only [RealmTable.gatherAmid_quiet, RealmTable.filterMap_ids, RealmTable.settleAmid_quiet]
    split
    · rfl
    · split
      · rfl
      · cases batchFrame (hub.realms.gather.map (·.log)) with
        | error cause => rfl
        | ok bytes =>
          simp only [RealmTable.noArrivals, RealmTable.land]
          cases hub.deliver session bytes with
          | mk answer after =>
            cases answer with
            | error cause => rfl
            | ok _ => rfl

/-! ## One realm while lines arrive -/

namespace RealmRecord

/-- Adds lines to the log, one after another. -/
def appendAll (record : RealmRecord) (pushes : List Push) : RealmRecord :=
  pushes.foldl (fun record push => record.append push.line push.time) record

/-- What a line in the log leaves alone, many lines leave alone. -/
theorem appendAll_kept {α : Type} {kept : RealmRecord → α}
    (hkept : ∀ record line now, kept (append record line now) = kept record)
    (record : RealmRecord) (pushes : List Push) : kept (record.appendAll pushes) = kept record := by
  induction pushes generalizing record with
  | nil => rfl
  | cons push rest ih => rw [← hkept record push.line push.time]; exact ih _

/-- A line in the log and the delivery mark do not touch each other. -/
theorem appendAll_mark (record : RealmRecord) (pushes : List Push) (mark : Option Instant) :
    { record.appendAll pushes with checkpoint := mark } =
      ({ record with checkpoint := mark } : RealmRecord).appendAll pushes := by
  induction pushes generalizing record with
  | nil => rfl
  | cons push rest ih => exact ih (record.append push.line push.time)

end RealmRecord

/-- The lines that arrive for one realm. -/
def Push.forRealm (id : UInt32) (pushes : List Push) : List Push :=
  pushes.filter (·.realm = id)

namespace RealmTable

/-- The record of a realm receives the lines for that realm and no others. -/
theorem find?_land (table : RealmTable) (pushes : List Push) (id : UInt32) :
    (table.land pushes).2.find? id =
      (table.find? id).map (·.appendAll (Push.forRealm id pushes)) := by
  induction pushes generalizing table with
  | nil => simp [land, Push.forRealm, RealmRecord.appendAll]
  | cons push rest ih =>
    unfold land
    cases hfind : table.find? push.realm with
    | none =>
      rw [ih]
      by_cases hid : push.realm = id
      · subst hid
        rw [hfind]
        rfl
      · simp [Push.forRealm, hid]
    | some record =>
      have hrecord := id_of_find? hfind
      rw [ih, find?_put, RealmRecord.id_append, hrecord]
      by_cases hid : push.realm = id
      · subst hid
        simp [Push.forRealm, hfind, RealmRecord.appendAll]
      · simp [Push.forRealm, hid]

private theorem setCheckpoint_eq_adjust (table : RealmTable) (id : UInt32) (stamp : Instant) :
    table.setCheckpoint id stamp =
      table.adjust id (fun record => { record with checkpoint := some stamp }) := rfl

/-- The mark of one realm is moved without touching another record. -/
theorem find?_setCheckpoint_of_ne (table : RealmTable) {id other : UInt32} (h : other ≠ id)
    (stamp : Instant) : (table.setCheckpoint other stamp).find? id = table.find? id := by
  rw [setCheckpoint_eq_adjust, find?_adjust, if_neg (Ne.symm h)]
  exact fun _ => rfl

theorem find?_setCheckpoint_self (table : RealmTable) (id : UInt32) (stamp : Instant) :
    (table.setCheckpoint id stamp).find? id =
      (table.find? id).map fun record => { record with checkpoint := some stamp } := by
  rw [setCheckpoint_eq_adjust, find?_adjust, if_pos rfl]
  exact fun _ => rfl

section Kept

variable {α : Type} {kept : RealmRecord → α}

/-- Whatever appending a line keeps of a record is kept by all arriving lines. -/
theorem map_find?_land (hkept : ∀ record line now, kept (.append record line now) = kept record)
    (table : RealmTable) (pushes : List Push) (id : UInt32) :
    ((table.land pushes).2.find? id).map kept = (table.find? id).map kept := by
  rw [find?_land, Option.map_map]
  congr 1
  funext record
  exact RealmRecord.appendAll_kept hkept record _

/-- Reading the logs changes only what arriving lines change. -/
theorem map_find?_gatherAmid
    (hkept : ∀ record line now, kept (.append record line now) = kept record)
    (arrivals : Arrivals) (ids : List UInt32) (table : RealmTable) (id : UInt32) :
    ((gatherAmid arrivals ids table).2.2.find? id).map kept = (table.find? id).map kept := by
  induction ids generalizing table with
  | nil => rfl
  | cons realm rest ih =>
    rw [gatherAmid]
    exact (ih _).trans (map_find?_land hkept _ _ _)

private theorem map_find?_settleAmid
    (hkept : ∀ record line now, kept (.append record line now) = kept record)
    (hmark : ∀ (record : RealmRecord) (stamp : Instant),
      kept { record with checkpoint := some stamp } = kept record)
    (arrivals : Arrivals) (delivered : List Harvested) (table : RealmTable) (id : UInt32) :
    ((settleAmid arrivals delivered table).2.find? id).map kept = (table.find? id).map kept := by
  induction delivered generalizing table with
  | nil => rfl
  | cons harvested rest ih =>
    have hlanded := map_find?_land hkept table (arrivals (.marking harvested.log.realm)) id
    rw [settleAmid, ← hlanded]
    refine (ih _).trans ?_
    by_cases hid : harvested.log.realm = id
    · subst hid
      rw [find?_setCheckpoint_self, Option.map_map]
      congr 1
      funext record
      exact hmark record _
    · rw [find?_setCheckpoint_of_ne _ hid]

end Kept

end RealmTable

/-! ## Deliveries -/

/-- No batch was taken. -/
def Undelivered (history : List Happening) : Prop := ∀ batch, .delivered batch ∉ history

theorem Undelivered.append {first second : List Happening} (hfirst : Undelivered first)
    (hsecond : Undelivered second) : Undelivered (first ++ second) := by
  intro batch hmem
  rcases List.mem_append.mp hmem with hmem | hmem
  · exact hfirst batch hmem
  · exact hsecond batch hmem

namespace RealmTable

theorem undelivered_land (table : RealmTable) (pushes : List Push) :
    Undelivered (table.land pushes).1 := by
  induction pushes generalizing table with
  | nil => exact fun _ => List.not_mem_nil
  | cons push rest ih =>
    unfold land
    cases table.find? push.realm with
    | none => exact ih table
    | some record =>
      intro batch hmem
      rcases List.mem_cons.mp hmem with heq | hmem
      · cases heq
      · exact ih _ batch hmem

/-- Reading the logs delivers nothing. -/
theorem undelivered_gatherAmid (arrivals : Arrivals) (ids : List UInt32) (table : RealmTable) :
    Undelivered (gatherAmid arrivals ids table).2.1 := by
  induction ids generalizing table with
  | nil => exact fun _ => List.not_mem_nil
  | cons realm rest ih =>
    rw [gatherAmid]
    refine (undelivered_land table _).append fun batch hmem => ?_
    rcases List.mem_cons.mp hmem with heq | hmem
    · cases heq
    · exact ih _ batch hmem

theorem undelivered_settleAmid (arrivals : Arrivals) (delivered : List Harvested)
    (table : RealmTable) : Undelivered (settleAmid arrivals delivered table).1 := by
  induction delivered generalizing table with
  | nil => exact fun _ => List.not_mem_nil
  | cons harvested rest ih =>
    rw [settleAmid]
    exact (undelivered_land table _).append (ih _)

end RealmTable

/-- The sink takes the bytes, or it refuses them and only the admin side of the hub changes. -/
theorem Hub.deliver_cases [Transport σ] (hub : Hub σ) (session : AdminSession)
    (bytes : List UInt8) :
    (∃ transport, Transport.offer session.sink bytes hub.transport = (.ok (), transport) ∧
      hub.deliver session bytes = (.ok (), { hub with transport })) ∨
    (∃ cause transport,
      Transport.offer session.sink bytes hub.transport = (.error cause, transport) ∧
      hub.deliver session bytes =
        (.error cause, ({ hub with transport } : Hub σ).sinkFailed session.id cause)) := by
  unfold deliver
  cases hoffer : Transport.offer session.sink bytes hub.transport with
  | mk answer transport =>
    cases answer with
    | ok _ => exact Or.inl ⟨transport, rfl, rfl⟩
    | error cause => exact Or.inr ⟨cause, transport, rfl, rfl⟩

private theorem Hub.transport_evict (hub : Hub σ) (session : Nat) :
    (hub.evict session).2.transport = hub.transport := by
  unfold evict
  split <;> rfl

theorem Hub.transport_sinkFailed (hub : Hub σ) (session : Nat) (cause : DeliveryError) :
    (hub.sinkFailed session cause).transport = hub.transport := by
  cases cause with
  | full => rfl
  | closed => exact Hub.transport_evict _ session

/-! ## How a round goes -/

namespace Hub

variable [Transport σ]

/-- What a round can come to. -/
inductive Harvests (hub : Hub σ) (arrivals : Arrivals) : Round σ → Prop where
  /-- There is nobody to deliver to, or no realm. -/
  | idle : Harvests hub arrivals ⟨.ok .idle, [], hub⟩
  /-- The logs are read, but there is no batch to offer. -/
  | quiet {gathered : List Harvested} {read : List Happening} {realms : RealmTable}
      {outcome : Except HarvestError HarvestReport}
      (hgather : RealmTable.gatherAmid arrivals hub.realms.ids hub.realms =
        (gathered, read, realms))
      (houtcome : ∀ realms lines, outcome ≠ .ok (.sent realms lines)) :
      Harvests hub arrivals ⟨outcome, read, { hub with realms }⟩
  /-- The batch is offered and refused. -/
  | refused {session : AdminSession} {gathered : List Harvested} {read : List Happening}
      {realms : RealmTable} {bytes : List UInt8} {cause : DeliveryError} {transport : σ}
      (hslot : hub.slot.current = some session)
      (hgather : RealmTable.gatherAmid arrivals hub.realms.ids hub.realms =
        (gathered, read, realms))
      (hoffer : Transport.offer session.sink bytes hub.transport = (.error cause, transport)) :
      Harvests hub arrivals
        ⟨.error (.send cause), read ++ (realms.land (arrivals .sending)).1,
          ({ hub with realms := (realms.land (arrivals .sending)).2, transport } :
            Hub σ).sinkFailed session.id cause⟩
  /-- The batch is taken, and the marks are moved. -/
  | sent {session : AdminSession} {gathered : List Harvested} {read : List Happening}
      {realms : RealmTable} {bytes : List UInt8} {transport : σ}
      (hslot : hub.slot.current = some session)
      (hgather : RealmTable.gatherAmid arrivals hub.realms.ids hub.realms =
        (gathered, read, realms))
      (hbatch : batchFrame (gathered.map (·.log)) = .ok bytes)
      (hoffer : Transport.offer session.sink bytes hub.transport = (.ok (), transport)) :
      Harvests hub arrivals
        ⟨.ok (.sent gathered.length ((gathered.map (·.log.lines.length)).foldl (· + ·) 0)),
          read ++ (realms.land (arrivals .sending)).1 ++ .delivered (gathered.map (·.log)) ::
            (RealmTable.settleAmid arrivals gathered (realms.land (arrivals .sending)).2).1,
          { hub with
            realms :=
              (RealmTable.settleAmid arrivals gathered (realms.land (arrivals .sending)).2).2
            transport }⟩

/-- A round comes to one of these, whatever arrives while it goes on. -/
theorem harvests (hub : Hub σ) (arrivals : Arrivals) :
    hub.Harvests arrivals (hub.harvestAmid arrivals) := by
  unfold harvestAmid
  cases hslot : hub.slot.current with
  | none => exact .idle
  | some session =>
    dsimp only
    split
    · exact .idle
    split
    · exact .quiet rfl nofun
    split
    · exact .quiet rfl nofun
    · next bytes hbatch =>
      let landed := (RealmTable.gatherAmid arrivals hub.realms.ids hub.realms).2.2.land
        (arrivals .sending)
      rcases ({ hub with realms := landed.2 } : Hub σ).deliver_cases session bytes with
        ⟨transport, hoffer, hdeliver⟩ | ⟨cause, transport, hoffer, hdeliver⟩
      · rw [hdeliver]
        exact .sent hslot rfl hbatch hoffer
      · rw [hdeliver]
        exact .refused hslot rfl hoffer

/-- A round leaves alone whatever neither a line in the log nor a mark is part of. -/
theorem map_find?_harvestAmid {α : Type} {kept : RealmRecord → α}
    (hkept : ∀ record line now, kept (.append record line now) = kept record)
    (hmark : ∀ (record : RealmRecord) (stamp : Instant),
      kept { record with checkpoint := some stamp } = kept record)
    (hub : Hub σ) (arrivals : Arrivals) (id : UInt32) :
    ((hub.harvestAmid arrivals).hub.realms.find? id).map kept =
      (hub.realms.find? id).map kept := by
  have hround := hub.harvests arrivals
  have hread := RealmTable.map_find?_gatherAmid hkept arrivals hub.realms.ids hub.realms id
  generalize hub.harvestAmid arrivals = round at hround
  cases hround with
  | idle => rfl
  | quiet hgather houtcome =>
    rw [hgather] at hread
    exact hread
  | refused hslot hgather hoffer =>
    rw [hgather] at hread
    rw [(registry_sinkFailed _ _ _).1]
    exact (RealmTable.map_find?_land hkept _ _ _).trans hread
  | sent hslot hgather hbatch hoffer =>
    rw [hgather] at hread
    refine (RealmTable.map_find?_settleAmid hkept hmark _ _ _ _).trans ?_
    exact (RealmTable.map_find?_land hkept _ _ _).trans hread

theorem links_harvestAmid (hub : Hub σ) (arrivals : Arrivals) :
    (hub.harvestAmid arrivals).hub.links = hub.links := by
  have hround := hub.harvests arrivals
  generalize hub.harvestAmid arrivals = round at hround
  cases hround with
  | idle => rfl
  | quiet hgather houtcome => rfl
  | refused hslot hgather hoffer => rw [(registry_sinkFailed _ _ _).2]
  | sent hslot hgather hbatch hoffer => rfl

end Hub

end RealmDirectory
