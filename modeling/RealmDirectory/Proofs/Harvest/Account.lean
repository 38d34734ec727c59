import RealmDirectory.Proofs.Harvest.Arrears
import RealmDirectory.Proofs.Harvest.Round

/-!
# The account of one realm

An `Account` follows what happened to the log of one realm and says what has to be delivered: the
lines that were in the log when it was last read and were not delivered then, and behind them the
lines that came in since. A line that lands between the reading of the log and the moving of its
mark is of the second kind, so it is due in the next round.

`Tracks` ties an account to the record: the record owes all lines of its account. Between the
reading and the moving of the mark more is known, because then the record must be ready for both
endings of the round: `Holding` says what the batch will hold of the realm and that the record
would owe only the later lines if its mark were moved.

## Main results

* `Tracks.gatherAmid` — what is gathered of a realm is what its account says is due.
* `Holding.settleAmid` — once the batch is delivered, the record owes the later lines only.
-/

namespace RealmDirectory

/-- What came into the log of a realm and was not delivered yet, the oldest first. -/
structure Account where
  /-- The lines that were in the log when it was last read. -/
  counted : List LogLine
  /-- The lines that came in since then. -/
  late : List LogLine
  deriving DecidableEq, Repr

namespace Account

/-- Nothing came in. -/
def empty : Account := ⟨[], []⟩

/-- The account of a realm after something happened. -/
def after (id : UInt32) (account : Account) : Happening → Account
  | .appended realm line =>
    if realm = id then { account with late := account.late ++ [line] } else account
  | .gathered realm => if realm = id then ⟨account.counted ++ account.late, []⟩ else account
  | .delivered batch =>
    if batch.any (·.realm = id) then { account with counted := [] } else account

/-- The account of a realm after all that happened. -/
def afterAll (id : UInt32) (account : Account) (history : List Happening) : Account :=
  history.foldl (after id) account

/-- What a batch delivered now holds of the realm: the last lines counted, as many as its log can
keep, and no entry at all if there are none. -/
def due (id : UInt32) (account : Account) : List RealmLog :=
  if account.counted = [] then [] else [⟨id, account.counted.rtake logCapacity⟩]

/-- Lines come in; those for a realm without a record go nowhere. -/
def receive (account : Account) (record? : Option RealmRecord) (lines : List LogLine) : Account :=
  match record? with
  | none => account
  | some _ => { account with late := account.late ++ lines }

@[simp] theorem afterAll_nil (id : UInt32) (account : Account) :
    account.afterAll id [] = account := rfl

@[simp] theorem afterAll_cons (id : UInt32) (account : Account) (first : Happening)
    (rest : List Happening) :
    account.afterAll id (first :: rest) = (account.after id first).afterAll id rest := rfl

@[simp] theorem afterAll_append (id : UInt32) (account : Account) (first second : List Happening) :
    account.afterAll id (first ++ second) = (account.afterAll id first).afterAll id second :=
  List.foldl_append

private theorem after_gathered_of_ne {id realm : UInt32} (h : realm ≠ id) (account : Account) :
    account.after id (.gathered realm) = account := if_neg h

/-- What lands is what the account of the realm receives. -/
theorem afterAll_land (id : UInt32) (account : Account) (table : RealmTable)
    (pushes : List Push) :
    account.afterAll id (table.land pushes).1 =
      account.receive (table.find? id) ((Push.forRealm id pushes).map (·.line)) := by
  induction pushes generalizing table account with
  | nil => cases hfind : table.find? id <;> simp [RealmTable.land, receive, Push.forRealm]
  | cons push rest ih =>
    unfold RealmTable.land
    cases hpush : table.find? push.realm with
    | none =>
      rw [ih]
      by_cases hid : push.realm = id
      · subst hid
        rw [hpush]
        rfl
      · simp [Push.forRealm, hid]
    | some record =>
      have hrecord := RealmTable.id_of_find? hpush
      simp only [afterAll_cons]
      rw [ih, RealmTable.find?_put, RealmRecord.id_append, hrecord]
      by_cases hid : push.realm = id
      · subst hid
        simp [after, receive, Push.forRealm, hpush]
      · simp [after, Push.forRealm, hid]

end Account

/-! ## What arriving lines leave intact -/

/-- A property of a realm's record and account that arriving lines do not break. -/
def Enduring (property : Option RealmRecord → Account → Prop) : Prop :=
  ∀ {record? : Option RealmRecord} {account : Account} (pushes : List Push),
    property record? account →
      property (record?.map (·.appendAll pushes))
        (account.receive record? (pushes.map (·.line)))

section Enduring

variable {property : Option RealmRecord → Account → Prop} {id : UInt32} {account : Account}

/-- Lines that land in the table, of any realms, break no enduring property. -/
theorem Enduring.land (h : Enduring property) {table : RealmTable}
    (hproperty : property (table.find? id) account) (pushes : List Push) :
    property ((table.land pushes).2.find? id) (account.afterAll id (table.land pushes).1) := by
  rw [RealmTable.find?_land, Account.afterAll_land]
  exact h _ hproperty

/-- What is gathered of a realm bears the realm's id. -/
theorem RealmTable.realm_of_harvested? {table : RealmTable} {realm : UInt32}
    {harvested : Harvested}
    (h : (table.find? realm).bind (·.harvested?) = some harvested) :
    harvested.log.realm = realm := by
  obtain ⟨record, hfind, hsome⟩ := Option.bind_eq_some_iff.mp h
  unfold RealmRecord.harvested? at hsome
  split at hsome
  · cases hsome
  · cases hsome
    exact id_of_find? hfind

/-- Reading other logs breaks nothing and gathers nothing of the realm. -/
theorem Enduring.gatherAmid (h : Enduring property) (arrivals : Arrivals) {ids : List UInt32}
    (hid : id ∉ ids) {table : RealmTable} (hproperty : property (table.find? id) account) :
    property ((RealmTable.gatherAmid arrivals ids table).2.2.find? id)
        (account.afterAll id (RealmTable.gatherAmid arrivals ids table).2.1) ∧
      (RealmTable.gatherAmid arrivals ids table).1.filter (·.log.realm = id) = [] := by
  induction ids generalizing table account with
  | nil => exact ⟨hproperty, rfl⟩
  | cons realm rest ih =>
    obtain ⟨hne, hrest⟩ : realm ≠ id ∧ id ∉ rest := by
      simpa only [List.mem_cons, not_or, ne_comm] using hid
    have hlanded := h.land hproperty (arrivals (.reading realm))
    have hread := ih hrest hlanded
    simp only [RealmTable.gatherAmid, Account.afterAll_append, Account.afterAll_cons,
      Account.after_gathered_of_ne hne, List.filter_append]
    refine ⟨hread.1, ?_⟩
    rw [hread.2, List.append_nil, List.filter_eq_nil_iff]
    intro harvested hmem
    have hrealm := RealmTable.realm_of_harvested? (Option.mem_toList.mp hmem)
    simpa [hrealm] using hne

end Enduring

/-! ## Records and accounts -/

/-- The record of a realm owes all lines of the realm's account. -/
structure Tracks (record? : Option RealmRecord) (account : Account) : Prop where
  absent : record? = none → account = Account.empty
  owes : ∀ {record : RealmRecord}, record? = some record →
    record.Owes (account.counted ++ account.late)

/-- The realm has a record that owes only the later lines once its mark is at `newest`. -/
def OwesLate (newest : Instant) (record? : Option RealmRecord) (account : Account) : Prop :=
  ∃ record, record? = some record ∧
    ({ record with checkpoint := some newest } : RealmRecord).Owes account.late

/-- The log of the realm was read in this round, and `found` was gathered of it. -/
structure Holding (id : UInt32) (found : Option Harvested) (record? : Option RealmRecord)
    (account : Account) : Prop where
  tracks : Tracks record? account
  of_none : found = none → account.counted = []
  of_some : ∀ {harvested : Harvested}, found = some harvested →
    account.counted ≠ [] ∧ harvested.log = ⟨id, account.counted.rtake logCapacity⟩ ∧
      OwesLate harvested.newest record? account

/-- Each arriving line is owed behind those that were owed before. -/
theorem RealmRecord.Owes.appendAll {record : RealmRecord} {lines : List LogLine}
    (h : record.Owes lines) (pushes : List Push) :
    (record.appendAll pushes).Owes (lines ++ pushes.map (·.line)) := by
  induction pushes generalizing record lines with
  | nil => simpa [RealmRecord.appendAll] using h
  | cons push rest ih =>
    have hrest := ih (h.append push.line push.time)
    rw [List.append_assoc, List.singleton_append] at hrest
    exact hrest

/-- Lines that arrive are owed by the record and late on its account. -/
theorem tracks_enduring : Enduring Tracks := by
  intro record? account pushes h
  cases record? with
  | none =>
    exact ⟨fun _ => h.absent rfl, nofun⟩
  | some record =>
    refine ⟨nofun, fun hsome => ?_⟩
    cases hsome
    simp only [Account.receive, ← List.append_assoc]
    exact (h.owes rfl).appendAll pushes

private theorem owesLate_enduring (newest : Instant) : Enduring (OwesLate newest) := by
  rintro record? account pushes ⟨record, rfl, h⟩
  refine ⟨record.appendAll pushes, rfl, ?_⟩
  rw [RealmRecord.appendAll_mark]
  exact h.appendAll pushes

/-- Lines that come in are not counted before a round has read the log. -/
@[simp] theorem Account.counted_receive (account : Account) (record? : Option RealmRecord)
    (lines : List LogLine) : (account.receive record? lines).counted = account.counted := by
  cases record? <;> rfl

/-- Lines that arrive after the log was read are no part of what was gathered of it. -/
theorem holding_enduring (id : UInt32) (found : Option Harvested) :
    Enduring (Holding id found) := by
  intro record? account pushes h
  refine
    { tracks := tracks_enduring pushes h.tracks
      of_none := fun hnone => by rw [Account.counted_receive]; exact h.of_none hnone
      of_some := fun hsome => ?_ }
  obtain ⟨hne, hlog, howes⟩ := h.of_some hsome
  rw [Account.counted_receive]
  exact ⟨hne, hlog, owesLate_enduring _ pushes howes⟩

/-- Reading the log of the realm itself. -/
theorem Tracks.reading {table : RealmTable} {id : UInt32} {account : Account}
    (h : Tracks (table.find? id) account) :
    Holding id ((table.find? id).bind (·.harvested?)) (table.find? id)
      (account.after id (.gathered id)) := by
  have hafter : account.after id (.gathered id) = ⟨account.counted ++ account.late, []⟩ :=
    if_pos rfl
  rw [hafter]
  cases hfind : table.find? id with
  | none =>
    rw [h.absent hfind]
    exact
      { tracks := ⟨fun _ => rfl, nofun⟩
        of_none := fun _ => rfl
        of_some := nofun }
  | some record =>
    have howes := h.owes hfind
    refine
      { tracks := ⟨nofun, fun hsome => ?_⟩
        of_none := fun hnone => howes.harvested?_eq_none hnone
        of_some := fun hsome => ?_ }
    · cases hsome
      simpa only [List.append_nil] using howes
    · obtain ⟨hne, hlog, hlate⟩ := howes.harvested?_eq_some hsome
      rw [RealmTable.id_of_find? hfind] at hlog
      exact ⟨hne, hlog, record, rfl, hlate⟩

/-- What a round gathers of a realm is what the account of the realm says is due. -/
theorem Tracks.gatherAmid {id : UInt32} (arrivals : Arrivals) {ids : List UInt32}
    (hnodup : ids.Nodup) (hid : id ∈ ids) {table : RealmTable} {account : Account}
    (h : Tracks (table.find? id) account) :
    ∃ found, (RealmTable.gatherAmid arrivals ids table).1.filter (·.log.realm = id) =
        found.toList ∧
      Holding id found ((RealmTable.gatherAmid arrivals ids table).2.2.find? id)
        (account.afterAll id (RealmTable.gatherAmid arrivals ids table).2.1) := by
  induction ids generalizing table account with
  | nil => cases hid
  | cons realm rest ih =>
    obtain ⟨hrealm, hrest⟩ := List.nodup_cons.mp hnodup
    have hlanded := Enduring.land tracks_enduring h (arrivals (.reading realm))
    simp only [RealmTable.gatherAmid, Account.afterAll_append, Account.afterAll_cons,
      List.filter_append]
    by_cases hhere : realm = id
    · subst hhere
      have hread := hlanded.reading
      obtain ⟨hholding, hnothing⟩ :=
        Enduring.gatherAmid (holding_enduring realm _) arrivals hrealm hread
      refine ⟨_, ?_, hholding⟩
      rw [hnothing, List.append_nil, List.filter_eq_self]
      intro harvested hmem
      simpa using RealmTable.realm_of_harvested? (Option.mem_toList.mp hmem)
    · have hmem : id ∈ rest := (List.mem_cons.mp hid).resolve_left (fun e => hhere e.symm)
      obtain ⟨found, hfound, hholding⟩ := ih hrest hmem hlanded
      rw [Account.after_gathered_of_ne hhere]
      refine ⟨found, ?_, hholding⟩
      rw [hfound, List.filter_eq_nil_iff.mpr, List.nil_append]
      intro harvested hmem
      have hrealm := RealmTable.realm_of_harvested? (Option.mem_toList.mp hmem)
      simpa [hrealm] using hhere

/-- The realm was never there. -/
def Missing (record? : Option RealmRecord) (account : Account) : Prop :=
  record? = none ∧ account = Account.empty

private theorem missing_enduring : Enduring Missing := by
  rintro record? account pushes ⟨rfl, rfl⟩
  exact ⟨rfl, rfl⟩

private theorem RealmTable.find?_eq_none_of_not_mem_ids {table : RealmTable} {id : UInt32}
    (h : id ∉ table.ids) : table.find? id = none := by
  cases hfind : table.find? id with
  | none => rfl
  | some record =>
    obtain ⟨hmem, hid⟩ := find?_eq_some_iff.mp hfind
    exact absurd (hid ▸ List.mem_map_of_mem hmem) h

private theorem RealmTable.nodup_ids (table : RealmTable) : table.ids.Nodup :=
  List.pairwise_map.mpr (table.ascending.imp fun hlt => UInt32.ne_of_lt hlt)

/-- What a round that reads all logs gathers of a realm. -/
theorem Tracks.gatherAll {id : UInt32} (arrivals : Arrivals) {table : RealmTable}
    {account : Account} (h : Tracks (table.find? id) account) :
    ∃ found, (RealmTable.gatherAmid arrivals table.ids table).1.filter (·.log.realm = id) =
        found.toList ∧
      Holding id found ((RealmTable.gatherAmid arrivals table.ids table).2.2.find? id)
        (account.afterAll id (RealmTable.gatherAmid arrivals table.ids table).2.1) := by
  by_cases hid : id ∈ table.ids
  · exact h.gatherAmid arrivals table.nodup_ids hid
  · have hnone := RealmTable.find?_eq_none_of_not_mem_ids hid
    have hmissing : Missing (table.find? id) account := ⟨hnone, h.absent hnone⟩
    obtain ⟨⟨hfind, haccount⟩, hnothing⟩ :=
      Enduring.gatherAmid missing_enduring arrivals hid hmissing
    refine ⟨none, hnothing, ?_⟩
    rw [hfind, haccount]
    exact
      { tracks := ⟨fun _ => rfl, nofun⟩
        of_none := fun _ => rfl
        of_some := nofun }

/-! ## Moving the marks -/

/-- Moving the marks of other realms breaks nothing. -/
theorem Enduring.settleAmid {property : Option RealmRecord → Account → Prop}
    (h : Enduring property) (arrivals : Arrivals) {id : UInt32} {delivered : List Harvested}
    (hothers : delivered.filter (·.log.realm = id) = []) {table : RealmTable} {account : Account}
    (hproperty : property (table.find? id) account) :
    property ((RealmTable.settleAmid arrivals delivered table).2.find? id)
      (account.afterAll id (RealmTable.settleAmid arrivals delivered table).1) := by
  induction delivered generalizing table account with
  | nil => exact hproperty
  | cons harvested rest ih =>
    have hne : harvested.log.realm ≠ id := by
      intro heq
      rw [List.filter_cons_of_pos (by simpa using heq)] at hothers
      cases hothers
    rw [List.filter_cons_of_neg (by simpa using hne)] at hothers
    have hlanded := h.land hproperty (arrivals (.marking harvested.log.realm))
    rw [← RealmTable.find?_setCheckpoint_of_ne _ hne harvested.newest] at hlanded
    simp only [RealmTable.settleAmid, Account.afterAll_append]
    exact ih hothers hlanded

/-- A batch with lines of the realm was delivered, and its mark is yet to be moved. -/
structure Settling (newest : Instant) (record? : Option RealmRecord) (account : Account) :
    Prop where
  counted_eq : account.counted = []
  owesLate : OwesLate newest record? account

private theorem settling_enduring (newest : Instant) : Enduring (Settling newest) := by
  intro record? account pushes h
  exact
    { counted_eq := by rw [Account.counted_receive]; exact h.counted_eq
      owesLate := owesLate_enduring newest pushes h.owesLate }

/-- Moving the mark of the realm itself. -/
theorem Settling.marking {table : RealmTable} {id : UInt32} {account : Account}
    {newest : Instant} (h : Settling newest (table.find? id) account) :
    Tracks ((table.setCheckpoint id newest).find? id) account := by
  obtain ⟨record, hfind, howes⟩ := h.owesLate
  rw [RealmTable.find?_setCheckpoint_self, hfind]
  refine ⟨nofun, fun hsome => ?_⟩
  cases hsome
  rw [h.counted_eq, List.nil_append]
  exact howes

/-- When all marks are moved, the realm owes what came in after its log was read. -/
theorem Settling.settleAmid (arrivals : Arrivals) {id : UInt32} {delivered : List Harvested}
    {harvested : Harvested} (hfound : delivered.filter (·.log.realm = id) = [harvested])
    {table : RealmTable} {account : Account}
    (h : Settling harvested.newest (table.find? id) account) :
    Tracks ((RealmTable.settleAmid arrivals delivered table).2.find? id)
      (account.afterAll id (RealmTable.settleAmid arrivals delivered table).1) := by
  induction delivered generalizing table account with
  | nil => cases hfound
  | cons first rest ih =>
    have hlanded := Enduring.land (settling_enduring harvested.newest) h
      (arrivals (.marking first.log.realm))
    simp only [RealmTable.settleAmid, Account.afterAll_append]
    by_cases hhere : first.log.realm = id
    · rw [List.filter_cons_of_pos (by simpa using hhere), List.cons.injEq] at hfound
      obtain ⟨rfl, hothers⟩ := hfound
      rw [hhere] at hlanded ⊢
      exact Enduring.settleAmid tracks_enduring arrivals hothers hlanded.marking
    · rw [List.filter_cons_of_neg (by simpa using hhere)] at hfound
      rw [← RealmTable.find?_setCheckpoint_of_ne _ hhere first.newest] at hlanded
      exact ih hfound hlanded

/-- Once the batch is delivered and the marks are moved, the record owes the later lines only. -/
theorem Holding.settleAmid (arrivals : Arrivals) {id : UInt32} {delivered : List Harvested}
    {found : Option Harvested} (hfound : delivered.filter (·.log.realm = id) = found.toList)
    {table : RealmTable} {account : Account} (h : Holding id found (table.find? id) account) :
    Tracks ((RealmTable.settleAmid arrivals delivered table).2.find? id)
      ((account.after id (.delivered (delivered.map (·.log)))).afterAll id
        (RealmTable.settleAmid arrivals delivered table).1) := by
  cases found with
  | none =>
    have hany : (delivered.map (·.log)).any (·.realm = id) = false := by
      simpa [List.filter_eq_nil_iff] using hfound
    rw [Account.after, hany]
    exact Enduring.settleAmid tracks_enduring arrivals hfound h.tracks
  | some harvested =>
    have hmem : harvested ∈ delivered.filter (·.log.realm = id) := by
      rw [hfound]
      exact List.mem_singleton_self harvested
    obtain ⟨hmem, hrealm⟩ := List.mem_filter.mp hmem
    have hany : (delivered.map (·.log)).any (·.realm = id) = true :=
      List.any_eq_true.mpr ⟨harvested.log, List.mem_map_of_mem hmem, by simpa using hrealm⟩
    rw [Account.after, hany]
    obtain ⟨-, -, howes⟩ := h.of_some rfl
    exact Settling.settleAmid arrivals hfound ⟨rfl, howes⟩

/-- What was gathered of a realm is what its account says is due. -/
theorem Holding.due_eq {id : UInt32} {found : Option Harvested} {record? : Option RealmRecord}
    {account : Account} (h : Holding id found record? account) :
    found.toList.map (·.log) = account.due id := by
  cases found with
  | none =>
    rw [Account.due, if_pos (h.of_none rfl)]
    rfl
  | some harvested =>
    obtain ⟨hne, hlog, -⟩ := h.of_some rfl
    rw [Account.due, if_neg hne, ← hlog]
    rfl

end RealmDirectory
