import RealmDirectory.Proofs.Harvest.Account
import RealmDirectory.Proofs.Session.Records

/-!
# The lines that a round finds

A round reads every log backwards, stops at the delivery mark, and turns what it found around. What
it ought to find is said without any of that: `record.fresh` are the lines of the log stamped later
than the mark, or all of them if there is no mark. The two agree for a log that came about by
pushes and clears, since its stamps decrease; `LogRing.IsGrown` says just that of a log, and every
log of a hub that is run has it.

## Main results

* `Traffic.grown_run` — the logs of a hub after any run.
* `RealmRecord.harvested?_eq` — what a round makes of one record.
* `RealmTable.gather_eq`, `RealmTable.find?_settle_gather` — of all of them, and what it leaves.
-/

namespace RealmDirectory

variable {σ : Type}

/-! ## Logs that grow -/

namespace LogRing

variable {α : Type}

/-- The ring came about by pushes and clears. -/
def IsGrown (ring : LogRing α) : Prop :=
  ∃ capacity steps, ring = (create capacity).run steps

private theorem isGrown_create (capacity : Nat) : (create capacity : LogRing α).IsGrown :=
  ⟨capacity, [], rfl⟩

private theorem run_concat (ring : LogRing α) (steps : List (RingStep α)) (last : RingStep α) :
    ring.run (steps ++ [last]) = (ring.run steps).step last := by
  induction steps generalizing ring with
  | nil => rfl
  | cons first rest ih => exact ih (ring.step first)

/-- A ring that grew by pushes and clears grows on by them. -/
theorem IsGrown.step {ring : LogRing α} (h : ring.IsGrown) (next : RingStep α) :
    (ring.step next).IsGrown := by
  obtain ⟨capacity, steps, rfl⟩ := h
  exact ⟨capacity, steps ++ [next], (run_concat _ steps next).symm⟩

/-- A ring that grew has a history that it shows the end of. -/
theorem IsGrown.shows {ring : LogRing α} (h : ring.IsGrown) : ∃ history, ring.Shows history := by
  obtain ⟨capacity, steps, rfl⟩ := h
  exact ⟨_, (shows_create capacity).run steps⟩

end LogRing

namespace RealmRecord

/-- The log of the record came about by pushes and clears. -/
def HasGrownLog (record : RealmRecord) : Prop := record.log.IsGrown

theorem HasGrownLog.append {record : RealmRecord} (h : record.HasGrownLog) (line : LogLine)
    (now : Instant) : (record.append line now).HasGrownLog :=
  LogRing.IsGrown.step h (.push line now)

theorem HasGrownLog.clear {record : RealmRecord} (h : record.HasGrownLog) :
    HasGrownLog { record with log := record.log.clear } :=
  LogRing.IsGrown.step h .clear

/-- A registration takes the old log over or keeps its own. -/
theorem HasGrownLog.entering {record : RealmRecord} (h : record.HasGrownLog)
    {previous : Option RealmRecord} (hprevious : ∀ old, previous = some old → old.HasGrownLog) :
    (record.entering previous).HasGrownLog := by
  cases previous with
  | none => exact h
  | some old => exact hprevious old rfl

end RealmRecord

/-- What the step puts in without a session has a log that came about by pushes and clears. -/
def RealmStep.EntersGrown : RealmStep → Prop
  | .call (.register record) _ => record.HasGrownLog
  | _ => True

private theorem Envelope.upholds_hasGrownLog (envelope : Envelope) (now : Instant) :
    envelope.Upholds RealmRecord.HasGrownLog now where
  registered := by
    intro session registration _ previous hprevious
    have hempty : (session.record registration).HasGrownLog := LogRing.isGrown_create logCapacity
    exact hempty.entering hprevious
  written := by
    intro record hrecord
    unfold Session.written
    split
    · split <;> exact hrecord
    · split
      · exact hrecord
      next line _ => exact hrecord.append line now
    · exact hrecord

/-- Sessions and calls change a log by pushes and clears only. -/
theorem RealmStep.upholds_hasGrownLog {step : RealmStep} (h : step.EntersGrown) :
    step.Upholds RealmRecord.HasGrownLog := by
  cases step with
  | join peer => trivial
  | dispatch place envelope now => exact envelope.upholds_hasGrownLog now
  | close place => exact fun record hrecord => hrecord
  | drop place => trivial
  | call op hop =>
    cases op with
    | register record => exact fun previous hprevious => h.entering hprevious
    | append id line now => exact fun record hrecord => hrecord.append line now
    | setOnline id online => exact fun record hrecord => hrecord
    | release id link => exact fun record hrecord => hrecord
    | report id status => exact fun record hrecord => hrecord
    | clearLog id => exact fun record hrecord => hrecord.clear
    | remove id => trivial
    | login sink current => trivial
    | evict session => trivial

/-- Every log comes about by pushes and clears, whatever the sessions and the admin do. -/
theorem Traffic.grown_run [Transport σ] (transport : σ) {steps : List (TrafficStep σ)}
    (hsteps : ∀ step ∈ steps.filterMap TrafficStep.realm?, step.EntersGrown) :
    ((start transport).run steps).2.hub.realms.Every RealmRecord.HasGrownLog := by
  have hstart : (start transport).hub.realms.Every RealmRecord.HasGrownLog :=
    List.forall_mem_nil _
  refine every_run ?_ hstart fun step hmem => ?_
  · intro a b hmark hrecord
    have hlog := (RealmRecord.unmarked_eq_iff.mp hmark).2.1
    unfold RealmRecord.HasGrownLog
    rw [← hlog]
    exact hrecord
  · exact RealmStep.upholds_hasGrownLog (hsteps step hmem)

/-! ## One record -/

namespace RealmRecord

/-- The lines of the log stamped after the delivery mark, or all of them if there is no mark;
newest first. -/
def fresh (record : RealmRecord) : List (Stamped LogLine) :=
  record.log.toList.filter fun line => record.checkpoint.all (· < line.stamp)

/-- The fresh lines as they are to be sent, oldest first. -/
def due (record : RealmRecord) : RealmLog := ⟨record.id, record.fresh.reverse.map (·.item)⟩

/-- The record once its fresh lines are delivered: its mark is the stamp of the newest of them. -/
def settled (record : RealmRecord) : RealmRecord :=
  match record.fresh with
  | [] => record
  | newest :: _ => { record with checkpoint := some newest.stamp }

variable {record : RealmRecord}

/-- Reading backwards up to the mark finds all fresh lines. -/
theorem undelivered_eq_fresh (h : record.HasGrownLog) : record.undelivered = record.fresh := by
  obtain ⟨history, hshows⟩ := LogRing.IsGrown.shows h
  unfold undelivered fresh
  cases record.checkpoint with
  | none => exact (List.filter_eq_self.mpr fun _ _ => rfl).symm
  | some mark => exact hshows.newerThan_eq_filter mark

/-- The first of the fresh lines is the newest. -/
theorem stamp_le_of_mem_fresh (h : record.HasGrownLog) {newest line : Stamped LogLine}
    {older : List (Stamped LogLine)} (hfresh : record.fresh = newest :: older)
    (hline : line ∈ record.fresh) : line.stamp ≤ newest.stamp := by
  obtain ⟨history, hshows⟩ := LogRing.IsGrown.shows h
  have hpairwise : record.fresh.Pairwise fun later earlier => earlier.stamp < later.stamp :=
    hshows.decreasing_toList.filter _
  rw [hfresh] at hpairwise hline
  rcases List.mem_cons.mp hline with rfl | holder
  · exact Nat.le_refl _
  · exact Nat.le_of_lt ((List.pairwise_cons.mp hpairwise).1 line holder)

/-- A round gathers the fresh lines of a record, oldest first, with the stamp of the newest. -/
theorem harvested?_eq (h : record.HasGrownLog) :
    record.harvested? = record.fresh.head?.map fun newest => ⟨record.due, newest.stamp⟩ := by
  unfold harvested? due
  rw [undelivered_eq_fresh h]
  cases record.fresh with
  | nil => rfl
  | cons newest older => rfl

private theorem settled_eq (record : RealmRecord) :
    record.settled = record.fresh.head?.elim record fun newest =>
      { record with checkpoint := some newest.stamp } := by
  unfold settled
  cases record.fresh with
  | nil => rfl
  | cons newest older => rfl

end RealmRecord

/-! ## All records -/

namespace RealmTable

/-- The lines that the next round ought to send, in ascending order of the realm ids. -/
def due (table : RealmTable) : List RealmLog :=
  (table.records.filter (·.fresh ≠ [])).map (·.due)

variable {table : RealmTable}

/-- What is due of a realm are its fresh lines, the oldest first. -/
theorem mem_due_iff {log : RealmLog} :
    log ∈ table.due ↔ ∃ record, table.find? log.realm = some record ∧ record.fresh ≠ [] ∧
      log.lines = record.fresh.reverse.map (·.item) := by
  unfold due
  rw [List.mem_map]
  constructor
  · rintro ⟨record, hrecord, rfl⟩
    obtain ⟨hmem, hfresh⟩ := List.mem_filter.mp hrecord
    exact ⟨record, mem_records_iff.mp hmem, of_decide_eq_true hfresh, rfl⟩
  · rintro ⟨record, hfind, hfresh, hlines⟩
    obtain ⟨hmem, hid⟩ := find?_eq_some_iff.mp hfind
    refine ⟨record, List.mem_filter.mpr ⟨hmem, decide_eq_true hfresh⟩, ?_⟩
    show RealmLog.mk record.id (record.fresh.reverse.map (·.item)) = log
    rw [hid, ← hlines]

theorem ascending_due (table : RealmTable) :
    table.due.Pairwise fun a b => a.realm < b.realm :=
  List.pairwise_map.mpr (table.ascending.filter _)

/-- Nothing is due exactly if no realm has a fresh line. -/
theorem due_eq_nil_iff : table.due = [] ↔ ∀ record ∈ table.records, record.fresh = [] := by
  unfold due
  rw [List.map_eq_nil_iff, List.filter_eq_nil_iff]
  simp only [decide_eq_true_eq, not_not]

/-- A round gathers just these lines. -/
theorem gather_eq (h : table.Every RealmRecord.HasGrownLog) :
    table.gather.map (·.log) = table.due := by
  unfold gather due
  unfold Every at h
  generalize table.records = records at h
  induction records with
  | nil => rfl
  | cons first rest ih =>
    obtain ⟨hfirst, hrest⟩ := List.forall_mem_cons.mp h
    rw [List.filterMap_cons, RealmRecord.harvested?_eq hfirst]
    cases hfresh : first.fresh with
    | nil =>
      rw [List.filter_cons_of_neg (by simp [hfresh])]
      exact ih hrest
    | cons newest older =>
      rw [List.filter_cons_of_pos (by simp [hfresh])]
      exact congrArg (first.due :: ·) (ih hrest)

private theorem mem_gather_iff {harvested : Harvested} :
    harvested ∈ table.gather ↔ ∃ record, table.find? harvested.log.realm = some record ∧
      record.harvested? = some harvested := by
  unfold gather
  rw [List.mem_filterMap]
  constructor
  · rintro ⟨record, hmem, hharvested⟩
    have hfind := mem_records_iff.mp hmem
    have hthere : (table.find? record.id).bind (·.harvested?) = some harvested := by
      rw [hfind]
      exact hharvested
    exact ⟨record, realm_of_harvested? hthere ▸ hfind, hharvested⟩
  · rintro ⟨record, hfind, hharvested⟩
    exact ⟨record, (find?_eq_some_iff.mp hfind).1, hharvested⟩

/-! ## The marks -/

private theorem find?_settle_of_ne {delivered : List Harvested} {id : UInt32}
    (h : ∀ harvested ∈ delivered, harvested.log.realm ≠ id) (table : RealmTable) :
    (table.settle delivered).find? id = table.find? id := by
  induction delivered generalizing table with
  | nil => rfl
  | cons first rest ih =>
    obtain ⟨hfirst, hrest⟩ := List.forall_mem_cons.mp h
    refine (ih hrest (table.setCheckpoint first.log.realm first.newest)).trans ?_
    exact find?_setCheckpoint_of_ne table hfirst first.newest

private theorem find?_settle_of_mem {delivered : List Harvested} {harvested : Harvested}
    (h : delivered.Pairwise fun a b => a.log.realm < b.log.realm) (hmem : harvested ∈ delivered)
    (table : RealmTable) :
    (table.settle delivered).find? harvested.log.realm =
      (table.find? harvested.log.realm).map fun record =>
        { record with checkpoint := some harvested.newest } := by
  induction delivered generalizing table with
  | nil => cases hmem
  | cons first rest ih =>
    obtain ⟨hfirst, hrest⟩ := List.pairwise_cons.mp h
    have hother := fun other hother => UInt32.ne_of_lt (hfirst other hother)
    rcases List.mem_cons.mp hmem with rfl | hmem
    · refine (find?_settle_of_ne (fun other hmem => (hother other hmem).symm) _).trans ?_
      exact find?_setCheckpoint_self table _ _
    · refine (ih hrest hmem (table.setCheckpoint first.log.realm first.newest)).trans ?_
      rw [find?_setCheckpoint_of_ne table (hother harvested hmem)]

private theorem find?_settle_gather_of_none {id : UInt32}
    (h : (table.find? id).bind (·.harvested?) = none) :
    (table.settle table.gather).find? id = table.find? id := by
  refine find?_settle_of_ne ?_ table
  rintro harvested hmem rfl
  obtain ⟨record, hfind, hsome⟩ := mem_gather_iff.mp hmem
  rw [hfind] at h
  cases h.symm.trans hsome

/-- A round moves the mark of each record to its newest fresh line and changes nothing else. -/
theorem find?_settle_gather (h : table.Every RealmRecord.HasGrownLog) (id : UInt32) :
    (table.settle table.gather).find? id = (table.find? id).map (·.settled) := by
  have hascending : table.gather.Pairwise fun a b => a.log.realm < b.log.realm := by
    have hdue := table.ascending_due
    rw [← gather_eq h, List.pairwise_map] at hdue
    exact hdue
  cases hfind : table.find? id with
  | none =>
    have hnone : (table.find? id).bind (·.harvested?) = none := by
      rw [hfind]
      rfl
    exact (find?_settle_gather_of_none hnone).trans hfind
  | some record =>
    have hharvested := RealmRecord.harvested?_eq (h.find? hfind)
    rw [Option.map_some, RealmRecord.settled_eq]
    cases hnewest : record.fresh.head? with
    | none =>
      have hnone : (table.find? id).bind (·.harvested?) = none := by
        rw [hfind, Option.bind_some, hharvested, hnewest]
        rfl
      exact (find?_settle_gather_of_none hnone).trans hfind
    | some newest =>
      rw [hnewest] at hharvested
      have hid := id_of_find? hfind
      have hrealm : (Harvested.mk record.due newest.stamp).log.realm = id := hid
      have hmem : Harvested.mk record.due newest.stamp ∈ table.gather :=
        mem_gather_iff.mpr ⟨record, by rw [hrealm]; exact hfind, hharvested⟩
      have hsettled := find?_settle_of_mem hascending hmem table
      rw [hrealm, hfind] at hsettled
      exact hsettled

end RealmTable

end RealmDirectory
