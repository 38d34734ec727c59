import Mathlib.Data.List.DropRight
import RealmDirectory.Hub.Harvest
import RealmDirectory.Proofs.LogRing.History

/-!
# What a record still owes the admin session

`record.Owes lines` says that `lines`, the oldest first, are what came into the log of a record
since its delivery mark. The record need not hold all of them any more: what a round gathers are
the last of them, as many as the log can keep. Once the mark moves to the newest line gathered,
nothing is owed.

The mark is a stamp that the log itself has given. Since stamps increase, every later line is
beyond it, which is what makes a stamp good enough to tell delivered lines from new ones.

## Main results

* `Owes.append` — a new line is owed behind the others.
* `Owes.harvested?_eq_none`, `Owes.harvested?_eq_some` — what a round gathers.
-/

namespace RealmDirectory.RealmRecord

open LogRing (newer)

/-- `lines` came into the log since the delivery mark, given all that ever came into it. -/
structure OwesSince (record : RealmRecord) (history : RingHistory LogLine)
    (lines : List LogLine) : Prop where
  shows : record.log.Shows history
  capacity_eq : record.log.capacity = logCapacity
  lines_eq : (history.sinceClear.takeWhile (newer record.checkpoint)).map (·.item) = lines.reverse
  /-- The mark is a stamp of this log. -/
  mark_mem : ∀ {stamp : Instant}, record.checkpoint = some stamp →
    ∃ entry ∈ history.life, entry.stamp = stamp

/-- `lines`, the oldest first, came into the log since the delivery mark. -/
def Owes (record : RealmRecord) (lines : List LogLine) : Prop :=
  ∃ history, OwesSince record history lines

/-- Only the log and the mark matter. -/
theorem Owes.congr {record other : RealmRecord} {lines : List LogLine} (h : record.Owes lines)
    (hlog : other.log = record.log) (hmark : other.checkpoint = record.checkpoint) :
    other.Owes lines := by
  obtain ⟨history, h⟩ := h
  exact ⟨history,
    { shows := hlog ▸ h.shows
      capacity_eq := hlog ▸ h.capacity_eq
      lines_eq := hmark ▸ h.lines_eq
      mark_mem := fun hstamp => h.mark_mem (hmark ▸ hstamp) }⟩

/-- A record that nothing was logged in owes nothing. -/
theorem owes_of_fresh {record : RealmRecord} (hlog : record.log = LogRing.create logCapacity)
    (hmark : record.checkpoint = none) : record.Owes [] :=
  ⟨RingHistory.start,
    { shows := hlog ▸ LogRing.shows_create logCapacity
      capacity_eq := by rw [hlog, LogRing.capacity_create]; rfl
      lines_eq := rfl
      mark_mem := fun hstamp => by rw [hmark] at hstamp; cases hstamp }⟩

/-- A new line is stamped beyond the mark, so it is owed. -/
theorem Owes.append {record : RealmRecord} {lines : List LogLine} (h : record.Owes lines)
    (line : LogLine) (now : Instant) : (record.append line now).Owes (lines ++ [line]) := by
  obtain ⟨history, h⟩ := h
  have hnew : newer record.checkpoint ⟨history.stampAt now, line⟩ = true := by
    cases hmark : record.checkpoint with
    | none => rfl
    | some stamp =>
      obtain ⟨entry, hentry, rfl⟩ := h.mark_mem hmark
      exact decide_eq_true (history.lt_stampAt now hentry)
  refine ⟨history.step (.push line now),
    { shows := h.shows.push line now
      capacity_eq := by rw [← h.capacity_eq]; exact LogRing.capacity_push _ _ _
      lines_eq := ?_
      mark_mem := ?_ }⟩
  · have hmark : (record.append line now).checkpoint = record.checkpoint := rfl
    simp only [hmark, RingHistory.step, List.takeWhile_cons, hnew, if_true, List.map_cons,
      h.lines_eq, List.reverse_append, List.reverse_singleton, List.singleton_append]
  · intro stamp hstamp
    obtain ⟨entry, hentry, heq⟩ := h.mark_mem hstamp
    exact ⟨entry, List.mem_cons_of_mem _ hentry, heq⟩

/-- What a round reads of a log are the latest of the lines that are owed, as many as the log
keeps. -/
theorem OwesSince.undelivered_eq {record : RealmRecord} {history : RingHistory LogLine}
    {lines : List LogLine} (h : record.OwesSince history lines) :
    record.undelivered =
      (history.sinceClear.takeWhile (newer record.checkpoint)).take logCapacity := by
  rw [undelivered, h.shows.holds.unseen_eq, h.capacity_eq, List.take_takeWhile]

private theorem OwesSince.map_undelivered {record : RealmRecord} {history : RingHistory LogLine}
    {lines : List LogLine} (h : record.OwesSince history lines) :
    record.undelivered.map (·.item) = lines.reverse.take logCapacity := by
  rw [h.undelivered_eq, List.map_take, h.lines_eq]

/-- A round passes a record over only if it owes nothing. -/
theorem Owes.harvested?_eq_none {record : RealmRecord} {lines : List LogLine}
    (h : record.Owes lines) (hnone : record.harvested? = none) : lines = [] := by
  obtain ⟨history, h⟩ := h
  have hitems := h.map_undelivered
  unfold harvested? at hnone
  split at hnone
  · next hnil =>
    rw [hnil, List.map_nil] at hitems
    have hlen := congrArg List.length hitems
    rw [List.length_take, List.length_reverse, List.length_nil] at hlen
    exact List.length_eq_zero_iff.mp (by unfold logCapacity at hlen; omega)
  · cases hnone

/-- What a round gathers of a record are the last lines it owes, and with the mark moved to the
newest of them it owes nothing. -/
theorem Owes.harvested?_eq_some {record : RealmRecord} {lines : List LogLine}
    {harvested : Harvested} (h : record.Owes lines) (hsome : record.harvested? = some harvested) :
    lines ≠ [] ∧ harvested.log = ⟨record.id, lines.rtake logCapacity⟩ ∧
      { record with checkpoint := some harvested.newest }.Owes [] := by
  obtain ⟨history, h⟩ := h
  have hitems := h.map_undelivered
  have hentries := h.undelivered_eq
  unfold harvested? at hsome
  split at hsome
  · cases hsome
  · next newest older hcons =>
    cases hsome
    rw [hcons] at hitems hentries
    -- The newest line gathered is the newest one of the whole history.
    have hhead : ∃ rest, history.sinceClear = newest :: rest := by
      cases hall : history.sinceClear with
      | nil => simp [hall] at hentries
      | cons first rest =>
        rw [hall, List.takeWhile_cons] at hentries
        split at hentries
        · rw [logCapacity, List.take_succ_cons, List.cons.injEq] at hentries
          exact ⟨rest, by rw [hentries.1]⟩
        · simp at hentries
    obtain ⟨rest, hrest⟩ := hhead
    refine ⟨?_, ?_, history, ?_⟩
    · rintro rfl
      simp at hitems
    · rw [List.rtake_eq_reverse_take_reverse, ← hitems, ← List.map_reverse]
    · exact
        { shows := h.shows
          capacity_eq := h.capacity_eq
          lines_eq := by
            simp [hrest, newer]
          mark_mem := by
            intro stamp hstamp
            cases hstamp
            refine ⟨newest, ?_, rfl⟩
            exact h.shows.sinceClear_life.subset (by rw [hrest]; exact List.mem_cons_self) }

end RealmDirectory.RealmRecord
