import RealmDirectory.Proofs.LogRing.Window

/-!
# A ring as the end of an unbounded history

What happens to a ring is a list of pushes and clears. A `RingHistory` takes the same steps and
forgets nothing: it lists every item ever pushed, and those pushed since the latest clear. It has
no capacity, no slots and no indices, and it stamps an item by looking at every stamp given before.

The main result, `run_eq_history`, says that after any steps a ring of any capacity shows the end
of its history: the stamps are those of the history, and what is kept are the latest items since
the latest clear, as many as fit.
-/

namespace RealmDirectory

variable {α : Type}

/-! ## Steps and histories -/

/-- Something that happens to a ring. -/
inductive RingStep (α : Type) where
  | push (item : α) (now : Instant)
  | clear
  deriving DecidableEq, Repr

namespace LogRing

/-- The ring after a step. -/
def step (ring : LogRing α) : RingStep α → LogRing α
  | .push item now => ring.push item now
  | .clear => ring.clear

/-- The ring after some steps. -/
def run (ring : LogRing α) : List (RingStep α) → LogRing α
  | [] => ring
  | first :: rest => (ring.step first).run rest

end LogRing

/-- Everything that was pushed, the latest first. -/
structure RingHistory (α : Type) where
  /-- The items of the whole life, cleared or not. -/
  life : List (Stamped α)
  /-- The items pushed since the latest clear. -/
  sinceClear : List (Stamped α)

namespace RingHistory

/-- Nothing has happened. -/
def start : RingHistory α := ⟨[], []⟩

/-- The stamp of an item pushed at an instant: the instant itself if it is later than every stamp
so far, and one nanosecond after the latest of them otherwise. -/
def stampAt (history : RingHistory α) (now : Instant) : Instant :=
  match (history.life.map (·.stamp)).max? with
  | none => now
  | some latest => if latest < now then now else latest + 1

/-- The history after a step. -/
def step (history : RingHistory α) : RingStep α → RingHistory α
  | .push item now =>
    let entry := ⟨history.stampAt now, item⟩
    ⟨entry :: history.life, entry :: history.sinceClear⟩
  | .clear => { history with sinceClear := [] }

/-- The history after some steps. -/
def run (history : RingHistory α) : List (RingStep α) → RingHistory α
  | [] => history
  | first :: rest => (history.step first).run rest

/-- A stamp is later than all stamps before it. -/
theorem lt_stampAt (history : RingHistory α) (now : Instant) {entry : Stamped α}
    (h : entry ∈ history.life) : entry.stamp < history.stampAt now := by
  have hmem : entry.stamp ∈ history.life.map (·.stamp) := List.mem_map_of_mem h
  unfold stampAt
  split
  · next hnone =>
    rw [List.max?_eq_none_iff.mp hnone] at hmem
    cases hmem
  · next latest hsome =>
    have hle : entry.stamp ≤ latest := (List.max?_eq_some_iff.mp hsome).2 _ hmem
    split
    · next hlt => exact Nat.lt_of_le_of_lt hle hlt
    · exact Nat.lt_succ_of_le hle

end RingHistory

/-! ## The ring beside its history -/

namespace LogRing

/-- The ring shows the end of the history. -/
structure Shows (ring : LogRing α) (history : RingHistory α) : Prop where
  holds : Holds ring (history.sinceClear.take ring.capacity)
  latest_eq : ring.latest = (history.life.map (·.stamp)).max?
  decreasing : history.life.Pairwise (fun later earlier => earlier.stamp < later.stamp)
  sinceClear_life : history.sinceClear <+: history.life

private theorem Shows.stampAt_eq {ring : LogRing α} {history : RingHistory α}
    (h : Shows ring history) (now : Instant) : ring.stampAt now = history.stampAt now := by
  unfold stampAt RingHistory.stampAt
  rw [h.latest_eq]
  cases (history.life.map (·.stamp)).max? with
  | none => rfl
  | some latest =>
    by_cases hlt : latest < now
    · simp only [if_pos hlt, if_neg (Nat.not_le.mpr hlt)]
    · simp only [if_neg hlt, if_pos (Nat.not_lt.mp hlt)]

theorem shows_create (capacity : Nat) :
    Shows (create capacity : LogRing α) RingHistory.start where
  holds := by
    simp only [RingHistory.start, List.take_nil]
    exact holds_create capacity
  latest_eq := rfl
  decreasing := List.Pairwise.nil
  sinceClear_life := List.prefix_rfl

/-- An item that is pushed is the newest of the history, too. -/
theorem Shows.push {ring : LogRing α} {history : RingHistory α} (h : Shows ring history)
    (item : α) (now : Instant) :
    Shows (ring.push item now) (history.step (.push item now)) where
  holds := by
    have hpush := h.holds.push item now
    have hpos := ring.capacity_pos
    rw [h.stampAt_eq] at hpush
    obtain ⟨below, hbelow⟩ := Nat.exists_eq_add_of_lt hpos
    rw [show ring.capacity = below + 1 by omega] at hpush
    simp only [RingHistory.step, capacity_push, show ring.capacity = below + 1 by omega,
      List.take_succ_cons] at hpush ⊢
    rwa [List.take_take, show min below (below + 1) = below by omega] at hpush
  latest_eq := by
    rw [latest_push, h.stampAt_eq]
    symm
    rw [List.max?_eq_some_iff]
    refine ⟨by simp [RingHistory.step], ?_⟩
    intro stamp hstamp
    simp only [RingHistory.step, List.map_cons, List.mem_cons, List.mem_map] at hstamp
    rcases hstamp with rfl | ⟨entry, hentry, rfl⟩
    · exact Nat.le_refl _
    · exact Nat.le_of_lt (history.lt_stampAt now hentry)
  decreasing :=
    List.pairwise_cons.mpr ⟨fun _ hentry => history.lt_stampAt now hentry, h.decreasing⟩
  sinceClear_life := by
    simp only [RingHistory.step, List.cons_prefix_cons, true_and]
    exact h.sinceClear_life

/-- Cleared, a ring shows nothing, but goes on with its stamps. -/
theorem Shows.clear {ring : LogRing α} {history : RingHistory α} (h : Shows ring history) :
    Shows ring.clear (history.step .clear) where
  holds := by
    simp only [RingHistory.step, List.take_nil]
    exact Holds.clear ring
  latest_eq := h.latest_eq
  decreasing := h.decreasing
  sinceClear_life := List.nil_prefix

theorem Shows.step {ring : LogRing α} {history : RingHistory α} (h : Shows ring history)
    (next : RingStep α) : Shows (ring.step next) (history.step next) := by
  cases next with
  | push item now => exact h.push item now
  | clear => exact h.clear

theorem Shows.run {ring : LogRing α} {history : RingHistory α} (h : Shows ring history)
    (steps : List (RingStep α)) : Shows (ring.run steps) (history.run steps) := by
  induction steps generalizing ring history with
  | nil => exact h
  | cons first rest ih => exact ih (h.step first)

@[simp] theorem capacity_step (ring : LogRing α) (next : RingStep α) :
    (ring.step next).capacity = ring.capacity := by
  cases next with
  | push item now => exact capacity_push ring item now
  | clear => exact capacity_clear ring

@[simp] theorem capacity_run (ring : LogRing α) (steps : List (RingStep α)) :
    (ring.run steps).capacity = ring.capacity := by
  induction steps generalizing ring with
  | nil => rfl
  | cons first rest ih => rw [run, ih, capacity_step]

/-- What is kept has decreasing stamps, the newest item being first. -/
theorem Shows.decreasing_toList {ring : LogRing α} {history : RingHistory α}
    (h : Shows ring history) :
    ring.toList.Pairwise (fun later earlier => earlier.stamp < later.stamp) := by
  rw [h.holds.toList_eq]
  exact h.decreasing.sublist ((List.take_sublist _ _).trans h.sinceClear_life.sublist)

/-- The items newer than a stamp are found without looking at the others, since stamps ascend. -/
theorem Shows.newerThan_eq_filter {ring : LogRing α} {history : RingHistory α}
    (h : Shows ring history) (after : Instant) :
    ring.newerThan after = ring.toList.filter (fun entry => after < entry.stamp) := by
  rw [h.holds.newerThan_eq, ← takeWhile_eq_filter h.decreasing_toList, h.holds.toList_eq]

/-- Every step of a scan lands on a slot that holds an item pushed since the latest clear, and no
difference of indices on the way goes below zero. -/
theorem Shows.scan_step {ring : LogRing α} {history : RingHistory α} (h : Shows ring history)
    {back : Nat} (hpos : 0 < back) (hback : back ≤ ring.size) :
    back ≤ ring.next + ring.capacity ∧ ring.slotBack back < ring.slots.size ∧
      ∃ entry, history.sinceClear[back - 1]? = some entry ∧
        ring.slots[ring.slotBack back]? = some (some entry) := by
  have hsize := h.holds.size_eq
  have hle := h.holds.length_le
  refine ⟨by omega, ring.slotBack_lt back, ?_⟩
  have hlt : back - 1 < (history.sinceClear.take ring.capacity).length := by omega
  obtain ⟨entry, hentry⟩ : ∃ entry,
      (history.sinceClear.take ring.capacity)[back - 1]? = some entry :=
    ⟨_, List.getElem?_eq_getElem hlt⟩
  have hslot := h.holds.slot_eq hentry
  rw [show back - 1 + 1 = back by omega] at hslot
  rw [List.getElem?_take] at hentry
  split at hentry
  · exact ⟨entry, hentry, hslot⟩
  · cases hentry

/-! ## Main result -/

/-- After any pushes and clears, a ring of any capacity shows the end of its history: what it keeps
and in which order, the stamps, the count, what a reader finds that has seen everything up to some
instant, and that all of it is found without leaving the slots. -/
theorem run_eq_history (capacity : Nat) (steps : List (RingStep α)) :
    let ring := (create capacity : LogRing α).run steps
    let history := (RingHistory.start : RingHistory α).run steps
    ring.capacity = max capacity 1 ∧
    ring.toList = history.sinceClear.take (max capacity 1) ∧
    history.life.Pairwise (fun later earlier => earlier.stamp < later.stamp) ∧
    ring.size = ring.toList.length ∧ ring.size ≤ ring.capacity ∧
    (∀ after, ring.newerThan after =
      ring.toList.filter (fun entry => after < entry.stamp)) ∧
    ring.next < ring.slots.size ∧ ring.oldest < ring.slots.size ∧
    ring.oldest ≤ ring.capacity + ring.next ∧
    ∀ back, 0 < back → back ≤ ring.size →
      back ≤ ring.next + ring.capacity ∧ ring.slotBack back < ring.slots.size ∧
        ∃ entry, history.sinceClear[back - 1]? = some entry ∧
          ring.slots[ring.slotBack back]? = some (some entry) := by
  intro ring history
  have h : Shows ring history := (shows_create capacity).run steps
  have hcapacity : ring.capacity = max capacity 1 := by
    rw [capacity_run, capacity_create]
  have hlist := h.holds.toList_eq
  have hsize : ring.size = ring.toList.length := by rw [h.holds.size_eq, hlist]
  have hle : ring.size ≤ ring.capacity := by
    rw [h.holds.size_eq]
    exact h.holds.length_le
  exact ⟨hcapacity, hcapacity ▸ hlist, h.decreasing, hsize, hle, h.newerThan_eq_filter,
    ring.next_lt, ring.oldest_lt, ring.oldest_le, fun _ => h.scan_step⟩

end LogRing

end RealmDirectory
