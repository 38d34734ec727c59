import Mathlib.Data.List.TakeWhile
import RealmDirectory.LogRing

/-!
# The window of items in a ring

`Holds ring items` says that a ring keeps exactly the listed items, the newest first, and how they
lie in its slots: the item pushed `back` pushes ago lies in `slotBack back`. A push puts its item
in front and drops the oldest one if the ring was full; clearing leaves the empty list, whatever
still lies in the slots.

Everything that is read off a ring is read off that list: `size` is its length, `toList` is the
list itself, and `newerThan` is the part in front of the first item that is not newer. On a list
whose stamps decrease, that part is all there is to find.

## Main results

* `holds_create`, `Holds.push`, `Holds.clear` — the list after each operation.
* `Holds.size_eq`, `Holds.toList_eq`, `Holds.newerThan_eq` — what is read off it.
-/

namespace RealmDirectory.LogRing

variable {α : Type}

/-! ## Circular indices -/

/-- A place that is counted back from `next` wraps at most once. -/
theorem slotBack_eq (ring : LogRing α) {back : Nat} (hpos : 0 < back)
    (hback : back ≤ ring.capacity) :
    ring.slotBack back =
      if back ≤ ring.next then ring.next - back else ring.next + ring.capacity - back := by
  have hnext : ring.next < ring.capacity := ring.next_lt
  unfold slotBack
  split
  · rw [show ring.next + ring.capacity - back = ring.next - back + ring.capacity by omega,
      Nat.add_mod_right, Nat.mod_eq_of_lt (by omega)]
  · exact Nat.mod_eq_of_lt (by omega)

/-- The slot after a slot of the array. -/
theorem succ_mod_eq {place capacity : Nat} (h : place < capacity) :
    (place + 1) % capacity = if place + 1 = capacity then 0 else place + 1 := by
  split
  · next heq => rw [heq, Nat.mod_self]
  · exact Nat.mod_eq_of_lt (by omega)

/-- A place that is counted forward from a slot wraps at most once. -/
theorem add_mod_eq {place count capacity : Nat} (hplace : place < capacity)
    (hcount : count ≤ capacity) :
    (place + count) % capacity =
      if place + count < capacity then place + count else place + count - capacity := by
  split
  · next hlt => exact Nat.mod_eq_of_lt hlt
  · next hge =>
    rw [Nat.mod_eq_sub_mod (by omega), Nat.mod_eq_of_lt (by omega)]

/-! ## The items kept -/

/-- The ring keeps exactly these items, the newest first. -/
structure Holds (ring : LogRing α) (items : List (Stamped α)) : Prop where
  length_le : items.length ≤ ring.capacity
  full_iff : ring.full = true ↔ items.length = ring.capacity
  next_eq : ring.next = (ring.oldest + items.length) % ring.capacity
  /-- The item pushed `back + 1` pushes ago is where the ring looks for it. -/
  slot_eq : ∀ {back : Nat} {entry : Stamped α}, items[back]? = some entry →
    ring.slots[ring.slotBack (back + 1)]? = some (some entry)

@[simp] theorem capacity_create (capacity : Nat) :
    (create capacity : LogRing α).capacity = max capacity 1 := by
  simp [LogRing.capacity, create]

@[simp] theorem capacity_push (ring : LogRing α) (item : α) (now : Instant) :
    (ring.push item now).capacity = ring.capacity := by
  simp [capacity, push]

@[simp] theorem capacity_clear (ring : LogRing α) : ring.clear.capacity = ring.capacity := rfl

/-- The stamp of the item that was pushed last is the latest. -/
@[simp] theorem latest_push (ring : LogRing α) (item : α) (now : Instant) :
    (ring.push item now).latest = some (ring.stampAt now) := rfl

/-- A new ring holds nothing. -/
theorem holds_create (capacity : Nat) : Holds (create capacity : LogRing α) [] where
  length_le := Nat.zero_le _
  full_iff := by
    have hpos := (create capacity : LogRing α).capacity_pos
    simp only [create, List.length_nil, Bool.false_eq_true, false_iff]
    exact Nat.ne_of_lt hpos
  next_eq := by simp [create]
  slot_eq := by simp

/-- The slots are left as they are, but none of them counts any more. -/
theorem Holds.clear (ring : LogRing α) : Holds ring.clear [] where
  length_le := Nat.zero_le _
  full_iff := by
    have hpos := ring.capacity_pos
    simp only [LogRing.clear, List.length_nil, Bool.false_eq_true, false_iff]
    exact Nat.ne_of_lt hpos
  next_eq := by simp [LogRing.clear]
  slot_eq := by simp

/-- The push before the latest one is looked for one slot further back than before. -/
theorem slotBack_push (ring : LogRing α) (item : α) (now : Instant) {back : Nat}
    (hpos : 0 < back) (hback : back < ring.capacity) :
    (ring.push item now).slotBack (back + 1) = ring.slotBack back := by
  have hnext : ring.next < ring.capacity := ring.next_lt
  have hnext' : (ring.push item now).next = (ring.next + 1) % ring.capacity := rfl
  rw [slotBack_eq _ (by omega) (by rw [capacity_push]; omega),
    slotBack_eq _ hpos (by omega), capacity_push, hnext', succ_mod_eq hnext]
  split <;> split <;> split <;> omega

/-- The latest push is looked for in the slot it was written to. -/
theorem slotBack_push_one (ring : LogRing α) (item : α) (now : Instant) :
    (ring.push item now).slotBack 1 = ring.next := by
  have hnext : ring.next < ring.capacity := ring.next_lt
  have hnext' : (ring.push item now).next = (ring.next + 1) % ring.capacity := rfl
  have hpos := ring.capacity_pos
  rw [slotBack_eq _ Nat.one_pos (by rw [capacity_push]; omega), capacity_push, hnext',
    succ_mod_eq hnext]
  split <;> split <;> omega

/-- An earlier push within one revolution lies in another slot than the one written next. -/
theorem slotBack_ne_next (ring : LogRing α) {back : Nat} (hpos : 0 < back)
    (hback : back < ring.capacity) : ring.slotBack back ≠ ring.next := by
  have hnext : ring.next < ring.capacity := ring.next_lt
  rw [slotBack_eq ring hpos (by omega)]
  split <;> omega

/-- A push puts its item in front; a full ring loses the oldest item for it. -/
theorem Holds.push {ring : LogRing α} {items : List (Stamped α)} (h : Holds ring items)
    (item : α) (now : Instant) :
    Holds (ring.push item now) ((⟨ring.stampAt now, item⟩ :: items).take ring.capacity) := by
  have hpos := ring.capacity_pos
  have hnext : ring.next < ring.capacity := ring.next_lt
  have holdest : ring.oldest < ring.capacity := ring.oldest_lt
  have hlen := h.length_le
  have hplace := h.next_eq
  rw [add_mod_eq holdest hlen] at hplace
  have hlength : ((⟨ring.stampAt now, item⟩ :: items).take ring.capacity).length =
      min ring.capacity (items.length + 1) := by
    rw [List.length_take, List.length_cons]
  have hfull := h.full_iff
  refine
    { length_le := by rw [hlength, capacity_push]; omega
      full_iff := ?_
      next_eq := ?_
      slot_eq := ?_ }
  · rw [hlength, capacity_push]
    simp only [LogRing.push, Bool.or_eq_true, beq_iff_eq, hfull, succ_mod_eq hnext]
    split at hplace <;> split <;> omega
  · rw [hlength, capacity_push]
    simp only [LogRing.push]
    by_cases hring : ring.full = true
    · have hitems := hfull.mp hring
      rw [if_pos hring, show min ring.capacity (items.length + 1) = ring.capacity by omega,
        Nat.add_mod_right, Nat.mod_mod, show ring.next = ring.oldest by split at hplace <;> omega]
    · have hitems : items.length ≠ ring.capacity := fun e => hring (hfull.mpr e)
      rw [if_neg hring, show min ring.capacity (items.length + 1) = items.length + 1 by omega,
        h.next_eq, Nat.mod_add_mod, Nat.add_assoc]
  · intro back entry hentry
    rw [List.getElem?_take] at hentry
    split at hentry
    · next hback =>
      cases back with
      | zero =>
        rw [slotBack_push_one]
        simp only [List.getElem?_cons_zero, Option.some.injEq] at hentry
        subst hentry
        simp [LogRing.push, ring.next_lt]
      | succ back =>
        rw [slotBack_push ring item now (Nat.succ_pos back) hback]
        have hne := slotBack_ne_next ring (Nat.succ_pos back) hback
        have hslot := h.slot_eq hentry
        simpa only [LogRing.push, Array.getElem?_set_ne ring.next_lt (Ne.symm hne)] using hslot
    · cases hentry

/-! ## Reading -/

/-- The size is the number of the items held. -/
theorem Holds.size_eq {ring : LogRing α} {items : List (Stamped α)} (h : Holds ring items) :
    ring.size = items.length := by
  have hpos := ring.capacity_pos
  have holdest : ring.oldest < ring.capacity := ring.oldest_lt
  have hlen := h.length_le
  have hplace := h.next_eq
  rw [add_mod_eq holdest hlen] at hplace
  have hfull := h.full_iff
  unfold size
  by_cases hring : ring.full = true
  · rw [if_pos hring]
    exact (hfull.mp hring).symm
  · have hitems : items.length ≠ ring.capacity := fun e => hring (hfull.mpr e)
    rw [if_neg hring]
    split at hplace <;> split <;> omega

/-- The count of an unwrapped or wrapped ring is a difference that does not go below zero. -/
theorem oldest_le (ring : LogRing α) : ring.oldest ≤ ring.capacity + ring.next := by
  have holdest : ring.oldest < ring.capacity := ring.oldest_lt
  omega

/-- Whether an item is newer than a limit, if there is one. -/
abbrev newer (after : Option Instant) (entry : Stamped α) : Bool :=
  after.all (· < entry.stamp)

/-- A scan over slots that are known to hold items finds the items up to the first old one. -/
theorem scan_eq (ring : LogRing α) (after : Option Instant) (items : List (Stamped α)) :
    ∀ back : Nat,
      (∀ {k : Nat} {entry : Stamped α}, items[k]? = some entry →
        ring.slots[ring.slotBack (back + k)]? = some (some entry)) →
      ring.scan after back items.length = items.takeWhile (newer after) := by
  induction items with
  | nil => intro _ _; rfl
  | cons entry items ih =>
    intro back hslots
    have hfirst : ring.slots[ring.slotBack (back + 0)]? = some (some entry) := hslots rfl
    have hrest := ih (back + 1) (fun {k} {e} he => by
      rw [show back + 1 + k = back + (k + 1) by omega]
      exact hslots he)
    obtain ⟨hlt, hget⟩ := Array.getElem?_eq_some_iff.mp hfirst
    simp only [Nat.add_zero] at hget
    simp only [List.length_cons, scan, hget, hrest, List.takeWhile_cons, newer]

private theorem Holds.scan_eq {ring : LogRing α} {items : List (Stamped α)} (h : Holds ring items)
    (after : Option Instant) : ring.scan after 1 ring.size = items.takeWhile (newer after) := by
  rw [h.size_eq]
  refine LogRing.scan_eq ring after items 1 (fun {k} {entry} hentry => ?_)
  rw [Nat.add_comm]
  exact h.slot_eq hentry

/-- What was not seen yet is the front of the items, the newest first. -/
theorem Holds.unseen_eq {ring : LogRing α} {items : List (Stamped α)} (h : Holds ring items)
    (seen : Option Instant) : ring.unseen seen = items.takeWhile (newer seen) := by
  cases seen with
  | none => exact h.scan_eq none
  | some stamp => exact h.scan_eq (some stamp)

/-- The list of a ring are its items, the newest first. -/
theorem Holds.toList_eq {ring : LogRing α} {items : List (Stamped α)} (h : Holds ring items) :
    ring.toList = items := by
  rw [toList, h.scan_eq]
  exact List.takeWhile_eq_self_iff.mpr (fun _ _ => rfl)

/-- Looking for newer items stops at the first that is not. -/
theorem Holds.newerThan_eq {ring : LogRing α} {items : List (Stamped α)} (h : Holds ring items)
    (after : Instant) :
    ring.newerThan after = items.takeWhile (fun entry => after < entry.stamp) := by
  rw [newerThan, h.scan_eq]
  rfl

/-- Where stamps decrease, nothing newer comes after an item that is not newer. -/
theorem takeWhile_eq_filter {items : List (Stamped α)}
    (h : items.Pairwise (fun later earlier => earlier.stamp < later.stamp)) (after : Instant) :
    items.takeWhile (fun entry => after < entry.stamp) =
      items.filter (fun entry => after < entry.stamp) := by
  induction items with
  | nil => rfl
  | cons entry items ih =>
    have ⟨hentry, hitems⟩ := List.pairwise_cons.mp h
    by_cases hnew : after < entry.stamp
    · simp [hnew, ih hitems]
    · have hnone : items.filter (fun entry => after < entry.stamp) = [] := by
        rw [List.filter_eq_nil_iff]
        intro old hold
        have hstamp : old.stamp < entry.stamp := hentry old hold
        rw [decide_eq_true_eq]
        exact Nat.not_lt.mpr (Nat.le_trans (Nat.le_of_lt hstamp) (Nat.not_lt.mp hnew))
      simp [hnew, hnone]

end RealmDirectory.LogRing
