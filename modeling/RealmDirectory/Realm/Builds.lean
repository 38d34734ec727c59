/-!
# Accepted client builds

The client builds a realm accepts form a set: a realm may list a build twice or in any order, and
only membership counts. A `BuildSet` is kept as its strictly ascending list of members, so two
sets with the same members are equal and a set is written in ascending order.

## Main results

* `BuildSet.mem_insert`, `BuildSet.mem_ofList` — membership after each operation.
-/

namespace RealmDirectory

/-- A set of build numbers, as its ascending list. -/
structure BuildSet where
  toList : List UInt32
  ascending : toList.Pairwise (· < ·)

namespace BuildSet

instance : DecidableEq BuildSet := fun a b =>
  if h : a.toList = b.toList then
    isTrue (by cases a; cases b; cases h; rfl)
  else
    isFalse (fun e => h (congrArg toList e))

/-- The set with no members. -/
def empty : BuildSet := ⟨[], List.Pairwise.nil⟩

/-- Puts a number into its place of an ascending list, unless it is there. -/
def insertAscending (build : UInt32) : List UInt32 → List UInt32
  | [] => [build]
  | first :: rest =>
    if build < first then build :: first :: rest
    else if build = first then first :: rest
    else first :: insertAscending build rest

theorem mem_insertAscending {b x : UInt32} {l : List UInt32} :
    x ∈ insertAscending b l ↔ x = b ∨ x ∈ l := by
  induction l with
  | nil => simp [insertAscending]
  | cons first rest ih =>
    simp only [insertAscending]
    split
    · simp
    · split
      · next h => subst h; simp
      · simp only [List.mem_cons, ih]
        constructor <;> rintro (h | h | h) <;> simp [h]

theorem pairwise_insertAscending {b : UInt32} {l : List UInt32} (h : l.Pairwise (· < ·)) :
    (insertAscending b l).Pairwise (· < ·) := by
  induction l with
  | nil => simp [insertAscending]
  | cons first rest ih =>
    have ⟨hfirst, hrest⟩ := List.pairwise_cons.mp h
    simp only [insertAscending]
    split
    · next hlt =>
      refine List.pairwise_cons.mpr ⟨?_, h⟩
      intro x hx
      rcases List.mem_cons.mp hx with rfl | hx
      · exact hlt
      · exact UInt32.lt_trans hlt (hfirst x hx)
    · next hnlt =>
      split
      · exact h
      · next hne =>
        refine List.pairwise_cons.mpr ⟨?_, ih hrest⟩
        intro x hx
        rcases mem_insertAscending.mp hx with rfl | hx
        · exact UInt32.lt_of_le_of_ne (UInt32.not_lt.mp hnlt) (fun e => hne e.symm)
        · exact hfirst x hx

/-- The set with one more member. -/
def insert (build : UInt32) (set : BuildSet) : BuildSet :=
  ⟨insertAscending build set.toList, pairwise_insertAscending set.ascending⟩

/-- The members of a list. -/
def ofList (builds : List UInt32) : BuildSet := builds.foldr insert empty

/-- How many builds there are. -/
def size (set : BuildSet) : Nat := set.toList.length

/-- Inserting adds one build and loses none. -/
theorem mem_insert {b x : UInt32} {set : BuildSet} :
    x ∈ (set.insert b).toList ↔ x = b ∨ x ∈ set.toList := mem_insertAscending

/-- A set made of a list has the members of the list. -/
theorem mem_ofList {x : UInt32} {builds : List UInt32} :
    x ∈ (ofList builds).toList ↔ x ∈ builds := by
  induction builds with
  | nil => simp [ofList, empty]
  | cons b rest ih =>
    have : ofList (b :: rest) = (ofList rest).insert b := rfl
    rw [this, mem_insert, ih, List.mem_cons]

end BuildSet

end RealmDirectory
