import RealmDirectory.Realm.Record
/-!
# The table of realms

A `RealmTable` holds at most one record for each realm id, in ascending order of the ids. A record
is found under its own id, so the table is determined by what `find?` answers.

## Main results

* `find?_put`, `find?_erase` — the effect of each operation, seen through `find?`.
* `ext_find?` — two tables with the same answers are equal.
-/

namespace RealmDirectory

/-- The realms known, one record for each id. -/
structure RealmTable where
  records : List RealmRecord
  ascending : records.Pairwise (fun a b => a.id < b.id)

namespace RealmTable

/-- No realms. -/
def empty : RealmTable := ⟨[], List.Pairwise.nil⟩

/-- The record of an id. -/
def find? (table : RealmTable) (id : UInt32) : Option RealmRecord :=
  table.records.find? (fun record => record.id == id)

/-- How many realms there are. -/
def size (table : RealmTable) : Nat := table.records.length

/-- There are no realms. -/
def isEmpty (table : RealmTable) : Bool := table.records.isEmpty

/-- The data of every realm, in ascending order of the ids. -/
def snapshots (table : RealmTable) : List Snapshot := table.records.map (·.info)

/-- Puts a record into its place of an ascending list, instead of one with the same id. -/
def putAscending (record : RealmRecord) : List RealmRecord → List RealmRecord
  | [] => [record]
  | first :: rest =>
    if record.id < first.id then record :: first :: rest
    else if record.id = first.id then record :: rest
    else first :: putAscending record rest

theorem mem_putAscending {record x : RealmRecord} {l : List RealmRecord}
    (h : x ∈ putAscending record l) : x = record ∨ x ∈ l := by
  induction l with
  | nil => simpa [putAscending] using h
  | cons first rest ih =>
    simp only [putAscending] at h
    split at h
    · simpa using h
    · split at h
      · rcases List.mem_cons.mp h with rfl | h
        · exact Or.inl rfl
        · exact Or.inr (List.mem_cons_of_mem _ h)
      · rcases List.mem_cons.mp h with rfl | h
        · exact Or.inr List.mem_cons_self
        · exact (ih h).imp id (List.mem_cons_of_mem _)

theorem pairwise_putAscending {record : RealmRecord} {l : List RealmRecord}
    (h : l.Pairwise (fun a b => a.id < b.id)) :
    (putAscending record l).Pairwise (fun a b => a.id < b.id) := by
  induction l with
  | nil => simp [putAscending]
  | cons first rest ih =>
    have ⟨hfirst, hrest⟩ := List.pairwise_cons.mp h
    simp only [putAscending]
    split
    · next hlt =>
      refine List.pairwise_cons.mpr ⟨fun x hx => ?_, h⟩
      rcases List.mem_cons.mp hx with rfl | hx
      · exact hlt
      · exact UInt32.lt_trans hlt (hfirst x hx)
    · split
      · next heq =>
        refine List.pairwise_cons.mpr ⟨fun x hx => ?_, hrest⟩
        rw [heq]
        exact hfirst x hx
      · next hnlt hne =>
        refine List.pairwise_cons.mpr ⟨fun x hx => ?_, ih hrest⟩
        rcases mem_putAscending hx with rfl | hx
        · exact UInt32.lt_of_le_of_ne (UInt32.not_lt.mp hnlt) (fun e => hne e.symm)
        · exact hfirst x hx

/-- Adds a record, instead of one with the same id. -/
def put (table : RealmTable) (record : RealmRecord) : RealmTable :=
  ⟨putAscending record table.records, pairwise_putAscending table.ascending⟩

/-- Drops the record of an id. -/
def erase (table : RealmTable) (id : UInt32) : RealmTable :=
  ⟨table.records.filter (fun record => record.id != id), table.ascending.filter _⟩

theorem find?_putAscending {record : RealmRecord} {l : List RealmRecord} {id : UInt32}
    (h : l.Pairwise (fun a b => a.id < b.id)) :
    (putAscending record l).find? (fun x => x.id == id)
      = if record.id = id then some record else l.find? (fun x => x.id == id) := by
  induction l with
  | nil => by_cases hid : record.id = id <;> simp [putAscending, hid]
  | cons first rest ih =>
    have ⟨hfirst, hrest⟩ := List.pairwise_cons.mp h
    simp only [putAscending]
    split
    · by_cases hid : record.id = id
      · simp [hid]
      · rw [List.find?_cons_of_neg (by simpa using hid)]
        simp [hid]
    · split
      · next heq =>
        by_cases hid : record.id = id
        · simp [hid]
        · have hf : first.id ≠ id := heq ▸ hid
          simp [hid, hf]
      · next hnlt hne =>
        by_cases hf : first.id = id
        · have hid : record.id ≠ id := fun e => hne (e.trans hf.symm)
          simp [hf, hid]
        · rw [List.find?_cons_of_neg (by simpa using hf),
            List.find?_cons_of_neg (by simpa using hf), ih hrest]

/-- A record that is put in is found, and hides no other. -/
@[simp] theorem find?_put (table : RealmTable) (record : RealmRecord) (id : UInt32) :
    (table.put record).find? id = if record.id = id then some record else table.find? id :=
  find?_putAscending table.ascending

/-- A record that is erased is not found any more. -/
@[simp] theorem find?_erase (table : RealmTable) (id other : UInt32) :
    (table.erase id).find? other = if other = id then none else table.find? other := by
  simp only [find?, erase, List.find?_filter]
  split
  · next h =>
    subst h
    rw [List.find?_eq_none]
    intro x _
    by_cases hx : x.id = other <;> simp [hx]
  · next h =>
    congr 1
    funext x
    by_cases hx : x.id = other
    · simp [hx, h]
    · simp [hx]

theorem find?_eq_some_iff {table : RealmTable} {id : UInt32} {record : RealmRecord} :
    table.find? id = some record ↔ record ∈ table.records ∧ record.id = id := by
  constructor
  · intro h
    exact ⟨List.mem_of_find?_eq_some h, by simpa using List.find?_some h⟩
  · rintro ⟨hmem, rfl⟩
    have hpair := table.ascending
    unfold find?
    generalize table.records = l at hmem hpair
    induction l with
    | nil => cases hmem
    | cons first rest ih =>
      have ⟨hfirst, hrest⟩ := List.pairwise_cons.mp hpair
      rcases List.mem_cons.mp hmem with rfl | hmem
      · simp
      · have hne : first.id ≠ record.id := (UInt32.ne_of_lt (hfirst record hmem))
        simp [hne, ih hmem hrest]

theorem id_of_find? {table : RealmTable} {id : UInt32} {record : RealmRecord}
    (h : table.find? id = some record) : record.id = id := (find?_eq_some_iff.mp h).2

/-- Records in ascending order are determined by their members. -/
theorem eq_of_mem_iff {l m : List RealmRecord} (hl : l.Pairwise (fun a b => a.id < b.id))
    (hm : m.Pairwise (fun a b => a.id < b.id)) (h : ∀ record, record ∈ l ↔ record ∈ m) : l = m := by
  induction l generalizing m with
  | nil => exact (List.eq_nil_iff_forall_not_mem.mpr fun r hr => by simpa using (h r).mpr hr).symm
  | cons x xs ih =>
    cases m with
    | nil => exact absurd ((h x).mp List.mem_cons_self) (by simp)
    | cons y ys =>
      have ⟨hx, hxs⟩ := List.pairwise_cons.mp hl
      have ⟨hy, hys⟩ := List.pairwise_cons.mp hm
      have hxy : x = y := by
        rcases List.mem_cons.mp ((h x).mp List.mem_cons_self) with e | hxy
        · exact e
        · rcases List.mem_cons.mp ((h y).mpr List.mem_cons_self) with e | hyx
          · exact e.symm
          · exact absurd (UInt32.lt_trans (hx y hyx) (hy x hxy)) (UInt32.lt_irrefl _)
      subst hxy
      congr 1
      refine ih hxs hys fun r => ⟨fun hr => ?_, fun hr => ?_⟩
      · rcases List.mem_cons.mp ((h r).mp (List.mem_cons_of_mem _ hr)) with e | hmem
        · exact absurd (e ▸ hx r hr) (UInt32.lt_irrefl _)
        · exact hmem
      · rcases List.mem_cons.mp ((h r).mpr (List.mem_cons_of_mem _ hr)) with e | hmem
        · exact absurd (e ▸ hy r hr) (UInt32.lt_irrefl _)
        · exact hmem

theorem mem_records_iff {table : RealmTable} {record : RealmRecord} :
    record ∈ table.records ↔ table.find? record.id = some record := by
  simp [find?_eq_some_iff]

/-- A table is determined by its answers. -/
theorem ext_find? {a b : RealmTable} (h : ∀ id, a.find? id = b.find? id) : a = b := by
  have hrecords : a.records = b.records :=
    eq_of_mem_iff a.ascending b.ascending fun record => by
      rw [mem_records_iff, h, ← mem_records_iff]
  cases a
  cases b
  congr 1

end RealmTable

end RealmDirectory
