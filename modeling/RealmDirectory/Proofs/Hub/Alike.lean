import RealmDirectory.Proofs.Hub.Vacancy
import RealmDirectory.Proofs.Replica.Frames

/-!
# Hubs that differ on the admin side only

Two hubs are alike if they have the same links and know the same realms, down to the log of each
realm and the stamps in it. They may differ in everything else: the admin slot, the transport
behind it, which need not even be of the same kind, the notices, and how far the logs were
delivered.

A call about realms looks at nothing else, so hubs that are alike answer it alike and are alike
after it. The admin side, whatever it does, leaves a hub alike to what it was before.

## Main results

* `RealmTable.Alike.onTable` — a call on tables that differ in the delivery marks only.
* `Hub.Alike.answer_eq`, `Hub.Alike.operate` — a call to hubs that are alike.
* `Hub.alike_run_of_isAboutSlot`, `Hub.alike_harvest` — what the admin side leaves alone.
-/

namespace RealmDirectory

namespace RealmRecord

/-- The record without its delivery mark. -/
def unmarked (record : RealmRecord) : RealmRecord := { record with checkpoint := none }

/-- Records are the same but for their marks if everything else of them is. -/
theorem unmarked_eq_iff {record other : RealmRecord} :
    record.unmarked = other.unmarked ↔
      record.info = other.info ∧ record.log = other.log ∧ record.owner = other.owner := by
  unfold unmarked
  rw [RealmRecord.mk.injEq]
  simp

/-- The mark of the record that is replaced goes nowhere but into the mark. -/
theorem unmarked_entering (record : RealmRecord) {previous other : Option RealmRecord}
    (h : previous.map unmarked = other.map unmarked) :
    (record.entering previous).unmarked = (record.entering other).unmarked := by
  cases previous with
  | none => rw [Option.map_eq_none_iff.mp h.symm]
  | some found =>
    obtain ⟨found', rfl, hfound⟩ := Option.map_eq_some_iff.mp h.symm
    obtain ⟨-, hlog, -⟩ := unmarked_eq_iff.mp hfound
    exact unmarked_eq_iff.mpr ⟨rfl, hlog.symm, rfl⟩

end RealmRecord

/-! ## Tables -/

namespace RealmTable

/-- The tables differ in the delivery marks only. -/
def Alike (a b : RealmTable) : Prop :=
  ∀ id, (a.find? id).map (·.unmarked) = (b.find? id).map (·.unmarked)

variable {a b c : RealmTable}

theorem Alike.refl (a : RealmTable) : a.Alike a := fun _ => rfl

theorem Alike.symm (h : a.Alike b) : b.Alike a := fun id => (h id).symm

theorem Alike.trans (h : a.Alike b) (hnext : b.Alike c) : a.Alike c :=
  fun id => (h id).trans (hnext id)

/-- Alike tables have records for the same realms, which differ in their marks only. -/
theorem Alike.find?_cases (h : a.Alike b) (id : UInt32) :
    (a.find? id = none ∧ b.find? id = none) ∨
    ∃ record other, a.find? id = some record ∧ b.find? id = some other ∧
      record.unmarked = other.unmarked := by
  have hid := h id
  cases hfind : a.find? id with
  | none =>
    rw [hfind] at hid
    exact Or.inl ⟨rfl, Option.map_eq_none_iff.mp hid.symm⟩
  | some record =>
    rw [hfind] at hid
    obtain ⟨other, hother, heq⟩ := Option.map_eq_some_iff.mp hid.symm
    exact Or.inr ⟨record, other, rfl, hother, heq.symm⟩

/-- What a record has apart from its mark is the same in both tables. -/
theorem Alike.map_find?_eq {α : Type} {part : RealmRecord → α}
    (hpart : ∀ record, part record.unmarked = part record) (h : a.Alike b) (id : UInt32) :
    (a.find? id).map part = (b.find? id).map part := by
  have hmap := congrArg (Option.map part) (h id)
  rw [Option.map_map, Option.map_map] at hmap
  have hcomp : part ∘ (·.unmarked) = part := funext hpart
  rwa [hcomp] at hmap

/-- The realms have the same data, in the same order. -/
theorem Alike.snapshots_eq (h : a.Alike b) : a.snapshots = b.snapshots :=
  Replica.snapshots_ext (h.map_find?_eq fun _ => rfl)

/-- A change that does not look at the marks keeps tables alike. -/
theorem Alike.adjust (h : a.Alike b) (id : UInt32) {change : RealmRecord → RealmRecord}
    (hid : ∀ record, (change record).id = record.id)
    (hchange : ∀ record, (change record.unmarked).unmarked = (change record).unmarked) :
    (a.adjust id change).Alike (b.adjust id change) := by
  intro other
  rw [find?_adjust _ _ _ hid, find?_adjust _ _ _ hid]
  split
  · rw [Option.map_map, Option.map_map]
    exact h.map_find?_eq hchange id
  · exact h other

/-- Records that differ in their marks only may be put into alike tables. -/
theorem Alike.put (h : a.Alike b) {record other : RealmRecord}
    (heq : record.unmarked = other.unmarked) : (a.put record).Alike (b.put other) := by
  obtain ⟨hinfo, -, -⟩ := RealmRecord.unmarked_eq_iff.mp heq
  have hid : record.id = other.id := congrArg Snapshot.id hinfo
  intro id
  rw [find?_put, find?_put, hid]
  split
  · exact congrArg some heq
  · exact h id

theorem Alike.erase (h : a.Alike b) (id : UInt32) : (a.erase id).Alike (b.erase id) := by
  intro other
  rw [find?_erase, find?_erase]
  split
  · rfl
  · exact h other

/-- A call that goes by the links and the table does the same to both tables. -/
theorem Alike.onTable (h : a.Alike b) (links : Links) (op : Operation) :
    (op.onTable links a).Alike (op.onTable links b) := by
  cases op with
  | register record =>
    have hentering := record.unmarked_entering (h record.id)
    have hlive : (a.find? record.id).any (·.hasLiveOwner links) =
        (b.find? record.id).any (·.hasLiveOwner links) := by
      rcases h.find?_cases record.id with ⟨ha, hb⟩ | ⟨found, other, ha, hb, heq⟩
      · rw [ha, hb]
      · obtain ⟨-, -, howner⟩ := RealmRecord.unmarked_eq_iff.mp heq
        rw [ha, hb, Option.any_some, Option.any_some]
        exact congrArg (·.any links.isLive) howner
    unfold Operation.onTable
    dsimp only
    rw [hlive]
    split
    · exact h
    · exact h.put hentering
  | setOnline id online => exact h.adjust id (fun _ => rfl) fun _ => rfl
  | release id link =>
    refine h.adjust id (fun record => ?_) fun record => ?_
    · split <;> rfl
    · have howned : record.unmarked.isOwnedBy link = record.isOwnedBy link := rfl
      rw [howned]
      split <;> rfl
  | report id status => exact h.adjust id (fun _ => rfl) fun _ => rfl
  | append id line now => exact h.adjust id (fun _ => rfl) fun _ => rfl
  | clearLog id => exact h.adjust id (fun _ => rfl) fun _ => rfl
  | remove id => exact h.erase id
  | login sink current => exact h
  | evict session => exact h

/-- A delivery mark that moves. -/
theorem alike_setCheckpoint (table : RealmTable) (id : UInt32) (stamp : Instant) :
    table.Alike (table.setCheckpoint id stamp) := by
  intro other
  by_cases hid : other = id
  · rw [hid, find?_setCheckpoint_self, Option.map_map]
    rfl
  · rw [find?_setCheckpoint_of_ne _ (Ne.symm hid)]

private theorem alike_settle (table : RealmTable) (delivered : List Harvested) :
    table.Alike (table.settle delivered) := by
  induction delivered generalizing table with
  | nil => exact .refl table
  | cons harvested rest ih => exact (table.alike_setCheckpoint _ _).trans (ih _)

end RealmTable

/-! ## Hubs -/

/-- What a call gives back. -/
inductive Answer where
  | registered (outcome : Except RealmError RegisterOutcome)
  | done (outcome : Except RealmError Unit)
  | found (isFound : Bool)
  | admitted (session : Option Nat)
  deriving DecidableEq

/-- What an operation gives back. -/
def Operation.answer {σ : Type} [Transport σ] (hub : Hub σ) : Operation → Answer
  | register record => .registered (hub.register record).1
  | setOnline id online => .done (hub.setOnline id online).1
  | release id link => .found (hub.release id link).1
  | report id status => .done (hub.report id status).1
  | append id line now => .done (hub.append id line now).1
  | clearLog id => .done (hub.clearLog id).1
  | remove id => .found (hub.remove id).1
  | login sink current => .admitted (hub.admitSession sink current).1
  | evict session => .found (hub.evict session).1

namespace Hub

variable {σ τ : Type}

/-- The hubs differ on the admin side and in the delivery marks only. -/
structure Alike (a : Hub σ) (b : Hub τ) : Prop where
  links_eq : a.links = b.links
  realms : a.realms.Alike b.realms

theorem Alike.refl (hub : Hub σ) : hub.Alike hub := ⟨rfl, .refl hub.realms⟩

theorem Alike.symm {a : Hub σ} {b : Hub τ} (h : a.Alike b) : b.Alike a :=
  ⟨h.links_eq.symm, h.realms.symm⟩

theorem Alike.trans {ρ : Type} {a : Hub ρ} {b : Hub σ} {c : Hub τ} (h : a.Alike b)
    (hnext : b.Alike c) : a.Alike c :=
  ⟨h.links_eq.trans hnext.links_eq, h.realms.trans hnext.realms⟩

/-- Whatever neither touches the realms nor the links is a matter of the admin side. -/
theorem alike_of_registry {before after : Hub σ}
    (h : after.realms = before.realms ∧ after.links = before.links) : before.Alike after :=
  ⟨h.2.symm, by rw [h.1]; exact .refl _⟩

theorem Alike.note {a : Hub σ} {b : Hub τ} (h : a.Alike b) (first second : Notice) :
    (a.note first).Alike (b.note second) := ⟨h.links_eq, h.realms⟩

/-- The links of both hubs change in the same way. -/
theorem Alike.setState {a : Hub σ} {b : Hub τ} (h : a.Alike b) (link : LinkId)
    (state : LinkState) :
    ({ a with links := a.links.setState link state } : Hub σ).Alike
      { b with links := b.links.setState link state } :=
  ⟨congrArg (·.setState link state) h.links_eq, h.realms⟩

section Calls

variable [Transport σ] [Transport τ] {a : Hub σ} {b : Hub τ}

/-- No call of the registry tells alike hubs apart. -/
theorem Alike.operate (h : a.Alike b) (op : Operation) : (op.run a).Alike (op.run b) := by
  obtain ⟨hrealms, hlinks⟩ := op.registry_run a
  obtain ⟨hrealms', hlinks'⟩ := op.registry_run b
  constructor
  · rw [hlinks, hlinks', h.links_eq]
  · rw [hrealms, hrealms', h.links_eq]
    exact h.realms.onTable b.links op

/-- How a registration turns out is decided by the table and the links. -/
theorem Alike.register_eq (h : a.Alike b) (record : RealmRecord) :
    (a.register record).1 = (b.register record).1 := by
  unfold register RealmTable.register
  simp only [RealmRecord.id_setOnline]
  rcases h.realms.find?_cases record.id with ⟨ha, hb⟩ | ⟨found, other, ha, hb, heq⟩
  · rw [ha, hb]
  · obtain ⟨-, -, howner⟩ := RealmRecord.unmarked_eq_iff.mp heq
    have hlive : found.hasLiveOwner a.links = other.hasLiveOwner b.links := by
      unfold RealmRecord.hasLiveOwner
      rw [howner, h.links_eq]
    rw [ha, hb]
    dsimp only
    rw [hlive]
    cases other.hasLiveOwner b.links <;> rfl

omit [Transport τ] in
/-- A release says whether the realm is the link's. -/
theorem fst_release {hub : Hub σ} {id : UInt32} {record : RealmRecord}
    (h : hub.realms.find? id = some record) (link : LinkId) :
    (hub.release id link).1 = record.isOwnedBy link := by
  unfold release RealmTable.release?
  rw [h]
  cases hown : record.isOwnedBy link with
  | false => simp [hown]
  | true =>
    simp only [hown, if_true, RealmTable.mark]
    split <;> simp_all

/-- A call about realms has the same answer, whatever the admin side is like. -/
theorem Alike.answer_eq (h : a.Alike b) {op : Operation} (hop : op.isAboutSlot = false) :
    op.answer a = op.answer b := by
  cases op with
  | register record => exact congrArg Answer.registered (h.register_eq record)
  | release id link =>
    refine congrArg Answer.found ?_
    rcases h.realms.find?_cases id with ⟨ha, hb⟩ | ⟨record, other, ha, hb, heq⟩
    · simp [release, RealmTable.release?, ha, hb]
    · obtain ⟨-, -, howner⟩ := RealmRecord.unmarked_eq_iff.mp heq
      rw [fst_release ha, fst_release hb]
      exact congrArg (· == some link) howner
  -- The others only ask whether the realm is there.
  | setOnline id online =>
    rcases h.realms.find?_cases id with ⟨ha, hb⟩ | ⟨record, other, ha, hb, -⟩ <;>
      simp [Operation.answer, setOnline, RealmTable.setOnline, ha, hb]
  | report id status =>
    rcases h.realms.find?_cases id with ⟨ha, hb⟩ | ⟨record, other, ha, hb, -⟩ <;>
      simp [Operation.answer, report, RealmTable.report, ha, hb]
  | append id line now =>
    rcases h.realms.find?_cases id with ⟨ha, hb⟩ | ⟨record, other, ha, hb, -⟩ <;>
      simp [Operation.answer, append, RealmTable.append, ha, hb]
  | clearLog id =>
    rcases h.realms.find?_cases id with ⟨ha, hb⟩ | ⟨record, other, ha, hb, -⟩ <;>
      simp [Operation.answer, clearLog, RealmTable.clearLog, ha, hb]
  | remove id =>
    rcases h.realms.find?_cases id with ⟨ha, hb⟩ | ⟨record, other, ha, hb, -⟩ <;>
      simp [Operation.answer, remove, RealmTable.remove?, ha, hb]
  | login sink current => cases hop
  | evict session => cases hop

end Calls

/-! ## The admin side -/

variable [Transport σ]

/-- Admitting and evicting sessions. -/
theorem alike_run_of_isAboutSlot (hub : Hub σ) {op : Operation} (h : op.isAboutSlot = true) :
    hub.Alike (op.run hub) := by
  cases op with
  | login sink current => exact alike_of_registry (hub.registry_admitSession sink current)
  | evict session => exact alike_of_registry (hub.registry_evict session)
  | _ => cases h

/-- A round of the harvester moves marks at most. -/
theorem alike_harvest (hub : Hub σ) : hub.Alike hub.harvest.2 := by
  unfold harvest
  cases hub.slot.current with
  | none => exact .refl hub
  | some session =>
    dsimp only
    split
    · exact .refl hub
    split
    · exact .refl hub
    split
    · exact .refl hub
    next bytes _ =>
    have hdelivered := alike_of_registry (hub.registry_deliver session bytes)
    split
    · next heq =>
      rw [heq] at hdelivered
      exact hdelivered
    · next heq =>
      rw [heq] at hdelivered
      exact hdelivered.trans ⟨rfl, RealmTable.alike_settle _ _⟩

end Hub

end RealmDirectory
