import RealmDirectory.Proofs.Session.Effect
import RealmDirectory.Proofs.Session.Undisturbed

/-!
# What holds of every record

Much of what can be said of a table is said of its records one by one. A step of the traffic puts
one record in, changes one or drops one, so a property of records holds of all of them after any
run if no step can spoil it: `RealmStep.Upholds` says for each step which records it makes out of
which. The delivery marks are the harvester's business, so the property must not depend on them.

## Main results

* `RealmTable.Every.onTable`, `RealmTable.Every.envelope` — a call and an envelope.
* `Traffic.every_realmStep`, `Traffic.every_run` — the steps of the traffic.
-/

namespace RealmDirectory

variable {σ : Type} {p : RealmRecord → Prop}

/-! ## Tables -/

/-- All records of the table have the property. -/
def RealmTable.Every (p : RealmRecord → Prop) (table : RealmTable) : Prop :=
  ∀ record ∈ table.records, p record

namespace RealmTable.Every

variable {table : RealmTable}

theorem find? (h : table.Every p) {id : UInt32} {record : RealmRecord}
    (hfind : table.find? id = some record) : p record :=
  h record (find?_eq_some_iff.mp hfind).1

theorem put (h : table.Every p) {record : RealmRecord} (hrecord : p record) :
    (table.put record).Every p := by
  intro other hmem
  rcases mem_putAscending hmem with rfl | hold
  · exact hrecord
  · exact h other hold

theorem erase (h : table.Every p) (id : UInt32) : (table.erase id).Every p :=
  fun record hmem => h record (List.mem_of_mem_filter hmem)

theorem adjust (h : table.Every p) (id : UInt32) {change : RealmRecord → RealmRecord}
    (hchange : ∀ record, p record → p (change record)) : (table.adjust id change).Every p := by
  unfold RealmTable.adjust
  cases hfind : table.find? id with
  | none => exact h
  | some record => exact h.put (hchange record (h.find? hfind))

/-- A property that the delivery marks have no part in. -/
theorem alike {other : RealmTable} (h : table.Every p)
    (hmark : ∀ {a b : RealmRecord}, a.unmarked = b.unmarked → p a → p b)
    (halike : table.Alike other) : other.Every p := by
  intro record hmem
  rcases halike.find?_cases record.id with ⟨-, hnone⟩ | ⟨found, same, hfound, hsame, heq⟩
  · rw [mem_records_iff.mp hmem] at hnone
    cases hnone
  · rw [mem_records_iff.mp hmem] at hsame
    cases hsame
    exact hmark heq (h.find? hfound)

end RealmTable.Every

/-! ## Calls and envelopes -/

/-- The call makes records with the property out of such records. -/
def Operation.Upholds (p : RealmRecord → Prop) : Operation → Prop
  | register record =>
    ∀ previous, (∀ old, previous = some old → p old) → p (record.entering previous)
  | setOnline _ online => ∀ record, p record → p (record.setOnline online)
  | release _ _ => ∀ record, p record → p (record.setOnline false)
  | report _ status => ∀ record, p record → p (record.report status)
  | append _ line now => ∀ record, p record → p (record.append line now)
  | clearLog _ => ∀ record, p record → p { record with log := record.log.clear }
  | _ => True

/-- Whichever session dispatches the envelope, it makes records with the property out of such
records. -/
structure Envelope.Upholds (p : RealmRecord → Prop) (envelope : Envelope) (now : Instant) :
    Prop where
  registered : ∀ {session : Session} {registration : Registration},
    session.offered? envelope = some registration →
    (Operation.register (session.record registration)).Upholds p
  written : ∀ record, p record → p (Session.written envelope now record)

/-- The step makes records with the property out of such records. -/
def RealmStep.Upholds (p : RealmRecord → Prop) : RealmStep → Prop
  | .dispatch _ envelope now => envelope.Upholds p now
  | .close _ => ∀ record, p record → p (record.setOnline false)
  | .call op _ => op.Upholds p
  | _ => True

namespace RealmTable.Every

variable {table : RealmTable}

/-- A registration upholds the property if the record that enters does. -/
theorem register (h : table.Every p) (links : Links) {record : RealmRecord}
    (hupholds : (Operation.register record).Upholds p) :
    ((Operation.register record).onTable links table).Every p := by
  unfold Operation.onTable
  dsimp only
  split
  · exact h
  · exact h.put (hupholds _ fun old hold => h.find? hold)

theorem release (h : table.Every p) (links : Links) (id : UInt32) (link : LinkId)
    (hoffline : ∀ record, p record → p (record.setOnline false)) :
    ((Operation.release id link).onTable links table).Every p := by
  refine h.adjust id fun record hrecord => ?_
  split
  · exact hoffline record hrecord
  · exact hrecord

/-- A call that upholds the property keeps it of every record. -/
theorem onTable (h : table.Every p) (links : Links) {op : Operation} (hupholds : op.Upholds p) :
    (op.onTable links table).Every p := by
  cases op with
  | register record => exact h.register links hupholds
  | setOnline id online => exact h.adjust id hupholds
  | release id link => exact h.release links id link hupholds
  | report id status => exact h.adjust id hupholds
  | append id line now => exact h.adjust id hupholds
  | clearLog id => exact h.adjust id hupholds
  | remove id => exact h.erase id
  | login sink current => exact h
  | evict session => exact h

/-- An envelope that upholds the property keeps it, whichever session dispatches it. -/
theorem envelope (h : table.Every p) (session : Session) (links : Links) {envelope : Envelope}
    {now : Instant} (hupholds : envelope.Upholds p now) :
    (session.onTable links table envelope now).Every p := by
  unfold Session.onTable
  cases hoffered : session.offered? envelope with
  | some registration => exact h.register links (hupholds.registered hoffered)
  | none =>
    cases session.passedTo? envelope with
    | none => exact h
    | some id => exact h.adjust id hupholds.written

end RealmTable.Every

/-! ## The traffic -/

namespace Traffic

variable [Transport σ]

/-- A step of the traffic that upholds the property keeps it of every record. -/
theorem every_realmStep {traffic : Traffic σ} (h : traffic.hub.realms.Every p) {step : RealmStep}
    (hupholds : step.Upholds p) : (traffic.realmStep step).2.hub.realms.Every p := by
  have hturn : ∀ place {change : Session → Reply × Traffic σ},
      (∀ session, (change session).2.hub.realms.Every p) →
      (traffic.turn place change).2.hub.realms.Every p := by
    intro place change hchange
    unfold turn
    split
    · exact h
    · exact hchange _
  cases step with
  | join peer => exact h
  | dispatch place envelope now =>
    refine hturn place fun session => ?_
    show (session.dispatch envelope now traffic.hub).2.2.realms.Every p
    rw [(session.registry_dispatch envelope now traffic.hub).1]
    exact h.envelope session traffic.hub.links hupholds
  | close place =>
    refine hturn place fun session => ?_
    show (session.close traffic.hub).2.realms.Every p
    unfold Session.close Session.release
    cases session.state.realm with
    | none => exact h
    | some id =>
      dsimp only
      rw [(Hub.registry_release _ id session.link).1]
      exact h.release _ id session.link hupholds
  | drop place => exact hturn place fun session => h
  | call op hop =>
    show (op.run traffic.hub).realms.Every p
    rw [(op.registry_run traffic.hub).1]
    exact h.onTable traffic.hub.links hupholds

/-- What no step of the realm side can spoil holds of every record after the run. -/
theorem every_run (hmark : ∀ {a b : RealmRecord}, a.unmarked = b.unmarked → p a → p b)
    {traffic : Traffic σ} (h : traffic.hub.realms.Every p) {steps : List (TrafficStep σ)}
    (hupholds : ∀ step ∈ steps.filterMap TrafficStep.realm?, step.Upholds p) :
    (traffic.run steps).2.hub.realms.Every p := by
  induction steps generalizing traffic with
  | nil => exact h
  | cons step rest ih =>
    cases step with
    | realm step =>
      have hfirst := hupholds step List.mem_cons_self
      refine ih (every_realmStep h hfirst) fun other hmem => ?_
      exact hupholds other (List.mem_cons_of_mem _ hmem)
    | admin step => exact ih (h.alike hmark (alike_adminStep traffic.hub step).realms) hupholds

end Traffic

end RealmDirectory
