import RealmDirectory.Proofs.Message.Canonical
import RealmDirectory.Proofs.Message.Relisted
import RealmDirectory.Proofs.Replica.Mirror
import RealmDirectory.Proofs.Session.Records

/-!
# No realm stands in the way of the list

A realm whose name has a NUL in it, or that has more builds than one byte can count, could not be
sent to the admin side, and a single one of them would spoil the list of all realms. No realm comes
to that. The name and the builds are read from a registration, in which a text ends at its first
NUL and the builds are counted by one byte; the address is printed from the one the realm called
from. From then on only the flags and the population of a realm change.

So the invariant is `RealmTable.IsPlain`, no step of the traffic spoils it, and what is sent of a
plain table depends on no realm: an added realm and the whole list are offered to the admin session.

A call that puts a record into the table by itself is left out, as no registration is read for it.

## Main results

* `IpAddress.nulFree_toText`, `Registration.isPlain_of_decode` — where the texts come from.
* `Operation.upholds_isPlain`, `Envelope.upholds_isPlain` — a call and an envelope.
* `Hub.offered_dispatch`, `Hub.offered_admitSession` — what the admin session is offered.
* `Traffic.sendable_run` — after any run.
-/

namespace RealmDirectory

variable {σ : Type}

/-! ## Addresses -/

namespace Payload

theorem NulFree.append {first second : String} (h : NulFree first) (hsecond : NulFree second) :
    NulFree (first ++ second) := by
  unfold NulFree
  rw [String.toList_append, List.mem_append, not_or]
  exact ⟨h, hsecond⟩

private theorem nulFree_intercalate {separator : String} {parts : List String}
    (h : NulFree separator) (hparts : ∀ part ∈ parts, NulFree part) :
    NulFree (separator.intercalate parts) := by
  unfold NulFree
  rw [String.toList_intercalate]
  induction parts with
  | nil => exact List.not_mem_nil
  | cons first rest ih =>
    have hfirst := hparts first List.mem_cons_self
    have hrest := ih fun part hmem => hparts part (List.mem_cons_of_mem _ hmem)
    cases rest with
    | nil =>
      rw [List.map_singleton, List.intercalate_singleton]
      exact hfirst
    | cons second others =>
      rw [List.map_cons, List.map_cons, List.intercalate_cons_cons, List.mem_append,
        List.mem_append, not_or, not_or]
      exact ⟨⟨hfirst, h⟩, hrest⟩

private theorem nul_ne_digitChar : ∀ digit < 16, Char.ofNat 0 ≠ Nat.digitChar digit := by decide

private theorem nulFree_toDigits {radix : Nat} (hradix : 1 < radix) (hle : radix ≤ 16) (n : Nat) :
    NulFree (String.ofList (Nat.toDigits radix n)) := by
  unfold NulFree
  rw [String.toList_ofList]
  induction n using Nat.strongRecOn with
  | ind n ih =>
    rw [Nat.toDigits_eq_if hradix]
    split
    · next hlt =>
      rw [List.mem_singleton]
      exact nul_ne_digitChar n (Nat.lt_of_lt_of_le hlt hle)
    · next hge =>
      have hdigit : n % radix < 16 := Nat.lt_of_lt_of_le (Nat.mod_lt _ (by omega)) hle
      rw [List.mem_append, List.mem_singleton, not_or]
      exact ⟨ih (n / radix) (Nat.div_lt_self (by omega) hradix), nul_ne_digitChar _ hdigit⟩

end Payload

open Payload (NulFree nulFree_intercalate nulFree_toDigits)

namespace IpAddress

private theorem nulFree_number (n : UInt8) : NulFree (toString n.toNat) := by
  have hdigits : NulFree (String.ofList (Nat.toDigits 10 n.toNat)) :=
    nulFree_toDigits (by decide) (by decide) n.toNat
  rwa [← Nat.repr_eq_ofList_toDigits] at hdigits

private theorem nulFree_dotted (a b c d : UInt8) : NulFree (dotted a b c d) := by
  have hdot : NulFree "." := by decide
  have hstep : ∀ {text : String} (n : UInt8), NulFree text →
      NulFree (text ++ "." ++ toString n.toNat) :=
    fun n htext => (htext.append hdot).append (nulFree_number n)
  exact hstep d (hstep c (hstep b (nulFree_number a)))

private theorem nulFree_colons (groups : List UInt16) : NulFree (colons groups) := by
  unfold colons
  refine nulFree_intercalate (by decide) fun part hmem => ?_
  obtain ⟨group, -, rfl⟩ := List.mem_map.mp hmem
  exact nulFree_toDigits (by decide) (by decide) group.toNat

/-- An address is written in digits, dots and colons. -/
theorem nulFree_toText (address : IpAddress) : NulFree address.toText := by
  cases address with
  | v4 a b c d => exact nulFree_dotted a b c d
  | v6 groups =>
    have hmapped : NulFree "::ffff:" := by decide
    have hgap : NulFree "::" := by decide
    unfold toText
    dsimp only
    split
    · exact hmapped.append (nulFree_dotted _ _ _ _)
    · split
      · exact ((nulFree_colons _).append hgap).append (nulFree_colons _)
      · exact nulFree_colons _

end IpAddress

/-! ## Registrations -/

/-- Whatever is decoded is plain, since its name ended at the first NUL. -/
theorem Registration.isPlain_of_decode {payload : List UInt8} {registration : Registration}
    {trailing : Nat} (h : decode payload = .ok (registration, trailing)) :
    registration.IsPlain := by
  obtain ⟨rest, hread, -⟩ := decode_eq_ok_iff.mp h
  exact (accepts_read.eq_ok_iff.mp hread).1

namespace Session

/-- The record of a plain registration is plain, the address of the connection included. -/
theorem isPlain_record (session : Session) {registration : Registration}
    (h : registration.IsPlain) : (session.record registration).info.IsPlain where
  name := h.name
  address := session.peer.address.nulFree_toText
  builds := Nat.le_trans (BuildSet.size_ofList_le registration.builds) h.builds

private theorem isPlain_of_offered {session : Session} {envelope : Envelope}
    {registration : Registration} (h : session.offered? envelope = some registration) :
    registration.IsPlain := by
  obtain ⟨-, -, trailing, hdecode⟩ := offered?_eq_some_iff.mp h
  exact Registration.isPlain_of_decode hdecode

end Session

/-! ## The table -/

/-- Every realm can be sent to the admin side and read there. -/
def RealmTable.IsPlain (table : RealmTable) : Prop := ∀ realm ∈ table.snapshots, realm.IsPlain

private theorem RealmTable.isPlain_iff_every {table : RealmTable} :
    table.IsPlain ↔ table.Every (·.info.IsPlain) := List.forall_mem_map

namespace RealmRecord

variable {record : RealmRecord}

theorem isPlain_setOnline (h : record.info.IsPlain) (online : Bool) :
    (record.setOnline online).info.IsPlain := ⟨h.name, h.address, h.builds⟩

private theorem isPlain_report (h : record.info.IsPlain) (status : StatusReport) :
    (record.report status).info.IsPlain := ⟨h.name, h.address, h.builds⟩

private theorem isPlain_entering (h : record.info.IsPlain) (previous : Option RealmRecord) :
    (record.entering previous).info.IsPlain := by
  rw [info_entering]
  exact isPlain_setOnline h true

private theorem isPlain_written (h : record.info.IsPlain) (envelope : Envelope) (now : Instant) :
    (Session.written envelope now record).info.IsPlain := by
  unfold Session.written
  split
  · split
    · exact h
    · exact isPlain_report h _
  · split
    · exact h
    · exact h
  · exact h

end RealmRecord

/-- The operation puts a record in, for which nothing was decoded. -/
def Operation.registers : Operation → Bool
  | register _ => true
  | _ => false

/-- Without a registration no text changes and no builds do. -/
theorem Operation.upholds_isPlain {op : Operation} (h : op.registers = false) :
    op.Upholds (·.info.IsPlain) := by
  cases op with
  | register record => cases h
  | setOnline id online => exact fun record hrecord => RealmRecord.isPlain_setOnline hrecord online
  | release id link => exact fun record hrecord => RealmRecord.isPlain_setOnline hrecord false
  | report id status => exact fun record hrecord => RealmRecord.isPlain_report hrecord status
  | append id line now => exact fun record hrecord => hrecord
  | clearLog id => exact fun record hrecord => hrecord
  | remove id => trivial
  | login sink current => trivial
  | evict session => trivial

/-- No envelope makes a record that is not plain. -/
theorem Envelope.upholds_isPlain (envelope : Envelope) (now : Instant) :
    envelope.Upholds (·.info.IsPlain) now where
  registered {session} {_} hoffered _ _ :=
    RealmRecord.isPlain_entering (session.isPlain_record (Session.isPlain_of_offered hoffered)) _
  written _ hrecord := RealmRecord.isPlain_written hrecord envelope now

/-! ## What the admin session is offered -/

namespace Hub

variable [Transport σ]

/-- One frame was offered to a sink. -/
def Offered (before after : Hub σ) (sink : SinkId) (frame : AdminFrame) : Prop :=
  ∃ bytes, frame.encode = .ok bytes ∧
    after.transport = (Transport.offer sink bytes before.transport).2

private theorem transport_deliver (hub : Hub σ) (session : AdminSession) (bytes : List UInt8) :
    (hub.deliver session bytes).2.transport =
      (Transport.offer session.sink bytes hub.transport).2 := by
  rcases hub.deliver_cases session bytes with ⟨transport, hoffer, heq⟩ | ⟨_, transport, hoffer, heq⟩
  · rw [heq, hoffer]
  · rw [heq, hoffer]
    exact transport_sinkFailed _ _ _

private theorem offered_announce {hub : Hub σ} {admin : AdminSession} {realm : Snapshot}
    (hadmin : hub.slot.current = some admin) (hplain : realm.IsPlain)
    (hfits : realm.bytes.length < 4294967296) :
    hub.Offered (hub.announce (.realm realm)) admin.sink ⟨.realmAdded, realm.bytes⟩ := by
  obtain ⟨bytes, hbytes⟩ := Frame.exists_encode (⟨.realmAdded, realm.bytes⟩ : AdminFrame) hfits
  have hframe : (Announcement.realm realm).frame = .ok ⟨.realmAdded, realm.bytes⟩ := by
    simp only [Announcement.frame, Snapshot.encode_eq_ok hplain.builds]
    rfl
  have hsend : hub.announce (.realm realm) = (hub.deliver admin bytes).2 := by
    unfold announce
    simp only [hframe, hadmin]
    unfold send
    rw [hbytes]
  refine ⟨bytes, hbytes, ?_⟩
  rw [hsend]
  exact hub.transport_deliver admin bytes

/-- A record that can be framed is offered to the admin session as it is put in. -/
theorem offered_register_of_fits (hub : Hub σ) {admin : AdminSession} {record : RealmRecord}
    (hadmin : hub.slot.current = some admin) (hplain : record.info.IsPlain)
    (hvacant : hub.realms.isHeld hub.links record.id = false)
    (hfits : (record.setOnline true).info.bytes.length < 4294967296) :
    ∃ entered, (hub.register record).2.realms.find? record.id = some entered ∧
      entered.info = (record.setOnline true).info ∧
      hub.Offered (hub.register record).2 admin.sink ⟨.realmAdded, entered.info.bytes⟩ := by
  rcases hub.register_cases record with ⟨existing, hfind, hlive, -⟩ | ⟨-, outcome, heq⟩
  · unfold RealmTable.isHeld at hvacant
    rw [hfind] at hvacant
    cases hlive.symm.trans hvacant
  · rw [heq]
    simp only [registry_announce, registry_note]
    have honline := RealmRecord.isPlain_setOnline hplain true
    refine ⟨record.entering (hub.realms.find? record.id), ?_, RealmRecord.info_entering _ _, ?_⟩
    · rw [RealmTable.find?_put, RealmRecord.id_entering, if_pos rfl]
    · rw [RealmRecord.info_entering]
      exact offered_announce hadmin honline hfits

/-- The record that a registration puts in is offered to the admin session. -/
theorem offered_register (hub : Hub σ) {admin : AdminSession} {record : RealmRecord}
    (hadmin : hub.slot.current = some admin) (hplain : record.info.IsPlain)
    (hvacant : hub.realms.isHeld hub.links record.id = false)
    (hfits : (RealmList.bytes (hub.register record).2.realms.snapshots).length < 4294967296) :
    ∃ entered, (hub.register record).2.realms.find? record.id = some entered ∧
      hub.Offered (hub.register record).2 admin.sink ⟨.realmAdded, entered.info.bytes⟩ := by
  rcases hub.register_cases record with ⟨existing, hfind, hlive, -⟩ | ⟨-, outcome, heq⟩
  · unfold RealmTable.isHeld at hvacant
    rw [hfind] at hvacant
    cases hlive.symm.trans hvacant
  · rw [heq] at hfits
    simp only [registry_announce, registry_note] at hfits
    rw [← Replica.put_snapshots, RealmRecord.info_entering] at hfits
    have hsmall := RealmList.length_bytes_of_mem
      (Replica.mem_put (record.setOnline true).info hub.realms.snapshots)
    obtain ⟨entered, hentered, -, hoffered⟩ :=
      hub.offered_register_of_fits hadmin hplain hvacant (Nat.lt_of_le_of_lt hsmall hfits)
    exact ⟨entered, hentered, hoffered⟩

private theorem offered_sendList (hub : Hub σ) (session : AdminSession) {realms : List Snapshot}
    (hplain : ∀ realm ∈ realms, realm.IsPlain)
    (hfits : (RealmList.bytes realms).length < 4294967296) :
    hub.Offered (hub.sendList session realms) session.sink
      ⟨.realmList, RealmList.bytes realms⟩ := by
  obtain ⟨bytes, hbytes, hsend⟩ := sendList_eq hub session hplain hfits
  refine ⟨bytes, hbytes, ?_⟩
  rw [hsend]
  exact hub.transport_deliver session bytes

/-- A new admin session is offered the list of all realms. -/
theorem offered_admitSession {hub : Hub σ} (hvacant : hub.slot.current = none)
    (hplain : hub.realms.IsPlain)
    (hfits : (RealmList.bytes hub.realms.snapshots).length < 4294967296) (sink : SinkId) :
    hub.Offered (hub.admitSession sink none).2 sink
      ⟨.realmList, RealmList.bytes hub.realms.snapshots⟩ := by
  unfold admitSession AdminSlot.claim?
  rw [hvacant]
  exact offered_sendList _ ⟨hub.slot.nextId, sink⟩ hplain hfits

end Hub

namespace Session

variable [Transport σ]

private theorem hub_enroll (session : Session) (registration : Registration) (hub : Hub σ) :
    ∃ notice, (session.enroll registration hub).2.2 =
      (hub.register (session.record registration)).2.note notice := by
  unfold enroll record
  dsimp only
  generalize hub.register _ = result
  obtain ⟨outcome, after⟩ := result
  cases outcome with
  | error cause => exact ⟨_, rfl⟩
  | ok outcome => exact ⟨_, rfl⟩

/-- An offered registration goes to the table as it was decoded. -/
theorem hub_dispatch_of_offered {session : Session} {envelope : Envelope}
    {registration : Registration} (hoffered : session.offered? envelope = some registration)
    (now : Instant) (hub : Hub σ) :
    ∃ notices notice, (session.dispatch envelope now hub).2.2 =
      (({ hub with notices } : Hub σ).register (session.record registration)).2.note notice := by
  obtain ⟨hopcode, hunbound, trailing, hdecode⟩ := offered?_eq_some_iff.mp hoffered
  unfold dispatch register
  rw [hopcode, hunbound, hdecode]
  cases trailing with
  | zero => exact ⟨hub.notices, session.hub_enroll registration hub⟩
  | succ trailing =>
    exact ⟨_, session.hub_enroll registration (hub.note (.trailingBytes session.peer _))⟩

end Session

/-- The realm that a session registers is offered to the admin session. -/
theorem Hub.offered_dispatch [Transport σ] {hub : Hub σ} {session : Session} {envelope : Envelope}
    {id : UInt32} (htaken : session.taken? hub.links hub.realms envelope = some id)
    {admin : AdminSession} (hadmin : hub.slot.current = some admin) (now : Instant)
    (hfits : (RealmList.bytes
      (session.dispatch envelope now hub).2.2.realms.snapshots).length < 4294967296) :
    ∃ entered, (session.dispatch envelope now hub).2.2.realms.find? id = some entered ∧
      hub.Offered (session.dispatch envelope now hub).2.2 admin.sink
        ⟨.realmAdded, entered.info.bytes⟩ := by
  obtain ⟨hsome, hfree⟩ := Option.filter_eq_some_iff.mp htaken
  obtain ⟨registration, hoffered, rfl⟩ := Option.map_eq_some_iff.mp hsome
  have hplain := session.isPlain_record (Session.isPlain_of_offered hoffered)
  obtain ⟨notices, notice, heq⟩ := Session.hub_dispatch_of_offered hoffered now hub
  rw [heq] at hfits ⊢
  have hvacant : hub.realms.isHeld hub.links registration.id = false := by simpa using hfree
  exact Hub.offered_register { hub with notices } hadmin hplain hvacant hfits

/-! ## The traffic -/

/-- The step registers a realm by a call. -/
def RealmStep.isDirect : RealmStep → Bool
  | .call op _ => op.registers
  | _ => false

namespace Traffic

variable [Transport σ]

omit [Transport σ] in
/-- No step but a direct registration makes a record that is not plain. -/
theorem upholds_isPlain {step : RealmStep} (h : step.isDirect = false) :
    step.Upholds (·.info.IsPlain) := by
  cases step with
  | join peer => trivial
  | dispatch place envelope now => exact envelope.upholds_isPlain now
  | close place => exact fun record hrecord => RealmRecord.isPlain_setOnline hrecord false
  | drop place => trivial
  | call op hop => exact Operation.upholds_isPlain h

/-- All realms stay plain while sessions alone register. -/
theorem plain_run {traffic : Traffic σ} (h : traffic.hub.realms.IsPlain)
    {steps : List (TrafficStep σ)}
    (hsteps : ∀ step ∈ steps.filterMap TrafficStep.realm?, step.isDirect = false) :
    (traffic.run steps).2.hub.realms.IsPlain := by
  have hmark : ∀ {a b : RealmRecord},
      a.unmarked = b.unmarked → a.info.IsPlain → b.info.IsPlain := by
    intro a b heq hplain
    rwa [← (RealmRecord.unmarked_eq_iff.mp heq).1]
  have hupholds := fun step hmem => upholds_isPlain (hsteps step hmem)
  exact RealmTable.isPlain_iff_every.mpr
    (every_run hmark (RealmTable.isPlain_iff_every.mp h) hupholds)

/-- Whatever realms there are, they can be sent to the admin side. -/
structure Sendable (traffic : Traffic σ) : Prop where
  plain : ∀ realm ∈ traffic.hub.realms.snapshots,
    NulFree realm.name ∧ NulFree realm.address ∧ realm.builds.size ≤ 255
  /-- An added realm is written and read back. -/
  realm_written : ∀ realm ∈ traffic.hub.realms.snapshots, ∃ written,
    realm.encode = .ok written ∧ Snapshot.read written = .ok (realm, [])
  /-- The list is refused for the number of the realms only. -/
  list_refused : ∀ {cause}, RealmList.encode traffic.hub.realms.snapshots = .error cause →
    4294967296 ≤ traffic.hub.realms.size
  list_written : (RealmList.bytes traffic.hub.realms.snapshots).length < 4294967296 → ∃ written,
    RealmList.encode traffic.hub.realms.snapshots = .ok written ∧
      RealmList.read written = .ok (traffic.hub.realms.snapshots, [])
  /-- The admin session is offered every realm that a session registers. -/
  announced : ∀ {session : Session} {envelope : Envelope} {id : UInt32} {admin : AdminSession},
    session.taken? traffic.hub.links traffic.hub.realms envelope = some id →
    traffic.hub.slot.current = some admin → ∀ now,
    let after := (session.dispatch envelope now traffic.hub).2.2
    (RealmList.bytes after.realms.snapshots).length < 4294967296 →
    ∃ entered, after.realms.find? id = some entered ∧
      traffic.hub.Offered after admin.sink ⟨.realmAdded, entered.info.bytes⟩
  /-- A new admin session is offered the list. -/
  listed : traffic.hub.slot.current = none →
    (RealmList.bytes traffic.hub.realms.snapshots).length < 4294967296 → ∀ sink,
    traffic.hub.Offered (traffic.hub.admitSession sink none).2 sink
      ⟨.realmList, RealmList.bytes traffic.hub.realms.snapshots⟩

/-- Whatever there is to say about plain realms can be written. -/
theorem sendable_of_plain {traffic : Traffic σ} (h : traffic.hub.realms.IsPlain) :
    traffic.Sendable where
  plain realm hmem := ⟨(h realm hmem).name, (h realm hmem).address, (h realm hmem).builds⟩
  realm_written realm hmem :=
    ⟨realm.bytes, Snapshot.encode_eq_ok (h realm hmem).builds,
      (Snapshot.reads_bytes (h realm hmem)).read_all⟩
  list_refused := by
    intro cause hcause
    by_contra hcount
    have hlength : traffic.hub.realms.snapshots.length < 4294967296 := by
      rw [RealmTable.snapshots, List.length_map]
      exact Nat.not_le.mp hcount
    have hencode := RealmList.encode_eq_ok_iff.mpr
      ⟨hlength, fun realm hmem => (h realm hmem).builds, rfl⟩
    cases hcause.symm.trans hencode
  list_written hfits :=
    ⟨_, RealmList.encode_eq_ok h hfits,
      (RealmList.reads_bytes h (RealmList.length_lt_of_fits hfits)).read_all⟩
  announced htaken hadmin now := Hub.offered_dispatch htaken hadmin now
  listed hvacant hfits sink := Hub.offered_admitSession hvacant h hfits sink

/-- Whatever the sessions dispatch, and whatever is called but a registration, no realm can spoil
what the admin side is sent. -/
theorem sendable_run (transport : σ) {steps : List (TrafficStep σ)}
    (hsteps : ∀ step ∈ steps.filterMap TrafficStep.realm?, step.isDirect = false) :
    ((start transport).run steps).2.Sendable := by
  have hstart : (start transport).hub.realms.IsPlain := List.forall_mem_nil _
  exact sendable_of_plain (plain_run hstart hsteps)

/-- A realm with as many builds as can be counted is registered, and again over a second connection
after the first was closed, with bytes that belong to nothing. -/
def crowdedVisit : List (TrafficStep Mailboxes) :=
  let registration : Registration :=
    ⟨7, "Königreich", 8085, 200, 50, .player, ⟨0⟩, .normal, .english, (List.range 255).map .ofNat⟩
  let payload := registration.encode.toOption.getD []
  [.realm (.join ⟨.v4 10 0 0 5, 41000, 0⟩), .realm (.dispatch 0 ⟨.registeringRequest, payload⟩ 0),
    .realm (.close 0), .realm (.join ⟨.v6 #v[0xfe80, 0, 0, 0, 0, 0, 0, 1], 41001, 2⟩),
    .realm (.dispatch 1 ⟨.registeringRequest, payload ++ [0, 1]⟩ 4), .admin .harvest,
    .realm (.call (.setOnline 7 false) rfl)]

/-- The realm of that visit can be sent, with all its builds. -/
theorem sendable_run_crowdedVisit :
    let traffic := ((start Mailboxes.empty).run crowdedVisit).2
    traffic.Sendable ∧ traffic.hub.realms.snapshots.map (·.name) = ["Königreich"] ∧
      traffic.hub.realms.snapshots.map (·.address) = ["fe80::1"] ∧
      traffic.hub.realms.snapshots.map (·.builds.size) = [255] := by
  refine ⟨sendable_run Mailboxes.empty ?_, ?_⟩
  · decide +kernel
  · decide +kernel

end Traffic

end RealmDirectory
