import RealmDirectory.Proofs.Hub.Admission

/-!
# A registration reaches the admin session

What a realm says of itself goes through five forms: the bytes of its registration, the
registration, the record in the table, the snapshot, and the bytes of the announcement. The forms
have their fields in different orders, and many of them have the same width, so that two fields
could change places and everything would still be read. `Portrays` therefore says field by field
what the admin session has to end up with, and the registration is given by its bytes.

Nothing can keep the announcement from being written. The builds are a set on the way out, so there
are no more of them than the realm listed, and the address is short: the announcement is at most 47
bytes longer than the registration.

## Main results

* `IpAddress.length_utf8_toText_le` — an address has at most 42 bytes.
* `Session.length_bytes_record_le` — the bytes of an announcement.
* `Session.portrayed_dispatch` — what the admin session receives of a registration.
-/

namespace RealmDirectory

/-! ## The length of an address -/

namespace Payload

private theorem utf8_append (first second : String) :
    utf8 (first ++ second) = utf8 first ++ utf8 second := by
  rw [utf8_eq_flatMap, String.toList_append, List.flatMap_append, ← utf8_eq_flatMap,
    ← utf8_eq_flatMap]

private theorem length_terminated_le (text : String) :
    (terminated text).length ≤ (utf8 text).length + 1 := by
  rw [terminated, List.length_append]
  exact Nat.add_le_add_right (List.takeWhile_sublist _).length_le 1

private theorem length_digitChar :
    ∀ digit < 16, (String.utf8EncodeChar (Nat.digitChar digit)).length = 1 := by
  decide

/-- A number takes up no more bytes than it has digits. -/
theorem length_utf8_toDigits_le {radix : Nat} (hradix : 1 < radix) (hle : radix ≤ 16)
    {digits n : Nat} (h : n < Nat.pow radix (digits + 1)) :
    (utf8 (String.ofList (Nat.toDigits radix n))).length ≤ digits + 1 := by
  rw [utf8_eq_flatMap, String.toList_ofList]
  induction digits generalizing n with
  | zero =>
    have hlt : n < radix := by simpa using h
    rw [Nat.toDigits_eq_if hradix, if_pos hlt, List.flatMap_singleton,
      length_digitChar n (Nat.lt_of_lt_of_le hlt hle)]
  | succ digits ih =>
    rw [Nat.toDigits_eq_if hradix]
    split
    · next hlt =>
      rw [List.flatMap_singleton, length_digitChar n (Nat.lt_of_lt_of_le hlt hle)]
      exact Nat.succ_le_succ (Nat.zero_le _)
    · have hdigit : n % radix < 16 := Nat.lt_of_lt_of_le (Nat.mod_lt _ (by omega)) hle
      have hrest : n / radix < Nat.pow radix (digits + 1) := Nat.div_lt_of_lt_mul (by
        rw [Nat.mul_comm]
        exact h)
      rw [List.flatMap_append, List.length_append, List.flatMap_singleton,
        length_digitChar _ hdigit]
      exact Nat.succ_le_succ (ih hrest)

/-- Parts with a separator of one byte between them. -/
theorem length_utf8_intercalate_le {separator : String} {room : Nat} {parts : List String}
    (h : (utf8 separator).length = 1) (hparts : ∀ part ∈ parts, (utf8 part).length ≤ room) :
    (utf8 (separator.intercalate parts)).length ≤ (room + 1) * parts.length := by
  rw [utf8_eq_flatMap, String.toList_intercalate]
  rw [utf8_eq_flatMap] at h
  induction parts with
  | nil => exact Nat.zero_le _
  | cons first rest ih =>
    have hfirst := hparts first List.mem_cons_self
    have hrest := ih fun part hmem => hparts part (List.mem_cons_of_mem _ hmem)
    rw [utf8_eq_flatMap] at hfirst
    cases rest with
    | nil =>
      rw [List.map_singleton, List.intercalate_singleton, List.length_singleton, Nat.mul_one]
      exact Nat.le_succ_of_le hfirst
    | cons second others =>
      rw [List.map_cons, List.map_cons, List.intercalate_cons_cons, List.flatMap_append,
        List.flatMap_append, List.length_append, List.length_append, h, List.length_cons,
        Nat.mul_succ]
      rw [List.map_cons] at hrest
      omega

end Payload

open Payload

namespace IpAddress

private theorem length_number_le (n : UInt8) : (utf8 (toString n.toNat)).length ≤ 3 := by
  have hlt : n.toNat < Nat.pow 10 (2 + 1) := Nat.lt_of_lt_of_le n.toNat_lt (by decide)
  have hdigits := length_utf8_toDigits_le (by decide) (by decide) hlt
  rwa [← Nat.repr_eq_ofList_toDigits] at hdigits

private theorem length_dotted_le (a b c d : UInt8) : (utf8 (dotted a b c d)).length ≤ 15 := by
  have hdot : (utf8 ".").length = 1 := by decide
  have hstep : ∀ {text : String} {width : Nat} (n : UInt8), (utf8 text).length ≤ width →
      (utf8 (text ++ "." ++ toString n.toNat)).length ≤ width + 4 := by
    intro text width n htext
    have hn := length_number_le n
    rw [utf8_append, utf8_append, List.length_append, List.length_append, hdot]
    omega
  exact hstep d (hstep c (hstep b (length_number_le a)))

private theorem length_colons_le (groups : List UInt16) :
    (utf8 (colons groups)).length ≤ 5 * groups.length := by
  have hcolon : (utf8 ":").length = 1 := by decide
  have hgroup : ∀ part ∈ groups.map fun g => String.ofList (Nat.toDigits 16 g.toNat),
      (utf8 part).length ≤ 4 := by
    intro part hmem
    obtain ⟨group, -, rfl⟩ := List.mem_map.mp hmem
    exact length_utf8_toDigits_le (by decide) (by decide) group.toNat_lt
  have hall := length_utf8_intercalate_le hcolon hgroup
  rwa [List.length_map] at hall

/-- An address is short: at most eight groups with a separator each, and two more in a gap. -/
theorem length_utf8_toText_le (address : IpAddress) : (utf8 address.toText).length ≤ 42 := by
  cases address with
  | v4 a b c d => exact Nat.le_trans (length_dotted_le a b c d) (by decide)
  | v6 groups =>
    have hcount : groups.toList.length = 8 := groups.length_toList
    unfold toText
    dsimp only
    split
    · next high low _ =>
      have hmapped : (utf8 "::ffff:").length = 7 := by decide
      have hdotted := length_dotted_le (high >>> 8).toUInt8 high.toUInt8 (low >>> 8).toUInt8
        low.toUInt8
      show (utf8 ("::ffff:" ++ dotted _ _ _ _)).length ≤ 42
      rw [utf8_append, List.length_append, hmapped]
      omega
    · split
      · have hgap : (utf8 "::").length = 2 := by decide
        have hbefore := length_colons_le (groups.toList.take (longestZeroRun groups.toList).1)
        have hbehind := length_colons_le (groups.toList.drop
          ((longestZeroRun groups.toList).1 + (longestZeroRun groups.toList).2))
        rw [List.length_take] at hbefore
        rw [List.length_drop] at hbehind
        rw [utf8_append, utf8_append, List.length_append, List.length_append, hgap]
        omega
      · have hall := length_colons_le groups.toList
        omega

end IpAddress

/-! ## The length of an announcement -/

/-- What a realm takes in a list: its two texts, its builds, and 25 bytes for the rest. -/
theorem Snapshot.length_bytes (realm : Snapshot) :
    realm.bytes.length = (terminated realm.name).length + (terminated realm.address).length +
      4 * realm.builds.size + 25 := by
  simp only [bytes, List.length_append, length_word32, List.length_singleton, List.length_nil,
    length_flatMap_word32, BuildSet.size]
  omega

theorem Registration.length_bytes (r : Registration) :
    r.bytes.length = (terminated r.name).length + 4 * r.builds.length + 21 := by
  simp only [bytes, List.length_append, length_word32, List.length_singleton, List.length_nil,
    length_flatMap_word32]
  omega

/-- The announcement of a realm is at most 47 bytes longer than its registration. -/
theorem Session.length_bytes_record_le (session : Session) (r : Registration) :
    ((session.record r).setOnline true).info.bytes.length ≤ r.bytes.length + 47 := by
  have haddress := Nat.le_trans (length_terminated_le session.peer.address.toText)
    (Nat.succ_le_succ session.peer.address.length_utf8_toText_le)
  have hbuilds := BuildSet.size_ofList_le r.builds
  rw [Snapshot.length_bytes, Registration.length_bytes]
  show (terminated r.name).length + (terminated session.peer.address.toText).length +
    4 * (BuildSet.ofList r.builds).size + 25 ≤ _
  omega

/-! ## What the admin session receives -/

/-- The snapshot of a realm that registered so and called from there. -/
structure Portrays (realm : Snapshot) (r : Registration) (peer : Endpoint) : Prop where
  id : realm.id = r.id
  name : realm.name = r.name
  gamePort : realm.gamePort = r.gamePort
  kind : realm.kind = r.kind
  minAccess : realm.minAccess = r.minAccess
  timezone : realm.timezone = r.timezone
  maxPlayers : realm.maxPlayers = r.maxPlayers
  onlinePlayers : realm.onlinePlayers = r.onlinePlayers
  /-- Of the flags only the offline bit is cleared. -/
  flags : realm.flags.bits = r.flags.bits &&& ~~~0x02
  builds : ∀ build, build ∈ realm.builds.toList ↔ build ∈ r.builds
  address : realm.address = peer.address.toText

/-- The record that is made of a registration and put online shows it as it was sent. -/
theorem portrays_record (session : Session) (r : Registration) :
    Portrays ((session.record r).setOnline true).info r session.peer where
  id := rfl
  name := rfl
  gamePort := rfl
  kind := rfl
  minAccess := rfl
  timezone := rfl
  maxPlayers := rfl
  onlinePlayers := rfl
  flags := rfl
  builds := fun _ => BuildSet.mem_ofList
  address := rfl

/-- What came of a registration `r` that was added: the snapshot `realm` in the table, and the
`frame` that tells the admin session of it. -/
structure ReachesAdmin {σ : Type} [Transport σ] (payload : List UInt8) (peer : Endpoint)
    (before after : Hub σ) (admin : AdminSession) (queue : σ → List (List UInt8))
    (r : Registration) (realm : Snapshot) (frame : List UInt8) : Prop where
  /-- The payload is the registration, and what follows it is ignored. -/
  asked : ∃ rest, payload = r.bytes ++ rest ∧ Registration.decode payload = .ok (r, rest.length)
  plain : r.IsPlain
  portrays : Portrays realm r peer
  entered : (after.realms.find? r.id).map (·.info) = some realm
  /-- The frame is read to its end, and so is the snapshot in it. -/
  announced : ∃ body, Frame.decode frame = .ok (⟨AdminOpcode.realmAdded, body⟩, []) ∧
    Snapshot.read body = .ok (realm, [])
  /-- If the sink takes the frame, it is the one frame that was queued. -/
  queued : ∀ {transport}, Transport.offer admin.sink frame before.transport = (.ok (), transport) →
    queue after.transport = queue before.transport ++ [frame]

namespace Session

variable {σ : Type} [Transport σ] {session : Session} {envelope : Envelope} {hub : Hub σ}

/-- A registration that was answered with added reaches the admin session field for field. Any
payload that comes over a connection is far shorter than is asked for here, since the length of an
envelope has two bytes (`Envelope.length_payload_le`). -/
theorem portrayed_dispatch {admin : AdminSession} {queue : σ → List (List UInt8)} (now : Instant)
    (hadded : (session.dispatch envelope now hub).1 = some (answer true))
    (hadmin : hub.slot.current = some admin) (hqueue : Queues admin.sink queue)
    (hfits : envelope.payload.length + 64 < 4294967296) :
    ∃ r realm frame, ReachesAdmin envelope.payload session.peer hub
      (session.dispatch envelope now hub).2.2 admin queue r realm frame := by
  obtain ⟨id, htaken⟩ := added_iff_taken.mp hadded
  obtain ⟨r, hoffered, rfl, hvacant⟩ := taken?_eq_some_iff.mp htaken
  obtain ⟨-, -, trailing, hdecode⟩ := offered?_eq_some_iff.mp hoffered
  obtain ⟨rest, hread, hrest⟩ := Registration.decode_eq_ok_iff.mp hdecode
  obtain ⟨hplain, hpayload⟩ := Registration.accepts_read.eq_ok_iff.mp hread
  obtain ⟨notices, notice, heq⟩ := hub_dispatch_of_offered hoffered now hub
  have hrecord := session.isPlain_record hplain
  have hshort : ((session.record r).setOnline true).info.bytes.length < 4294967296 := by
    have hannounced := session.length_bytes_record_le r
    rw [hpayload, List.length_append] at hfits
    omega
  obtain ⟨entered, hentered, hinfo, frame, hframe, htransport⟩ :=
    Hub.offered_register_of_fits ({ hub with notices } : Hub σ) hadmin hrecord hvacant hshort
  have hdecoded := Frame.decode_encode hframe []
  rw [List.append_nil] at hdecoded
  have hportrays := portrays_record session r
  rw [hinfo] at hdecoded
  refine ⟨r, ((session.record r).setOnline true).info, frame, ?_⟩
  rw [heq]
  refine
    { asked := ⟨rest, hpayload, hrest ▸ hdecode⟩
      plain := hplain
      portrays := hportrays
      entered := ?_
      announced := ?_
      queued := ?_ }
  · exact (congrArg (Option.map (·.info)) hentered).trans (congrArg some hinfo)
  · have honline := RealmRecord.isPlain_setOnline hrecord true
    exact ⟨_, hdecoded, (Snapshot.reads_bytes honline).read_all⟩
  · intro transport hoffer
    have hafter : (({ hub with notices } : Hub σ).register (session.record r)).2.transport =
        transport := htransport.trans (congrArg Prod.snd hoffer)
    rw [← hqueue hoffer]
    exact congrArg queue hafter

end Session

namespace Traffic

/-- A realm marked offline by itself, with a build listed twice and bytes after the registration. -/
def ninthRequest : Envelope :=
  let registration : Registration :=
    ⟨9, "Realm 9", 8086, 300, 60, .moderator, ⟨0x42⟩, .normal, .english, [4, 5, 4]⟩
  ⟨.registeringRequest, registration.encode.toOption.getD [] ++ [0, 1]⟩

/-- The list of realms is in the mailbox already, and the announcement is put behind it. -/
theorem portrayed_dispatch_ninthRequest :
    let hub := ((start (Mailboxes.empty.add 2).2).run (watchedVisit.take 3)).2.hub
    let opened := Session.start ⟨.v6 #v[0xfe80, 0, 0, 0, 0, 0, 0, 1], 41001, 2⟩ hub
    let after := (opened.1.dispatch ninthRequest 6 opened.2).2.2
    (∃ r realm frame, ReachesAdmin ninthRequest.payload opened.1.peer opened.2 after ⟨1, 0⟩
      (Mailboxes.framesFor 0) r realm frame) ∧
      (Mailboxes.framesFor 0 opened.2.transport).length = 1 ∧
      (Mailboxes.framesFor 0 after.transport).length = 2 := by
  intro hub opened after
  have hadded : (opened.1.dispatch ninthRequest 6 opened.2).1 = some (Session.answer true) := by
    decide +kernel
  have hadmin : opened.2.slot.current = some ⟨1, 0⟩ := by decide +kernel
  have hfits : ninthRequest.payload.length + 64 < 4294967296 := by decide +kernel
  exact ⟨Session.portrayed_dispatch 6 hadded hadmin (Mailboxes.queues 0) hfits, by decide +kernel⟩

end Traffic

end RealmDirectory
