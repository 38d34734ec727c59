import RealmDirectory.Proofs.Message.Announced

/-!
# Realms through the admin channel and back

Snapshots follow one another in a list without separators, so each must be read to its very end
before the next one is found. A list that is written is read back with nothing changed but the two
texts of each realm, which are cut at their first NUL.

A list that is read need not have been written here: the builds of a realm may come in any order
and more than once. They make up a set all the same, so the list can be written again, with the
builds in order and each of them once. That makes it no longer, and reading it gives the same list.

## Main results

* `Snapshot.takes_read`, `RealmList.takes_read` — what is read, in whatever order the builds come.
* `RealmList.relisting` — writing and reading realms, both ways round.
-/

namespace RealmDirectory

open Payload

/-! ## Builds that repeat -/

namespace BuildSet

private theorem length_insertAscending_le (build : UInt32) (l : List UInt32) :
    (insertAscending build l).length ≤ l.length + 1 := by
  induction l with
  | nil => exact Nat.le_refl 1
  | cons first rest ih =>
    unfold insertAscending
    split
    · exact Nat.le_refl _
    split
    · exact Nat.le_succ _
    · rw [List.length_cons, List.length_cons]
      omega

/-- Builds that are listed twice are kept once. -/
theorem size_ofList_le (l : List UInt32) : (ofList l).size ≤ l.length := by
  induction l with
  | nil => exact Nat.le_refl 0
  | cons first rest ih =>
    have hinsert := length_insertAscending_le first (ofList rest).toList
    unfold size at ih
    show (insertAscending first (ofList rest).toList).length ≤ rest.length + 1
    omega

end BuildSet

theorem length_flatMap_word32 (words : List UInt32) :
    (words.flatMap word32).length = 4 * words.length := by
  induction words with
  | nil => rfl
  | cons first rest ih =>
    rw [List.flatMap_cons, List.length_append, List.length_cons, length_word32, ih]
    omega

/-! ## One realm -/

namespace Snapshot

/-- What arrives of a snapshot: both texts are cut at their first NUL. -/
def received (realm : Snapshot) : Snapshot :=
  { realm with name := upToNul realm.name, address := upToNul realm.address }

/-- A realm that was received is written as the one it was received from. -/
theorem bytes_received (realm : Snapshot) : realm.received.bytes = realm.bytes := by
  unfold bytes received
  rw [terminated_upToNul, terminated_upToNul]

/-- What is received of a realm has no NUL left in it, and can be written. -/
theorem isPlain_received {realm : Snapshot} (h : realm.builds.size ≤ 255) :
    realm.received.IsPlain := ⟨nulFree_upToNul _, nulFree_upToNul _, h⟩

/-- What is read of a realm is what is received of it. -/
theorem reads_received {realm : Snapshot} (h : realm.builds.size ≤ 255) :
    Reads read realm.bytes realm.received := by
  rw [← bytes_received]
  exact reads_bytes (isPlain_received h)

/-- A realm is read from no fewer bytes than it is written in. -/
theorem takes_read :
    Takes read fun realm bytes => realm.IsPlain ∧ realm.bytes.length ≤ bytes.length := by
  unfold read
  apply (takes_word "id").bind; rintro id _ rfl
  apply (takes_text "name").bind; rintro name _ ⟨hname, rfl⟩
  apply (takes_text "address").bind; rintro address _ ⟨haddress, rfl⟩
  apply (takes_word "game_port").bind; rintro gamePort _ rfl
  apply (takes_byte "flags").bind; rintro flags _ rfl
  apply takes_code.bind; rintro kind _ rfl
  apply takes_code.bind; rintro minAccess _ rfl
  apply takes_code.bind; rintro timezone _ rfl
  apply (takes_word "max_players").bind; rintro maxPlayers _ rfl
  apply (takes_word "online_players").bind; rintro onlinePlayers _ rfl
  apply (takes_float "population").bind; rintro population _ rfl
  apply (takes_byte "build_count").bind; rintro count _ rfl
  apply (takes_builds count).bind; rintro builds _ ⟨hcount, rfl⟩
  have hsize := BuildSet.size_ofList_le builds
  have hfits : (BuildSet.ofList builds).size ≤ 255 := by
    have hlt := count.toNat_lt
    omega
  -- The builds are written last, so that they alone make a difference.
  have hbuilds : ((BuildSet.ofList builds).toList.flatMap word32).length ≤
      (builds.flatMap word32).length := by
    rw [length_flatMap_word32, length_flatMap_word32]
    exact Nat.mul_le_mul_left 4 hsize
  refine takes_pure ⟨⟨hname, haddress, hfits⟩, ?_⟩
  simp only [bytes, List.length_append, List.length_singleton, List.length_nil]
  omega

end Snapshot

/-! ## Lists of realms -/

namespace RealmList

/-- A list that was received is written as the one it was received from. -/
theorem bytes_received (realms : List Snapshot) :
    bytes (realms.map Snapshot.received) = bytes realms := by
  rw [bytes, List.length_map, flatMap_map_of_eq Snapshot.bytes_received, bytes]

/-- What is read of a list is what is received of each realm. -/
theorem reads_received {realms : List Snapshot} (h : ∀ realm ∈ realms, realm.builds.size ≤ 255)
    (hcount : realms.length < 4294967296) :
    Reads read (bytes realms) (realms.map Snapshot.received) := by
  rw [← bytes_received]
  refine reads_bytes (fun received hreceived => ?_) (by rwa [List.length_map])
  obtain ⟨realm, hmem, rfl⟩ := List.mem_map.mp hreceived
  exact Snapshot.isPlain_received (h realm hmem)

private theorem row_plain {realms : List Snapshot} {taken : List UInt8}
    (h : Row (fun realm bytes => realm.IsPlain ∧ realm.bytes.length ≤ bytes.length) realms taken) :
    (∀ realm ∈ realms, realm.IsPlain) ∧
      (realms.flatMap Snapshot.bytes).length ≤ taken.length := by
  obtain ⟨parts, hparts, rfl⟩ := h
  induction hparts with
  | nil => exact ⟨List.forall_mem_nil _, Nat.le_refl 0⟩
  | cons hfirst _ ih =>
    refine ⟨List.forall_mem_cons.mpr ⟨hfirst.1, ih.1⟩, ?_⟩
    rw [List.flatMap_cons, List.flatten_cons, List.length_append, List.length_append]
    exact Nat.add_le_add hfirst.2 ih.2

/-- A list is read from no fewer bytes than it is written in. -/
theorem takes_read :
    Takes read fun realms taken => realms.length < 4294967296 ∧
      (∀ realm ∈ realms, realm.IsPlain) ∧ (bytes realms).length ≤ taken.length := by
  intro payload realms rest h
  obtain ⟨_, ⟨hcount, row, hrow, rfl⟩, hpayload⟩ := Snapshot.takes_read.counted "realm_count" h
  obtain ⟨hplain, hle⟩ := row_plain hrow
  refine ⟨_, ⟨hcount, hplain, ?_⟩, hpayload⟩
  rw [length_bytes, List.length_append, length_word32]
  exact Nat.add_le_add_left hle 4

end RealmList

/-! ## Both ways round -/

namespace RealmList

/-- What becomes of realms that are written and read, and of realms that are read and written. -/
structure Relisting : Prop where
  written_iff : ∀ {realms : List Snapshot}, (∃ written, encode realms = .ok written) ↔
    realms.length < 4294967296 ∧ ∀ realm ∈ realms, realm.builds.size ≤ 255
  received : ∀ {realms : List Snapshot} {written : List UInt8}, encode realms = .ok written →
    ∀ extra, read.decode (written ++ extra) = .ok (realms.map Snapshot.received)
  /-- The same of a single realm. -/
  realm_written_iff : ∀ {realm : Snapshot}, (∃ written, realm.encode = .ok written) ↔
    realm.builds.size ≤ 255
  realm_received : ∀ {realm : Snapshot} {written : List UInt8}, realm.encode = .ok written →
    ∀ extra, Snapshot.read.decode (written ++ extra) = .ok realm.received
  /-- A change of status is always written, and nothing of it is lost. -/
  status_received : ∀ (change : StatusChange) (extra : List UInt8),
    StatusChange.read.decode (change.encode ++ extra) = .ok change
  /-- Whatever list was read can be written again. -/
  rewritten : ∀ {payload : List UInt8} {realms : List Snapshot}, read.decode payload = .ok realms →
    ∃ written, encode realms = .ok written ∧ written.length ≤ payload.length ∧
      read.decode written = .ok realms

/-- A list is written unless something in it is too many to be counted, and what is read of it is
what was written, with each name and address cut at its first NUL. A list that was read is written
again in no more bytes. -/
theorem relisting : Relisting where
  written_iff := by
    intro realms
    constructor
    · rintro ⟨written, hencode⟩
      obtain ⟨hcount, hbuilds, -⟩ := encode_eq_ok_iff.mp hencode
      exact ⟨hcount, hbuilds⟩
    · rintro ⟨hcount, hbuilds⟩
      exact ⟨_, encode_eq_ok_iff.mpr ⟨hcount, hbuilds, rfl⟩⟩
  received := by
    intro realms written hencode extra
    obtain ⟨hcount, hbuilds, rfl⟩ := encode_eq_ok_iff.mp hencode
    exact (reads_received hbuilds hcount).decode_append extra
  realm_written_iff := by
    intro realm
    constructor
    · rintro ⟨written, hencode⟩
      exact (Snapshot.encode_eq_ok_iff.mp hencode).1
    · intro hbuilds
      exact ⟨_, Snapshot.encode_eq_ok hbuilds⟩
  realm_received := by
    intro realm written hencode extra
    obtain ⟨hbuilds, rfl⟩ := Snapshot.encode_eq_ok_iff.mp hencode
    exact (Snapshot.reads_received hbuilds).decode_append extra
  status_received := fun change extra => change.reads_encode.decode_append extra
  rewritten := by
    intro payload realms hdecode
    obtain ⟨rest, hread⟩ := decode_eq_ok_iff.mp hdecode
    obtain ⟨taken, ⟨hcount, hplain, hle⟩, rfl⟩ := takes_read hread
    have hencode := encode_eq_ok_iff.mpr ⟨hcount, fun realm hmem => (hplain realm hmem).builds, rfl⟩
    refine ⟨bytes realms, hencode, ?_, (reads_bytes hplain hcount).decode_eq⟩
    rw [List.length_append]
    exact Nat.le_trans hle (Nat.le_add_right _ _)

end RealmList

end RealmDirectory
