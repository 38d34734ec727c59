import RealmDirectory.Message.Listing
import RealmDirectory.Message.Status
import RealmDirectory.Proofs.Payload.Accepts

/-!
# Announcements read back

What the admin session is told of the realms can be read back without loss: a snapshot, a list of
snapshots and a change of status. A snapshot needs two things for this. Its texts must be free of
NUL, since a text is cut there, and it must not have more builds than one byte can count, since
otherwise it is not written at all.

`Snapshot.bytes` and `RealmList.bytes` are what is written when nothing is refused.

## Main results

* `Snapshot.reads_bytes`, `RealmList.reads_bytes`, `StatusChange.reads_encode` — reading back.
* `RealmList.length_bytes_of_mem` — a realm is no longer than a list that has it.
-/

namespace RealmDirectory

open Payload

/-! ## Builds -/

namespace BuildSet

private theorem insertAscending_of_lt {b : UInt32} {l : List UInt32} (h : ∀ x ∈ l, b < x) :
    insertAscending b l = b :: l := by
  cases l with
  | nil => rfl
  | cons first rest => exact if_pos (h first List.mem_cons_self)

/-- Builds in ascending order are kept as they are. -/
theorem toList_ofList {l : List UInt32} (h : l.Pairwise (· < ·)) : (ofList l).toList = l := by
  induction l with
  | nil => rfl
  | cons first rest ih =>
    obtain ⟨hfirst, hrest⟩ := List.pairwise_cons.mp h
    show insertAscending first (ofList rest).toList = first :: rest
    rw [ih hrest]
    exact insertAscending_of_lt hfirst

/-- A set read back from its members in order is the same set. -/
theorem ofList_toList (set : BuildSet) : ofList set.toList = set := by
  have hlist := toList_ofList set.ascending
  cases set with
  | mk list ascending =>
    cases hset : ofList list with
    | mk other _ =>
      rw [hset] at hlist
      cases hlist
      rfl

end BuildSet

/-! ## Snapshots -/

namespace Snapshot

/-- The snapshot is written and read back without loss. -/
structure IsPlain (realm : Snapshot) : Prop where
  name : NulFree realm.name
  address : NulFree realm.address
  builds : realm.builds.size ≤ 255

instance (realm : Snapshot) : Decidable realm.IsPlain :=
  decidable_of_iff (NulFree realm.name ∧ NulFree realm.address ∧ realm.builds.size ≤ 255)
    ⟨fun ⟨name, address, builds⟩ => ⟨name, address, builds⟩,
      fun ⟨name, address, builds⟩ => ⟨name, address, builds⟩⟩

/-- The bytes of a snapshot whose builds can be counted. -/
def bytes (realm : Snapshot) : List UInt8 :=
  word32 realm.id ++ (terminated realm.name ++ (terminated realm.address ++
    (word32 realm.gamePort ++ ([realm.flags.bits] ++ ([Coded.code realm.kind] ++
    ([Coded.code realm.minAccess] ++ ([Coded.code realm.timezone] ++
    (word32 realm.maxPlayers ++ (word32 realm.onlinePlayers ++ (word32 realm.population.bits ++
    ([UInt8.ofNat realm.builds.size] ++ (realm.builds.toList.flatMap word32 ++ []))))))))))))

/-- The number of builds is all that can keep a realm from being written. -/
theorem encode_eq_ok_iff {realm : Snapshot} {written : List UInt8} :
    realm.encode = .ok written ↔ realm.builds.size ≤ 255 ∧ written = realm.bytes := by
  have hbytes : realm.bytes = word32 realm.id ++ terminated realm.name ++ terminated realm.address
      ++ word32 realm.gamePort
      ++ [realm.flags.bits, Coded.code realm.kind, Coded.code realm.minAccess,
          Coded.code realm.timezone]
      ++ word32 realm.maxPlayers ++ word32 realm.onlinePlayers ++ word32 realm.population.bits
      ++ [UInt8.ofNat realm.builds.size] ++ realm.builds.toList.flatMap word32 := by
    simp only [bytes, List.append_assoc, List.cons_append, List.nil_append, List.append_nil]
  unfold encode
  rw [bind_eq_ok_iff fun _ => countByte_eq_ok_iff, pure_eq_ok_iff, hbytes]

theorem encode_eq_ok {realm : Snapshot} (h : realm.builds.size ≤ 255) :
    realm.encode = .ok realm.bytes := encode_eq_ok_iff.mpr ⟨h, rfl⟩

/-- A plain realm is read back as it was written. -/
theorem reads_bytes {realm : Snapshot} (h : realm.IsPlain) : Reads read realm.bytes realm := by
  unfold read bytes
  apply (reads_word "id" realm.id).bind
  apply (reads_text "name" h.name).bind
  apply (reads_text "address" h.address).bind
  apply (reads_word "game_port" realm.gamePort).bind
  apply (reads_byte "flags" realm.flags.bits).bind
  apply (reads_code realm.kind).bind
  apply (reads_code realm.minAccess).bind
  apply (reads_code realm.timezone).bind
  apply (reads_word "max_players" realm.maxPlayers).bind
  apply (reads_word "online_players" realm.onlinePlayers).bind
  apply (reads_float "population" realm.population).bind
  apply (reads_byte "build_count" (UInt8.ofNat realm.builds.size)).bind
  apply (reads_builds h.builds).bind
  rw [BuildSet.ofList_toList]
  exact reads_pure realm

end Snapshot

/-! ## Lists of snapshots -/

namespace RealmList

/-- The bytes of a list in which no snapshot is refused. -/
def bytes (realms : List Snapshot) : List UInt8 :=
  word32 (UInt32.ofNat realms.length) ++ realms.flatMap Snapshot.bytes

/-- A list is written unless it or the builds of a realm are too many to be counted. -/
theorem encode_eq_ok_iff {realms : List Snapshot} {written : List UInt8} :
    encode realms = .ok written ↔ realms.length < 4294967296 ∧
      (∀ realm ∈ realms, realm.builds.size ≤ 255) ∧ written = bytes realms := by
  unfold encode bytes
  rw [bind_eq_ok_iff fun _ => countWord_eq_ok_iff,
    bind_eq_ok_iff fun _ => mapM_eq_ok_iff fun _ _ => Snapshot.encode_eq_ok_iff, pure_eq_ok_iff,
    List.flatMap_def]

/-- Four bytes for the number of realms, and the realms. -/
theorem length_bytes (realms : List Snapshot) :
    (bytes realms).length = 4 + (realms.flatMap Snapshot.bytes).length := by
  rw [bytes, List.length_append, length_word32]

/-- A list whose bytes fit into a frame can be counted. -/
theorem length_lt_of_fits {realms : List Snapshot} (hfits : (bytes realms).length < 4294967296) :
    realms.length < 4294967296 := by
  have hroom : ∀ realm : Snapshot, 4 ≤ realm.bytes.length := fun realm => by
    rw [Snapshot.bytes, List.length_append, length_word32]
    exact Nat.le_add_right 4 _
  have hle := mul_length_le_length_flatMap hroom realms
  have hlength := length_bytes realms
  omega

/-- A list of plain realms that fits the frame is short enough to be counted. -/
theorem encode_eq_ok {realms : List Snapshot} (h : ∀ realm ∈ realms, realm.IsPlain)
    (hfits : (bytes realms).length < 4294967296) : encode realms = .ok (bytes realms) :=
  encode_eq_ok_iff.mpr ⟨length_lt_of_fits hfits, fun realm hmem => (h realm hmem).builds, rfl⟩

/-- A list of plain realms is read back as it was written. -/
theorem reads_bytes {realms : List Snapshot} (h : ∀ realm ∈ realms, realm.IsPlain)
    (hcount : realms.length < 4294967296) : Reads read (bytes realms) realms :=
  reads_counted (fun realm hmem => Snapshot.reads_bytes (h realm hmem)) hcount "realm_count"

/-- A snapshot is no longer than a list that has it. -/
theorem length_bytes_of_mem {realm : Snapshot} {realms : List Snapshot} (h : realm ∈ realms) :
    realm.bytes.length ≤ (bytes realms).length := by
  obtain ⟨before, after, rfl⟩ := List.append_of_mem h
  rw [length_bytes, List.flatMap_append, List.flatMap_cons, List.length_append, List.length_append]
  omega

end RealmList

/-! ## Changes of status -/

namespace StatusChange

/-- A change of status is read back as it was written. -/
theorem reads_encode (change : StatusChange) : Reads read change.encode change := by
  have hbytes : change.encode =
      word32 change.id ++ ([change.flags.bits] ++ (word32 change.population.bits ++ [])) := by
    rw [List.append_nil]
    rfl
  rw [hbytes]
  unfold read
  apply (reads_word "id" change.id).bind
  apply (reads_byte "flags" change.flags.bits).bind
  apply (reads_float "population" change.population).bind
  exact reads_pure change

theorem length_encode (change : StatusChange) : change.encode.length = 9 := by
  rw [encode, List.length_append, List.length_cons, length_word32, length_word32]

end StatusChange

end RealmDirectory
