import RealmDirectory.Proofs.Message.Canonical
import RealmDirectory.Proofs.Payload.Schema

/-!
# Registrations that are cut short

A payload that ends too soon is refused under the name of the field in which it ends: the first byte
that is missing belongs to exactly one field of the message, the fields before it are all there and
are read, and the reading of this one runs into the end. For a text that means that its terminator
is missing, however many of its bytes there are and whether or not they end between two characters.

This goes along a reader field by field. Everything a reader decides about a value, such as the code
of an enumeration, it decides about values that are there, and so the end of the payload is the only
thing that can be wrong.

## Main definitions

* `HoldsByte` — the field of a message to which a byte belongs.
* `Misses` — a reader refuses a field that is cut short.
* `Blames` — it refuses fields that are cut short under the name of the one that is cut.

## Main results

* `HoldsByte.unique` — a byte belongs to one field.
* `Blames.cons`, `blames_times_go` — sequences of fields, and of items.
* `Registration.truncated_decode` — registrations, wherever they are cut.
-/

namespace RealmDirectory

namespace Payload

/-! ## The fields of a message and their bytes -/

/-- The fault of a field that does not reach its end. -/
def FieldKind.missing (name : String) : FieldKind → FieldError
  | text => .unterminatedText name
  | byte | word | float => .unexpectedEnd name

private theorem FieldKind.missing_ne_invalidUtf8 (kind : FieldKind) (name blamed : String) :
    kind.missing name ≠ .invalidUtf8 blamed := by
  cases kind <;> exact FieldError.noConfusion

private theorem FieldKind.missing_ne_invalidValue (kind : FieldKind) (name blamed : String)
    (value : Nat) : kind.missing name ≠ .invalidValue blamed value := by
  cases kind <;> exact FieldError.noConfusion

/-- The byte at an offset belongs to this one of some fields that are written one after another. -/
def HoldsByte (fields : List (Field × String)) (offset : Nat) (named : Field × String) : Prop :=
  ∃ before after, fields = before ++ named :: after ∧ (writtenFields before).length ≤ offset ∧
    offset < (writtenFields before).length + named.1.encode.length

/-- A byte belongs to the first field, or to one of the others. -/
theorem holdsByte_cons_iff {first named : Field × String} {more : List (Field × String)}
    {offset : Nat} :
    HoldsByte (first :: more) offset named ↔
      (offset < first.1.encode.length ∧ named = first) ∨
        (first.1.encode.length ≤ offset ∧
          HoldsByte more (offset - first.1.encode.length) named) := by
  constructor
  · rintro ⟨before, after, heq, hle, hlt⟩
    cases before with
    | nil =>
      cases heq
      rw [writtenFields_nil, List.length_nil, Nat.zero_add] at hlt
      exact .inl ⟨hlt, rfl⟩
    | cons other before =>
      cases heq
      rw [writtenFields_cons, List.length_append] at hle hlt
      exact .inr ⟨by omega, before, after, rfl, by omega, by omega⟩
  · rintro (⟨hlt, rfl⟩ | ⟨hle, before, after, rfl, hbefore, hlt⟩)
    · refine ⟨[], more, rfl, Nat.zero_le offset, ?_⟩
      rwa [writtenFields_nil, List.length_nil, Nat.zero_add]
    · refine ⟨first :: before, after, rfl, ?_, ?_⟩
      · rw [writtenFields_cons, List.length_append]
        omega
      · rw [writtenFields_cons, List.length_append]
        omega

/-- Every byte of a payload belongs to one field. -/
theorem HoldsByte.unique {fields : List (Field × String)} {offset : Nat}
    {named other : Field × String} (h : HoldsByte fields offset named)
    (hother : HoldsByte fields offset other) : named = other := by
  induction fields generalizing offset with
  | nil =>
    obtain ⟨before, after, heq, -, -⟩ := h
    cases before <;> cases heq
  | cons first more ih =>
    rcases holdsByte_cons_iff.mp h with ⟨hlt, rfl⟩ | ⟨hle, hmore⟩
    · rcases holdsByte_cons_iff.mp hother with ⟨-, rfl⟩ | ⟨hle, -⟩
      · rfl
      · omega
    · rcases holdsByte_cons_iff.mp hother with ⟨hlt, -⟩ | ⟨-, hotherMore⟩
      · omega
      · exact ih hmore hotherMore

/-! ## One field -/

section Blames

variable {α β : Type} {reader : Reader α}

/-- Wherever its bytes are cut short, the field is refused for its end. -/
def Misses (reader : Reader α) (field : Field) (name : String) : Prop :=
  ∀ cut < field.encode.length, reader (field.encode.take cut) = .error (field.kind.missing name)

private theorem misses_byte (name : String) (b : UInt8) :
    Misses (Reader.byte name) (.byte b) name := by
  intro cut hcut
  obtain rfl : cut = 0 := Nat.lt_one_iff.mp hcut
  rfl

private theorem misses_word (name : String) (w : UInt32) :
    Misses (Reader.word name) (.word w) name := by
  intro cut hcut
  have hlength : (Field.word w).encode.length = 4 := length_word32 w
  have hshort : (((Field.word w).encode.take cut).take 4).length ≠ 4 := by
    rw [List.take_take, List.length_take]
    omega
  have htake : Reader.take name 4 ((Field.word w).encode.take cut) =
      .error (.unexpectedEnd name) := if_neg hshort
  show (Reader.take name 4 ((Field.word w).encode.take cut) >>= _) = _
  rw [htake]
  rfl

private theorem misses_code [Coded α] (value : α) :
    Misses (Coded.read α) (.byte (Coded.code value)) (Coded.field α) := by
  intro cut hcut
  obtain rfl : cut = 0 := Nat.lt_one_iff.mp hcut
  rfl

/-- Without its last byte, a text has no end. -/
theorem misses_text (name : String) {text : String} (h : NulFree text) :
    Misses (Reader.text name) (.text text) name := by
  intro cut hcut
  have hencode : (Field.text text).encode = utf8 text ++ [0] := terminated_eq h
  rw [hencode, List.length_append] at hcut
  have hzero : 0 ∉ (utf8 text).take cut := fun hmem =>
    nulFree_iff.mp h (List.mem_of_mem_take hmem)
  rw [hencode, List.take_append_of_le_length (Nat.le_of_lt_succ hcut)]
  exact text_of_not_mem name hzero

/-! ## Fields one after another -/

/-- Wherever the bytes of the fields are cut short, the reader blames the field that is cut. -/
def Blames (reader : Reader α) (fields : List (Field × String)) : Prop :=
  ∀ cut < (writtenFields fields).length, ∃ named, HoldsByte fields cut named ∧
    reader ((writtenFields fields).take cut) = .error (named.1.kind.missing named.2)

/-- There is nothing that could be cut short. -/
theorem blames_nil (reader : Reader α) : Blames reader [] :=
  fun cut hcut => absurd hcut (Nat.not_lt_zero cut)

/-- The first field is cut, or it is read and the cut is behind it. -/
theorem Blames.cons {field : Field} {name : String} {more : List (Field × String)} {value : α}
    {next : α → Reader β} (hmisses : Misses reader field name)
    (hread : Reads reader field.encode value) (hnext : Blames (next value) more) :
    Blames (reader >>= next) ((field, name) :: more) := by
  intro cut hcut
  have hbytes : writtenFields ((field, name) :: more) = field.encode ++ writtenFields more :=
    writtenFields_cons _ _
  rw [hbytes] at hcut ⊢
  rcases Nat.lt_or_ge cut field.encode.length with hlt | hge
  · refine ⟨(field, name), holdsByte_cons_iff.mpr (.inl ⟨hlt, rfl⟩), ?_⟩
    rw [List.take_append_of_le_length (Nat.le_of_lt hlt)]
    show (reader (field.encode.take cut) >>= _) = _
    rw [hmisses cut hlt]
    rfl
  · rw [List.length_append] at hcut
    obtain ⟨named, hholds, herror⟩ := hnext (cut - field.encode.length) (by omega)
    refine ⟨named, holdsByte_cons_iff.mpr (.inr ⟨hge, hholds⟩), ?_⟩
    rw [List.take_append, List.take_of_length_le hge]
    show (reader (field.encode ++ _) >>= fun (a, left) => next a left) = _
    rw [hread]
    exact herror

/-- What is read behind the fields is not reached. -/
theorem Blames.bind {fields : List (Field × String)} (h : Blames reader fields)
    (next : α → Reader β) : Blames (reader >>= next) fields := by
  intro cut hcut
  obtain ⟨named, hholds, herror⟩ := h cut hcut
  refine ⟨named, hholds, ?_⟩
  show (reader ((writtenFields fields).take cut) >>= _) = _
  rw [herror]
  rfl

private theorem times_go_succ (item : Reader α) (left : Nat) (seen : List α) :
    Reader.times.go item (left + 1) seen =
      item >>= fun a => Reader.times.go item left (a :: seen) := by
  funext bytes
  rw [Reader.times.go]
  show _ = (item bytes >>= fun taken => Reader.times.go item left (taken.1 :: seen) taken.2)
  cases item bytes with
  | error cause => rfl
  | ok taken => rfl

/-- Items that are read one after another. -/
theorem blames_times_go {item : Reader α} {field : α → Field} {name : String} {items : List α}
    (hmisses : ∀ a, Misses item (field a) name) (hread : ∀ a, Reads item (field a).encode a)
    (seen : List α) :
    Blames (Reader.times.go item items.length seen) (items.map fun a => (field a, name)) := by
  induction items generalizing seen with
  | nil => exact blames_nil _
  | cons first others ih =>
    rw [List.length_cons, times_go_succ, List.map_cons]
    exact Blames.cons (hmisses first) (hread first) (ih (first :: seen))

private theorem blames_builds {builds : List UInt32} (h : builds.length ≤ 255) :
    Blames (Reader.builds (UInt8.ofNat builds.length))
      (builds.map fun build => (.word build, "build_id")) := by
  unfold Reader.builds
  rw [toNat_ofNat_of_le h]
  exact blames_times_go (misses_word "build_id") (reads_word "build_id") []

end Blames

end Payload

open Payload

namespace Registration

/-! ## Registrations -/

/-- The fields of a registration, in the order they are written. -/
def fields (r : Registration) : List (Field × String) :=
  (.word r.id, "realm_id") :: (.text r.name, "name") :: (.word r.gamePort, "game_port") ::
    (.word r.maxPlayers, "max_players") :: (.word r.onlinePlayers, "online_players") ::
    (.byte (Coded.code r.minAccess), "min_access_level") :: (.byte r.flags.bits, "flags") ::
    (.byte (Coded.code r.kind), "type") :: (.byte (Coded.code r.timezone), "timezone") ::
    (.byte (UInt8.ofNat r.builds.length), "build_count") ::
    r.builds.map fun build => (.word build, "build_id")

private theorem writtenFields_fields (r : Registration) : writtenFields r.fields = r.bytes := by
  have hbuilds : writtenFields (r.builds.map fun build => (.word build, "build_id")) =
      r.builds.flatMap word32 := by
    rw [writtenFields, Field.encodeAll, List.map_map, List.flatMap_map]
    rfl
  unfold fields bytes
  simp only [writtenFields_cons, hbuilds, List.append_nil]
  rfl

/-- A registration that is cut short is refused for the field that the cut runs through. -/
theorem blames_read {r : Registration} (h : r.IsPlain) : Blames read r.fields := by
  unfold read fields
  apply Blames.cons (misses_word "realm_id" r.id) (reads_word _ _)
  apply Blames.cons (misses_text "name" h.name) (reads_text _ h.name)
  apply Blames.cons (misses_word "game_port" r.gamePort) (reads_word _ _)
  apply Blames.cons (misses_word "max_players" r.maxPlayers) (reads_word _ _)
  apply Blames.cons (misses_word "online_players" r.onlinePlayers) (reads_word _ _)
  apply Blames.cons (misses_code r.minAccess) (reads_code _)
  apply Blames.cons (misses_byte "flags" r.flags.bits) (reads_byte _ _)
  apply Blames.cons (misses_code r.kind) (reads_code _)
  apply Blames.cons (misses_code r.timezone) (reads_code _)
  apply Blames.cons (misses_byte "build_count" (UInt8.ofNat r.builds.length)) (reads_byte _ _)
  exact (blames_builds h.builds).bind _

/-- Wherever the bytes of the fields are cut short, the registration is refused for the field that
is cut. -/
theorem decode_take {r : Registration} (h : r.IsPlain) {cut : Nat}
    (hcut : cut < (writtenFields r.fields).length) :
    ∃ field name, HoldsByte r.fields cut (field, name) ∧
      decode ((writtenFields r.fields).take cut) = .error (field.kind.missing name) := by
  obtain ⟨⟨field, name⟩, hholds, herror⟩ := blames_read h cut hcut
  refine ⟨field, name, hholds, ?_⟩
  unfold decode
  rw [herror]
  rfl

/-- A registration is written field by field, and one that is cut short is refused, for a text
without an end or for the end of the payload, under the name of the one field to which the first
missing byte belongs. -/
theorem truncated_decode {r : Registration} (hname : NulFree r.name)
    (hbuilds : r.builds.length ≤ 255) :
    ∃ written, r.encode = .ok written ∧ written = writtenFields r.fields ∧
      ∀ cut < written.length, ∃ field name,
        HoldsByte r.fields cut (field, name) ∧
        (∀ other, HoldsByte r.fields cut other → other = (field, name)) ∧
        decode (written.take cut) = .error (field.kind.missing name) ∧
        (∀ accepted, decode (written.take cut) ≠ .ok accepted) ∧
        (∀ blamed, decode (written.take cut) ≠ .error (.invalidUtf8 blamed)) ∧
        ∀ blamed value, decode (written.take cut) ≠ .error (.invalidValue blamed value) := by
  refine ⟨writtenFields r.fields, ?_, rfl, ?_⟩
  · exact encode_eq_ok_iff.mpr ⟨hbuilds, writtenFields_fields r⟩
  intro cut hcut
  obtain ⟨field, name, hholds, hdecode⟩ := decode_take ⟨hname, hbuilds⟩ hcut
  refine ⟨field, name, hholds, fun other hother => hother.unique hholds, hdecode, ?_, ?_, ?_⟩
  · intro accepted haccepted
    rw [hdecode] at haccepted
    cases haccepted
  · intro blamed hutf8
    exact field.kind.missing_ne_invalidUtf8 name blamed
      (Except.error.inj (hdecode.symm.trans hutf8))
  · intro blamed value hvalue
    exact field.kind.missing_ne_invalidValue name blamed value
      (Except.error.inj (hdecode.symm.trans hvalue))

/-- Two builds, and a name with a character of two bytes. -/
def accented : Registration :=
  ⟨7, "né", 8085, 1000, 250, .player, ⟨0x40⟩, .pvp, .english, [5875, 6005]⟩

/-- The cut is within the character, before the end of the name, and within the second build. -/
theorem truncated_decode_accented :
    NulFree accented.name ∧ accented.builds.length ≤ 255 ∧ ∃ written,
      accented.encode = .ok written ∧ written.length = 33 ∧
      decode (written.take 6) = .error (.unterminatedText "name") ∧
      decode (written.take 7) = .error (.unterminatedText "name") ∧
      decode (written.take 31) = .error (.unexpectedEnd "build_id") := by
  have hname : NulFree accented.name := by decide
  have hbuilds : accented.builds.length ≤ 255 := by decide
  obtain ⟨written, hencode, hwritten, hrefused⟩ := truncated_decode hname hbuilds
  have hlength : written.length = 33 := by
    rw [hwritten]
    decide +kernel
  have hblamed : ∀ {cut : Nat} {field : Field} {name : String}, cut < 33 →
      HoldsByte accented.fields cut (field, name) →
      decode (written.take cut) = .error (field.kind.missing name) := by
    intro cut field name hcut hholds
    obtain ⟨_, _, -, hunique, hdecode, -⟩ := hrefused cut (hlength.symm ▸ hcut)
    cases hunique _ hholds
    exact hdecode
  have hatName : ∀ cut, 4 ≤ cut → cut < 8 →
      HoldsByte accented.fields cut (.text "né", "name") := by
    intro cut hle hlt
    exact ⟨accented.fields.take 1, accented.fields.drop 2, rfl, hle, hlt⟩
  have hatBuild : HoldsByte accented.fields 31 (.word 6005, "build_id") :=
    ⟨accented.fields.take 11, [], rfl, by decide +kernel, by decide +kernel⟩
  refine ⟨hname, hbuilds, written, hencode, hlength, ?_, ?_, ?_⟩
  · exact hblamed (by decide) (hatName 6 (by decide) (by decide))
  · exact hblamed (by decide) (hatName 7 (by decide) (by decide))
  · exact hblamed (by decide) hatBuild

end Registration

end RealmDirectory
