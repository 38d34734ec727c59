import RealmDirectory.Payload.Field
import RealmDirectory.Proofs.Payload.Accepts

/-!
# Reading by a schema

Whatever kinds of fields are read, in whatever order and from whatever bytes, a read takes the
bytes of the field it gives and no others, and a read that fails takes none. So after any number of
reads the payload is what the fields found so far are written as, followed by the bytes that are
left. This is proved read by read, and it says at once where the reading stands and what it found.

Where the payload was written by the schema it is read with, every read succeeds: the bytes of a
field are read as that field, whatever stands behind them. Only a text with a NUL comes back cut.

## Main definitions

* `leftBy` — the bytes that a run of reads leaves.
* `positionAfter` — where the reading stands after some attempts.

## Main results

* `FieldKind.takes_read`, `Field.reads_encode` — one field.
* `encodeAll_fieldsFound_append_leftBy` — what a run of reads has taken.
* `schema_duality` — reading any bytes by any schema, and those that the schema wrote.
-/

namespace RealmDirectory.Payload

/-! ## One field -/

namespace Field

/-- What comes back of a field that is written: a text is cut at its first NUL. -/
def received : Field → Field
  | text value => text (upToNul value)
  | field => field

theorem encode_received (field : Field) : field.received.encode = field.encode := by
  cases field with
  | text value => exact terminated_upToNul value
  | byte value => rfl
  | word value => rfl
  | float value => rfl

private theorem encodeAll_cons (field : Field) (fields : List Field) :
    encodeAll (field :: fields) = field.encode ++ encodeAll fields := List.flatMap_cons

/-- A field is read back from what is written of it. -/
theorem reads_encode (name : String) (field : Field) :
    Reads (field.kind.read name) field.encode field.received := by
  cases field with
  | byte value => exact (reads_byte name value).map Field.byte
  | word value => exact (reads_word name value).map Field.word
  | float value => exact (reads_float name value).map Field.float
  | text value =>
    have hread := (reads_text name (nulFree_upToNul value)).map Field.text
    rw [terminated_upToNul] at hread
    exact hread

end Field

/-- A field that is read is of the kind asked for, and its bytes are taken. -/
theorem FieldKind.takes_read (name : String) (kind : FieldKind) :
    Takes (kind.read name) fun field bytes => field.kind = kind ∧ bytes = field.encode := by
  cases kind with
  | byte =>
    exact (takes_byte name).map Field.byte fun value bytes hbytes => ⟨rfl, hbytes⟩
  | word =>
    exact (takes_word name).map Field.word fun value bytes hbytes => ⟨rfl, hbytes⟩
  | float =>
    exact (takes_float name).map Field.float fun value bytes hbytes => ⟨rfl, hbytes⟩
  | text =>
    exact (takes_text name).map Field.text fun value bytes hwritten => ⟨rfl, hwritten.2⟩

/-! ## A run of reads -/

/-- The bytes that one read leaves. -/
def FieldKind.leaves (kind : FieldKind) (name : String) (bytes : List UInt8) : List UInt8 :=
  match kind.read name bytes with
  | .ok (_, rest) => rest
  | .error _ => bytes

/-- The bytes that a run of reads leaves. -/
def leftBy : List (FieldKind × String) → List UInt8 → List UInt8
  | [], bytes => bytes
  | (kind, name) :: more, bytes => leftBy more (kind.leaves name bytes)

/-- The fields that some attempts found. -/
def fieldsFound (attempts : List Attempt) : List Field :=
  attempts.filterMap fun attempt => attempt.outcome.toOption

/-- Where the reading of a payload stands after some attempts. -/
def positionAfter (payload : List UInt8) (attempts : List Attempt) : Nat :=
  payload.length - (attempts.getLast?.map (·.remaining)).getD payload.length

private theorem attemptAll_cons (kind : FieldKind) (name : String)
    (more : List (FieldKind × String)) (bytes : List UInt8) :
    attemptAll ((kind, name) :: more) bytes =
      ⟨(kind.read name bytes).map (·.1), (kind.leaves name bytes).length⟩ ::
        attemptAll more (kind.leaves name bytes) := by
  unfold FieldKind.leaves
  rw [attemptAll]
  cases kind.read name bytes with
  | error cause => rfl
  | ok taken => rfl

private theorem attemptAll_append (first second : List (FieldKind × String)) (bytes : List UInt8) :
    attemptAll (first ++ second) bytes =
      attemptAll first bytes ++ attemptAll second (leftBy first bytes) := by
  induction first generalizing bytes with
  | nil => rfl
  | cons read more ih =>
    obtain ⟨kind, name⟩ := read
    rw [List.cons_append, attemptAll_cons, attemptAll_cons, ih, List.cons_append]
    rfl

private theorem length_attemptAll (reads : List (FieldKind × String)) (bytes : List UInt8) :
    (attemptAll reads bytes).length = reads.length := by
  induction reads generalizing bytes with
  | nil => rfl
  | cons read more ih =>
    obtain ⟨kind, name⟩ := read
    rw [attemptAll_cons, List.length_cons, ih, List.length_cons]

private theorem leftBy_append (first second : List (FieldKind × String)) (bytes : List UInt8) :
    leftBy (first ++ second) bytes = leftBy second (leftBy first bytes) := by
  induction first generalizing bytes with
  | nil => rfl
  | cons read more ih => exact ih _

private theorem fieldsFound_cons (attempt : Attempt) (attempts : List Attempt) :
    fieldsFound (attempt :: attempts) =
      attempt.outcome.toOption.toList ++ fieldsFound attempts := by
  unfold fieldsFound
  rw [List.filterMap_cons]
  cases attempt.outcome.toOption with
  | none => rfl
  | some field => rfl

/-- A read takes the bytes of the field it gives, or none if it gives none. -/
theorem FieldKind.read_cases (kind : FieldKind) (name : String) (bytes : List UInt8) :
    (∃ cause, kind.read name bytes = .error cause ∧ kind.leaves name bytes = bytes) ∨
      ∃ field, kind.read name bytes = .ok (field, kind.leaves name bytes) ∧ field.kind = kind ∧
        bytes = field.encode ++ kind.leaves name bytes := by
  unfold FieldKind.leaves
  cases hread : kind.read name bytes with
  | error cause => exact .inl ⟨cause, rfl, rfl⟩
  | ok taken =>
    obtain ⟨_, ⟨hkind, rfl⟩, hbytes⟩ := kind.takes_read name hread
    exact .inr ⟨taken.1, rfl, hkind, hbytes⟩

/-- The payload is what the fields found are written as, followed by the bytes that are left. -/
theorem encodeAll_fieldsFound_append_leftBy (reads : List (FieldKind × String))
    (payload : List UInt8) :
    Field.encodeAll (fieldsFound (attemptAll reads payload)) ++ leftBy reads payload = payload := by
  induction reads generalizing payload with
  | nil => rfl
  | cons read more ih =>
    obtain ⟨kind, name⟩ := read
    have hmore := ih (kind.leaves name payload)
    rw [attemptAll_cons, fieldsFound_cons, leftBy]
    rcases kind.read_cases name payload with ⟨cause, hread, hleaves⟩ | ⟨field, hread, -, hbytes⟩
    · rw [hread, hleaves]
      rwa [hleaves] at hmore
    · rw [hread]
      show Field.encodeAll (field :: fieldsFound _) ++ _ = payload
      rw [Field.encodeAll_cons, List.append_assoc, hmore, ← hbytes]

/-! ## Where the reading stands -/

private theorem positionAfter_attemptAll (reads : List (FieldKind × String))
    (payload : List UInt8) : positionAfter payload (attemptAll reads payload) =
      payload.length - (leftBy reads payload).length := by
  unfold positionAfter
  rcases List.eq_nil_or_concat reads with rfl | ⟨first, ⟨kind, name⟩, rfl⟩
  · rfl
  · rw [List.concat_eq_append, attemptAll_append, leftBy_append, attemptAll_cons,
      List.getLast?_append]
    rfl

/-- The bytes in front of that place are those of the fields found, and the others are left. -/
theorem fieldsFound_and_left (reads : List (FieldKind × String)) (payload : List UInt8) :
    Field.encodeAll (fieldsFound (attemptAll reads payload)) =
        payload.take (positionAfter payload (attemptAll reads payload)) ∧
      leftBy reads payload = payload.drop (positionAfter payload (attemptAll reads payload)) := by
  have hall := encodeAll_fieldsFound_append_leftBy reads payload
  have hlength := congrArg List.length hall
  rw [List.length_append] at hlength
  have hposition : positionAfter payload (attemptAll reads payload) =
      (Field.encodeAll (fieldsFound (attemptAll reads payload))).length := by
    rw [positionAfter_attemptAll]
    omega
  rw [hposition]
  constructor
  · exact List.prefix_iff_eq_take.mp ⟨_, hall⟩
  · have hdrop := congrArg
      (List.drop (Field.encodeAll (fieldsFound (attemptAll reads payload))).length) hall
    rwa [List.drop_left] at hdrop

private theorem attemptAll_take (reads : List (FieldKind × String)) (payload : List UInt8)
    (n : Nat) : (attemptAll reads payload).take n = attemptAll (reads.take n) payload := by
  induction reads generalizing payload n with
  | nil => rw [List.take_nil, attemptAll, List.take_nil]
  | cons read more ih =>
    obtain ⟨kind, name⟩ := read
    cases n with
    | zero => rfl
    | succ n => rw [List.take_succ_cons, attemptAll_cons, attemptAll_cons, List.take_succ_cons, ih]

/-- What becomes of the read whose turn it is when the reading of a payload stands at `position`. -/
structure ReadingTurn (kind : FieldKind) (name : String) (payload : List UInt8)
    (position next : Nat) (attempt : Attempt) : Prop where
  outcome : attempt.outcome = (kind.read name (payload.drop position)).map (·.1)
  remaining : next + attempt.remaining = payload.length
  /-- A failed read leaves the position where it was. -/
  failed : ∀ {cause}, attempt.outcome = .error cause → next = position
  /-- Any other gives a field of its kind and moves past it. -/
  read : ∀ {field}, attempt.outcome = .ok field →
    field.kind = kind ∧ next = position + field.encode.length

private theorem readingTurn_of_left {kind : FieldKind} {name : String} {payload : List UInt8}
    {position next : Nat} (hposition : position ≤ payload.length)
    (hnext : next = payload.length - (kind.leaves name (payload.drop position)).length) :
    ReadingTurn kind name payload position next
      ⟨(kind.read name (payload.drop position)).map (·.1),
        (kind.leaves name (payload.drop position)).length⟩ := by
  have hleft := List.length_drop (i := position) (l := payload)
  rcases kind.read_cases name (payload.drop position) with
    ⟨cause, hread, hleaves⟩ | ⟨field, hread, hkind, hbytes⟩
  · rw [hleaves] at hnext ⊢
    have hremaining : next + (payload.drop position).length = payload.length := by omega
    refine ⟨rfl, hremaining, fun _ => by omega, ?_⟩
    intro field hfield
    rw [hread] at hfield
    cases hfield
  · have hlength := congrArg List.length hbytes
    rw [List.length_append] at hlength
    have hremaining : next + (kind.leaves name (payload.drop position)).length =
        payload.length := by omega
    have hmoved : next = position + field.encode.length := by omega
    refine ⟨rfl, hremaining, ?_, ?_⟩
    · intro cause hcause
      rw [hread] at hcause
      cases hcause
    · intro other hother
      rw [hread] at hother
      cases hother
      exact ⟨hkind, hmoved⟩

/-- What a run of reads comes to, whatever it reads and from whatever bytes. -/
structure OrderlyReading (reads : List (FieldKind × String)) (payload : List UInt8) : Prop where
  length_eq : (attemptAll reads payload).length = reads.length
  /-- The position never passes the end. -/
  bounded : ∀ n, positionAfter payload ((attemptAll reads payload).take n) ≤ payload.length
  turn : ∀ {n kind name}, reads[n]? = some (kind, name) →
    ∃ attempt, (attemptAll reads payload)[n]? = some attempt ∧
      ReadingTurn kind name payload (positionAfter payload ((attemptAll reads payload).take n))
        (positionAfter payload ((attemptAll reads payload).take (n + 1))) attempt
  /-- The fields found so far, written one after another, are the bytes passed so far. -/
  reproduced : ∀ n, Field.encodeAll (fieldsFound ((attemptAll reads payload).take n)) =
    payload.take (positionAfter payload ((attemptAll reads payload).take n))

/-- However the reads of a payload go, each starts where the last that succeeded ended, and one
that fails does not move on. -/
theorem orderlyReading (reads : List (FieldKind × String)) (payload : List UInt8) :
    OrderlyReading reads payload where
  length_eq := length_attemptAll reads payload
  bounded := by
    intro n
    rw [attemptAll_take, positionAfter_attemptAll]
    exact Nat.sub_le _ _
  turn := by
    intro n kind name hread
    obtain ⟨hn, hget⟩ := List.getElem?_eq_some_iff.mp hread
    have hbefore : (attemptAll (reads.take n) payload).length = n := by
      rw [length_attemptAll, List.length_take, Nat.min_eq_left (Nat.le_of_lt hn)]
    have hsplit : reads = reads.take n ++ (kind, name) :: reads.drop (n + 1) := by
      rw [← hget, ← List.drop_eq_getElem_cons hn, List.take_append_drop]
    have hsucc : reads.take (n + 1) = reads.take n ++ [(kind, name)] := by
      rw [List.take_add_one, hread]
      rfl
    have hleft := (fieldsFound_and_left (reads.take n) payload).2
    have hnext := positionAfter_attemptAll (reads.take (n + 1)) payload
    rw [hsucc, leftBy_append, leftBy, leftBy, hleft, ← hsucc] at hnext
    rw [attemptAll_take, attemptAll_take]
    refine ⟨_, ?_, readingTurn_of_left ?_ hnext⟩
    · conv_lhs => rw [hsplit, attemptAll_append, attemptAll_cons, hleft]
      rw [List.getElem?_append_right (Nat.le_of_eq hbefore), hbefore, Nat.sub_self]
      rfl
    · rw [positionAfter_attemptAll]
      exact Nat.sub_le _ _
  reproduced := by
    intro n
    rw [attemptAll_take]
    exact (fieldsFound_and_left _ _).1

/-! ## Reading what was written -/

/-- The schema that named fields follow. -/
def schemaOf (fields : List (Field × String)) : List (FieldKind × String) :=
  fields.map fun (field, name) => (field.kind, name)

/-- Named fields, written one after another. -/
def writtenFields (fields : List (Field × String)) : List UInt8 :=
  Field.encodeAll (fields.map (·.1))

theorem writtenFields_nil : writtenFields [] = [] := rfl

theorem writtenFields_cons (named : Field × String) (more : List (Field × String)) :
    writtenFields (named :: more) = named.1.encode ++ writtenFields more := List.flatMap_cons

/-- What comes back of fields that are read by the schema they were written by. -/
structure ReadBack (fields : List (Field × String)) (trailing : List UInt8) : Prop where
  outcomes : (attemptAll (schemaOf fields) (writtenFields fields ++ trailing)).map (·.outcome) =
    fields.map fun (field, _) => .ok field.received
  /-- What stands behind the fields is left, and nothing else. -/
  rest : (writtenFields fields ++ trailing).drop
    (positionAfter (writtenFields fields ++ trailing)
      (attemptAll (schemaOf fields) (writtenFields fields ++ trailing))) = trailing

/-- Every read succeeds, and takes the bytes of its field. -/
theorem attempts_written (fields : List (Field × String)) (trailing : List UInt8) :
    (attemptAll (schemaOf fields) (writtenFields fields ++ trailing)).map (·.outcome) =
        fields.map (fun (field, _) => .ok field.received) ∧
      leftBy (schemaOf fields) (writtenFields fields ++ trailing) = trailing := by
  induction fields with
  | nil => exact ⟨rfl, rfl⟩
  | cons named more ih =>
    obtain ⟨field, name⟩ := named
    have hread := field.reads_encode name (writtenFields more ++ trailing)
    have hleaves : field.kind.leaves name (field.encode ++ (writtenFields more ++ trailing)) =
        writtenFields more ++ trailing := by
      unfold FieldKind.leaves
      rw [hread]
    have hschema : schemaOf ((field, name) :: more) = (field.kind, name) :: schemaOf more := rfl
    rw [writtenFields_cons, List.append_assoc, hschema, attemptAll_cons, leftBy, hread, hleaves,
      List.map_cons, List.map_cons, ih.1]
    exact ⟨rfl, ih.2⟩

/-- Fields that were written are read back in their order, with the same bytes left behind them. -/
theorem readBack (fields : List (Field × String)) (trailing : List UInt8) :
    ReadBack fields trailing where
  outcomes := (attempts_written fields trailing).1
  rest := by
    rw [← (fieldsFound_and_left _ _).2]
    exact (attempts_written fields trailing).2

/-- By whatever schema any bytes are read, the reading keeps account of them, and what was written
by the schema is read back. -/
theorem schema_duality (fields : List (Field × String)) (trailing : List UInt8)
    (reads : List (FieldKind × String)) (payload : List UInt8) :
    ReadBack fields trailing ∧ OrderlyReading reads payload :=
  ⟨readBack fields trailing, orderlyReading reads payload⟩

end RealmDirectory.Payload
