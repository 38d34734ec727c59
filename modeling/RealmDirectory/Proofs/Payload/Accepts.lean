import Mathlib.Data.List.Forall2
import RealmDirectory.Proofs.Payload.Reads

/-!
# What a reader accepts

`Reads` says that a reader takes certain bytes for a certain value. This module is about the way
back: a reader that gives a value has taken one of the forms of that value off the front of the
payload. A reader for which both are known `Accepts` exactly these forms. Most values have one form
or none, and then what is decoded is decoded from the encoding of the value and from nothing else.

A message is read field by field, so what its reader takes is put together by `Takes.bind` from what
the readers of its fields take, as `Reads.bind` puts together what it reads.

## Main results

* `Takes.bind`, `Takes.times`, `Takes.counted` — sequences of fields, and of items.
* `Accepts.decode_eq_ok_iff` — what is decoded from a payload with one form for each value.
* `Accepts.exists_error_of_prefix` — a form that is cut short is refused.
* `utf8_upToNul`, `takes_text` — texts end at their first NUL.
-/

namespace RealmDirectory.Payload

/-- The reader gives a value only if it takes a form of the value off the front of the payload. -/
def Takes {α : Type} (reader : Reader α) (form : α → List UInt8 → Prop) : Prop :=
  ∀ ⦃payload : List UInt8⦄ ⦃value : α⦄ ⦃rest : List UInt8⦄, reader payload = .ok (value, rest) →
    ∃ bytes, form value bytes ∧ payload = bytes ++ rest

/-- The reader takes the forms of every value for that value, and nothing else for it. -/
structure Accepts {α : Type} (reader : Reader α) (form : α → List UInt8 → Prop) : Prop where
  reads : ∀ {value bytes}, form value bytes → Reads reader bytes value
  takes : Takes reader form

/-- The only form of a value is its encoding, and it has none unless it is plain. -/
def Written {α : Type} (plain : α → Prop) (encode : α → List UInt8) (value : α)
    (bytes : List UInt8) : Prop :=
  plain value ∧ bytes = encode value

section Accepts

variable {α β : Type} {reader : Reader α} {form : α → List UInt8 → Prop}

/-- A reader that takes nothing. -/
theorem takes_pure {value : α} (h : form value []) : Takes (pure value) form := by
  intro payload other rest hread
  cases hread
  exact ⟨[], h, rfl⟩

/-- What is read first is the front of the form, and the readers behind it take the rest. -/
theorem Takes.bind {next : α → Reader β} {whole : β → List UInt8 → Prop} (h : Takes reader form)
    (hnext : ∀ value first, form value first →
      Takes (next value) fun result more => whole result (first ++ more)) :
    Takes (reader >>= next) whole := by
  intro payload result rest hbind
  change (reader payload >>= fun (value, more) => next value more) = .ok (result, rest) at hbind
  cases hread : reader payload with
  | error cause =>
    rw [hread] at hbind
    cases hbind
  | ok taken =>
    rw [hread] at hbind
    obtain ⟨first, hfirst, hpayload⟩ := h hread
    obtain ⟨more, hwhole, hmore⟩ := hnext _ _ hfirst hbind
    exact ⟨first ++ more, hwhole, by rw [hpayload, hmore, List.append_assoc]⟩

theorem Takes.map {whole : β → List UInt8 → Prop} (h : Takes reader form) (f : α → β)
    (hmap : ∀ value bytes, form value bytes → whole (f value) bytes) :
    Takes (f <$> reader) whole := by
  rw [← bind_pure_comp]
  refine h.bind fun value first hfirst => takes_pure ?_
  rw [List.append_nil]
  exact hmap value first hfirst

/-- Decoding reads from the front, whatever is left. -/
theorem decode_eq_ok_iff {payload : List UInt8} {value : α} :
    reader.decode payload = .ok value ↔ ∃ rest, reader payload = .ok (value, rest) := by
  unfold Reader.decode
  cases reader payload with
  | error cause =>
    refine ⟨nofun, ?_⟩
    rintro ⟨rest, h⟩
    cases h
  | ok taken =>
    constructor
    · intro h
      cases h
      exact ⟨taken.2, rfl⟩
    · rintro ⟨rest, h⟩
      cases h
      rfl

/-- What is decoded depends on the front of a payload only. -/
theorem Reads.decode_append {bytes : List UInt8} {value : α} (h : Reads reader bytes value)
    (rest : List UInt8) : reader.decode (bytes ++ rest) = .ok value :=
  decode_eq_ok_iff.mpr ⟨rest, h rest⟩

theorem Reads.decode_eq {bytes : List UInt8} {value : α} (h : Reads reader bytes value) :
    reader.decode bytes = .ok value :=
  decode_eq_ok_iff.mpr ⟨[], h.read_all⟩

/-- What is read from the front is what it is written as. -/
theorem Accepts.eq_ok_iff {plain : α → Prop} {encode : α → List UInt8}
    (h : Accepts reader (Written plain encode)) {payload rest : List UInt8} {value : α} :
    reader payload = .ok (value, rest) ↔ plain value ∧ payload = encode value ++ rest := by
  constructor
  · intro hread
    obtain ⟨_, ⟨hplain, rfl⟩, hpayload⟩ := h.takes hread
    exact ⟨hplain, hpayload⟩
  · rintro ⟨hplain, rfl⟩
    exact h.reads ⟨hplain, rfl⟩ rest

/-- What is decoded from a payload is written as the front of it. -/
theorem Accepts.decode_eq_ok_iff {plain : α → Prop} {encode : α → List UInt8}
    (h : Accepts reader (Written plain encode)) {payload : List UInt8} {value : α} :
    reader.decode payload = .ok value ↔ plain value ∧ encode value <+: payload := by
  rw [Payload.decode_eq_ok_iff]
  constructor
  · rintro ⟨rest, hread⟩
    obtain ⟨hplain, hpayload⟩ := h.eq_ok_iff.mp hread
    exact ⟨hplain, rest, hpayload.symm⟩
  · rintro ⟨hplain, rest, rfl⟩
    exact ⟨rest, h.eq_ok_iff.mpr ⟨hplain, rfl⟩⟩

/-- Forms end where they end: no value can be read from less than the whole of one. -/
theorem Accepts.exists_error_of_prefix (h : Accepts reader form) {value : α}
    {bytes cut : List UInt8} (hform : form value bytes) (hcut : cut <+: bytes)
    (hne : cut ≠ bytes) : ∃ cause, reader.decode cut = .error cause := by
  cases hdecode : reader.decode cut with
  | error cause => exact ⟨cause, rfl⟩
  | ok other =>
    obtain ⟨rest, hread⟩ := Payload.decode_eq_ok_iff.mp hdecode
    obtain ⟨front, hfront, rfl⟩ := h.takes hread
    obtain ⟨tail, rfl⟩ := hcut
    -- The whole form is read as its value, and as the other one with the tail left over.
    have hwhole := (h.reads hform).read_all
    rw [List.append_assoc, h.reads hfront] at hwhole
    obtain ⟨-, htail⟩ := List.append_eq_nil_iff.mp (Prod.mk.inj (Except.ok.inj hwhole)).2
    rw [htail, List.append_nil] at hne
    exact absurd rfl hne

/-! ## Fields -/

theorem takes_byte (field : String) : Takes (Reader.byte field) fun b bytes => bytes = [b] := by
  intro payload b rest h
  cases payload with
  | nil => cases h
  | cons first others =>
    cases h
    exact ⟨_, rfl, rfl⟩

private theorem takes_take (field : String) (width : Nat) :
    Takes (Reader.take field width) fun taken bytes => taken.length = width ∧ bytes = taken := by
  intro payload taken rest h
  unfold Reader.take at h
  dsimp only at h
  split at h
  · next hlength =>
    cases h
    exact ⟨_, ⟨hlength, rfl⟩, (List.take_append_drop width payload).symm⟩
  · cases h

theorem takes_word (field : String) :
    Takes (Reader.word field) fun w bytes => bytes = word32 w := by
  apply (takes_take field 4).bind
  rintro taken _ ⟨hlength, rfl⟩
  refine takes_pure ?_
  rw [word32_ofWord32 hlength, List.append_nil]

/-- A number is read from the four bytes of its bits, not-a-numbers included. -/
theorem takes_float (field : String) :
    Takes (Reader.float field) fun x bytes => bytes = word32 x.bits := by
  apply (takes_word field).bind
  rintro bits _ rfl
  exact takes_pure (List.append_nil _)

/-- A check takes no bytes. -/
theorem takes_check (decision : Except FieldError α) :
    Takes (Reader.check decision) fun value bytes => decision = .ok value ∧ bytes = [] := by
  intro payload value rest h
  unfold Reader.check at h
  cases decision with
  | error cause => cases h
  | ok decided =>
    cases h
    exact ⟨[], ⟨rfl, rfl⟩, rfl⟩

theorem takes_code [Coded α] :
    Takes (Coded.read α) fun value bytes => bytes = [Coded.code value] := by
  apply (takes_byte _).bind
  rintro b _ rfl payload value rest h
  obtain ⟨_, ⟨hvalue, rfl⟩, hpayload⟩ := takes_check _ h
  obtain rfl := Coded.ofByte_eq_ok_iff.mp hvalue
  exact ⟨[], rfl, hpayload⟩

/-! ## Texts -/

theorem nulFree_iff {text : String} : NulFree text ↔ 0 ∉ utf8 text := by
  constructor
  · exact fun h hzero => ne_zero_of_mem_utf8 h hzero rfl
  · intro hzero hnul
    rw [utf8_eq_flatMap] at hzero
    exact hzero (List.mem_flatMap.mpr ⟨Char.ofNat 0, hnul, by decide⟩)

/-- The bytes in front of the terminator are a text, and the terminator is the first zero byte. -/
theorem takes_text (field : String) :
    Takes (Reader.text field) (Written NulFree terminated) := by
  intro payload text rest h
  by_cases hzero : 0 ∈ payload
  · obtain ⟨front, behind, rfl, hfront⟩ := List.eq_append_cons_of_mem hzero
    rw [text_append_zero field hfront] at h
    cases htext : ofUtf8? front with
    | none =>
      rw [htext] at h
      cases h
    | some found =>
      rw [htext] at h
      cases h
      obtain rfl := ofUtf8?_eq_some_iff.mp htext
      have hplain : NulFree text := nulFree_iff.mpr hfront
      refine ⟨_, ⟨hplain, rfl⟩, ?_⟩
      rw [terminated_eq hplain, List.append_assoc, List.singleton_append]
  · rw [text_of_not_mem field hzero] at h
    cases h

/-- A text up to its first NUL, which is all of it that is written. -/
def upToNul (text : String) : String :=
  String.ofList (text.toList.takeWhile (· != Char.ofNat 0))

/-- A text is cut at its NUL where its bytes have their zero. -/
theorem utf8_upToNul (text : String) : utf8 (upToNul text) = (utf8 text).takeWhile (· != 0) := by
  unfold upToNul
  rw [utf8_eq_flatMap, utf8_eq_flatMap, String.toList_ofList]
  induction text.toList with
  | nil => rfl
  | cons c rest ih =>
    by_cases hc : c = Char.ofNat 0
    · subst hc
      rfl
    · have hall : ∀ b ∈ String.utf8EncodeChar c, (b != 0) = true := by
        rintro b hb
        rw [bne_iff_ne]
        rintro rfl
        exact zero_not_mem_utf8EncodeChar hc hb
      have hkept : (c != Char.ofNat 0) = true := bne_iff_ne.mpr hc
      rw [List.takeWhile_cons, if_pos hkept, List.flatMap_cons, List.flatMap_cons,
        List.takeWhile_append_of_pos hall, ih]

theorem nulFree_upToNul (text : String) : NulFree (upToNul text) := by
  rw [nulFree_iff, utf8_upToNul]
  intro hzero
  exact absurd (List.mem_takeWhile_imp hzero) (by decide)

/-- The part behind a NUL is never written. -/
@[simp] theorem terminated_upToNul (text : String) :
    terminated (upToNul text) = terminated text := by
  rw [terminated_eq (nulFree_upToNul text), utf8_upToNul, terminated]

/-! ## Repeated items -/

/-- Forms of items, one after another. -/
def Row (form : α → List UInt8 → Prop) (items : List α) (bytes : List UInt8) : Prop :=
  ∃ parts, List.Forall₂ form items parts ∧ bytes = parts.flatten

private theorem row_nil : Row form [] [] := ⟨[], .nil, rfl⟩

theorem Row.cons {first : α} {others : List α} {bytes more : List UInt8} (hfirst : form first bytes)
    (hothers : Row form others more) : Row form (first :: others) (bytes ++ more) := by
  obtain ⟨parts, hparts, rfl⟩ := hothers
  exact ⟨bytes :: parts, .cons hfirst hparts, rfl⟩

/-- A row of items that are written each in its way is written as one after the other. -/
theorem row_written {plain : α → Prop} {encode : α → List UInt8} :
    Row (Written plain encode) = Written (∀ a ∈ ·, plain a) (List.flatMap encode) := by
  funext items bytes
  apply propext
  constructor
  · rintro ⟨parts, hparts, rfl⟩
    induction hparts with
    | nil => exact ⟨nofun, rfl⟩
    | cons hfirst _ ih =>
      obtain ⟨hplain, rfl⟩ := hfirst
      refine ⟨List.forall_mem_cons.mpr ⟨hplain, ih.1⟩, ?_⟩
      rw [List.flatten_cons, ih.2, List.flatMap_cons]
  · rintro ⟨hplain, rfl⟩
    induction items with
    | nil => exact row_nil
    | cons first others ih =>
      obtain ⟨hfirst, hothers⟩ := List.forall_mem_cons.mp hplain
      exact Row.cons ⟨hfirst, rfl⟩ (ih hothers)

/-- The items of a loop in the order they were read, behind those seen before. -/
theorem Takes.times_go {item : Reader α} (h : Takes item form) {count : Nat} {seen all : List α}
    {payload rest : List UInt8}
    (hgo : Reader.times.go item count seen payload = .ok (all, rest)) :
    ∃ items bytes, all = seen.reverse ++ items ∧ items.length = count ∧ Row form items bytes ∧
      payload = bytes ++ rest := by
  induction count generalizing seen payload with
  | zero =>
    cases hgo
    exact ⟨[], [], (List.append_nil _).symm, rfl, row_nil, rfl⟩
  | succ count ih =>
    unfold Reader.times.go at hgo
    split at hgo
    · cases hgo
    · next first left hfirst =>
      obtain ⟨bytes, hform, rfl⟩ := h hfirst
      obtain ⟨items, more, rfl, hlength, hrow, rfl⟩ := ih hgo
      refine ⟨first :: items, bytes ++ more, ?_, ?_, Row.cons hform hrow, ?_⟩
      · rw [List.reverse_cons, List.append_assoc, List.singleton_append]
      · rw [List.length_cons, hlength]
      · rw [List.append_assoc]

/-- A counted loop reads a row of as many items. -/
theorem Takes.times {item : Reader α} (h : Takes item form) (count : Nat) :
    Takes (Reader.times count item)
      fun items bytes => items.length = count ∧ Row form items bytes := by
  intro payload all rest htimes
  obtain ⟨items, bytes, rfl, hlength, hrow, hpayload⟩ := h.times_go htimes
  exact ⟨bytes, ⟨hlength, hrow⟩, hpayload⟩

theorem ofNat_length_eq {l : List α} {count : UInt32} (h : l.length = count.toNat) :
    UInt32.ofNat l.length = count := by
  rw [h]
  exact UInt32.ofNat_toNat

/-- Items behind their number, which leaves no choice of the number. -/
theorem Takes.counted {item : Reader α} (h : Takes item form) (field : String) :
    Takes (Reader.word field >>= fun count => Reader.times count.toNat item)
      fun items bytes => items.length < 4294967296 ∧
        ∃ row, Row form items row ∧ bytes = word32 (UInt32.ofNat items.length) ++ row := by
  apply (takes_word field).bind
  rintro count _ rfl payload items rest hread
  obtain ⟨row, ⟨hlength, hrow⟩, hpayload⟩ := h.times _ hread
  have hfits : items.length < 4294967296 := by
    rw [hlength]
    exact count.toNat_lt
  obtain rfl := ofNat_length_eq hlength
  exact ⟨row, ⟨hfits, row, hrow, rfl⟩, hpayload⟩

/-- Items that change on their way, but are written in the same way afterwards. -/
theorem flatMap_map_of_eq {encode : α → List UInt8} {change : α → α}
    (h : ∀ a, encode (change a) = encode a) (items : List α) :
    (items.map change).flatMap encode = items.flatMap encode := by
  rw [List.flatMap_map]
  congr 1
  funext a
  exact h a

/-- Forms in a row are told apart: what begins with one row and with another begins with the same
items. -/
theorem Accepts.append_eq_append {item : Reader α} {plain : α → Prop} {encode : α → List UInt8}
    (h : Accepts item (Written plain encode)) {items others : List α} {left right : List UInt8}
    (hitems : ∀ a ∈ items, plain a) (hothers : ∀ a ∈ others, plain a)
    (hlength : items.length ≤ others.length)
    (heq : items.flatMap encode ++ left = others.flatMap encode ++ right) :
    ∃ more, others = items ++ more ∧ left = more.flatMap encode ++ right := by
  induction items generalizing others with
  | nil => exact ⟨others, rfl, heq⟩
  | cons first rest ih =>
    cases others with
    | nil => cases hlength
    | cons other otherRest =>
      obtain ⟨hfirst, hrest⟩ := List.forall_mem_cons.mp hitems
      obtain ⟨hother, hotherRest⟩ := List.forall_mem_cons.mp hothers
      rw [List.flatMap_cons, List.flatMap_cons, List.append_assoc, List.append_assoc] at heq
      have hread := h.reads ⟨hfirst, rfl⟩ (rest.flatMap encode ++ left)
      rw [heq, h.reads ⟨hother, rfl⟩] at hread
      obtain ⟨rfl, hbehind⟩ := Prod.mk.inj (Except.ok.inj hread)
      obtain ⟨more, rfl, hleft⟩ :=
        ih hrest hotherRest (Nat.le_of_succ_le_succ hlength) hbehind.symm
      exact ⟨more, rfl, hleft⟩

/-- Builds are read from their words, as many as announced. -/
theorem takes_builds (count : UInt8) :
    Takes (Reader.builds count)
      fun builds bytes => builds.length = count.toNat ∧ bytes = builds.flatMap word32 := by
  have hword : Takes (Reader.word "build_id") (Written (fun _ => True) word32) :=
    fun _ _ _ h => (takes_word _ h).imp fun _ ⟨hbytes, hpayload⟩ => ⟨⟨trivial, hbytes⟩, hpayload⟩
  have htimes := hword.times count.toNat
  rw [row_written] at htimes
  exact fun _ _ _ h => (htimes h).imp fun _ ⟨⟨hlength, _, hbytes⟩, hpayload⟩ =>
    ⟨⟨hlength, hbytes⟩, hpayload⟩

end Accepts

/-! ## Writing -/

section Write

variable {ε α β : Type}

theorem pure_eq_ok_iff {value result : α} :
    (pure value : Except ε α) = .ok result ↔ result = value := by
  constructor
  · intro h
    cases h
    rfl
  · rintro rfl
    rfl

/-- What is written after a first part that is written in one way only, if it is written at all. -/
theorem bind_eq_ok_iff {first : Except ε α} {plain : Prop} {value : α}
    (hfirst : ∀ a, first = .ok a ↔ plain ∧ a = value) {next : α → Except ε β} {result : β} :
    (first >>= next) = .ok result ↔ plain ∧ next value = .ok result := by
  cases first with
  | error cause =>
    refine ⟨nofun, ?_⟩
    rintro ⟨hplain, -⟩
    cases (hfirst value).mpr ⟨hplain, rfl⟩
  | ok written =>
    obtain ⟨hplain, rfl⟩ := (hfirst written).mp rfl
    exact (and_iff_right hplain).symm

/-- Items are all written if each of them is. -/
theorem mapM_eq_ok_iff {write : α → Except ε β} {plain : α → Prop} {encode : α → β}
    (hwrite : ∀ a b, write a = .ok b ↔ plain a ∧ b = encode a) {items : List α}
    {parts : List β} :
    items.mapM write = .ok parts ↔ (∀ a ∈ items, plain a) ∧ parts = items.map encode := by
  induction items generalizing parts with
  | nil =>
    rw [List.mapM_nil, pure_eq_ok_iff, List.map_nil]
    exact (and_iff_right (List.forall_mem_nil _)).symm
  | cons first others ih =>
    rw [List.mapM_cons, bind_eq_ok_iff (hwrite first), bind_eq_ok_iff fun _ => ih, pure_eq_ok_iff,
      List.forall_mem_cons, List.map_cons, and_assoc]

theorem countByte_eq_ok_iff {field : String} {count : Nat} {c : UInt8} :
    countByte field count = .ok c ↔ count ≤ 255 ∧ c = UInt8.ofNat count := by
  unfold countByte
  split
  · next hfits =>
    rw [Except.ok.injEq, eq_comm]
    exact (and_iff_right (Nat.le_of_lt_succ hfits)).symm
  · next hlarge =>
    refine ⟨nofun, ?_⟩
    rintro ⟨hfits, -⟩
    exact absurd (Nat.lt_succ_of_le hfits) hlarge

/-- A count that does not fit is named in the error, with its field. -/
theorem countByte_eq_error_iff {field : String} {count : Nat} {cause : FieldError} :
    countByte field count = .error cause ↔ 255 < count ∧ cause = .tooLarge field count := by
  unfold countByte
  split
  · next hfits =>
    refine ⟨nofun, ?_⟩
    rintro ⟨hlarge, -⟩
    exact absurd hfits (Nat.not_lt.mpr hlarge)
  · next hlarge =>
    rw [Except.error.injEq, eq_comm]
    exact (and_iff_right (Nat.not_lt.mp hlarge)).symm

theorem countWord_eq_ok_iff {field : String} {count : Nat} {c : UInt32} :
    countWord field count = .ok c ↔ count < 4294967296 ∧ c = UInt32.ofNat count := by
  unfold countWord
  split
  · next hfits =>
    rw [Except.ok.injEq, eq_comm]
    exact (and_iff_right hfits).symm
  · next hlarge =>
    refine ⟨nofun, ?_⟩
    rintro ⟨hfits, -⟩
    exact absurd hfits hlarge

end Write

end RealmDirectory.Payload
