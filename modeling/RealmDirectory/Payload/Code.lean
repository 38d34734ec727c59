import RealmDirectory.Payload.Reader
/-!
# Enumerations with a code byte

Some fields hold one of a few named values, each written as a fixed byte. `Coded α` lists the
values of such an enumeration with their codes and names; `Coded.ofByte` is the checked way back
and blames the field the enumeration belongs to.

## Main results

* `Coded.ofByte_eq_ok_iff` — a byte is accepted exactly when it is the code of the value returned.
-/

namespace RealmDirectory.Payload

/-- A type whose values have distinct code bytes. -/
class Coded (α : Type) where
  /-- The field that carries such a value. -/
  field : String
  /-- Every value, in the order of the codes. -/
  all : List α
  /-- The code byte. -/
  code : α → UInt8
  /-- The name of a value. -/
  name : α → String
  /-- The list is complete. -/
  mem_all : ∀ a, a ∈ all
  /-- Codes are distinct. -/
  code_inj : ∀ a b, code a = code b → a = b

namespace Coded

/-- The value with a given code, or the fault of its field. -/
def ofByte {α : Type} [Coded α] (b : UInt8) : Except FieldError α :=
  match (all : List α).find? (fun a => code a == b) with
  | some a => .ok a
  | none => .error (.invalidValue (field α) b.toNat)

/-- A byte is read as the value that has it as its code. -/
theorem ofByte_eq_ok_iff {α : Type} [Coded α] {b : UInt8} {a : α} :
    ofByte b = .ok a ↔ code a = b := by
  unfold ofByte
  constructor
  · intro h
    split at h
    · next found hfound =>
      cases h
      simpa using List.find?_some hfound
    · cases h
  · intro h
    have hsome : ((all : List α).find? (fun a => code a == b)).isSome := by
      rw [List.find?_isSome]
      exact ⟨a, mem_all a, by simp [h]⟩
    obtain ⟨found, hfound⟩ := Option.isSome_iff_exists.mp hsome
    have hcode : code found = b := by simpa using List.find?_some hfound
    rw [hfound, code_inj found a (by rw [hcode, h])]

@[simp] theorem ofByte_code {α : Type} [Coded α] (a : α) : ofByte (code a) = .ok a :=
  ofByte_eq_ok_iff.mpr rfl

/-- Reads a code byte and the value it stands for. -/
def read (α : Type) [Coded α] : Reader α := do
  Reader.check (ofByte (← Reader.byte (field α)))

end Coded

end RealmDirectory.Payload
