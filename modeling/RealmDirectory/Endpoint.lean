/-!
# Socket addresses

The far end of a connection is an IP address with a port. Log lines show the whole endpoint and a
realm's snapshot shows the address alone, so both have one written form.

An IPv4 address is four decimal numbers. An IPv6 address is eight hexadecimal groups of which the
longest run of zeros, the first of equally long ones, is left out if it has at least two groups; an
address that stands for an IPv4 one shows that in its last part. An IPv6 endpoint has its address
in brackets, with the scope, unless zero, after a percent sign.

Reading accepts the usual spellings: one run of zero groups left out anywhere, an IPv4 tail,
leading zeros in groups and ports but not in the numbers of an IPv4 address.
-/

namespace RealmDirectory

/-- An IP address. -/
inductive IpAddress where
  | v4 (a b c d : UInt8)
  | v6 (groups : Vector UInt16 8)
  deriving DecidableEq, Repr

/-- An address and a port; the scope belongs to IPv6 and is zero otherwise. -/
structure Endpoint where
  address : IpAddress
  port : UInt16
  scope : UInt32
  deriving DecidableEq, Repr

/-! ## Written form -/

namespace IpAddress

/-- Four numbers with dots between them. -/
def dotted (a b c d : UInt8) : String :=
  s!"{a.toNat}.{b.toNat}.{c.toNat}.{d.toNat}"

/-- Groups in lowercase hexadecimal without leading zeros, with colons between them. -/
def colons (groups : List UInt16) : String :=
  ":".intercalate (groups.map fun g => String.ofList (Nat.toDigits 16 g.toNat))

/-- The length of the run of zeros at the front. -/
def zeroRun (groups : List UInt16) : Nat := (groups.takeWhile (· == 0)).length

/-- Where the longest run of zero groups starts, the first of equally long ones, and its
length. -/
def longestZeroRun (groups : List UInt16) : Nat × Nat :=
  (List.range groups.length).foldl (fun (start, length) i =>
    let run := zeroRun (groups.drop i)
    if length < run then (i, run) else (start, length)) (0, 0)

/-- The address as text. -/
def toText : IpAddress → String
  | v4 a b c d => dotted a b c d
  | v6 groups =>
    match groups.toList with
    | [0, 0, 0, 0, 0, 0xffff, high, low] =>
      let mapped := dotted (high >>> 8).toUInt8 high.toUInt8 (low >>> 8).toUInt8 low.toUInt8
      s!"::ffff:{mapped}"
    | all =>
      let (start, length) := longestZeroRun all
      if 1 < length then colons (all.take start) ++ "::" ++ colons (all.drop (start + length))
      else colons all

end IpAddress

/-- The endpoint as text. -/
def Endpoint.toText (endpoint : Endpoint) : String :=
  let address := endpoint.address.toText
  let port := endpoint.port.toNat
  match endpoint.address with
  | .v4 .. => s!"{address}:{port}"
  | .v6 _ =>
    let scope := endpoint.scope.toNat
    if scope = 0 then s!"[{address}]:{port}" else s!"[{address}%{scope}]:{port}"

/-! ## Reading -/

namespace Endpoint

/-- The value of a digit in a radix of at most 16. -/
def digit? (radix : Nat) (c : Char) : Option Nat :=
  let value :=
    if c.isDigit then c.toNat - '0'.toNat
    else if 'a' ≤ c ∧ c ≤ 'f' then c.toNat - 'a'.toNat + 10
    else if 'A' ≤ c ∧ c ≤ 'F' then c.toNat - 'A'.toNat + 10
    else radix
  if value < radix then some value else none

/-- The digits at the front. -/
def digits (radix : Nat) : List Char → List Nat × List Char
  | [] => ([], [])
  | c :: rest =>
    match digit? radix c with
    | none => ([], c :: rest)
    | some d =>
      let (ds, rest) := digits radix rest
      (d :: ds, rest)

/-- A number of at most `maxDigits` digits below `limit`. -/
def number (radix maxDigits limit : Nat) (cs : List Char) : Option (Nat × List Char) :=
  let (ds, rest) := digits radix cs
  let value := ds.foldl (fun n d => n * radix + d) 0
  if ds.isEmpty ∨ maxDigits < ds.length ∨ limit ≤ value then none else some (value, rest)

/-- A given character. -/
def expect (c : Char) : List Char → Option (List Char)
  | first :: rest => if first = c then some rest else none
  | [] => none

/-- A number of an IPv4 address: no superfluous zero in front. -/
def octet (cs : List Char) : Option (UInt8 × List Char) := do
  let (value, rest) ← number 10 3 256 cs
  if cs.head? = some '0' ∧ value ≠ 0 then none
  else if cs.take 2 = ['0', '0'] then none
  else some (UInt8.ofNat value, rest)

/-- Four numbers with dots between them. -/
def ipv4 (cs : List Char) : Option ((UInt8 × UInt8 × UInt8 × UInt8) × List Char) := do
  let (a, cs) ← octet cs
  let (b, cs) ← octet (← expect '.' cs)
  let (c, cs) ← octet (← expect '.' cs)
  let (d, cs) ← octet (← expect '.' cs)
  return ((a, b, c, d), cs)

/-- The character between two groups; there is none before the first. -/
def separated (first : Bool) (cs : List Char) : Option (List Char) :=
  if first then some cs else expect ':' cs

/-- The two groups that an IPv4 address stands for. -/
def groupsOfIpv4 : UInt8 × UInt8 × UInt8 × UInt8 → List UInt16
  | (a, b, c, d) => [a.toUInt16 * 256 + b.toUInt16, c.toUInt16 * 256 + d.toUInt16]

/-- At most `room` groups; the last two of them may be written as an IPv4 address. Tells also
whether they were. -/
def groups (first : Bool) : Nat → List Char → List UInt16 × Bool × List Char
  | 0, cs => ([], false, cs)
  | room + 1, cs =>
    match (if room = 0 then none else (separated first cs).bind ipv4) with
    | some (address, rest) => (groupsOfIpv4 address, true, rest)
    | none =>
      match (separated first cs).bind (number 16 4 65536) with
      | none => ([], false, cs)
      | some (value, rest) =>
        let (more, tail, rest) := groups false room rest
        (UInt16.ofNat value :: more, tail, rest)

/-- Eight groups, a run of zeros among them being left out between two colons. -/
def ipv6 (cs : List Char) : Option (Vector UInt16 8 × List Char) := do
  let (head, headIpv4, rest) := groups true 8 cs
  if h : head.length = 8 then return (⟨head.toArray, by simpa using h⟩, rest)
  if headIpv4 then none
  let rest ← expect ':' (← expect ':' rest)
  let (tail, _, rest) := groups true (7 - head.length) rest
  let all := head ++ List.replicate (8 - head.length - tail.length) 0 ++ tail
  if h : all.length = 8 then return (⟨all.toArray, by simpa using h⟩, rest) else none

/-- A colon and a port at the end of the text. -/
def portAtEnd (cs : List Char) : Option UInt16 := do
  let cs ← expect ':' cs
  match number 10 cs.length 65536 cs with
  | some (value, []) => some (UInt16.ofNat value)
  | _ => none

/-- The scope behind a percent sign, if there is one. -/
def scopePart (cs : List Char) : UInt32 × List Char :=
  match (expect '%' cs).bind (fun rest => number 10 rest.length (Nat.pow 2 32) rest) with
  | some (value, rest) => (UInt32.ofNat value, rest)
  | none => (0, cs)

/-- Reads an endpoint. -/
def ofText? (text : String) : Option Endpoint :=
  let cs := text.toList
  match expect '[' cs with
  | some cs => do
    let (address, cs) ← ipv6 cs
    let (scope, cs) := scopePart cs
    let port ← portAtEnd (← expect ']' cs)
    return ⟨.v6 address, port, scope⟩
  | none => do
    let ((a, b, c, d), cs) ← ipv4 cs
    let port ← portAtEnd cs
    return ⟨.v4 a b c d, port, 0⟩

end Endpoint

end RealmDirectory
