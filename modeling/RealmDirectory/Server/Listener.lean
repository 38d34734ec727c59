import RealmDirectory.Endpoint
/-!
# Listening

A server listens at a socket address given as text: an endpoint, or the name of a host and a port.
Whether it can depends on the machine it runs on, which a `Machine` stands for.
-/

namespace RealmDirectory

/-- Why a server cannot listen at an address. -/
inductive ListenError where
  /-- Somebody else listens there. -/
  | addressInUse
  /-- The address is not one of this machine. -/
  | notLocal
  /-- The text has no colon. -/
  | malformed
  /-- What follows the last colon is not a port. -/
  | malformedPort
  /-- The host is not known. -/
  | unknownHost
  deriving DecidableEq, Repr

/-- The wording of a listening error. -/
def ListenError.message : ListenError → String
  | addressInUse => "Address already in use (os error 98)"
  | notLocal => "Cannot assign requested address (os error 99)"
  | malformed => "invalid socket address"
  | malformedPort => "invalid port value"
  | unknownHost => "failed to lookup address information: Name or service not known"

/-- The machine a server runs on. -/
structure Machine where
  /-- The addresses that can be listened at. -/
  isLocal : IpAddress → Bool
  /-- The ports that somebody listens at. -/
  takenPorts : List UInt16

namespace Machine

/-- The addresses of every machine: any address at all, and those of the loopback interface. -/
def isLoopback : IpAddress → Bool
  | .v4 a b c d => a = 127 || [a, b, c, d] = [0, 0, 0, 0]
  | .v6 groups => groups.toList.dropLast = List.replicate 7 0 && groups.toList.getLast?.any (· ≤ 1)

/-- A machine without a network, with some ports taken. -/
def offline (takenPorts : List UInt16) : Machine := ⟨isLoopback, takenPorts⟩

/-- The name and the port in a text. -/
def hostAndPort (text : String) : Except ListenError (String × UInt16) :=
  let cs := text.toList.reverse
  let port := (cs.takeWhile (· ≠ ':')).reverse
  match cs.dropWhile (· ≠ ':') with
  | [] => .error .malformed
  | _ :: host =>
    let digits := match port with
      | '+' :: digits => digits
      | digits => digits
    match Endpoint.portAtEnd (':' :: digits) with
    | none => .error .malformedPort
    | some port => .ok (String.ofList host.reverse, port)

/-- The endpoint that a text stands for. -/
def resolve (text : String) : Except ListenError Endpoint :=
  match Endpoint.ofText? text with
  | some endpoint => .ok endpoint
  | none => do
    let (host, port) ← hostAndPort text
    if host = "localhost" then return ⟨.v4 127 0 0 1, port, 0⟩
    match Endpoint.ipv6 host.toList with
    | some (groups, []) => return ⟨.v6 groups, port, 0⟩
    | _ => throw .unknownHost

/-- Listens at the endpoint that a text stands for. Port zero stands for any port that is free. -/
def listen (machine : Machine) (text : String) : Except ListenError Endpoint := do
  let endpoint ← resolve text
  if !machine.isLocal endpoint.address then throw .notLocal
  if endpoint.port ∈ machine.takenPorts then throw .addressInUse
  return endpoint

end Machine

end RealmDirectory
