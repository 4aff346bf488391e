import LockPrefetch.Transfer.Fault
import LockPrefetch.Transfer.Locator

/-! # Requests

What is asked of a machine over HTTP or FTP. A request is checked before it is sent: the host
and the path must be free of blanks and controls, the line that names the path must be ASCII,
the line that names the host must not end early, and the host must have an ASCII form. -/

set_option autoImplicit false

namespace LockPrefetch.Transfer

/-! ## HTTP -/

/-- A host and the port to ask there. -/
structure Endpoint where
  host : List Char
  port : Int
deriving DecidableEq, Repr

/-- A host without the brackets around it. -/
def unbracket (host : List Char) : List Char :=
  if host.head? = some '[' ∧ host.getLast? = some ']' then (host.drop 1).dropLast else host

/-- The endpoint that a text names; the port follows the last colon behind the brackets, and is
`standard` if there is none or nothing follows it. -/
def Endpoint.parse (standard : Int) (place : List Char) : Except Fault Endpoint :=
  match Text.cutLast ':' place with
  | (some host, port) =>
    if port.contains ']' then .ok ⟨unbracket place, standard⟩
    else
      match Text.wholeNumber? port with
      | some n => .ok ⟨unbracket host, n⟩
      | none =>
        if port.isEmpty then .ok ⟨unbracket host, standard⟩
        else .error (.badPort (String.ofList port))
  | (none, _) => .ok ⟨unbracket place, standard⟩

/-- Accepts a part of a request without blanks and controls. -/
def checkControls (part : List Char) : Except Fault Unit :=
  match part.find? fun c => c.toNat ≤ 0x20 || c.toNat == 0x7f with
  | some c => .error (.control (String.ofList part) c)
  | none => .ok ()

/-- Whether octets of a header would end its line: a line end that no blank follows. -/
def endsLine : Bytes → Bool
  | [] => false
  | [b] => b == 0x0a || b == 0x0d
  | a :: b :: rest =>
    let continued := b == 0x20 || b == 0x09
    (a == 0x0a && !continued) || (a == 0x0d && !continued && b != 0x0a) || endsLine (b :: rest)

/-- Accepts a path and a host that can be written into a request. -/
def checkLines (place path : List Char) : Except Fault Unit := do
  let _ ← (Encoding.Narrow.ascii.encode ("GET ".toList ++ path)).mapError .unwritable
  let host ← (Encoding.Narrow.latin1.encode place).mapError .unwritable
  if endsLine host then .error (.brokenLine host) else .ok ()

/-- Whether a number fits into a machine word. -/
def fitsWord (n : Int) : Bool := -0x8000000000000000 ≤ n && n < 0x8000000000000000

/-- The fault that ends a connection to an endpoint. -/
def connect (host : List Char) (port : Int) : Fault :=
  match Host.ascii host with
  | .error fault => .hostName fault
  | .ok name => if fitsWord port then .unreached (Host.unreached name port) else .hugePort

/-- The fault that ends a request over HTTP. -/
def http (standard : Int) (place path : List Char) : Fault :=
  if place.isEmpty then .noHost false
  else
    let path := if path.isEmpty then ['/'] else path
    let checked : Except Fault Endpoint := do
      let endpoint ← Endpoint.parse standard place
      checkControls endpoint.host
      checkControls path
      checkLines place path
      return endpoint
    match checked with
    | .error fault => fault
    | .ok endpoint => connect endpoint.host endpoint.port

/-! ## FTP -/

/-- The ASCII form of a host that is looked up without a port. -/
def lookUp (host : List Char) : Except Fault (List Char) := do
  let name ← (Host.ascii host).mapError .hostName
  if name.any (·.toNat == 0) then .error .nulInHost else .ok name

/-- The fault that ends a request over FTP. The host follows the last `@`. It is looked up before
the port is, and what looks like an address but is none is not looked up at all. -/
def ftp (standard : Int) (place : List Char) : Fault :=
  if place.isEmpty then .noHost true
  else
    let (place, digits) := splitPort place
    if Text.maxDigits < (digits.getD []).length then .oversizedPort (digits.getD []).length
    else
      let port := (digits.map fun ds => (Text.ofDecimal ds : Int)).getD standard
      let (_, host) := Text.cutLast '@' place
      match lookUp (unescapeText host) with
      | .error fault => fault
      | .ok name =>
        if name.isEmpty || (Host.address? name).isSome then
          if fitsWord port then .unreached (Host.unreached Host.thisMachine port) else .hugePort
        else if Host.looksNumeric name then .unreached .unknownName
        else .unreached (Host.unreached name standard)

end LockPrefetch.Transfer
