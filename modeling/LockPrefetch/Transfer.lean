import LockPrefetch.Failure
import LockPrefetch.Transfer.Request

/-! # Transfers

Content behind URLs that can be had without a network: inline data, which the URL itself holds,
and files of the file tree. What is asked of another machine cannot be had. -/

set_option autoImplicit false

namespace LockPrefetch.Transfer

/-! ## Inline data -/

/-- The content that inline data stands for: everything behind the first comma, read as base64
if what comes before the comma says so. -/
def inlineData (url : List Char) : Except Fault Bytes :=
  match Text.cut ',' ((Text.cut ':' url).2.getD []) with
  | (_, none) => .error .noComma
  | (mediaType, some data) =>
    let octets := unescape (Encoding.Utf8.encode data)
    if ";base64".toList.isSuffixOf mediaType then
      (Base64.decodeLenient (octets.map fun b => Char.ofNat b.toNat)).mapError .badData
    else .ok octets

/-! ## Files -/

/-- The address of this machine as text. -/
def loopbackText : List Char := "127.0.0.1".toList

/-- Accepts a host whose files are served at all: with two slashes before the path, it has to be
the local host by name. Its address is known as well, but is not served. -/
def checkServed (host path : List Char) : Except Fault Unit :=
  let doubled :=
    match path with
    | '/' :: '/' :: rest => rest.head? != some '/'
    | _ => false
  if doubled && !host.isEmpty && host != Host.thisMachine then
    if host = loopbackText then .error (.unknownScheme "file") else .error .remoteFile
  else .ok ()

/-- Accepts a host that is this machine. -/
def checkLocal (host : List Char) : Except Fault Unit := do
  let (name, port) := splitPort host
  if name.isEmpty then
    return ()
  else if port.isSome then
    .error .foreignFile
  else if Host.address? (← lookUp name) = some Host.loopback then
    return ()
  else
    .error .foreignFile

/-- What a file name leads to. The name counts as it is written: all of it, against the most
octets of a path, and a slash or a dot at its end, which asks for a directory. -/
def lookAt (tree : FileTree) (name : String) : Except FileTree.Refusal FileTree.Node := do
  if name.toList.any (·.toNat == 0) then .error .nulCharacter
  else if name = "" then .error .noEntry
  else if FileTree.pathLimit < FileTree.octets name then .error .nameTooLong
  else
    let node ← tree.lookUp (Path.ofString name)
    if node ≠ .directory ∧ (name.endsWith "/" ∨ name.endsWith "/.") then .error .notADirectory
    else .ok node

/-- The content of a local file. A host is looked at only if the file is there. -/
def localFile (tree : FileTree) (host path : List Char) : Except Fault Bytes := do
  checkServed host path
  let name := String.ofList (unescapeText path)
  let node ← (lookAt tree name).mapError fun refusal => .file ⟨refusal, name⟩
  checkLocal host
  match node with
  | .file content => .ok content
  | .directory => .error (.file ⟨.isADirectory, name⟩)

/-- The path of the local file that a URL names, if it names one. -/
def localPath? (url : String) : Option Path := do
  let locator ← Locator.ofBody? (withoutFragment (unwrap url.toList)).1
  if locator.scheme = "file" then
    return Path.ofString (String.ofList (unescapeText locator.path))
  else none

/-! ## Content -/

/-- The port of HTTP where a URL names none. -/
def httpPort : Int := 80

/-- The port of HTTP over TLS where a URL names none. -/
def httpsPort : Int := 443

/-- The port of FTP where a URL names none. -/
def ftpPort : Int := 21

/-- The content behind a URL. -/
def content (tree : FileTree) (url : String) : Except Fault Bytes :=
  let (body, full) := withoutFragment (unwrap url.toList)
  match Locator.ofBody? body, Url.split (String.ofList full) with
  | none, _ => .error (.noScheme (String.ofList full))
  | some _, .error fault => .error (.malformed fault)
  | some locator, .ok _ =>
    match locator.scheme with
    | "data" => inlineData full
    | "file" => localFile tree locator.host locator.path
    | "http" => .error (http httpPort locator.host locator.path)
    | "https" => .error (http httpsPort locator.host locator.path)
    | "ftp" => .error (ftp ftpPort locator.host)
    | other => .error (.unknownScheme other)

/-- The report on content that cannot be had. -/
def failed (url : String) (fault : Fault) : Failure :=
  if fault.isReported then
    .diagnosed ⟨.fetch, "Failed to download package tarball.",
      some "Check network access and that the lockfile URL is still served.",
      [("operation", "download"), ("url", url), ("error", fault.message)]⟩
  else .transfer fault

/-- Gets the content behind a URL. -/
def download (tree : FileTree) (url : String) : Except Failure Bytes :=
  (content tree url).mapError (failed url)

end LockPrefetch.Transfer
