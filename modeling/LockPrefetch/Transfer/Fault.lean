import LockPrefetch.Bytes.Base64
import LockPrefetch.Encoding.Narrow
import LockPrefetch.FileTree.Basic
import LockPrefetch.Host.Reach
import LockPrefetch.Text.Decimal
import LockPrefetch.Url.Basic

/-! # Faults of transfers

Why the content behind a URL cannot be had. Most reasons are reported; a few come up as they
are, because they mean that no request could be made of the URL. -/

set_option autoImplicit false

namespace LockPrefetch.Transfer

/-- Why content cannot be had. -/
inductive Fault where
  | noScheme (url : String)
  | malformed (fault : Url.Malformed)
  | unknownScheme (scheme : String)
  | noHost (ftp : Bool)
  /-- A file is asked of another machine, by the look of the path. -/
  | remoteFile
  /-- A file that is here is asked of another machine. -/
  | foreignFile
  | noComma
  | badData (fault : Base64.Fault)
  | file (fault : FileTree.Fault)
  | hostName (fault : Host.Fault)
  /-- A request cannot be written with the octets that it may hold. -/
  | unwritable (fault : Encoding.Narrow.Fault)
  /-- The host would end its line of the request. -/
  | brokenLine (host : Bytes)
  | oversizedPort (digits : Nat)
  | unreached (reason : Host.Unreached)
  /-- The port of a request is not a number. -/
  | badPort (port : String)
  /-- A part of a request holds a blank or a control. -/
  | control (part : String) (c : Char)
  /-- The port does not fit into a machine word. -/
  | hugePort
  /-- The host holds a NUL character. -/
  | nulInHost
deriving DecidableEq, Repr

/-- The wording of a fault of the opener. -/
def opener (text : String) : String := "<urlopen error " ++ text ++ ">"

namespace Fault

/-- The wording of a fault. -/
def message : Fault → String
  | noScheme url => "unknown url type: " ++ Text.quoted url
  | malformed fault => fault.message
  | unknownScheme scheme => opener ("unknown url type: " ++ scheme)
  | noHost false => opener "no host given"
  | noHost true => opener "ftp error: no host given"
  | remoteFile => opener "file:// scheme is supported only on localhost"
  | foreignFile => opener "file not on local host"
  | noComma => "not enough values to unpack (expected 2, got 1)"
  | badData fault => fault.message
  | file fault => if fault.isSystem then opener fault.message else fault.message
  | hostName fault => "encoding with 'idna' codec failed (UnicodeError: " ++ fault.message ++ ")"
  | unwritable fault => fault.message
  | brokenLine host => "Invalid header value " ++ Text.quotedOctets host
  | oversizedPort digits => Text.oversizedText digits
  | unreached reason => opener reason.message
  | badPort port => "nonnumeric port: '" ++ port ++ "'"
  | control part c =>
    "URL can't contain control characters. " ++ Text.quoted part ++ " (found at least " ++
      Text.quoted (String.singleton c) ++ ")"
  | hugePort => "Python int too large to convert to C long"
  | nulInHost =>
    "gethostbyname() argument 1 must be encoded string without null bytes, not str"

/-- Whether a fault is reported; the others come up as they are. -/
def isReported : Fault → Bool
  | badPort _ | control _ _ | hugePort | nulInHost => false
  | _ => true

end Fault

end LockPrefetch.Transfer
