import LockPrefetch.Bytes.Hex
import LockPrefetch.Text.Split

/-! # Numeric host addresses

Which texts are Internet addresses of version 4 (four decimal numbers) or of version 6 (up to
eight groups of hexadecimal digits, one run of zero groups left out, a zone after `%`). -/

set_option autoImplicit false

namespace LockPrefetch.Url.Address

/-- A number below 256 in one to three ASCII digits, without leading zeros. -/
def isOctet (text : List Char) : Bool :=
  text.all Char.isDigit && 1 ≤ text.length && text.length ≤ 3 &&
    (text == ['0'] || text.head? != some '0') &&
    text.foldl (fun n c => 10 * n + (c.toNat - 48)) 0 < 256

/-- An address of version 4. -/
def isVersion4 (text : List Char) : Bool :=
  let octets := Text.pieces '.' text
  octets.length == 4 && octets.all isOctet

/-- One to four hexadecimal digits. -/
def isGroup (text : List Char) : Bool :=
  1 ≤ text.length && text.length ≤ 4 && text.all fun c => (Hex.value? c).isSome

/-- Whether the pieces between colons are an address of version 6 without an embedded address
of version 4. An empty piece that is neither the first nor the last stands for the run of
groups left out. -/
def isGrouped (parts : List (List Char)) : Bool :=
  let inner := parts.tail.dropLast
  if 3 ≤ parts.length && parts.length ≤ 9 then
    match inner.findIdx? List.isEmpty with
    | none => parts.length == 8 && parts.all isGroup
    | some skipped =>
      let before := parts.take (skipped + 1)
      let after := parts.drop (skipped + 2)
      let leading := if before == [[]] then [] else before
      let trailing := if after == [[]] then [] else after
      leading.all isGroup && trailing.all isGroup && leading.length + trailing.length ≤ 7
  else false

/-- The pieces between colons with an address of version 4 in the last place replaced by two
groups; `none` if the last piece holds dots but is no such address. -/
def withoutVersion4 (parts : List (List Char)) : Option (List (List Char)) :=
  match parts.getLast? with
  | some last =>
    if last.contains '.' then
      if isVersion4 last then some (parts.dropLast ++ [['0'], ['0']]) else none
    else some parts
  | none => some parts

/-- An address of version 6, with or without a zone. -/
def isVersion6 (text : List Char) : Bool :=
  match Text.cut '%' text with
  | (address, zone) =>
    let zoneFits :=
      match zone with
      | none => true
      | some zone => !zone.isEmpty && !zone.contains '%'
    let parts := Text.pieces ':' address
    zoneFits && 3 ≤ parts.length &&
      match withoutVersion4 parts with
      | some groups => isGrouped groups
      | none => false

end LockPrefetch.Url.Address
