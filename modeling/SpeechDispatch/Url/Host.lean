import SpeechDispatch.Url.Percent

/-!
# Hosts

The host of a URL.  For the schemes of the web it is an IPv6 address in brackets, an IPv4 address in any of its
notations, or a domain name; for other schemes it is an IPv6 address in brackets or a plain text.
-/

namespace SpeechDispatch.Url

inductive Host
  | name (text : String)
  | ipv4 (address : Nat)
  | ipv6 (groups : List Nat)
  deriving DecidableEq

/-- The characters that no host may have. -/
def isForbiddenInHost (c : Char) : Bool :=
  ['\x00', '\t', '\n', '\r', ' ', '#', '/', ':', '<', '>', '?', '@', '[', '\\', ']', '^', '|'].contains c

/-- The characters that no domain name may have. -/
def isForbiddenInDomain (c : Char) : Bool :=
  c.toNat ≤ 0x20 || c.toNat == 0x7f || c == '%' || isForbiddenInHost c

/-- Characters beyond ASCII that no domain name may have: controls, blanks, private use and noncharacters. -/
def isUnassignable (c : Char) : Bool :=
  let n := c.toNat
  (0x80 ≤ n && n ≤ 0x9f) || n == 0x1680 || n == 0x2028 || n == 0x2029 || (0xe000 ≤ n && n ≤ 0xf8ff) ||
    (0xfdd0 ≤ n && n ≤ 0xfdef) || n == 0xfffd || n % 0x10000 ≥ 0xfffe || 0xf0000 ≤ n

/-- A character of a domain name in its plain form: lower case, full-width forms as ASCII, one kind of full stop, and
invisible marks left out. -/
def plainDomainChar (c : Char) : List Char :=
  let n := c.toNat
  if n == 0xad || n == 0x200b || n == 0x2060 || n == 0xfeff || (0xfe00 ≤ n && n ≤ 0xfe0f) then []
  else if n == 0x3002 || n == 0xff61 then ['.']
  else if n == 0xa0 || (0x2000 ≤ n && n ≤ 0x200a) || n == 0x202f || n == 0x205f || n == 0x3000 then [' ']
  else if 0xff01 ≤ n && n ≤ 0xff5e then [(Char.ofNat (n - 0xfee0)).toLower]
  else [c.toLower]

/-- A domain name in plain form. -/
def domain? (text : List Char) : Option (List Char) := do
  let decoded ← Bytes.toText? (percentDecode text)
  let plain := decoded.toList.flatMap plainDomainChar
  if plain.any isForbiddenInDomain || plain.any isUnassignable then none else some plain

/-- A part of an IPv4 address: in base 16 after `0x`, in base 8 after `0`, else in base 10. -/
def ipv4Part? (text : List Char) : Option Nat :=
  let octalValue? (c : Char) : Option Nat := if '0' ≤ c && c ≤ '7' then some (c.toNat - 0x30) else none
  match text with
  | ['0', 'x'] | ['0', 'X'] => some 0
  | '0' :: 'x' :: rest | '0' :: 'X' :: rest => Net.digits? Net.hexValue? 16 rest
  | '0' :: c :: rest => Net.digits? octalValue? 8 (c :: rest)
  | text => Net.digits? Net.decimalValue? 10 text

/-- The parts of a domain name, without an empty one at its end. -/
def domainParts (domain : List Char) : List (List Char) :=
  let parts := Net.splitAt '.' domain
  match parts.getLast? with
  | some [] => parts.dropLast
  | _ => parts

/-- Whether the last part of a domain name is a number, so that the name must be an IPv4 address. -/
def endsInNumber (domain : List Char) : Bool :=
  match (domainParts domain).getLast? with
  | none => false
  | some last => (!last.isEmpty && last.all Char.isDigit) || (ipv4Part? last).isSome

/-- The address that at most four parts write, of which the last fills what the others leave. -/
def ipv4OfParts? (parts : List (List Char)) : Option Nat := do
  let numbers ← parts.mapM ipv4Part?
  let last ← numbers.getLast?
  let front := numbers.dropLast
  if 4 < parts.length || front.any (255 < ·) || Nat.pow 256 (4 - front.length) ≤ last then none
  else some (front.zipIdx.foldl (fun sum (n, i) => sum + n * Nat.pow 256 (3 - i)) last)

/-- The host that a text writes, for a scheme of the web or for another. -/
def host? (special : Bool) (text : List Char) : Option Host :=
  match text with
  | '[' :: rest =>
    if rest.getLast? = some ']' then (Net.ipv6? rest.dropLast).map .ipv6 else none
  | text =>
    if special then
      match domain? text with
      | none | some [] => none
      | some domain =>
        if endsInNumber domain then (ipv4OfParts? (domainParts domain)).map .ipv4
        else some (.name (String.ofList domain))
    else if text.any isForbiddenInHost then none
    else some (.name (String.ofList (percentEncode (fun _ => false) text)))

end SpeechDispatch.Url
