import SpeechDispatch.WordSize

/-!
# Network addresses

IPv4 addresses in dotted form, IPv6 addresses, and either of them with a port.
-/

namespace SpeechDispatch.Net

/-- The value of a hexadecimal digit. -/
def hexValue? (c : Char) : Option Nat :=
  if c.isDigit then some (c.toNat - 0x30)
  else if 'a' ≤ c && c ≤ 'f' then some (c.toNat - 0x61 + 10)
  else if 'A' ≤ c && c ≤ 'F' then some (c.toNat - 0x41 + 10)
  else none

/-- The number that digits of a base write; there must be one. -/
def digits? (value? : Char → Option Nat) (base : Nat) (text : List Char) : Option Nat :=
  if text.isEmpty then none else text.foldlM (fun n c => (value? c).map fun d => n * base + d) 0

def decimalValue? (c : Char) : Option Nat := if c.isDigit then some (c.toNat - 0x30) else none

/-- The parts of a text between the places where a character stands. -/
def splitAt (mark : Char) : List Char → List (List Char)
  | [] => [[]]
  | c :: rest =>
    if c = mark then [] :: splitAt mark rest
    else
      match splitAt mark rest with
      | [] => [[c]]
      | part :: parts => (c :: part) :: parts

/-- A part of a dotted address: at most 255, without leading zeros. -/
def octet? (text : List Char) : Option Nat :=
  match text with
  | '0' :: _ :: _ => none
  | text => (digits? decimalValue? 10 text).bind fun n => if n ≤ 255 && text.length ≤ 3 then some n else none

/-- The number of a dotted address. -/
def ipv4? (text : List Char) : Option Nat :=
  match splitAt '.' text with
  | [a, b, c, d] => do return ((((← octet? a) * 256 + (← octet? b)) * 256 + (← octet? c)) * 256 + (← octet? d))
  | _ => none

/-- One of the eight groups of an IPv6 address. -/
def group? (text : List Char) : Option Nat := if text.length ≤ 4 then digits? hexValue? 16 text else none

/-- The groups that colons separate; the last two may be written as a dotted address. -/
def groups? (mayEndDotted : Bool) : List (List Char) → Option (List Nat)
  | [] => some []
  | [last] =>
    if mayEndDotted && last.contains '.' then (ipv4? last).map fun n => [n / 65536, n % 65536]
    else (group? last).map fun n => [n]
  | part :: rest => do return (← group? part) :: (← groups? mayEndDotted rest)

/-- Cuts a text at the first double colon, if it has one. -/
def cutDoubleColon : List Char → Option (List Char × List Char)
  | ':' :: ':' :: rest => some ([], rest)
  | c :: rest => (cutDoubleColon rest).map fun (front, back) => (c :: front, back)
  | [] => none

/-- The eight groups of an IPv6 address, in which a double colon stands for the groups that are missing. -/
def ipv6? (text : List Char) : Option (List Nat) :=
  let part (mayEndDotted : Bool) (text : List Char) : Option (List Nat) :=
    if text.isEmpty then some [] else groups? mayEndDotted (splitAt ':' text)
  match cutDoubleColon text with
  | none => (part true text).bind fun groups => if groups.length = 8 then some groups else none
  | some (front, back) => do
    let front ← part false front
    let back ← part true back
    if front.length + back.length ≤ 7 then
      some (front ++ List.replicate (8 - front.length - back.length) 0 ++ back)
    else none

/-- A port: any number of digits, at most 65535. -/
def port? (text : List Char) : Option Nat :=
  (digits? decimalValue? 10 text).bind fun n => if n ≤ 65535 then some n else none

/-- Whether a text is an IPv6 address, perhaps with the number of a scope after a percent sign. -/
def isScopedIpv6 (text : List Char) : Bool :=
  match splitAt '%' text with
  | [address] => (ipv6? address).isSome
  | [address, zone] =>
    (ipv6? address).isSome && ((digits? decimalValue? 10 zone).any fun n => n < size32)
  | _ => false

/-- Whether a text is an address with a port: `1.2.3.4:80` or `[::1]:80`. -/
def isSocketAddress (text : String) : Bool :=
  match text.toList with
  | '[' :: rest =>
    let address := rest.takeWhile (· ≠ ']')
    match rest.dropWhile (· ≠ ']') with
    | ']' :: ':' :: port => isScopedIpv6 address && (port? port).isSome
    | _ => false
  | all =>
    let address := all.takeWhile (· ≠ ':')
    match all.dropWhile (· ≠ ':') with
    | ':' :: port => (ipv4? address).isSome && (port? port).isSome
    | _ => false

end SpeechDispatch.Net
