import FluentSql.Url.Ipv6
import FluentSql.Url.Percent

namespace FluentSql.Url

/-- The address in brackets, if the host begins with one. -/
def readBracket? (host : Text) : Option (Except Fault Text) :=
  match host with
  | '[' :: t =>
    some <| match t.getLast?, Ipv6.read? t.dropLast with
      | some ']', some address => .ok (Ipv6.toText address)
      | _, _ => .error .badIpv6
  | _ => none

/-- Characters that no host has. -/
def forbidden : Text :=
  ['\x00', '\t', '\n', '\r', ' ', '#', '/', ':', '<', '>', '?', '@', '[', '\\', ']', '^', '|']

/-- The host as it is addressed: an address in brackets, or a name, whose escapes stay. -/
def readHost (host : Text) : Except Fault Text :=
  (readBracket? host).getD <|
    if host.any forbidden.contains then .error .badCharacter else .ok (escapeControls host)

/-- A number in decimal, octal after a zero, or hexadecimal after `0x`. -/
def number? (t : Text) : Option Nat :=
  let read (base : Nat) (digits : Text) : Option Nat :=
    if digits.all fun c => Text.isHexDigit c && Text.hexValue c < base then
      some (digits.foldl (fun n c => n * base + Text.hexValue c) 0)
    else none
  match t with
  | [] => none
  | '0' :: 'x' :: t => read 16 t
  | '0' :: c :: t => read 8 (c :: t)
  | t => read 10 t

/-- The labels of a domain, without the empty one after a point at the end. -/
def labels (domain : Text) : List Text :=
  let parts := Text.splitAt '.' domain
  if 1 < parts.length ∧ parts.getLast? = some [] then parts.dropLast else parts

/-- A domain whose last label is a number has to be an address of up to four numbers, of which the
last fills what the others leave. -/
def isIpv4 (parts : List Text) : Bool :=
  match parts.mapM number? with
  | none => false
  | some numbers =>
    numbers.length ≤ 4 && numbers.dropLast.all (· < 256) &&
      (numbers.getLast?.getD 0) < Nat.pow 256 (5 - numbers.length)

def endsInNumber (parts : List Text) : Bool :=
  match parts.getLast? with
  | none => false
  | some last => (!last.isEmpty && last.all Char.isDigit) || (number? last).isSome

/-- Characters of ASCII that no domain of the web has. -/
def isDenied (c : Char) : Bool :=
  c.toNat ≤ 0x20 || c.toNat == 0x7F || c == '%' || forbidden.contains c

/-- Checks the host of a web or file URL. -/
def checkDomain (host : Text) : Except Fault Unit :=
  match readBracket? host with
  | some r => r.map fun _ => ()
  | none =>
    match Utf8.decode? (percentBytes host) with
    | none => .error .badDomain
    | some domain =>
      let domain := Text.lower domain
      if domain.any isDenied then .error .badDomain
      else if domain.isEmpty then .error .emptyHost
      else
        let parts := labels domain
        if endsInNumber parts && !isIpv4 parts then .error .badIpv4 else .ok ()

end FluentSql.Url
