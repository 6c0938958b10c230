import FluentSql.Text.Basic

namespace FluentSql

/-- The parts of a URL as they are written, with escapes. -/
structure Url.Parts where
  user : Text := []
  password : Text := []
  /-- The host as it is addressed, or none for an empty one. -/
  host : Option Text := none
  port : Option Nat := none
  path : Text := []
  query : Option Text := none
  deriving DecidableEq, Repr

/-- A URL. Those of the web and of files are not taken apart, only checked. -/
inductive Url where
  | web (scheme : Text)
  | plain (scheme : Text) (parts : Url.Parts)
  deriving DecidableEq, Repr

namespace Url

inductive Fault where
  | noScheme
  | emptyHost
  | badPort
  | badIpv4
  | badIpv6
  | badDomain
  | badCharacter
  deriving DecidableEq, Repr

def Fault.message : Fault → Text
  | noScheme => "relative URL without a base".toList
  | emptyHost => "empty host".toList
  | badPort => "invalid port number".toList
  | badIpv4 => "invalid IPv4 address".toList
  | badIpv6 => "invalid IPv6 address".toList
  | badDomain => "invalid international domain name".toList
  | badCharacter => "invalid domain character".toList

end Url

end FluentSql
