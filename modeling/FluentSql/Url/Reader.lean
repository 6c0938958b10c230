import FluentSql.Url.Host
import FluentSql.Url.Path

namespace FluentSql.Url

/-- Control characters and blanks around a URL do not count, nor line ends and tabs within it. -/
def clean (t : Text) : Text :=
  let isOuter (c : Char) : Bool := c.toNat ≤ 0x20
  let t := t.dropWhile isOuter
  let t := (t.reverse.dropWhile isOuter).reverse
  t.filter fun c => c != '\t' && c != '\n' && c != '\r'

def isSchemePart (c : Char) : Bool := c.isAlphanum || c == '+' || c == '-' || c == '.'

/-- The scheme in small letters, and the text after its colon. -/
def readScheme? (t : Text) : Option (Text × Text) :=
  match t.takeWhile isSchemePart, t.dropWhile isSchemePart with
  | c :: scheme, ':' :: rest => if c.isAlpha then some (Text.lower (c :: scheme), rest) else none
  | _, _ => none

/-- Who connects, and where to. -/
structure Authority where
  user : Text
  password : Text
  host : Text
  /-- What follows the colon after the host. -/
  port : Option Text
  deriving DecidableEq, Repr

/-- The host up to a colon outside brackets, and the text after that colon. -/
def takeHost : Bool → Text → Text × Option Text
  | _, [] => ([], none)
  | inside, c :: t =>
    if c = ':' ∧ ¬inside then ([], some t)
    else
      let r := takeHost (c == '[' || (inside && c != ']')) t
      (c :: r.1, r.2)

/-- Takes an authority apart. The last `@` is the one that counts, and the first colon before it. -/
def splitAuthority (t : Text) : Authority :=
  let (credentials, address) := (Text.cutAtLast? '@' t).getD ([], t)
  let (user, password) := (Text.cutAt? ':' credentials).getD (credentials, [])
  let (host, port) := takeHost false address
  ⟨user, password, host, port⟩

def mostPort : Nat := 65535

/-- A port, if there are digits. A backslash ends it. -/
def readPort (t : Text) : Except Fault (Option Nat × Text) :=
  let digits := t.takeWhile Char.isDigit
  let rest := t.dropWhile Char.isDigit
  if rest.isEmpty ∨ rest.head? = some '\\' then
    if digits.isEmpty then .ok (none, rest)
    else
      let n := Text.ofDecimal digits
      if n ≤ mostPort then .ok (some n, rest) else .error .badPort
  else .error .badPort

def readPort? (t : Option Text) : Except Fault (Option Nat × Text) :=
  match t with
  | none => .ok (none, [])
  | some t => readPort t

/-- The path after an authority, which always begins with a slash if there is one. -/
def pathAfter : Text → Text
  | [] => []
  | '/' :: t => resolvePath t
  | t => resolvePath t

/-- The parts of a URL with an authority, and the path that follows it. Credentials and a port have
to have a host. -/
def readAuthority (authority path : Text) (isLast : Bool) (query : Option Text) :
    Except Fault Parts := do
  if authority = ['@'] ∧ ¬isLast then .error .emptyHost
  else
    let a := splitAuthority authority
    let host ← readHost a.host
    if host.isEmpty ∧ a.port.isSome then .error .emptyHost
    else
      let (port, rest) ← readPort? a.port
      if host.isEmpty ∧ ¬(a.user.isEmpty ∧ a.password.isEmpty) then .error .emptyHost
      else
        .ok ⟨a.user, a.password, if host.isEmpty then none else some host, port,
          pathAfter (rest ++ path), query⟩

/-- The parts of a URL after its scheme: with an authority after two slashes, with a path after one,
or with a path that is not resolved. -/
def readParts (t : Text) : Except Fault Parts :=
  let isTail (c : Char) : Bool := c == '?' || c == '#'
  let body := t.takeWhile fun c => !isTail c
  let tail := t.dropWhile fun c => !isTail c
  let query := match tail with
    | '?' :: t => some (t.takeWhile (· != '#'))
    | _ => none
  match body with
  | '/' :: '/' :: t =>
    let path := t.dropWhile (· != '/')
    readAuthority (t.takeWhile (· != '/')) path (path.isEmpty && tail.isEmpty) query
  | '/' :: t => .ok { path := resolvePath t, query }
  | t => .ok { path := t, query }

def isSlash (c : Char) : Bool := c == '/' || c == '\\'

def endsAuthority (c : Char) : Bool := isSlash c || c == '?' || c == '#'

/-- Checks a URL of the web after its scheme. -/
def checkWeb (t : Text) : Except Fault Unit := do
  let t := t.dropWhile isSlash
  let a := splitAuthority (t.takeWhile fun c => !endsAuthority c)
  if a.host.isEmpty then .error .emptyHost
  else
    checkDomain a.host
    (readPort? a.port).map fun _ => ()

/-- Checks a URL of a file after its scheme. It may name a host after two slashes. -/
def checkFile (t : Text) : Except Fault Unit :=
  match t with
  | a :: b :: t =>
    let host := t.takeWhile fun c => !endsAuthority c
    if isSlash a && isSlash b && !host.isEmpty && !(host.length == 2 && isDrive host) then
      checkDomain host
    else .ok ()
  | _ => .ok ()

def webSchemes : List Text :=
  ["http".toList, "https".toList, "ws".toList, "wss".toList, "ftp".toList]

def read (t : Text) : Except Fault Url :=
  match readScheme? (clean t) with
  | none => .error .noScheme
  | some (scheme, rest) =>
    if webSchemes.contains scheme then (checkWeb rest).map fun _ => .web scheme
    else if scheme = "file".toList then (checkFile rest).map fun _ => .web scheme
    else (readParts rest).map (.plain scheme)

end FluentSql.Url
