import FluentSql.Connection.Variables
import FluentSql.Text.Alphanumeric
import FluentSql.Text.Blank

namespace FluentSql.Connection

/-- A file of assignments gives a variable a value where it has none yet. -/
def Variables.add (vs : Variables) (name value : Text) : Variables :=
  if (vs.get? name).isSome then vs else vs ++ [(name, value)]

namespace Assignment

/-- Where in a line a character stands, as far as it decides whether the line ends there. -/
inductive Place where
  | plain
  /-- After a blank, where a comment may begin. -/
  | blank
  | escaped
  | single
  | singleEscaped
  | double
  | doubleEscaped
  deriving DecidableEq, Repr

def Place.afterPlain (c : Char) : Place :=
  if c = '\\' then .escaped else if c = '"' then .double else if c = '\'' then .single else .plain

/-- The place after a character; `none` where a comment begins. -/
def Place.next? (c : Char) : Place → Option Place
  | blank => if c = '#' then none else some (afterPlain c)
  | plain =>
    if Text.isBlank c && c != '\n' && c != '\r' then some blank else some (afterPlain c)
  | escaped => some plain
  | single => some (if c = '\\' then singleEscaped else if c = '\'' then plain else single)
  | singleEscaped => some single
  | double => some (if c = '\\' then doubleEscaped else if c = '"' then plain else double)
  | doubleEscaped => some double

def dropLine : Text → Text
  | [] => []
  | '\n' :: t => t
  | _ :: t => dropLine t

/-- The line at the head of a text without its comment, and what follows it. A quotation goes on
over line ends; `none` if the text ends before the line does. -/
def takeLine? : Place → Text → Option (Text × Text)
  | place, [] => if place = .plain then some ([], []) else none
  | place, c :: t =>
    match place.next? c with
    | none => some ([], dropLine t)
    | some next =>
      if c = '\n' ∧ next = .plain then some ([], t)
      else (takeLine? next t).map fun r => (c :: r.1, r.2)

def isComment (t : Text) : Bool := (Text.trimStart (t.takeWhile (· != '\n'))).head? == some '#'

/-- What a character of a value is read as. The flags tell that it stands in double quotes. -/
inductive Mode where
  | plain (quoted : Bool)
  | escaped (quoted : Bool)
  | single
  /-- In the name of a variable after a dollar sign, as far as it has been read. -/
  | named (quoted : Bool) (name : Text)
  /-- In a name within braces. -/
  | braced (quoted : Bool) (name : Text)
  /-- After a blank, where only a comment may follow. -/
  | ended
  deriving DecidableEq, Repr

def escape? (c : Char) : Option Char :=
  if c = 'n' then some '\n' else if c ∈ ['\\', '\'', '"', '$', ' '] then some c else none

/-- The value that a text stands for. A variable in it is replaced by its value; the character that
ends its name is taken as it is. -/
def readValue? (value : Text → Text) : Mode → Text → Option Text
  | .plain quoted, [] => if quoted then none else some []
  | .escaped quoted, [] => if quoted then none else some []
  | .single, [] => none
  | .named quoted name, [] => if quoted then none else some (value name)
  | .braced _ _, [] => none
  | .ended, [] => some []
  | .plain quoted, c :: t =>
    if c = '$' then readValue? value (.named quoted []) t
    else if c = '\\' then readValue? value (.escaped quoted) t
    else if c = '"' then readValue? value (.plain !quoted) t
    else if !quoted && c == '\'' then readValue? value .single t
    else if !quoted && (c == ' ' || c == '\t') then readValue? value .ended t
    else (readValue? value (.plain quoted) t).map (c :: ·)
  | .escaped quoted, c :: t =>
    (escape? c).bind fun c => (readValue? value (.plain quoted) t).map (c :: ·)
  | .single, c :: t =>
    if c = '\'' then readValue? value (.plain false) t
    else (readValue? value .single t).map (c :: ·)
  | .named quoted name, c :: t =>
    if Text.isAlphanumeric c then readValue? value (.named quoted (name ++ [c])) t
    else if c = '\x7b' ∧ name = [] then readValue? value (.braced quoted []) t
    else if c = '$' then (readValue? value (.named quoted []) t).map (value name ++ ·)
    else (readValue? value (.plain quoted) t).map (value name ++ c :: ·)
  | .braced quoted name, c :: t =>
    if c = '\x7d' then (readValue? value (.plain quoted) t).map (value name ++ ·)
    else readValue? value (.braced quoted (name ++ [c])) t
  | .ended, c :: t =>
    if c = ' ' ∨ c = '\t' then readValue? value .ended t
    else if c = '#' then some []
    else none

def isKeyStart (c : Char) : Bool := c.isAlpha || c == '_'

def isKeyPart (c : Char) : Bool := c.isAlphanum || c == '_' || c == '.'

def readKey? (t : Text) : Option (Text × Text) :=
  match t with
  | [] => none
  | c :: _ =>
    if isKeyStart c then some (t.takeWhile isKeyPart, Text.trimStart (t.dropWhile isKeyPart))
    else none

/-- The key of an assignment, which `export` may stand before, and the text after the sign. -/
def readTarget? (t : Text) : Option (Text × Text) :=
  (readKey? t).bind fun
    | (key, '=' :: t) => some (key, t)
    | (key, t) =>
      if key = "export".toList then
        (readKey? t).bind fun
          | (key, '=' :: t) => some (key, t)
          | _ => none
      else none

/-- Carries out a line. One without an assignment changes nothing. -/
def runLine? (line : Text) (vs : Variables) : Option Variables :=
  let t := Text.trim line
  if t.isEmpty ∨ t.head? = some '#' then some vs
  else
    (readTarget? t).bind fun (key, t) =>
      let t := Text.trimStart t
      if t.isEmpty ∨ t.head? = some '#' then some (vs.add key [])
      else
        (readValue? (fun name => (vs.get? name).getD []) (.plain false) t).map fun v => vs.add key v

/-- Carries out line after line up to the first that cannot be read. -/
def runLines : Nat → Text → Variables → Variables
  | 0, _, vs => vs
  | _, [], vs => vs
  | fuel + 1, c :: t, vs =>
    if isComment (c :: t) then runLines fuel (dropLine (c :: t)) vs
    else
      match takeLine? .plain (c :: t) with
      | none => vs
      | some (line, rest) =>
        match runLine? line vs with
        | none => vs
        | some vs => runLines fuel rest vs

/-- Carries out a file. Every line takes a character, so the length is enough. -/
def run (file : Text) (vs : Variables) : Variables :=
  match file with
  | '\ufeff' :: t => runLines t.length t vs
  | t => runLines t.length t vs

end Assignment

/-- A configuration from the variables of an environment and a file of assignments, if there is one.
The environment wins. -/
def Config.ofEnvironment (vs : Variables) (file : Option Text) : Except ConfigFault Config :=
  Config.ofVariables (file.elim vs fun t => Assignment.run t vs)

end FluentSql.Connection
