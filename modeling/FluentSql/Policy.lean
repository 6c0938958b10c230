import FluentSql.Json.Basic
import FluentSql.Number.Integer

namespace FluentSql

/-- What becomes of fragments of a condition that cannot be read. -/
inductive MalformedPolicy where
  | reject
  | skip
  deriving DecidableEq, Repr

def MalformedPolicy.text : MalformedPolicy → Text
  | reject => "reject".toList
  | skip => "skip".toList

def MalformedPolicy.ofText? (t : Text) : Option MalformedPolicy :=
  [reject, skip].find? fun p => p.text = t

def MalformedPolicy.ofJson? (j : Json) : Option MalformedPolicy := j.choice?.bind ofText?

/-- What becomes of an update or delete without a filter. -/
inductive UnfilteredPolicy where
  | reject
  | allow
  deriving DecidableEq, Repr

def UnfilteredPolicy.text : UnfilteredPolicy → Text
  | reject => "reject".toList
  | allow => "allow".toList

def UnfilteredPolicy.ofText? (t : Text) : Option UnfilteredPolicy :=
  [reject, allow].find? fun p => p.text = t

def UnfilteredPolicy.ofJson? (j : Json) : Option UnfilteredPolicy := j.choice?.bind ofText?

inductive Level where
  | error | warn | info | debug | trace
  deriving DecidableEq, Repr

def Level.text : Level → Text
  | error => "ERROR".toList
  | warn => "WARN".toList
  | info => "INFO".toList
  | debug => "DEBUG".toList
  | trace => "TRACE".toList

def Level.all : List Level := [error, warn, info, debug, trace]

/-- A level by its name in any case, or by its number from 1 to 5. -/
def Level.ofText? (t : Text) : Option Level :=
  (Level.all.find? fun l => Text.lower l.text = Text.lower t).or
    ((Integer.readUnsigned 5 t).toOption.bind fun n => if n = 0 then none else Level.all[n - 1]?)

/-- How the sessions of a database behave. -/
structure QueryConfig where
  malformed : MalformedPolicy := .reject
  unfiltered : UnfilteredPolicy := .reject
  /-- The level of the event for each statement. -/
  level : Level := .debug
  /-- The most bytes of a statement that are logged; `none` for all. -/
  maxLength : Option Nat := some 200
  deriving DecidableEq, Repr

end FluentSql
