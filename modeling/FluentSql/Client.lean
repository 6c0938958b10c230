import FluentSql.Event
import FluentSql.Record

namespace FluentSql

/-- What comes of a request: a result or an error, what was logged, and the client's next state. -/
structure Step (σ α : Type) where
  result : Except Error α
  events : List Event
  state : σ

namespace Step

def map {σ α β : Type} (f : α → β) (r : Step σ α) : Step σ β := ⟨r.result.map f, r.events, r.state⟩

/-- Reads a result further, which may fail. -/
def read {σ α β : Type} (f : α → Except Error β) (r : Step σ α) : Step σ β :=
  ⟨r.result.bind f, r.events, r.state⟩

/-- Goes on with the result, unless there is an error. -/
def andThen {σ α β : Type} (r : Step σ α) (next : α → σ → Step σ β) : Step σ β :=
  match r.result with
  | .error e => ⟨.error e, r.events, r.state⟩
  | .ok a =>
    let n := next a r.state
    ⟨n.result, r.events ++ n.events, n.state⟩

end Step

/-- A handle that runs statements with numbered placeholders. A client that has no use for tags
leaves the tagged requests at their defaults. -/
structure Client (σ : Type) where
  query : Text → List Value → σ → Step σ (List Record)
  execute : Text → List Value → σ → Step σ Nat
  queryTagged : Text → Text → List Value → σ → Step σ (List Record) := fun _ => query
  executeTagged : Text → Text → List Value → σ → Step σ Nat := fun _ => execute

namespace Client

/-- The first row, if there is one. -/
def queryOpt {σ : Type} (c : Client σ) (sql : Text) (params : List Value) (s : σ) :
    Step σ (Option Record) :=
  (c.query sql params s).map List.head?

def queryOptTagged {σ : Type} (c : Client σ) (tag sql : Text) (params : List Value) (s : σ) :
    Step σ (Option Record) :=
  (c.queryTagged tag sql params s).map List.head?

/-- A reference to a client, which passes every request on. -/
def reference {σ : Type} (c : Client σ) : Client σ where
  query := c.query
  execute := c.execute
  queryTagged := c.queryTagged
  executeTagged := c.executeTagged

end Client

end FluentSql
