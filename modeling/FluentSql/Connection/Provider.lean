import FluentSql.Client
import FluentSql.Connection.Config

namespace FluentSql.Connection

/-- What connections are made over: `η` are the handles, and `σ` is the state of the world that
they lead to. -/
structure Network (η σ : Type) where
  /-- An attempt to connect: a handle, or the reason why there is none. -/
  dial : Endpoint → σ → Except Text η × σ
  client : η → Client σ
  isOpen : η → σ → Bool
  /-- A handle is given back when nothing uses it any more. -/
  release : η → σ → σ

/-- What a provider remembers of its one attempt to connect. -/
inductive Slot (η : Type) where
  | idle
  | failed (fault : ConnectionFault)
  | connected (handle : η)
  deriving DecidableEq, Repr

/-- A connection that is made on first use. -/
structure Provider (η : Type) where
  config : Config
  slot : Slot η := .idle
  deriving DecidableEq, Repr

namespace Provider

variable {η σ : Type}

/-- Connects as the configuration says. A configuration that nothing can be dialed with is not
logged. -/
def attempt (net : Network η σ) (c : Config) (s : σ) :
    Except ConnectionFault η × List Event × σ :=
  match c.endpoint with
  | .error fault => (.error fault, [], s)
  | .ok endpoint =>
    match net.dial endpoint s with
    | (.ok handle, s) => (.ok handle, [.connected c.host c.port c.name], s)
    | (.error reason, s) =>
      (.error (.other reason), [.connectionFailed c.host c.port c.name reason], s)

/-- The handle. It is the same from the first use on, and so is the error if there is none. -/
def handle (net : Network η σ) (p : Provider η) (s : σ) : Step (Provider η × σ) η :=
  match p.slot with
  | .connected handle => ⟨.ok handle, [], (p, s)⟩
  | .failed fault => ⟨.error (.connection fault), [], (p, s)⟩
  | .idle =>
    match attempt net p.config s with
    | (.ok handle, events, s) => ⟨.ok handle, events, ({ p with slot := .connected handle }, s)⟩
    | (.error fault, events, s) =>
      ⟨.error (.connection fault), events, ({ p with slot := .failed fault }, s)⟩

/-- A request over a handle, which leaves the provider as it is. -/
def through {α : Type} (request : σ → Step σ α) (p : Provider η × σ) : Step (Provider η × σ) α :=
  let r := request p.2
  ⟨r.result, r.events, (p.1, r.state)⟩

/-- A provider runs statements over its handle. -/
def client (net : Network η σ) : Client (Provider η × σ) where
  query sql params p :=
    (p.1.handle net p.2).andThen fun handle => through ((net.client handle).query sql params)
  execute sql params p :=
    (p.1.handle net p.2).andThen fun handle => through ((net.client handle).execute sql params)

def isConnected (net : Network η σ) (p : Provider η) (s : σ) : Bool :=
  match p.slot with
  | .connected handle => net.isOpen handle s
  | _ => false

/-- Takes another configuration and forgets what came of the one before. -/
def reconfigure (net : Network η σ) (p : Provider η) (c : Config) (s : σ) : Provider η × σ :=
  (⟨c, .idle⟩, match p.slot with
    | .connected handle => net.release handle s
    | _ => s)

end Provider

end FluentSql.Connection
