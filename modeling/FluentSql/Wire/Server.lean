import FluentSql.Connection.Provider
import FluentSql.Wire.Exchange

namespace FluentSql.Wire

/-- A server that connections are made to. Its handles are numbered. -/
structure Server where
  peer : Peer := ⟨{}, []⟩
  /-- How many connections it has accepted since it last closed all. -/
  accepted : Nat := 0
  /-- The handles of the connections that stand. -/
  standing : List Nat := []
  /-- The number of the next handle. -/
  next : Nat := 0

namespace Server

def isOpen (handle : Nat) (s : Server) : Bool := s.standing.contains handle

def accept (s : Server) : Nat × Server :=
  (s.next,
    { s with accepted := s.accepted + 1, standing := s.next :: s.standing, next := s.next + 1 })

/-- A request to the peer while the connection stands. -/
def ifOpen {α : Type} (handle : Nat) (request : Peer → Step Peer α) (s : Server) : Step Server α :=
  if s.isOpen handle then
    let r := request s.peer
    ⟨r.result, r.events, { s with peer := r.state }⟩
  else ⟨.error (.statement .closed), [], s⟩

/-- The way to a server, which is at the endpoints that are reachable. -/
def network (reachable : Connection.Endpoint → Bool) : Connection.Network Nat Server where
  dial e s :=
    if reachable e then (.ok s.accept.1, s.accept.2)
    else (.error "error connecting to server".toList, s)
  client handle :=
    { query := fun sql params => ifOpen handle (connected.query sql params)
      execute := fun sql params => ifOpen handle (connected.execute sql params) }
  isOpen := isOpen
  release handle s := { s with standing := s.standing.erase handle }

/-- Closes all connections. The end of each is logged. -/
def closeAll (s : Server) : List Event × Server :=
  (s.standing.map fun _ => .connectionEnded, { s with accepted := 0, standing := [] })

end Server

end FluentSql.Wire
