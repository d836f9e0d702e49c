import Interlock.Http.Exchange

/-!
A network of peers in memory, each under its authority, the part of an address that names a host. A
peer answers by what is asked of it, or from a list in turn, or takes a request and stays silent.
Requests that reach a peer are recorded in order; nobody is reached where no peer is, where a list
is used up, or by a request that cannot be written.
-/
namespace Interlock.Http

/-- A status and a body. -/
abbrev Canned := Nat × String

/-- Who answers under an authority. -/
inductive Peer where
  | stalls
  /-- Answers request after request from a list. -/
  | inTurn (answers : List Canned)
  /-- Answers by method and path; what is not listed is not found. -/
  | byPath (answers : List (String × Canned))
  deriving DecidableEq, Repr

/-- What a peer makes of a request, unless it cannot be reached any more. -/
def Peer.reply? (p : Peer) (r : Request) : Option (Reply × Peer) :=
  match p with
  | .stalls => some (.silent, p)
  | .inTurn [] => none
  | .inTurn ((status, body) :: rest) => some (.answered status body, .inTurn rest)
  | .byPath answers =>
    let (status, body) := (answers.lookup (r.method ++ " " ++ r.path)).getD (404, "")
    some (.answered status body, p)

/-- Peers by authority, and the requests that reached one. -/
structure Network where
  peers : List (String × Peer) := []
  requests : List Request := []
  deriving DecidableEq, Repr

namespace Network

/-- Put a peer under an authority, instead of whoever was there. -/
def insert (n : Network) (authority : String) (p : Peer) : Network :=
  { n with peers := (authority, p) :: n.peers.filter (·.1 != authority) }

/-- Send a request and wait for what comes back. -/
def exchange (n : Network) (r : Request) : Reply × Network :=
  let answered := do
    if !r.isSendable then none
    let authority ← r.authority?
    let (reply, p) ← (← n.peers.lookup authority).reply? r
    return (reply, { n.insert authority p with requests := n.requests ++ [r] })
  answered.getD (.unreachable "connection refused", n)

end Network

end Interlock.Http
