import ScriptEngine.Failure

namespace ScriptEngine

/-- The space that isolates share: one owner, and clients that have to leave before it. -/
structure SharedSpace where
  owner : IsolateId
  /-- In the order in which they came. -/
  clients : List IsolateId := []
  deriving DecidableEq

namespace SharedSpace

def attach (s : SharedSpace) (client : IsolateId) : SharedSpace :=
  if s.clients.contains client then s else { s with clients := s.clients ++ [client] }

/-- Also tells whether the client was there. -/
def detach (s : SharedSpace) (client : IsolateId) : Bool × SharedSpace :=
  (s.clients.contains client, { s with clients := s.clients.erase client })

/-- An owner with clients cannot go. -/
def checkNoClients (s : SharedSpace) : Walk Unit :=
  if s.clients.isEmpty then .ok ()
  else .error (.sharedSpaceClientsAlive s.owner s.clients.length)

end SharedSpace

end ScriptEngine
