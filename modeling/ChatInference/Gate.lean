import ChatInference.Error
import ChatInference.Json.Writer

/-! How many sessions may be open, and how many turns may compute at a time. -/

namespace ChatInference

structure Gate where
  limit : Nat
  sessions : Nat := 0
  inFlight : Nat := 0
  deriving DecidableEq, Inhabited

namespace Gate

/-- A gate lets through at least one. -/
def ofLimit (n : Nat) : Gate := { limit := max n 1 }

def openSession (g : Gate) : Except Error Gate :=
  if g.sessions < g.limit then .ok { g with sessions := g.sessions + 1 }
  else .error (.concurrencyLimitExceeded g.sessions g.limit)

def closeSessions (g : Gate) (n : Nat) : Gate := { g with sessions := g.sessions - n }

def resetSessions (g : Gate) : Gate := { g with sessions := 0 }

/-- Takes a permit to compute, if one is left. -/
def acquire? (g : Gate) : Option Gate :=
  if g.inFlight < g.limit then some { g with inFlight := g.inFlight + 1 } else none

/-- Gives a permit back. -/
def release (g : Gate) : Gate := { g with inFlight := g.inFlight - 1 }

def toJson (g : Gate) : Json :=
  .obj [("active_sessions", .nat g.sessions), ("in_flight", .nat g.inFlight),
    ("max_concurrent", .nat g.limit)]

end Gate

end ChatInference
