/-
# Session events

What the task of a session puts on its event channel, and the daemon's event loop takes off it.
-/
import Pathvector.Session.Message
import Pathvector.Session.Update

set_option autoImplicit false

namespace Pathvector

/-- `SessionInfo`, the part of it the daemon keeps. -/
structure SessionInfo where
  peer_bgp_id : Ipv4Addr
  peer_type : PeerType
  peer_capabilities : List Capability
  local_addr : Option IpAddr
  deriving DecidableEq

inductive SessionEvent where
  | Established (info : SessionInfo)
  | Terminated (reason : TerminationReason)
  | RouteUpdate (msg : UpdateMessage)
  deriving DecidableEq

/-- The beginning (`true`) or the end (`false`) of a session, if an event reports one. -/
def SessionEvent.mark : SessionEvent → Option Bool
  | .Established _ => some true
  | .Terminated _ => some false
  | .RouteUpdate _ => none

/-- The beginnings and ends reported on the event channel. -/
def event_marks (events : List SessionEvent) : List Bool := events.filterMap SessionEvent.mark

/-- The session that has begun and not ended, by number. -/
def open_session (events : List SessionEvent) : Option ℕ :=
  if (event_marks events).getLast? = some true then some ((event_marks events).count true)
  else none

end Pathvector
