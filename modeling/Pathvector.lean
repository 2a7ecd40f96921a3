import Pathvector.Daemon.Construction
import Pathvector.Fib.Blackholes
import Pathvector.Fib.Mirrored
import Pathvector.Inbound.Families
import Pathvector.Inbound.Reconfiguration
import Pathvector.Outbound.MessageSize
import Pathvector.Outbound.Minimal
import Pathvector.Outbound.Mrai
import Pathvector.Restart.Ownership
import Pathvector.Restart.Pruning
import Pathvector.Rib.Convergence
import Pathvector.Rib.Elimination
import Pathvector.Rpki.Notify
import Pathvector.Session.Carrier
import Pathvector.Session.Presence
import Pathvector.Session.Termination
import Pathvector.Session.Timers
import Pathvector.System.Stranded
import Pathvector.Tables.Confinement
import Pathvector.Wire.Discard
import Pathvector.Wire.Malformed
