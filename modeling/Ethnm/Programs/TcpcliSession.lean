import Ethnm.Programs.Tcpcli
import Ethnm.Server.Deliveries

/-! From the records that are entered at `tcpcli` to the messages that the server's application
gets, through a whole session of the server.
-/

namespace Ethnm.Session
open Runs

end Ethnm.Session
