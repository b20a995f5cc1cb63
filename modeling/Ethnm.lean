import Ethnm.Ring.Fifo
import Ethnm.Ring.Checked
import Ethnm.Ring.Reachable
import Ethnm.Delimiter.VarSafety
import Ethnm.Delimiter.Reassembly
import Ethnm.Delimiter.SafeSizes
import Ethnm.Delimiter.SelfDescribing
import Ethnm.Delimiter.Peeks
import Ethnm.Delimiter.Segmentation
import Ethnm.Delimiter.Containment
import Ethnm.Delimiter.VarSegmentation
import Ethnm.Delimiter.EqualFrames
import Ethnm.Programs.Tcpsrv
import Ethnm.Programs.TcpcliSession
import Ethnm.Programs.Tcpclistr
import Ethnm.Programs.TcpsrvSafety
import Ethnm.Clients.Purge
import Ethnm.Clients.Isolation
import Ethnm.Clients.Noninterference
import Ethnm.Clients.Outcomes
import Ethnm.Clients.SelectSet
import Ethnm.Clients.LookAhead
import Ethnm.Clients.Endpoints
import Ethnm.Clients.Streams
import Ethnm.Server.LiveThreads
import Ethnm.Server.Agreement
import Ethnm.Server.Presence
import Ethnm.Server.Turns
import Ethnm.Server.PriorContents
import Ethnm.Server.LockedDb
import Ethnm.Server.Listening
import Ethnm.Server.Pointers
import Ethnm.Server.Stopping
import Ethnm.Server.Deliveries
import Ethnm.Server.Receptions
import Ethnm.Server.Printing
import Ethnm.Nm.Shutdown
import Ethnm.Nm.Multicast
import Ethnm.Nm.Nmsrv
