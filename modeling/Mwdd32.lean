import Mwdd32.Fsh32.SemRuns
import Mwdd32.Fsh32.ReturnCode
import Mwdd32.Fsh32.Transfers
import Mwdd32.Fsh32.Thunks
import Mwdd32.DevHlp.SaveMessage
import Mwdd32.DevHlp.Errors
import Mwdd32.DevHlp.InternalError
import Mwdd32.Server.Status
import Mwdd32.Server.Idc
import Mwdd32.Client.OpenCount
import Mwdd32.Util.RoundTrip
import Mwdd32.Util.Strtok
import Mwdd32.Util.Atol
import Mwdd32.Util.BoundedString
import Mwdd32.Util.AnsiExact
import Mwdd32.Util.FnmatchCase
import Mwdd32.Util.FnmatchSets
import Mwdd32.Util.PathMatch
import Mwdd32.Util.UnixMatch
import Mwdd32.Util.Record
import Mwdd32.Skeleton.OpenPre
import Mwdd32.Skeleton.Security
import Mwdd32.Skeleton.DeviceInit
import Mwdd32.Skeleton.Attach
import Mwdd32.Server.PreInit
