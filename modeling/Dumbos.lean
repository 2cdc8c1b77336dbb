import Dumbos.CServer.Replay
import Dumbos.CServer.UploadBuffer
import Dumbos.CTool.Signing
import Dumbos.Common.ExecWrapper
import Dumbos.Common.Strtoll
import Dumbos.Daemon.CopyCut
import Dumbos.Daemon.MinusOne
import Dumbos.Daemon.MountCopy
import Dumbos.Firewall.Overlap
import Dumbos.Firewall.Reload
import Dumbos.Firewall.Whitelist
import Dumbos.Payload.Clock
import Dumbos.Payload.Ed25519Hex
import Dumbos.Request.Freshness
import Dumbos.RustServer.EventLog
import Dumbos.RustTool.CommandSet
import Dumbos.RustTool.Expire
import Dumbos.RustTool.History
import Dumbos.Session.Transport
import Dumbos.System.Delivery
import Dumbos.System.Egress
import Dumbos.System.Enrolment
import Dumbos.System.LogUpload
import Dumbos.System.ScriptList
import Dumbos.System.SetNameRace
import Dumbos.System.Window
