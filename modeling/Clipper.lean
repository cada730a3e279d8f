import Clipper.Core
import Clipper.Rustls.EarlyData
import Clipper.Rustls.ClientConfig
import Clipper.Rustls.ClientConnection
import Clipper.DevtoolsServer.ConnectionStream
import Clipper.DevtoolsServer.AcceptLoop
import Clipper.DevtoolsServer.ServerConnection
import Clipper.NetDecode.TypeMap
