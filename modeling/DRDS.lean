import DRDS.Cpt.Agent
import DRDS.Cpt.StrAgent
import DRDS.Handler.FirstLast
import DRDS.Handler.HandleData
import DRDS.Handler.Latency
import DRDS.Handler.Shapes
import DRDS.Handler.WriteSynt
import DRDS.PyApi.ClientDRDS
import DRDS.PyApi.History
import DRDS.PyApi.Interchange
import DRDS.PyApi.LatestAll
import DRDS.PyApi.Replies
import DRDS.PyApi.Requests
import DRDS.PyApi.Send
import DRDS.PyApi.WireFormat
import DRDS.Server.Completeness
import DRDS.Server.Consumers
import DRDS.Server.Publish
import DRDS.Server.PublishSubframes
import DRDS.Server.Streams
import DRDS.Server.SubscribeAck
import DRDS.Service.Drain
import DRDS.Service.Federation
import DRDS.Service.Restart
import DRDS.Service.Stored
import DRDS.Web.Polls
import DRDS.Web.Readback
import DRDS.Web.Realtime
