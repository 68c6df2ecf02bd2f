import Uet.Pkt.ParseConfined
import Uet.Pds.RudDelivery
import Uet.Pds.RodDelivery
import Uet.Pds.SlotReuse
import Uet.Pds.MessageMap
import Uet.Pds.Recovery
import Uet.Pds.TimeoutSweep
import Uet.Sng.Delivery
import Uet.Ses.ReadRsp
import Uet.Ses.RxAccess
import Uet.Ses.FlatView
import Uet.Ses.TxHandles
import Uet.Ses.RodOrder
import Uet.Ses.FlushPath
import Uet.Ses.SyncInitiator
import Uet.Vpp.TxOwnership
import Uet.Vpp.CleanClose
import Uet.Vpp.RxSelect
import Uet.Dev.Isolation
import Uet.Sec.RoundTrip
import Uet.Ref.FlowControl
import Uet.Ref.CompletionQueue
import Uet.Ref.AdminQueue
import Uet.Ses.MsgSizes
import Uet.Cc.Context
import Uet.RwLock
