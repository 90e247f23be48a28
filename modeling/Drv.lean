import Drv.Laws.Wire.Session
import Drv.Laws.Vfio.Iova
import Drv.Laws.Ath11k.Release
import Drv.Laws.Ath11k.Security
import Drv.Laws.Mt7921.Delivery
import Drv.Laws.Mt7921.TxOwnership
import Drv.Laws.Mt7921.Completion
import Drv.Laws.Mt7921.Rollback
import Drv.Laws.Mt7921.Replay
import Drv.Laws.Mt7921.PowerAuthorizer
import Drv.Laws.Net.SocketWorker
import Drv.Laws.Ath11k.CeTransmit
import Drv.Laws.Ath11k.CeReceive
import Drv.Laws.Ath11k.HtcCredits
import Drv.Laws.Ath11k.HtcRouting
import Drv.Laws.Ath11k.HostRx
import Drv.Laws.Net.DnsCache
import Drv.Laws.Net.Ingress
import Drv.Laws.Net.TcpBuffers
import Drv.Laws.Net.LinkGeneration
import Drv.Laws.Mt76.Image
import Drv.Laws.Net.Namespaces
import Drv.Laws.Net.Frontend
import Drv.Laws.Softmac.Runtime
import Drv.Laws.Ath11k.Keys
import Drv.Laws.Ath11k.Adapter
import Drv.Laws.Hardware.Segments
import Drv.Laws.Bluetooth.Broker
import Drv.Laws.Ath11k.BufferIds
import Drv.Laws.Net.Accept
import Drv.Laws.Net.Seccomp
