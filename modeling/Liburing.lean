import Liburing.Ring.Counter
import Liburing.Ring.Window
import Liburing.Ring.Fifo
import Liburing.Defs
import Liburing.Sq
import Liburing.Cq
import Liburing.CqFifo
import Liburing.Wait
import Liburing.CqTimeout
import Liburing.BufRing
import Liburing.RingFd
import Liburing.Setup
import Liburing.Teardown
import Liburing.HugeLayout
import Liburing.Recvmsg
import Liburing.Bits.Pow2
import Liburing.Sizes
import Liburing.Mem.Bytes
import Liburing.Prep
import Liburing.Enter
import Liburing.Dontfork
import Liburing.BufRingMaps
import Liburing.Register
