import AtcHdlc.Codec
import AtcHdlc.Chunking
import AtcHdlc.Lib.Convergence
import AtcHdlc.Lib.Agreement
import AtcHdlc.Reentry
import AtcHdlc.Sessions
import AtcHdlc.Simulation
import AtcHdlc.Fcs
import AtcHdlc.Calls
import AtcHdlc.Polls
import AtcHdlc.Rejection
import AtcHdlc.Retries
import AtcHdlc.Delivery
import AtcHdlc.GoBackN
import AtcHdlc.Enquiry
import AtcHdlc.Transfer
import AtcHdlc.Replies
import AtcHdlc.Ended
import AtcHdlc.Repair
import AtcHdlc.Streaming
import AtcHdlc.Passive
import AtcHdlc.Buffer
import AtcHdlc.Windowless
import AtcHdlc.SetUp
import AtcHdlc.Conforming
import AtcHdlc.Renewal
import AtcHdlc.Boards
import AtcHdlc.Port
import AtcHdlc.Lifecycle
import AtcHdlc.Thrift
import AtcHdlc.Integrity
import AtcHdlc.Loopback
import AtcHdlc.TestCodec
import AtcHdlc.VirtualCom
