import Ok3506.Lib.Base64
import Ok3506.Lib.Hex
import Ok3506.Lib.Loop
import Ok3506.Lib.Machine
import Ok3506.Gnss.Progress
import Ok3506.Gnss.HexOnce
import Ok3506.Gnss.Delivery
import Ok3506.Gnss.Survival
import Ok3506.Gnss.Ephemeris
import Ok3506.Gnss.Posdata
import Ok3506.Gnss.Dispatch
import Ok3506.Gnss.Mirror
import Ok3506.Gnss.CalcType
import Ok3506.Gnss.Recording
import Ok3506.Gnss.Bd3
import Ok3506.Gnss.Angles
import Ok3506.Gnss.CrcBitwise
import Ok3506.Gnss.BitWords
import Ok3506.Gnss.RawBounds
import Ok3506.Gnss.NmeaBytes
import Ok3506.Gnss.Console
import Ok3506.Gnss.Prangeb
import Ok3506.Gnss.NmeaClock
import Ok3506.Gnss.NmeaJournal
import Ok3506.Gnss.GsvFrame
import Ok3506.Gnss.EphCsv
import Ok3506.Comm.Language
import Ok3506.Comm.Commands
import Ok3506.Comm.EphSwitch
import Ok3506.Comm.Queues
import Ok3506.Comm.MqttThreads
import Ok3506.Comm.MqttPacket
import Ok3506.Comm.TcpStreams
import Ok3506.Comm.MqttStreams
import Ok3506.Comm.Corruption
import Ok3506.Eth4g.Bringup
import Ok3506.Eth4g.Led
import Ok3506.Dbb.Uplink
import Ok3506.Dbb.Downlink
import Ok3506.Dbb.Ssr
import Ok3506.Dbb.Listenings
import Ok3506.Dbb.Online
import Ok3506.Dbb.Modes
import Ok3506.Dbb.Telephone
import Ok3506.Dbb.HexBuffers
import Ok3506.Dbb.Base64Text
import Ok3506.Devices
import Ok3506.Telemetry
import Ok3506.Recorder
import Ok3506.At.Capture
import Ok3506.At.ResultCode
