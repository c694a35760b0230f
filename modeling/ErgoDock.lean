import ErgoDock.System
import ErgoDock.Controller
import ErgoDock.Detection
import ErgoDock.Runs
import ErgoDock.Arming
import ErgoDock.Outputs
import ErgoDock.Windows
import ErgoDock.Cycle
import ErgoDock.Bus
import ErgoDock.Lift
import ErgoDock.Commands
import ErgoDock.WakeWord
import ErgoDock.MfpFifo
import ErgoDock.Delivery
import ErgoDock.Desk
import ErgoDock.Queries
import ErgoDock.FotaTransfer
import ErgoDock.FotaSignature
import ErgoDock.BleFrames
import ErgoDock.Receiver
import ErgoDock.Settings
import ErgoDock.Coherence
import ErgoDock.Notifications
import ErgoDock.Serial
import ErgoDock.FrameFields
import ErgoDock.FrameChecks
import ErgoDock.CrcBits
import ErgoDock.LedPriority
import ErgoDock.LedPins
import ErgoDock.Pairing
import ErgoDock.VoiceConfig
import ErgoDock.SegmentTime
import ErgoDock.Rtc
import ErgoDock.Gestures
import ErgoDock.Lib.Tally
import ErgoDock.Counters
import ErgoDock.SnoreCounts
import ErgoDock.VoiceCounts
import ErgoDock.LedRequests
import ErgoDock.LedDurations
import ErgoDock.FotaCoverage
import ErgoDock.ReportFrames
import ErgoDock.SleepRecords
import ErgoDock.SnoreVolumes
import ErgoDock.ReportSessions
import ErgoDock.ProtobufBounds
import ErgoDock.ProtobufRoundTrip
import ErgoDock.FotaBoot
import ErgoDock.CdllLists
import ErgoDock.SwTimerSchedule
import ErgoDock.SwFifo
import ErgoDock.Lsi
import ErgoDock.RtcCalibration
import ErgoDock.SwTimerSleep
