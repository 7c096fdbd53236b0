import SecureComm.Library.Machine
import SecureComm.Library.System
import SecureComm.Library.Monitor
import SecureComm.Library.MessageQueue
import SecureComm.Library.Deduction
import SecureComm.Library.Ostream
import SecureComm.Common
import SecureComm.Sender
import SecureComm.Frames
import SecureComm.SenderPoints
import SecureComm.Receiver
import SecureComm.ReceiveLoop
import SecureComm.ReceiverPoints
import SecureComm.Sessions
import SecureComm.Channels
import SecureComm.SenderRuns
import SecureComm.Isolation
import SecureComm.SharedNames
import SecureComm.HonestSession
import SecureComm.Stages
import SecureComm.Delivery
import SecureComm.Progress
import SecureComm.KeyAgreement
import SecureComm.Symbolic
import SecureComm.Analysis
import SecureComm.Authenticity
import SecureComm.ReceiverRuns
import SecureComm.BotanLaws
import SecureComm.Verdicts
import SecureComm.FrameRuns
import SecureComm.MacReuse
import SecureComm.KeyInstallation
import SecureComm.ExitStatus
import SecureComm.Descriptors
import SecureComm.Threads
import SecureComm.QueueHistory
import SecureComm.Blocked
import SecureComm.Failures
import SecureComm.Leftovers
import SecureComm.Transcripts
import SecureComm.Terminal
import SecureComm.Network
import SecureComm.Exposure
import SecureComm.Imposture
