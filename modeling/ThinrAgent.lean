import ThinrAgent.Proofs.CrashLoop
import ThinrAgent.Proofs.OpenTrial
import ThinrAgent.Proofs.Recoverability
import ThinrAgent.Proofs.FailedRollback
import ThinrAgent.Proofs.StateFiles
import ThinrAgent.Proofs.RemotePolicy
import ThinrAgent.Proofs.Checksum
import ThinrAgent.Proofs.Quarantine
import ThinrAgent.Proofs.Publisher
import ThinrAgent.Proofs.StartUp
import ThinrAgent.Proofs.StateDir
import ThinrAgent.Proofs.Settings
import ThinrAgent.Proofs.SameRequest
import ThinrAgent.Proofs.AtomicWrite
import ThinrAgent.Proofs.TwoPartStore
import ThinrAgent.Proofs.Reconfigure
import ThinrAgent.Proofs.Scripts
import ThinrAgent.Proofs.Dispatcher
import ThinrAgent.Proofs.ReportDelivery
import ThinrAgent.Proofs.Panic
import ThinrAgent.Proofs.DeviceFraction
import ThinrAgent.Proofs.Records
import ThinrAgent.Proofs.FanOut
import ThinrAgent.Proofs.Monitoring
import ThinrAgent.Proofs.FormBody
import ThinrAgent.Proofs.DeviceFlow
import ThinrAgent.Proofs.AlarmRules
import ThinrAgent.Proofs.JwtPayload
import ThinrAgent.Proofs.PolicyCommand
import ThinrAgent.Proofs.RcConf
import ThinrAgent.Proofs.InstallCommand
import ThinrAgent.Proofs.InteractiveSetup
import ThinrAgent.Proofs.Channel
import ThinrAgent.Proofs.StoreCrashes
import ThinrAgent.Proofs.OneApply
import ThinrAgent.Proofs.PollLoop
import ThinrAgent.Proofs.FreezeHistory
import ThinrAgent.Proofs.DeviceId
import ThinrAgent.Proofs.PanicRun
import ThinrAgent.Proofs.SingleFlows
import ThinrAgent.Proofs.NoTrace
import ThinrAgent.Proofs.Exclusion
