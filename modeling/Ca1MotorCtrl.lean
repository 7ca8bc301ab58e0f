import Ca1MotorCtrl.Simulator.Consistency
import Ca1MotorCtrl.Simulator.FaultLatch
import Ca1MotorCtrl.Simulator.Handshake
import Ca1MotorCtrl.Simulator.DeferredMode
import Ca1MotorCtrl.Simulator.Restart
import Ca1MotorCtrl.Simulator.Resend
import Ca1MotorCtrl.Simulator.SpeedLimit
import Ca1MotorCtrl.Simulator.Rest
import Ca1MotorCtrl.Simulator.Ramp
import Ca1MotorCtrl.Simulator.Toward
import Ca1MotorCtrl.Simulator.Mirror
import Ca1MotorCtrl.Simulator.Travel
import Ca1MotorCtrl.Simulator.PositionRange
import Ca1MotorCtrl.Simulator.AccessLaw
import Ca1MotorCtrl.Simulator.ReservedBits
import Ca1MotorCtrl.Simulator.Pending
import Ca1MotorCtrl.Simulator.EventLog
import Ca1MotorCtrl.Controller.Decoding
import Ca1MotorCtrl.Loop.Poll
import Ca1MotorCtrl.Loop.Revocation
import Ca1MotorCtrl.Loop.Settling
import Ca1MotorCtrl.Loop.Setpoint
import Ca1MotorCtrl.Loop.Configuration
import Ca1MotorCtrl.Loop.ManualAccess
import Ca1MotorCtrl.WebUi.EnableFlag
import Ca1MotorCtrl.WebUi.EventLog
import Ca1MotorCtrl.Simulator.StateGraph
import Ca1MotorCtrl.Loop.UsageExample
import Ca1MotorCtrl.Loop.Linearization
import Ca1MotorCtrl.Loop.Diagnostics
import Ca1MotorCtrl.Loop.Announcements
import Ca1MotorCtrl.Loop.FaultReports
import Ca1MotorCtrl.Loop.FaultEvents
import Ca1MotorCtrl.Loop.Velocity
import Ca1MotorCtrl.Loop.Tracking
import Ca1MotorCtrl.Loop.SafeStop
import Ca1MotorCtrl.Loop.Lifecycle
import Ca1MotorCtrl.WebUi.EnableButton
import Ca1MotorCtrl.WebUi.Telemetry
import Ca1MotorCtrl.WebUi.Charts
import Ca1MotorCtrl.WebUi.CommandLine
import Ca1MotorCtrl.WebUi.FaultButtons
