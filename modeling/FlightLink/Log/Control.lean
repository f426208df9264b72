/-
# Controlling a remote log

A remote logger is started and stopped by a command, and told the rates of its
plain and its acknowledged data. Somebody else carries the request and says how it
ended; a control turns that into the few results its users tell apart.

Key definitions: `Request`, `CommandResult`, `ControlResult`, `Control.request`,
`Control.perform`.
-/
import FlightLink.Trace
import FlightLink.Wire.Payload

namespace FlightLink
namespace Log

/-- What can be asked of a remote logger. -/
inductive Action where
  | start
  | stop
  /-- The rate of data that is not acknowledged. -/
  | rate (hz : Float)
  /-- The rate of data that is acknowledged. -/
  | rateAcked (hz : Float)
  deriving Repr

/-- A request as it is carried. -/
inductive Request where
  | command (target : Wire.Identity) (command : UInt16) (params : Vector Float 7)
  | messageRate (id : Wire.MessageId) (hz : Float)
  deriving Repr

/-- How a request ended. -/
inductive CommandResult where
  | success
  | noSystem
  | connectionError
  | busy
  | commandDenied
  | unsupported
  | timeout
  | inProgress
  | failed
  deriving DecidableEq, Repr

namespace CommandResult

def name : CommandResult → String
  | success => "Success"
  | noSystem => "NoSystem"
  | connectionError => "ConnectionError"
  | busy => "Busy"
  | commandDenied => "CommandDenied"
  | unsupported => "Unsupported"
  | timeout => "Timeout"
  | inProgress => "InProgress"
  | failed => "Failed"

/-- All ways a request can end. -/
def all : List CommandResult :=
  [success, noSystem, connectionError, busy, commandDenied, unsupported, timeout, inProgress,
    failed]

end CommandResult

/-- How controlling the log ended. -/
inductive ControlResult where
  | success
  | noSystem
  | connectionError
  | busy
  | commandDenied
  | timeout
  | unknown
  deriving DecidableEq, Repr

namespace ControlResult

/-- The result of a request that ended so. -/
def ofCommand : CommandResult → ControlResult
  | .success => success
  | .noSystem => noSystem
  | .connectionError => connectionError
  | .busy => busy
  | .commandDenied => commandDenied
  | .timeout => timeout
  | .unsupported | .inProgress | .failed => unknown

def name : ControlResult → String
  | success => "Success"
  | noSystem => "NoSystem"
  | connectionError => "ConnectionError"
  | busy => "Busy"
  | commandDenied => "CommandDenied"
  | timeout => "Timeout"
  | unknown => "Unknown"

/-- The result for people. -/
def describe : ControlResult → String
  | success => "Success"
  | noSystem => "No system connected"
  | connectionError => "Connection error"
  | busy => "System busy"
  | commandDenied => "Command denied"
  | timeout => "Timeout"
  | unknown => "Unknown"

end ControlResult

/-- The control of the logger at `target`. -/
structure Control where
  target : Wire.Identity
  deriving DecidableEq, Repr

namespace Control

def startCommand : UInt16 := 2510

def stopCommand : UInt16 := 2511

/-- The request for an action. Commands have no parameters, so all are zero. -/
def request (c : Control) : Action → Request
  | .start => .command c.target startCommand (Vector.replicate 7 0.0)
  | .stop => .command c.target stopCommand (Vector.replicate 7 0.0)
  | .rate hz => .messageRate Wire.LogData.id hz
  | .rateAcked hz => .messageRate Wire.LogData.ackedId hz

open Trace.Value in
/-- The end of a request as a log record. -/
def record (ended : CommandResult) : Request → Trace.Record
  | .command _ command _ =>
    ⟨.debug, "logging command finished",
      [("command", count command.toNat), ("result", text ended.name)]⟩
  | .messageRate id hz =>
    ⟨.debug, "logging rate request finished",
      [("msg_id", count id.toNat), ("rate_hz", real hz), ("result", text ended.name)]⟩

/-- Have an action carried out by `carry`, which says how its request ended. -/
def perform (c : Control) (carry : Request → CommandResult) (action : Action) :
    Request × ControlResult × Trace.Record :=
  let request := c.request action
  let ended := carry request
  (request, .ofCommand ended, record ended request)

/-- A control in words. -/
def describe (c : Control) : String :=
  "LoggingControl \x7b target: " ++ c.target.describe ++ ", .. \x7d"

end Control

end Log
end FlightLink
