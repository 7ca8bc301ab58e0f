import Mathlib.Tactic.Common

/-! Protocol types and constants of `cia402.hpp`, shared by the drive
simulator and the drive controller. -/
namespace Ca1MotorCtrl

/-- Entry address: 16-bit index and 8-bit subindex packed into a 32-bit key. -/
abbrev OdAddress := UInt32

/-- Raw object value; every object is a signed 32-bit integer. -/
abbrev OdValue := Int32

namespace Cia402Index

def controlword : UInt16 := 0x6040
def statusword : UInt16 := 0x6041
def modesOfOperation : UInt16 := 0x6060
def modesOfOperationDisplay : UInt16 := 0x6061
def targetVelocity : UInt16 := 0x60FF
def velocityActual : UInt16 := 0x606C
def positionActual : UInt16 := 0x6064
def targetPosition : UInt16 := 0x607A
def profileAcceleration : UInt16 := 0x6083
def profileDeceleration : UInt16 := 0x6084
def maxMotorSpeed : UInt16 := 0x6080
def errorCode : UInt16 := 0x603F

end Cia402Index

inductive DriveState where
  | notReadyToSwitchOn
  | switchOnDisabled
  | readyToSwitchOn
  | switchedOn
  | operationEnabled
  | quickStopActive
  | faultReactionActive
  | fault
  | unknown
  deriving DecidableEq, Repr

/-- `to_string(DriveState)`. -/
def DriveState.toString : DriveState → String
  | .notReadyToSwitchOn => "Not Ready to Switch On"
  | .switchOnDisabled => "Switch On Disabled"
  | .readyToSwitchOn => "Ready to Switch On"
  | .switchedOn => "Switched On"
  | .operationEnabled => "Operation Enabled"
  | .quickStopActive => "Quick Stop Active"
  | .faultReactionActive => "Fault Reaction Active"
  | .fault => "Fault"
  | .unknown => "Unknown"

namespace Controlword

def shutdown : UInt16 := 0x0006
def switchOn : UInt16 := 0x0007
def enableOperation : UInt16 := 0x000F
def disableVoltage : UInt16 := 0x0000
def quickStop : UInt16 := 0x0002
def faultResetBit : UInt16 := 0x0080

end Controlword

namespace Statusword

def readyToSwitchOn : UInt16 := 0x0001
def switchedOn : UInt16 := 0x0002
def operationEnabled : UInt16 := 0x0004
def fault : UInt16 := 0x0008
def voltageEnabled : UInt16 := 0x0010
def quickStop : UInt16 := 0x0020
def switchOnDisabled : UInt16 := 0x0040

end Statusword

namespace ModeOfOperation

def profileVelocity : Int8 := 3

end ModeOfOperation

namespace ErrorCode

def generic : UInt32 := 0x3210
def overspeed : UInt32 := 0x8480
def sensorTimeout : UInt32 := 0xFF01

end ErrorCode

/-- Integral conversion of an unsigned 16-bit constant to an object value. -/
def odValueOfUInt16 (word : UInt16) : OdValue := word.toUInt32.toInt32

/-- `static_cast<uint16_t>`: the low 16 bits of an object value. -/
def lowWord (value : OdValue) : UInt16 := value.toUInt32.toUInt16

/-- Thrown on an access that the object dictionary does not allow; carries
the SDO abort code. -/
structure OdAccessError where
  message : String
  abortCode : UInt32
  deriving DecidableEq, Repr

/-- `snprintf` of `0x%0{width}X`. -/
def hexString (width value : Nat) : String :=
  let digits := (Nat.toDigits 16 value).map Char.toUpper
  "0x" ++ String.ofList (List.replicate (width - digits.length) '0' ++ digits)

def hex16 (v : UInt16) : String := hexString 4 v.toNat

def hex8 (v : UInt8) : String := hexString 2 v.toNat

example : hex16 0x603F = "0x603F" := by decide

/-- A text cut to a buffer of `size` bytes with its terminator, for ASCII texts. -/
def truncated (size : Nat) (text : String) : String := String.ofList (text.toList.take (size - 1))

end Ca1MotorCtrl
