import Ca1MotorCtrl.Simulator.DriveSimulator

/-! The two dictionary services: the messages of `OdRead.srv` and `OdWrite.srv`,
the handlers of the simulator node, and the services as a client meets them. -/
namespace Ca1MotorCtrl

/-- A response message starts with the default values of its fields. -/
structure OdReadResponse where
  value : OdValue := 0
  success : Bool := false
  message : String := ""
  abortCode : UInt32 := 0
  deriving DecidableEq, Repr

structure OdWriteResponse where
  success : Bool := false
  message : String := ""
  abortCode : UInt32 := 0
  deriving DecidableEq, Repr

/-- What a client can ask for. A response that does not arrive in time is
`none`, whether or not the server has executed the request. -/
structure Services (Server : Type) where
  odRead : Server → UInt16 → UInt8 → Server × Option OdReadResponse
  odWrite : Server → UInt16 → UInt8 → OdValue → Server × Option OdWriteResponse

namespace DriveSimulator
variable {R : Type}

def handleRead (s : DriveSimulator R) (index : UInt16) (subindex : UInt8) : OdReadResponse :=
  match s.read index subindex with
  | .ok value => { value := value, success := true, message := "" }
  | .error e => { value := 0, success := false, message := e.message, abortCode := e.abortCode }

def handleWrite (s : DriveSimulator R) (index : UInt16) (subindex : UInt8) (value : OdValue) :
    DriveSimulator R × OdWriteResponse :=
  match s.write index subindex value with
  | .ok next => (next, { success := true, message := "", abortCode := 0 })
  | .error e => (s, { success := false, message := e.message, abortCode := e.abortCode })

/-- The simulator node behind a transport that loses and delays nothing. -/
def services : Services (DriveSimulator R) where
  odRead s index subindex := (s, some (s.handleRead index subindex))
  odWrite s index subindex value :=
    let (next, response) := s.handleWrite index subindex value
    (next, some response)

theorem handleWrite_fst (A : DoubleArith R) (s : DriveSimulator R) (index : UInt16)
    (subindex : UInt8) (value : OdValue) :
    (s.handleWrite index subindex value).1 = s.step A (.write index subindex value) := by
  simp only [handleWrite, step]
  cases s.write index subindex value <;> rfl

end DriveSimulator

end Ca1MotorCtrl
