import Ca1MotorCtrl.Cia402

/-! The CiA 402 power state machine on its own terms: six states that a drive
can rest in, the device control command that a Controlword carries, and a
transition table. States that only occur inside an operation, or not at all,
cannot be built here. -/
namespace Ca1MotorCtrl

inductive PowerState where
  | switchOnDisabled
  | readyToSwitchOn
  | switchedOn
  | operationEnabled
  | quickStopActive
  | fault
  deriving DecidableEq, Repr

def PowerState.toDriveState : PowerState → DriveState
  | .switchOnDisabled => .switchOnDisabled
  | .readyToSwitchOn => .readyToSwitchOn
  | .switchedOn => .switchedOn
  | .operationEnabled => .operationEnabled
  | .quickStopActive => .quickStopActive
  | .fault => .fault

theorem PowerState.toDriveState_injective : Function.Injective toDriveState := by
  intro a b h
  cases a <;> cases b <;> first | rfl | cases h

@[simp] theorem PowerState.toDriveState_inj {a b : PowerState} :
    a.toDriveState = b.toDriveState ↔ a = b :=
  toDriveState_injective.eq_iff

/-- The transient and undefined states are not resting states. -/
theorem PowerState.toDriveState_resting (power : PowerState) :
    power.toDriveState ≠ .notReadyToSwitchOn ∧ power.toDriveState ≠ .faultReactionActive ∧
      power.toDriveState ≠ .unknown := by
  cases power <;> decide

/-- Device control commands. `reserved` is the one pattern of the low four
bits that commands nothing. -/
inductive Command where
  | shutdown
  | switchOn
  | enableOperation
  | disableVoltage
  | quickStop
  | reserved
  deriving DecidableEq, Repr

/-- The command in bits 0 to 3 of a Controlword. -/
def Command.ofWord (cw : UInt16) : Command :=
  if cw &&& 0x02 = 0 then .disableVoltage
  else if cw &&& 0x06 = 0x02 then .quickStop
  else if cw &&& 0x0F = 0x06 then .shutdown
  else if cw &&& 0x0F = 0x07 then .switchOn
  else if cw &&& 0x0F = 0x0F then .enableOperation
  else .reserved

/-- A submask of the low nibble sees the low nibble only. -/
theorem and_eq_of_nibble {cw nibble mask : UInt16} (hNibble : cw &&& 0x0F = nibble)
    (hMask : 0x0F &&& mask = mask) : cw &&& mask = nibble &&& mask := by
  rw [← hNibble, UInt16.and_assoc, hMask]

namespace Command

theorem ofWord_eq_disableVoltage_iff (cw : UInt16) :
    ofWord cw = .disableVoltage ↔ cw &&& 0x02 = 0 := by
  unfold ofWord
  split_ifs <;> simp_all

theorem ofWord_eq_quickStop_iff (cw : UInt16) :
    ofWord cw = .quickStop ↔ cw &&& 0x06 = 0x02 := by
  constructor
  · unfold ofWord
    split_ifs <;> simp_all
  · intro h
    have hEnable : cw &&& 0x02 = 0x02 := calc
      cw &&& 0x02 = cw &&& 0x06 &&& 0x02 := by rw [UInt16.and_assoc]; rfl
      _ = 0x02 := by rw [h]; rfl
    simp [ofWord, hEnable, h]

/-- The commands that fix the whole low nibble. -/
theorem ofWord_of_nibble {cw : UInt16} {nibble : UInt16} (hNibble : cw &&& 0x0F = nibble) :
    ofWord cw = ofWord nibble := by
  have hSelf : nibble &&& 0x0F = nibble := by
    rw [← hNibble, UInt16.and_assoc]
    rfl
  have hTwo : cw &&& 0x02 = nibble &&& 0x02 := and_eq_of_nibble hNibble rfl
  have hSix : cw &&& 0x06 = nibble &&& 0x06 := and_eq_of_nibble hNibble rfl
  simp only [ofWord, hTwo, hSix, hNibble, hSelf]

theorem ofWord_eq_shutdown_iff (cw : UInt16) : ofWord cw = .shutdown ↔ cw &&& 0x0F = 0x06 := by
  refine ⟨?_, fun h => (ofWord_of_nibble h).trans rfl⟩
  unfold ofWord
  split_ifs <;> simp_all

theorem ofWord_eq_switchOn_iff (cw : UInt16) : ofWord cw = .switchOn ↔ cw &&& 0x0F = 0x07 := by
  refine ⟨?_, fun h => (ofWord_of_nibble h).trans rfl⟩
  unfold ofWord
  split_ifs <;> simp_all

theorem ofWord_eq_enableOperation_iff (cw : UInt16) :
    ofWord cw = .enableOperation ↔ cw &&& 0x0F = 0x0F := by
  refine ⟨?_, fun h => (ofWord_of_nibble h).trans rfl⟩
  unfold ofWord
  split_ifs <;> simp_all

/-- The words that the controller writes. -/
@[simp] theorem ofWord_shutdown : ofWord 0x06 = .shutdown := by decide

@[simp] theorem ofWord_switchOn : ofWord 0x07 = .switchOn := by decide

@[simp] theorem ofWord_enableOperation : ofWord 0x0F = .enableOperation := by decide

@[simp] theorem ofWord_disableVoltage : ofWord 0x00 = .disableVoltage := by decide

@[simp] theorem ofWord_faultReset : ofWord 0x80 = .disableVoltage := by decide

end Command

/-- Fault reset is a rising edge on bit 7, relative to the word applied before. -/
def risingEdge (prev cw : UInt16) : Bool :=
  (cw &&& Controlword.faultResetBit != 0) && !(prev &&& Controlword.faultResetBit != 0)

theorem risingEdge_iff (prev cw : UInt16) :
    risingEdge prev cw = true ↔ cw &&& 0x80 ≠ 0 ∧ prev &&& 0x80 = 0 := by
  simp [risingEdge, Controlword.faultResetBit]

/-- A word is never a rising edge over itself. -/
@[simp] theorem risingEdge_self (cw : UInt16) : risingEdge cw cw = false := by
  simp [risingEdge]

namespace PowerState

/-- The transition table. Disable Voltage leads to Switch On Disabled from
every state, and Shutdown toggles between the two lowest states. -/
def next : PowerState → Command → PowerState
  | _, .disableVoltage => .switchOnDisabled
  | .switchOnDisabled, .shutdown => .readyToSwitchOn
  | .readyToSwitchOn, .switchOn => .switchedOn
  | .readyToSwitchOn, .shutdown => .switchOnDisabled
  | .switchedOn, .enableOperation => .operationEnabled
  | .switchedOn, .shutdown => .readyToSwitchOn
  | .switchedOn, .quickStop => .quickStopActive
  | .operationEnabled, .switchOn => .switchedOn
  | .operationEnabled, .shutdown => .readyToSwitchOn
  | .operationEnabled, .quickStop => .quickStopActive
  | .quickStopActive, .enableOperation => .operationEnabled
  | state, _ => state

/-- The state after a word with or without a fault-reset edge is applied. -/
def apply (state : PowerState) (edge : Bool) (cw : UInt16) : PowerState :=
  if edge && state == .fault then .switchOnDisabled else state.next (.ofWord cw)

theorem apply_of_ne_fault {state : PowerState} (h : state ≠ .fault) (edge : Bool) (cw : UInt16) :
    state.apply edge cw = state.next (.ofWord cw) := by
  simp [apply, h]

/-- Operation Enabled is entered by Enable Operation only, and from two states. -/
theorem next_eq_operationEnabled_iff (state : PowerState) (command : Command)
    (h : state ≠ .operationEnabled) :
    state.next command = .operationEnabled ↔
      command = .enableOperation ∧ (state = .switchedOn ∨ state = .quickStopActive) := by
  cases state <;> cases command <;> simp_all [next]

theorem apply_eq_operationEnabled_iff (state : PowerState) (edge : Bool) (cw : UInt16)
    (h : state ≠ .operationEnabled) :
    state.apply edge cw = .operationEnabled ↔
      Command.ofWord cw = .enableOperation ∧ (state = .switchedOn ∨ state = .quickStopActive) := by
  by_cases hFault : state = .fault
  · subst hFault
    cases edge <;> cases hc : Command.ofWord cw <;> simp [apply, next, hc]
  · rw [apply_of_ne_fault hFault, next_eq_operationEnabled_iff state _ h]

/-- No word leads into Fault. -/
theorem apply_ne_fault {state : PowerState} (h : state ≠ .fault) (edge : Bool) (cw : UInt16) :
    state.apply edge cw ≠ .fault := by
  rw [apply_of_ne_fault h]
  cases state <;> cases Command.ofWord cw <;> simp_all [next]

/-- A drive leaves Fault by a fault-reset edge or by Disable Voltage. -/
theorem apply_fault_ne_fault_iff (edge : Bool) (cw : UInt16) :
    fault.apply edge cw ≠ .fault ↔ edge = true ∨ Command.ofWord cw = .disableVoltage := by
  cases edge <;> cases hc : Command.ofWord cw <;> simp [apply, next, hc]

end PowerState

end Ca1MotorCtrl
