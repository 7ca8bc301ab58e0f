import Ca1MotorCtrl.Drive.Refinement

/-! What an operation does to the power state machine: apply a Controlword,
raise a fault, restart, or nothing. The four fault-related functions of the
simulator and both ways to apply a word become one transition on the state,
the edge reference and ERROR_CODE. -/
namespace Ca1MotorCtrl

inductive Effect where
  | idle
  | applied (cw : UInt16)
  | raised (code : UInt32)
  | restarted
  deriving DecidableEq, Repr

namespace DriveSimulator
variable {R : Type} (A : DoubleArith R)

/-- The over-speed test of the next physics update. -/
def overspeed (s : DriveSimulator R) (dt : R) : Bool :=
  let operand (index : UInt16) : R := A.ofOdValue (s.odAt (makeKey index 0)).1.value
  s.isOperationEnabled &&
    A.lt (operand Cia402Index.maxMotorSpeed)
      (A.abs (ramp A (operand Cia402Index.velocityActual) (operand Cia402Index.targetVelocity)
        (operand Cia402Index.profileAcceleration) (operand Cia402Index.profileDeceleration) dt))

/-- The word that the operation hands to `process_controlword`, or the code of
the fault that it raises. -/
def effect (s : DriveSimulator R) : Operation R → Effect
  | .read _ _ => .idle
  | .write index subindex value =>
      match s.write index subindex value with
      | .ok _ =>
          if index = Cia402Index.controlword ∧ subindex = 0 ∧ s.deferredFsm = false then
            .applied (lowWord value)
          else .idle
      | .error _ => .idle
  | .update dt => if s.overspeed A dt then .raised ErrorCode.overspeed else .idle
  | .updateFsm =>
      if s.cwPending then .applied (lowWord (s.odAt (makeKey Cia402Index.controlword 0)).1.value)
      else .idle
  | .setFsmDeferred _ => .idle
  | .reset => .restarted
  | .injectFault => .raised ErrorCode.generic
  | .injectOverspeedFault => .raised ErrorCode.overspeed
  | .injectSensorTimeoutFault => .raised ErrorCode.sensorTimeout

end DriveSimulator

/-- The part of a drive that the power state machine works on. -/
structure PowerCore where
  power : PowerState
  prevControlword : UInt16
  errorCode : OdValue
  deriving DecidableEq, Repr

def PowerCore.act (c : PowerCore) : Effect → PowerCore
  | .idle => c
  | .applied cw =>
      let edge := risingEdge c.prevControlword cw
      { power := c.power.apply edge cw
        prevControlword := cw
        errorCode := if edge && c.power == .fault then 0 else c.errorCode }
  | .raised code => { c with power := .fault, errorCode := code.toInt32 }
  | .restarted => ⟨.switchOnDisabled, 0, 0⟩

namespace Drive
variable {R : Type} (A : DoubleArith R)

def core (d : Drive R) : PowerCore := ⟨d.power, d.prevControlword, d.errorCode⟩

/-- The effect of an operation, read off the abstract drive. -/
def effect (d : Drive R) : Operation R → Effect
  | .write index subindex v =>
      if index = Object.controlword.index ∧ subindex = 0 ∧ d.mode = .immediate then
        .applied (lowWord v)
      else .idle
  | .update dt =>
      if d.power = .operationEnabled ∧ d.overspeed A dt then .raised ErrorCode.overspeed else .idle
  | .updateFsm => if d.mode = .deferred true then .applied (lowWord d.controlword) else .idle
  | .reset => .restarted
  | .injectFault => .raised ErrorCode.generic
  | .injectOverspeedFault => .raised ErrorCode.overspeed
  | .injectSensorTimeoutFault => .raised ErrorCode.sensorTimeout
  | .read _ _ | .setFsmDeferred _ => .idle

theorem overspeed_toSimulator (d : Drive R) (dt : R) :
    (d.toSimulator A).overspeed A dt =
      (decide (d.power = .operationEnabled) && d.overspeed A dt) := by
  simp only [DriveSimulator.overspeed, isOperationEnabled_toSimulator, makeKey_index,
    odAt_toSimulator, value]
  rfl

theorem effect_toSimulator (d : Drive R) (op : Operation R) :
    (d.toSimulator A).effect A op = d.effect A op := by
  cases op with
  | write index subindex v =>
      have hDeferred : (d.toSimulator A).deferredFsm = false ↔ d.mode = .immediate := by
        rw [toSimulator]
        cases d.mode <;> simp [FsmMode.isDeferred]
      by_cases hWord : index = Object.controlword.index ∧ subindex = 0
      · obtain ⟨rfl, rfl⟩ := hWord
        simp only [DriveSimulator.effect, effect, hDeferred,
          write_toSimulator A d .controlword v rfl]
        simp [Object.index]
      · have hIndex : ¬(index = Cia402Index.controlword ∧ subindex = 0 ∧
            (d.toSimulator A).deferredFsm = false) := fun h => hWord ⟨h.1, h.2.1⟩
        have hIndex' : ¬(index = Object.controlword.index ∧ subindex = 0 ∧
            d.mode = .immediate) := fun h => hWord ⟨h.1, h.2.1⟩
        simp only [DriveSimulator.effect, effect, if_neg hIndex, if_neg hIndex']
        split <;> rfl
  | update dt => simp [DriveSimulator.effect, effect, overspeed_toSimulator]
  | updateFsm =>
      simp only [DriveSimulator.effect, effect, makeKey_index, odAt_toSimulator, value,
        cwPending_toSimulator]
  | _ => rfl

/-- Every operation acts on the power state machine through its effect. -/
theorem core_step (d : Drive R) (op : Operation R) :
    (d.step A op).core = d.core.act (d.effect A op) := by
  cases op with
  | write index subindex v =>
      cases hObject : Object.ofKey? (makeKey index subindex) with
      | none =>
          have hWord :
              ¬(index = Object.controlword.index ∧ subindex = 0 ∧ d.mode = .immediate) := by
            rintro ⟨rfl, rfl, -⟩
            cases hObject
          simp only [step, effect, hObject, if_neg hWord]
          rfl
      | some o =>
          obtain ⟨rfl, rfl⟩ := (ofKey?_makeKey_eq_some_iff index subindex o).mp hObject
          simp only [step, effect, hObject, true_and]
          cases o with
          | controlword => cases hMode : d.mode <;> simp [store, hMode] <;> rfl
          | _ => rfl
  | update dt =>
      simp only [step, update, effect]
      by_cases hOn : d.power = .operationEnabled
      · cases hOver : d.overspeed A dt <;> simp [hOn, core, PowerCore.act, raiseFault]
      · simp only [hOn, false_and, if_false]
        rfl
  | updateFsm =>
      simp only [step, updateFsm, effect]
      rcases d.mode with _ | (_ | _) <;> rfl
  | _ => rfl

theorem power_step (d : Drive R) (op : Operation R) :
    (d.step A op).power = (d.core.act (d.effect A op)).power :=
  congrArg PowerCore.power (d.core_step A op)

/-- A physics update raises an over-speed fault or is invisible. -/
theorem effect_update (d : Drive R) (dt : R) :
    d.effect A (.update dt) = .raised ErrorCode.overspeed ∨ d.effect A (.update dt) = .idle := by
  simp only [effect]
  split
  · exact Or.inl rfl
  · exact Or.inr rfl

/-- Only a Controlword write or a tick applies a word. -/
theorem op_of_effect_applied (d : Drive R) (op : Operation R) {cw : UInt16}
    (h : d.effect A op = .applied cw) :
    op = .updateFsm ∨ ∃ v, op = .write Cia402Index.controlword 0 v := by
  cases op with
  | updateFsm => exact Or.inl rfl
  | write index subindex v =>
      simp only [effect] at h
      split at h
      next hWord => exact Or.inr ⟨v, by rw [hWord.1, hWord.2.1]; rfl⟩
      next => cases h
  | update dt => rcases d.effect_update A dt with hEffect | hEffect <;> simp [hEffect] at h
  | _ => cases h

end Drive

end Ca1MotorCtrl
