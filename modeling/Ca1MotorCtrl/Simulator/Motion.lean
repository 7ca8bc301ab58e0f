import Ca1MotorCtrl.Drive.Refinement

/-! The part of a simulator that the physics works on. Whatever the dictionary
of a simulator contains, one update changes the velocity, the position and the
permission to move in the way that depends on these seven fields only. -/
namespace Ca1MotorCtrl

/-- What `update` reads and writes, apart from ERROR_CODE and the reported
position. -/
structure Motion (R : Type) where
  enabled : Bool
  velocity : OdValue
  target : OdValue
  acceleration : OdValue
  deceleration : OdValue
  limit : OdValue
  position : R

namespace Motion
variable {R : Type} (A : DoubleArith R)

/-- The velocity after `dt` on the ramp, before rounding. -/
def ramped (m : Motion R) (dt : R) : R :=
  DriveSimulator.ramp A (A.ofOdValue m.velocity) (A.ofOdValue m.target)
    (A.ofOdValue m.acceleration) (A.ofOdValue m.deceleration) dt

def overspeed (m : Motion R) (dt : R) : Bool :=
  A.lt (A.ofOdValue m.limit) (A.abs (m.ramped A dt))

/-- The velocity of a disabled drive after one update, before rounding. -/
def decaying (m : Motion R) : R := A.mul (A.ofOdValue m.velocity) (A.literal (9 / 10))

/-- One update: a disabled drive decays, an enabled one ramps or faults. -/
def advance (m : Motion R) (dt : R) : Motion R :=
  if m.enabled then
    if m.overspeed A dt then { m with enabled := false }
    else
      { m with
        velocity := A.toOdValue (A.round (m.ramped A dt))
        position := A.add m.position (A.mul (m.ramped A dt) dt) }
  else if m.velocity ≠ 0 then { m with velocity := A.toOdValue (A.round (m.decaying A)) }
  else m

/-- Only over-speed disables the drive. -/
theorem enabled_advance (m : Motion R) (dt : R) :
    (m.advance A dt).enabled = (m.enabled && !m.overspeed A dt) := by
  unfold advance
  split
  next hOn =>
    split
    next hOver => simp [hOver]
    next hOver => simp [hOn, hOver]
  next hOff => split <;> simp [hOff]

end Motion

namespace DriveSimulator
variable {R : Type} (s : DriveSimulator R)

/-- The entry that `od_[key]` refers to. -/
def entryAt (key : OdAddress) : OdEntry := (s.odAt key).1

/-- `od_[make_key(index, 0)].value`. -/
def entry (index : UInt16) : OdValue := (s.entryAt (makeKey index 0)).value

def motion : Motion R where
  enabled := s.isOperationEnabled
  velocity := s.entry Cia402Index.velocityActual
  target := s.entry Cia402Index.targetVelocity
  acceleration := s.entry Cia402Index.profileAcceleration
  deceleration := s.entry Cia402Index.profileDeceleration
  limit := s.entry Cia402Index.maxMotorSpeed
  position := s.positionActual

@[simp] theorem odAt_state (key : OdAddress) : (s.odAt key).2.state = s.state := rfl

@[simp] theorem odAt_positionActual (key : OdAddress) :
    (s.odAt key).2.positionActual = s.positionActual := rfl

@[simp] theorem odAt_entryAt (key key' : OdAddress) :
    (s.odAt key).2.entryAt key' = s.entryAt key' :=
  s.od.subscript_subscript_fst key key'

@[simp] theorem odAt_entry (key : OdAddress) (index : UInt16) :
    (s.odAt key).2.entry index = s.entry index :=
  congrArg OdEntry.value (s.odAt_entryAt key (makeKey index 0))

@[simp] theorem setValue_state (key : OdAddress) (value : OdValue) :
    (s.setValue key value).state = s.state := rfl

@[simp] theorem setValue_positionActual (key : OdAddress) (value : OdValue) :
    (s.setValue key value).positionActual = s.positionActual := rfl

theorem setValue_entryAt (key key' : OdAddress) (value : OdValue) :
    (s.setValue key value).entryAt key' =
      if key' = key then { s.entryAt key with value := value } else s.entryAt key' := by
  have hAssign := (s.odAt key).2.od.subscript_assign_fst key key'
    { (s.odAt key).1 with value := value }
  have hRead := s.odAt_entryAt key key'
  simp only [setValue, entryAt, odAt] at hAssign hRead ⊢
  rw [hAssign]
  split
  · rfl
  · exact hRead

@[simp] theorem setValue_entry (index index' : UInt16) (value : OdValue) :
    (s.setValue (makeKey index 0) value).entry index' =
      if index' = index then value else s.entry index' := by
  have hKey : makeKey index' 0 = makeKey index 0 ↔ index' = index := by simp [makeKey_inj]
  rw [entry, setValue_entryAt]
  simp only [hKey]
  split <;> rfl

@[simp] theorem setState_state (state : DriveState) : (s.setState state).state = state := rfl

@[simp] theorem setState_positionActual (state : DriveState) :
    (s.setState state).positionActual = s.positionActual := rfl

@[simp] theorem setState_entry (state : DriveState) (index : UInt16)
    (h : index ≠ Cia402Index.statusword) : (s.setState state).entry index = s.entry index := by
  rw [setState, setValue_entry, if_neg h]
  rfl

@[simp] theorem raiseFault_entry (code : UInt32) (index : UInt16)
    (hStatusword : index ≠ Cia402Index.statusword) (hErrorCode : index ≠ Cia402Index.errorCode) :
    (s.raiseFault code).entry index = s.entry index := by
  rw [raiseFault, setState_entry _ _ _ hStatusword, setState_entry _ _ _ hStatusword,
    setValue_entry, if_neg hErrorCode]

variable (A : DoubleArith R)

theorem motion_raiseFault (code : UInt32) :
    (s.raiseFault code).motion = { s.motion with enabled := false } := by
  have hEntry (index : UInt16) (hStatusword : index ≠ Cia402Index.statusword)
      (hErrorCode : index ≠ Cia402Index.errorCode) :
      (s.raiseFault code).entry index = s.entry index :=
    s.raiseFault_entry code index hStatusword hErrorCode
  rw [motion, motion, Motion.mk.injEq]
  exact ⟨rfl, hEntry _ (by decide) (by decide), hEntry _ (by decide) (by decide),
    hEntry _ (by decide) (by decide), hEntry _ (by decide) (by decide),
    hEntry _ (by decide) (by decide), rfl⟩

/-- The simulator after subscripts at some objects. -/
def touch (indices : List UInt16) : DriveSimulator R :=
  indices.foldl (fun s index => (s.odAt (makeKey index 0)).2) s

@[simp] theorem touch_state (indices : List UInt16) : (s.touch indices).state = s.state := by
  induction indices generalizing s with
  | nil => rfl
  | cons index indices ih => exact ih _

@[simp] theorem touch_positionActual (indices : List UInt16) :
    (s.touch indices).positionActual = s.positionActual := by
  induction indices generalizing s with
  | nil => rfl
  | cons index indices ih => exact ih _

@[simp] theorem touch_entry (indices : List UInt16) (index : UInt16) :
    (s.touch indices).entry index = s.entry index := by
  induction indices generalizing s with
  | nil => rfl
  | cons first indices ih => exact (ih _).trans (s.odAt_entry _ index)

@[simp] theorem touch_motion (indices : List UInt16) : (s.touch indices).motion = s.motion := by
  simp [motion, isOperationEnabled]

/-- A disabled drive lets its velocity decay. -/
theorem update_of_disabled (dt : R) (hOff : s.isOperationEnabled = false) :
    s.update A dt =
      if s.motion.velocity ≠ 0 then
        (s.touch [Cia402Index.velocityActual]).setValue (makeKey Cia402Index.velocityActual 0)
          (A.toOdValue (A.round (s.motion.decaying A)))
      else s.touch [Cia402Index.velocityActual] := by
  unfold update
  rw [hOff]
  rfl

/-- The objects whose entries an enabled update reads. -/
def rampObjects : List UInt16 :=
  [Cia402Index.targetVelocity, Cia402Index.velocityActual, Cia402Index.profileAcceleration,
    Cia402Index.profileDeceleration, Cia402Index.maxMotorSpeed]

/-- An enabled drive ramps its velocity, or trips over the limit. -/
theorem update_of_enabled (dt : R) (hOn : s.isOperationEnabled = true) :
    s.update A dt =
      if s.motion.overspeed A dt then (s.touch rampObjects).injectOverspeedFault
      else
        { (s.touch rampObjects).setValue (makeKey Cia402Index.velocityActual 0)
            (A.toOdValue (A.round (s.motion.ramped A dt))) with
          positionActual := A.add s.positionActual (A.mul (s.motion.ramped A dt) dt) }.setValue
            (makeKey Cia402Index.positionActual 0)
            (A.toOdValue (A.round (A.add s.positionActual (A.mul (s.motion.ramped A dt) dt)))) := by
  have hMotion : s.motion =
      { enabled := true
        velocity := (s.touch (rampObjects.take 1)).entry Cia402Index.velocityActual
        target := s.entry Cia402Index.targetVelocity
        acceleration := (s.touch (rampObjects.take 2)).entry Cia402Index.profileAcceleration
        deceleration := (s.touch (rampObjects.take 3)).entry Cia402Index.profileDeceleration
        limit := (s.touch (rampObjects.take 4)).entry Cia402Index.maxMotorSpeed
        position := s.positionActual } := by
    simp only [motion, touch_entry, hOn]
  rw [hMotion]
  unfold update
  rw [hOn]
  rfl

/-- Over-speed is the only fault of an update. -/
theorem state_update_eq_fault_iff (dt : R) (hOn : s.state = .operationEnabled) :
    (s.update A dt).state = .fault ↔ s.motion.overspeed A dt = true := by
  have hEnabled : s.isOperationEnabled = true := beq_iff_eq.mpr hOn
  rw [s.update_of_enabled A dt hEnabled]
  cases s.motion.overspeed A dt with
  | true => exact iff_of_true rfl rfl
  | false => simp [hOn]

theorem motion_setVelocity (v : OdValue) :
    (s.setValue (makeKey Cia402Index.velocityActual 0) v).motion =
      { s.motion with velocity := v } := by
  have hOther (index : UInt16) (h : index ≠ Cia402Index.velocityActual) :
      (s.setValue (makeKey Cia402Index.velocityActual 0) v).entry index = s.entry index := by
    rw [setValue_entry, if_neg h]
  rw [motion, motion, Motion.mk.injEq]
  exact ⟨rfl, (s.setValue_entry _ _ v).trans (if_pos rfl), hOther _ (by decide),
    hOther _ (by decide), hOther _ (by decide), hOther _ (by decide), rfl⟩

/-- The reported position is not part of the motion. -/
theorem motion_setPosition (position : R) (v : OdValue) :
    ({ s with positionActual := position }.setValue
      (makeKey Cia402Index.positionActual 0) v).motion =
      { s.motion with position := position } := by
  have hEntry (index : UInt16) (h : index ≠ Cia402Index.positionActual) :
      ({ s with positionActual := position }.setValue
        (makeKey Cia402Index.positionActual 0) v).entry index = s.entry index := by
    rw [setValue_entry, if_neg h]
    rfl
  rw [motion, motion, Motion.mk.injEq]
  exact ⟨rfl, hEntry _ (by decide), hEntry _ (by decide), hEntry _ (by decide),
    hEntry _ (by decide), hEntry _ (by decide), rfl⟩

/-- The update of a simulator moves it as the update of its motion says. -/
theorem motion_update (dt : R) : (s.update A dt).motion = s.motion.advance A dt := by
  unfold Motion.advance
  cases hOn : s.isOperationEnabled with
  | false =>
      have hOff : s.motion.enabled = false := hOn
      rw [s.update_of_disabled A dt hOn, hOff]
      by_cases hRest : s.motion.velocity = 0
      · simp [hRest]
      · simp only [ne_eq, hRest, not_false_eq_true, if_true, Bool.false_eq_true, if_false]
        rw [motion_setVelocity, touch_motion]
        simp only [hOff]
  | true =>
      have hMoving : s.motion.enabled = true := hOn
      rw [s.update_of_enabled A dt hOn, hMoving]
      cases hOver : s.motion.overspeed A dt with
      | true => simp [injectOverspeedFault, motion_raiseFault]
      | false =>
          simp only [Bool.false_eq_true, if_false, if_true]
          rw [motion_setPosition, motion_setVelocity, touch_motion]
          simp only [hMoving]
          rfl

theorem motion_run (dts : List R) :
    (Transition.run (update A) s dts).motion =
      Transition.run (Motion.advance A) s.motion dts := by
  have hStep (s : DriveSimulator R) (dt : R) :
      Motion.advance A s.motion dt = (s.update A dt).motion := (motion_update s A dt).symm
  exact (Transition.run_map hStep s dts).symm

/-- VELOCITY_ACTUAL after some updates without any other operation. -/
def velocityAfter (dts : List R) : ℤ :=
  ((Transition.run (update A) s dts).entry Cia402Index.velocityActual).toInt

theorem velocityAfter_eq (dts : List R) :
    s.velocityAfter A dts = (Transition.run (Motion.advance A) s.motion dts).velocity.toInt :=
  congrArg (fun m => m.velocity.toInt) (s.motion_run A dts)

end DriveSimulator

namespace Drive
variable {R : Type} (A : DoubleArith R)

theorem entry_toSimulator (d : Drive R) (o : Object) :
    (d.toSimulator A).entry o.index = d.value A o :=
  congrArg (fun access => access.1.value) (odAt_toSimulator A d o)

theorem motion_toSimulator (d : Drive R) :
    (d.toSimulator A).motion =
      { enabled := d.power == .operationEnabled
        velocity := d.velocityActual
        target := d.targetVelocity
        acceleration := d.profileAcceleration
        deceleration := d.profileDeceleration
        limit := d.maxMotorSpeed
        position := d.position } := by
  have hEntry (o : Object) : (d.toSimulator A).entry o.index = d.value A o :=
    d.entry_toSimulator A o
  rw [DriveSimulator.motion, Motion.mk.injEq]
  exact ⟨isOperationEnabled_toSimulator A d, hEntry .velocityActual, hEntry .targetVelocity,
    hEntry .profileAcceleration, hEntry .profileDeceleration, hEntry .maxMotorSpeed, rfl⟩

theorem store_still (d : Drive R) (o : Object) (v : OdValue) :
    (d.store o v).velocityActual = d.velocityActual ∧ (d.store o v).position = d.position := by
  cases o with
  | controlword =>
      rw [store]
      split <;> exact ⟨rfl, rfl⟩
  | _ => exact ⟨rfl, rfl⟩

/-- Only a physics update and a reset move the drive. -/
theorem step_still (d : Drive R) {op : Operation R} (hUpdate : ∀ dt, op ≠ .update dt)
    (hReset : op ≠ .reset) :
    (d.step A op).velocityActual = d.velocityActual ∧ (d.step A op).position = d.position := by
  cases op with
  | update dt => exact absurd rfl (hUpdate dt)
  | reset => exact absurd rfl hReset
  | write index subindex v =>
      rw [step]
      split
      next o hObject => exact d.store_still o v
      next => exact ⟨rfl, rfl⟩
  | updateFsm =>
      simp only [step, updateFsm]
      split <;> exact ⟨rfl, rfl⟩
  | _ => exact ⟨rfl, rfl⟩

end Drive

end Ca1MotorCtrl
