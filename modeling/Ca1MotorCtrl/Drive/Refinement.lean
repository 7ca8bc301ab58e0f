import Ca1MotorCtrl.Drive.Drive

/-! The simulator refines the drive. Each function of the simulator maps the
representation of a drive to the representation of the drive after the
abstract operation, so every reachable simulator represents a drive and every
run of the simulator is a run of the drive. -/
namespace Ca1MotorCtrl

namespace DriveSimulator
variable {R : Type}

theorem processControlword_of_reset (s : DriveSimulator R) (cw : UInt16)
    (hEdge : risingEdge s.prevControlword cw = true) (hState : s.state = .fault) :
    s.processControlword cw =
      (s.setValue (makeKey Cia402Index.errorCode 0) 0).setState .switchOnDisabled := by
  unfold risingEdge at hEdge
  simp [processControlword, hEdge, hState]

/-- Outside a fault reset the source's nested tests are the transition table:
the new state is set, unless the command leaves the state as it is. -/
theorem processControlword_of_no_reset (s : DriveSimulator R) (cw : UInt16) (power : PowerState)
    (hState : s.state = power.toDriveState)
    (hReset : (risingEdge s.prevControlword cw && power == .fault) = false) :
    s.processControlword cw = s.setState (power.next (.ofWord cw)).toDriveState ∨
      power.next (.ofWord cw) = power ∧ s.processControlword cw = s := by
  have hFault : (s.state == .fault) = (power == .fault) := by
    rw [hState]
    cases power <;> rfl
  rw [← hFault] at hReset
  unfold risingEdge at hReset
  unfold processControlword
  simp only [hReset, beq_iff_eq, ← Command.ofWord_eq_disableVoltage_iff,
    ← Command.ofWord_eq_shutdown_iff, ← Command.ofWord_eq_switchOn_iff,
    ← Command.ofWord_eq_enableOperation_iff, ← Command.ofWord_eq_quickStop_iff]
  cases power <;> cases hc : Command.ofWord cw <;>
    simp [hState, PowerState.toDriveState, PowerState.next]

end DriveSimulator

namespace Drive
variable {R : Type} (A : DoubleArith R)

/-- The keys in the source are the keys of the documented objects. -/
@[simp] theorem makeKey_index :
    makeKey Cia402Index.controlword 0 = Object.key .controlword ∧
    makeKey Cia402Index.statusword 0 = Object.key .statusword ∧
    makeKey Cia402Index.modesOfOperation 0 = Object.key .modesOfOperation ∧
    makeKey Cia402Index.modesOfOperationDisplay 0 = Object.key .modesOfOperationDisplay ∧
    makeKey Cia402Index.targetVelocity 0 = Object.key .targetVelocity ∧
    makeKey Cia402Index.velocityActual 0 = Object.key .velocityActual ∧
    makeKey Cia402Index.positionActual 0 = Object.key .positionActual ∧
    makeKey Cia402Index.targetPosition 0 = Object.key .targetPosition ∧
    makeKey Cia402Index.profileAcceleration 0 = Object.key .profileAcceleration ∧
    makeKey Cia402Index.profileDeceleration 0 = Object.key .profileDeceleration ∧
    makeKey Cia402Index.maxMotorSpeed 0 = Object.key .maxMotorSpeed ∧
    makeKey Cia402Index.errorCode 0 = Object.key .errorCode :=
  ⟨rfl, rfl, rfl, rfl, rfl, rfl, rfl, rfl, rfl, rfl, rfl, rfl⟩

/-- Values that agree with those of a drive, next to its hidden fields, make
up its representation. -/
theorem dictionary_eq_toSimulator {values : Object → OdValue} (d : Drive R)
    (h : values = d.value A) :
    (⟨dictionary values, d.power.toDriveState, d.prevControlword, d.position,
      d.mode.isDeferred, d.mode.isPending⟩ : DriveSimulator R) = d.toSimulator A := by
  rw [h, toSimulator]

theorem setState_toSimulator (d : Drive R) (power : PowerState) :
    (d.toSimulator A).setState power.toDriveState = { d with power := power }.toSimulator A := by
  rw [toSimulator, DriveSimulator.setState_dictionary]
  refine dictionary_eq_toSimulator A { d with power := power } ?_
  funext o
  cases o <;> rfl

theorem raiseFault_toSimulator (d : Drive R) (code : UInt32) :
    (d.toSimulator A).raiseFault code = (d.raiseFault code).toSimulator A := by
  simp only [DriveSimulator.raiseFault, makeKey_index, toSimulator,
    DriveSimulator.setValue_dictionary, DriveSimulator.setState_dictionary]
  refine dictionary_eq_toSimulator A (d.raiseFault code) ?_
  funext o
  cases o <;> rfl

/-- Reset builds the power-on drive from any object; only the FSM mode and the
pending flag of the old one survive. -/
theorem reset_eq_powerOn (s : DriveSimulator R) (mode : FsmMode)
    (hDeferred : s.deferredFsm = mode.isDeferred) (hPending : s.cwPending = mode.isPending) :
    s.reset A = (powerOn A mode).toSimulator A := by
  let values := Function.update (Function.update ((powerOn A mode).value A) .statusword 0)
    .positionActual 0
  have hBuild := UnorderedMap.foldl_assign_empty Object.layout
    (fun o => (⟨values o, o.access⟩ : OdEntry)) Object.all Object.mem_all
  have hReset : s.reset A =
      (⟨dictionary values, .switchOnDisabled, 0, A.literal 0, mode.isDeferred, mode.isPending⟩ :
        DriveSimulator R).setState .switchOnDisabled := by
    rw [dictionary, ← hBuild, ← hDeferred, ← hPending]
    rfl
  rw [hReset, DriveSimulator.setState_dictionary]
  refine dictionary_eq_toSimulator A (powerOn A mode) ?_
  funext o
  cases o with
  | positionActual => exact A.toOdValue_round_zero.symm
  | _ => rfl

theorem applyControlword_toSimulator (d : Drive R) (cw : UInt16) :
    (d.toSimulator A).applyControlword cw = (d.applyWord cw).toSimulator A := by
  unfold DriveSimulator.applyControlword
  by_cases hReset : (risingEdge d.prevControlword cw && d.power == .fault) = true
  · obtain ⟨hEdge, hFault⟩ : risingEdge d.prevControlword cw = true ∧ d.power = .fault := by
      simpa using hReset
    have hState : (d.toSimulator A).state = .fault := by
      simp [toSimulator, hFault, PowerState.toDriveState]
    rw [DriveSimulator.processControlword_of_reset _ cw hEdge hState]
    simp only [makeKey_index, toSimulator, DriveSimulator.setValue_dictionary,
      DriveSimulator.setState_dictionary]
    have hApply : d.applyWord cw =
        { d with power := .switchOnDisabled, errorCode := 0, prevControlword := cw } := by
      simp [applyWord, hEdge, hFault, PowerState.apply]
    rw [hApply]
    refine dictionary_eq_toSimulator A
      { d with power := .switchOnDisabled, errorCode := 0, prevControlword := cw } ?_
    funext o
    cases o <;> rfl
  · have hReset : (risingEdge d.prevControlword cw && d.power == .fault) = false := by
      simpa using hReset
    have hApply : d.applyWord cw =
        { d with power := d.power.next (.ofWord cw), prevControlword := cw } := by
      simp [applyWord, hReset, PowerState.apply]
    have hProcess : (d.toSimulator A).processControlword cw =
        { d with power := d.power.next (.ofWord cw) }.toSimulator A := by
      rcases DriveSimulator.processControlword_of_no_reset (d.toSimulator A) cw d.power rfl hReset
        with hSet | ⟨hSame, hKeep⟩
      · rw [hSet, setState_toSimulator]
      · rw [hKeep, hSame]
    rw [hProcess, hApply]
    rfl

theorem updateFsm_toSimulator (d : Drive R) :
    (d.toSimulator A).updateFsm = d.updateFsm.toSimulator A := by
  cases hMode : d.mode with
  | immediate => simp [DriveSimulator.updateFsm, updateFsm, toSimulator, hMode, FsmMode.isPending]
  | deferred pending =>
      cases pending with
      | false => simp [DriveSimulator.updateFsm, updateFsm, toSimulator, hMode, FsmMode.isPending]
      | true =>
          have hAbstract : d.updateFsm =
              { d with mode := .deferred false }.applyWord (lowWord d.controlword) := by
            simp [updateFsm, hMode]
          rw [hAbstract, ← applyControlword_toSimulator]
          simp [DriveSimulator.updateFsm, toSimulator, hMode, FsmMode.isPending,
            FsmMode.isDeferred]
          rfl

theorem state_toSimulator_eq_iff (d : Drive R) (power : PowerState) :
    (d.toSimulator A).state = power.toDriveState ↔ d.power = power :=
  PowerState.toDriveState_inj

theorem mode_of_deferredFsm (d : Drive R) (h : (d.toSimulator A).deferredFsm = false) :
    d.mode = .immediate := by
  rw [toSimulator] at h
  cases hMode : d.mode with
  | immediate => rfl
  | deferred pending => simp [hMode, FsmMode.isDeferred] at h

theorem cwPending_toSimulator (d : Drive R) :
    (d.toSimulator A).cwPending = true ↔ d.mode = .deferred true := by
  rw [toSimulator]
  cases d.mode <;> simp [FsmMode.isPending]

@[simp] theorem od_toSimulator (d : Drive R) : (d.toSimulator A).od = dictionary (d.value A) := rfl

@[simp] theorem odAt_toSimulator (d : Drive R) (o : Object) :
    (d.toSimulator A).odAt o.key = (⟨d.value A o, o.access⟩, d.toSimulator A) :=
  DriveSimulator.odAt_dictionary (d.value A) _ _ _ _ _ o

theorem setVelocity_toSimulator (d : Drive R) (v : OdValue) :
    (d.toSimulator A).setValue (Object.key .velocityActual) v =
      { d with velocityActual := v }.toSimulator A := by
  rw [toSimulator, DriveSimulator.setValue_dictionary]
  refine dictionary_eq_toSimulator A { d with velocityActual := v } ?_
  funext o
  cases o <;> rfl

/-- The accumulator and the reported position move together. -/
theorem setPosition_toSimulator (d : Drive R) (position : R) :
    ({ d.toSimulator A with positionActual := position } : DriveSimulator R).setValue
        (Object.key .positionActual) (A.toOdValue (A.round position)) =
      { d with position := position }.toSimulator A := by
  rw [toSimulator, DriveSimulator.setValue_dictionary]
  refine dictionary_eq_toSimulator A { d with position := position } ?_
  funext o
  cases o <;> rfl

@[simp] theorem isOperationEnabled_toSimulator (d : Drive R) :
    (d.toSimulator A).isOperationEnabled = (d.power == .operationEnabled) := by
  rw [toSimulator, DriveSimulator.isOperationEnabled]
  cases d.power <;> rfl

/-- A disabled drive only lets its velocity decay. -/
theorem update_toSimulator_of_disabled (d : Drive R) (dt : R) (hOff : d.power ≠ .operationEnabled) :
    (d.toSimulator A).update A dt =
      { d with velocityActual := d.decayedVelocity A }.toSimulator A := by
  rw [DriveSimulator.update, isOperationEnabled_toSimulator, beq_false_of_ne hOff]
  simp only [Bool.not_false, if_true, makeKey_index, odAt_toSimulator, setVelocity_toSimulator,
    value]
  by_cases hZero : d.velocityActual = 0
  · have hDecay : d.decayedVelocity A = d.velocityActual := by simp [decayedVelocity, hZero]
    rw [if_neg (not_not.mpr hZero), hDecay]
  · rw [if_pos hZero, decayedVelocity, if_pos hZero]

/-- An enabled drive ramps its velocity and trips over the speed limit. -/
theorem update_toSimulator_of_enabled (d : Drive R) (dt : R) (hOn : d.power = .operationEnabled) :
    (d.toSimulator A).update A dt =
      if d.overspeed A dt then (d.raiseFault ErrorCode.overspeed).toSimulator A
      else
        { d with
          velocityActual := A.toOdValue (A.round (d.rampedVelocity A dt))
          position := A.add d.position (A.mul (d.rampedVelocity A dt) dt) }.toSimulator A := by
  rw [DriveSimulator.update, isOperationEnabled_toSimulator, beq_iff_eq.mpr hOn]
  simp only [Bool.not_true, Bool.false_eq_true, if_false, makeKey_index, odAt_toSimulator,
    setVelocity_toSimulator, value]
  show (if d.overspeed A dt = true then _ else _) = _
  by_cases hOver : d.overspeed A dt = true
  · rw [if_pos hOver, if_pos hOver]
    exact raiseFault_toSimulator A d ErrorCode.overspeed
  · rw [if_neg hOver, if_neg hOver]
    exact setPosition_toSimulator A _ (A.add d.position (A.mul (d.rampedVelocity A dt) dt))

theorem update_toSimulator (d : Drive R) (dt : R) :
    (d.toSimulator A).update A dt = (d.update A dt).toSimulator A := by
  by_cases hOn : d.power = .operationEnabled
  · rw [update_toSimulator_of_enabled A d dt hOn, update, if_pos hOn]
    split <;> rfl
  · rw [update_toSimulator_of_disabled A d dt hOn, update, if_neg hOn]

/-- A failing access to an address without an object. -/
theorem write_toSimulator_of_none (d : Drive R) (index : UInt16) (subindex : UInt8) (v : OdValue)
    (hNone : Object.ofKey? (makeKey index subindex) = none) :
    (d.toSimulator A).write index subindex v = .error
      { message := "OD write: object " ++ hex16 index ++ " sub " ++ hex8 subindex ++
          " does not exist"
        abortCode := 0x06020000 } := by
  have hFind : (d.toSimulator A).od (makeKey index subindex) = none := by
    rw [od_toSimulator, dictionary_makeKey, hNone, Option.map_none]
  simp only [DriveSimulator.write, hFind]

theorem write_toSimulator_of_ro (d : Drive R) (o : Object) (v : OdValue)
    (hAccess : o.access = .ro) :
    (d.toSimulator A).write o.index 0 v = .error
      { message := "OD write: object " ++ hex16 o.index ++ " is read-only"
        abortCode := 0x06010002 } := by
  have hFind : (d.toSimulator A).od (makeKey o.index 0) = some ⟨d.value A o, o.access⟩ :=
    dictionary_key (d.value A) o
  simp only [DriveSimulator.write, hFind, hAccess, if_true]

theorem write_toSimulator (d : Drive R) (o : Object) (v : OdValue) (hAccess : o.access = .rw) :
    (d.toSimulator A).write o.index 0 v = .ok ((d.store o v).toSimulator A) := by
  have hFind : (d.toSimulator A).od (makeKey o.index 0) = some ⟨d.value A o, o.access⟩ :=
    dictionary_key (d.value A) o
  have hAssign : (d.toSimulator A).od.assign (makeKey o.index 0) ⟨v, o.access⟩ =
      dictionary (Function.update (d.value A) o v) := assign_dictionary (d.value A) o v
  have hRepresent : ∀ d' : Drive R, Function.update (d.value A) o v = d'.value A →
      d'.power = d.power → d'.prevControlword = d.prevControlword → d'.position = d.position →
      d'.mode = d.mode →
      ({ d.toSimulator A with od := dictionary (Function.update (d.value A) o v) } :
        DriveSimulator R) = d'.toSimulator A := by
    intro d' hValues hPower hPrev hPosition hMode
    rw [hValues, toSimulator, toSimulator, hPower, hPrev, hPosition, hMode]
  simp only [DriveSimulator.write, hFind, hAccess, if_neg (by decide : ¬Access.rw = Access.ro)]
  rw [← hAccess, hAssign]
  cases o with
  | controlword =>
      have hValues : Function.update (d.value A) .controlword v =
          ({ d with controlword := v } : Drive R).value A := by
        funext o
        cases o <;> rfl
      rw [hRepresent { d with controlword := v } hValues rfl rfl rfl rfl, if_neg (by decide),
        if_pos ⟨rfl, trivial⟩]
      cases hMode : d.mode with
      | immediate =>
          have hDeferred : (d.toSimulator A).deferredFsm = false := by
            simp [toSimulator, hMode, FsmMode.isDeferred]
          simp only [hDeferred, Bool.false_eq_true, if_false, applyControlword_toSimulator, store,
            hMode]
      | deferred pending =>
          have hDeferred : (d.toSimulator A).deferredFsm = true := by
            simp [toSimulator, hMode, FsmMode.isDeferred]
          simp only [hDeferred, if_true, store, hMode, hValues]
          rfl
  | modesOfOperation =>
      rw [if_pos ⟨rfl, trivial⟩, if_neg (by decide)]
      simp only [makeKey_index, toSimulator, DriveSimulator.setValue_dictionary]
      refine congrArg Except.ok ?_
      refine dictionary_eq_toSimulator A (d.store .modesOfOperation v) ?_
      funext o
      cases o <;> rfl
  | targetVelocity | targetPosition | profileAcceleration | profileDeceleration | maxMotorSpeed =>
      rw [if_neg (by decide), if_neg (by decide)]
      refine congrArg Except.ok (hRepresent _ ?_ rfl rfl rfl rfl)
      funext o
      cases o <;> rfl
  | _ => cases hAccess

theorem ofKey?_makeKey_eq_some_iff (index : UInt16) (subindex : UInt8) (o : Object) :
    Object.ofKey? (makeKey index subindex) = some o ↔ index = o.index ∧ subindex = 0 := by
  rw [Object.ofKey?_eq_some_iff, Object.key, makeKey_inj]
  exact and_congr eq_comm eq_comm

theorem read_toSimulator (d : Drive R) (o : Object) :
    (d.toSimulator A).read o.index 0 = .ok (d.value A o) := by
  have hFind : (d.toSimulator A).od (makeKey o.index 0) = some ⟨d.value A o, o.access⟩ :=
    dictionary_key (d.value A) o
  have hReadable : o.access ≠ .wo := by cases o <;> decide
  simp only [DriveSimulator.read, hFind, if_neg hReadable]

/-- The simulator steps exactly as the drive it represents. -/
theorem step_toSimulator (d : Drive R) (op : Operation R) :
    (d.toSimulator A).step A op = (d.step A op).toSimulator A := by
  cases op with
  | read index subindex => rfl
  | write index subindex v =>
      cases hObject : Object.ofKey? (makeKey index subindex) with
      | none =>
          simp only [DriveSimulator.step, step, hObject,
            write_toSimulator_of_none A d index subindex v hObject]
      | some o =>
          obtain ⟨rfl, rfl⟩ := (ofKey?_makeKey_eq_some_iff index subindex o).mp hObject
          cases hAccess : o.access with
          | rw => simp only [DriveSimulator.step, step, hObject, write_toSimulator A d o v hAccess]
          | ro =>
              simp only [DriveSimulator.step, step, hObject,
                write_toSimulator_of_ro A d o v hAccess]
              cases o <;> first | rfl | cases hAccess
          | wo => cases o <;> cases hAccess
  | update dt => exact update_toSimulator A d dt
  | updateFsm => exact updateFsm_toSimulator A d
  | setFsmDeferred deferred => cases deferred <;> rfl
  | reset => exact reset_eq_powerOn A _ d.mode rfl rfl
  | injectFault => exact raiseFault_toSimulator A d _
  | injectOverspeedFault => exact raiseFault_toSimulator A d _
  | injectSensorTimeoutFault => exact raiseFault_toSimulator A d _

theorem initial_eq_powerOn :
    DriveSimulator.initial A = (powerOn A .immediate).toSimulator A :=
  reset_eq_powerOn A _ .immediate rfl rfl

theorem run_toSimulator (d : Drive R) (ops : List (Operation R)) :
    Transition.run (DriveSimulator.step A) (d.toSimulator A) ops =
      (Transition.run (step A) d ops).toSimulator A :=
  Transition.run_map (step_toSimulator A) d ops

/-- Every reachable simulator represents a drive. -/
theorem exists_of_reachable {s : DriveSimulator R} (h : s.Reachable A) :
    ∃ d : Drive R, s = d.toSimulator A := by
  obtain ⟨ops, rfl⟩ := h
  rw [initial_eq_powerOn, run_toSimulator]
  exact ⟨_, rfl⟩

end Drive

end Ca1MotorCtrl
