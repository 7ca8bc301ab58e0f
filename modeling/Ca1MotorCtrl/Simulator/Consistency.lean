import Ca1MotorCtrl.Controller.Commands

/-! Agreement between the object dictionary, the internal state of the
simulator and what the controller reads and writes. -/
namespace Ca1MotorCtrl

variable {R : Type}

/-- What holds of a simulator between any two operations. -/
structure DriveSimulator.Consistent (A : DoubleArith R) (s : DriveSimulator R) : Prop where
  /-- Exactly the documented objects, at subindex 0. -/
  objects : ∀ key access, (∃ value, s.od key = some ⟨value, access⟩) ↔
    ∃ o : Object, key = makeKey o.index 0 ∧ access = o.access
  /-- No entry is inserted, dropped or given other access flags. -/
  powerOnAccess : ∀ key, (s.od key).map OdEntry.access =
    ((DriveSimulator.initial A).od key).map OdEntry.access
  /-- The controller reads the state that the drive is in. -/
  statusword : ∃ sw, s.read Cia402Index.statusword 0 = .ok sw ∧
    DriveController.decodeStatusword sw = s.state
  resting : s.state ≠ .notReadyToSwitchOn ∧ s.state ≠ .faultReactionActive ∧ s.state ≠ .unknown
  modeDisplay : ∃ mode, s.read Cia402Index.modesOfOperation 0 = .ok mode ∧
    s.read Cia402Index.modesOfOperationDisplay 0 = .ok mode
  positionActual :
    s.read Cia402Index.positionActual 0 = .ok (A.toOdValue (A.round s.positionActual))
  pending : s.cwPending = true → s.deferredFsm = true

namespace Drive
variable (A : DoubleArith R)

theorem access_toSimulator (d : Drive R) (key : OdAddress) :
    ((d.toSimulator A).od key).map OdEntry.access = (Object.ofKey? key).map Object.access := by
  rw [od_toSimulator, dictionary, UnorderedMap.table, Option.map_map]
  rfl

theorem consistent_toSimulator (d : Drive R) : (d.toSimulator A).Consistent A where
  objects := by
    intro key access
    rw [od_toSimulator, dictionary]
    constructor
    · intro hValue
      obtain ⟨value, h⟩ := hValue
      obtain ⟨o, hKey, hEntry⟩ := (UnorderedMap.table_eq_some_iff _ _ key _).mp h
      exact ⟨o, hKey.symm, (congrArg OdEntry.access hEntry).symm⟩
    · rintro ⟨o, rfl, rfl⟩
      exact ⟨d.value A o, dictionary_key (d.value A) o⟩
  powerOnAccess := by
    intro key
    rw [initial_eq_powerOn, access_toSimulator, access_toSimulator]
  statusword := ⟨_, read_toSimulator A d .statusword, decodeStatusword_encodeState d.power⟩
  resting := d.power.toDriveState_resting
  modeDisplay := ⟨_, read_toSimulator A d .modesOfOperation,
    read_toSimulator A d .modesOfOperationDisplay⟩
  positionActual := read_toSimulator A d .positionActual
  pending := by
    rw [toSimulator]
    cases d.mode with
    | immediate => exact fun h => h
    | deferred pending => exact fun _ => rfl

end Drive

/-- The dictionary agrees with the internal state in every reachable simulator,
and accepts every command of the controller. Where positions are exact rationals,
the reported one is exact as long as it fits its object. -/
theorem reachable_consistent :
    (∀ {R : Type} (A : DoubleArith R) {s : DriveSimulator R}, s.Reachable A →
      s.Consistent A ∧
        ∀ (c : DriveController) (sw : OdValue), ∀ cmd ∈ (c.step sw).2,
          ∃ next, s.write cmd.index cmd.subindex cmd.value = .ok next) ∧
    ∀ (undefinedCast : ℚ → OdValue) {s : DriveSimulator ℚ}, s.Reachable (.exact undefinedCast) →
      FitsInt32 (roundHalfAway s.positionActual) → ∃ position,
        s.read Cia402Index.positionActual 0 = .ok position ∧
          position.toInt = roundHalfAway s.positionActual := by
  constructor
  · intro R A s hReach
    obtain ⟨d, rfl⟩ := Drive.exists_of_reachable A hReach
    refine ⟨d.consistent_toSimulator A, fun c sw cmd hCmd => ?_⟩
    obtain ⟨o, hAccess, hIndex, hSub⟩ := (c.step sw).1.exists_object_of_mem_commands hCmd
    rw [hIndex, hSub]
    exact ⟨_, Drive.write_toSimulator A d o cmd.value hAccess⟩
  · intro undefinedCast s hReach hFits
    obtain ⟨d, rfl⟩ := Drive.exists_of_reachable _ hReach
    exact ⟨_, (d.consistent_toSimulator (.exact undefinedCast)).positionActual,
      DoubleArith.exact_toOdValue_round undefinedCast _ hFits⟩

/-- The injected fault, reached from construction in one operation. -/
theorem injectFault_consistent :
    let s := (DriveSimulator.initial (.exact fun _ => 0)).injectFault
    s.Consistent (.exact fun _ => 0) ∧
      (∃ position, s.read Cia402Index.positionActual 0 = .ok position ∧ position.toInt = 0) ∧
      ∃ next, s.write Cia402Index.controlword 0 0x80 = .ok next := by
  intro s
  have hReach : s.Reachable (.exact fun _ => 0) := ⟨[.injectFault], rfl⟩
  obtain ⟨hConsistent, hCommands⟩ := reachable_consistent.1 _ hReach
  obtain ⟨position, hRead, hValue⟩ := reachable_consistent.2 _ hReach (by decide +kernel)
  refine ⟨hConsistent, ⟨position, hRead, hValue.trans (by decide +kernel)⟩, ?_⟩
  exact hCommands {} 0x08 (DriveController.controlwordCommand 0x80) (by decide +kernel)

end Ca1MotorCtrl
