import Ca1MotorCtrl.Drive.Refinement

/-! Which accesses to the object dictionary succeed, and what a successful one
changes. The packed keys do not collide, so an address is one of the
documented objects or none, and a write reaches other objects through the
state machine and the mode display only. -/
namespace Ca1MotorCtrl

/-- The documented objects; each has subindex 0 only. -/
def objectIndices : List UInt16 :=
  [Cia402Index.controlword, Cia402Index.statusword, Cia402Index.modesOfOperation,
    Cia402Index.modesOfOperationDisplay, Cia402Index.targetVelocity, Cia402Index.velocityActual,
    Cia402Index.positionActual, Cia402Index.targetPosition, Cia402Index.profileAcceleration,
    Cia402Index.profileDeceleration, Cia402Index.maxMotorSpeed, Cia402Index.errorCode]

/-- The objects with access RW. -/
def writableIndices : List UInt16 :=
  [Cia402Index.controlword, Cia402Index.modesOfOperation, Cia402Index.targetVelocity,
    Cia402Index.targetPosition, Cia402Index.profileAcceleration, Cia402Index.profileDeceleration,
    Cia402Index.maxMotorSpeed]

namespace Object

theorem mem_objectIndices (o : Object) : o.index ∈ objectIndices := by cases o <;> decide

theorem exists_of_mem_objectIndices {index : UInt16} (h : index ∈ objectIndices) :
    ∃ o : Object, index = o.index := by
  have hMap : objectIndices = all.map Object.index := rfl
  rw [hMap] at h
  obtain ⟨o, -, hIndex⟩ := List.mem_map.mp h
  exact ⟨o, hIndex.symm⟩

theorem index_mem_writableIndices_iff (o : Object) :
    o.index ∈ writableIndices ↔ o.access = .rw := by cases o <;> decide

theorem mem_objectIndices_of_writable {index : UInt16} (h : index ∈ writableIndices) :
    index ∈ objectIndices := by
  have hSub : writableIndices ⊆ objectIndices := by decide
  exact hSub h

end Object

/-- What holds of an access to the object at an address. -/
structure DriveSimulator.AccessLaw {R : Type} (A : DoubleArith R) (s : DriveSimulator R)
    (index : UInt16) (subindex : UInt8) (value : OdValue) : Prop where
  write_ok_iff : (∃ next, s.write index subindex value = .ok next) ↔
    index ∈ writableIndices ∧ subindex = 0
  read_ok_iff : (∃ v, s.read index subindex = .ok v) ↔ index ∈ objectIndices ∧ subindex = 0
  /-- A failed access carries an abort code and changes nothing. -/
  write_error : ∀ e, s.write index subindex value = .error e →
    e.abortCode ≠ 0 ∧ s.step A (.write index subindex value) = s
  read_error : ∀ e, s.read index subindex = .error e → e.abortCode ≠ 0
  read_step : s.step A (.read index subindex) = s
  read_back : ∀ next, s.write index subindex value = .ok next →
    next.read index subindex = .ok value
  /-- The other entries that a write may change. -/
  frame : ∀ next, s.write index subindex value = .ok next → ∀ key, next.od key ≠ s.od key →
    key = makeKey index subindex ∨
    (index = Cia402Index.controlword ∧ s.deferredFsm = false ∧
      (key = makeKey Cia402Index.statusword 0 ∨ key = makeKey Cia402Index.errorCode 0)) ∨
    (index = Cia402Index.modesOfOperation ∧ key = makeKey Cia402Index.modesOfOperationDisplay 0)

/-- A write that is refused breaks none of the laws about writes. -/
theorem DriveSimulator.AccessLaw.of_refused {R : Type} {A : DoubleArith R} {s : DriveSimulator R}
    {index : UInt16} {subindex : UInt8} {value : OdValue} {e : OdAccessError}
    (hWrite : s.write index subindex value = .error e) (hCode : e.abortCode ≠ 0)
    (hAddress : ¬(index ∈ writableIndices ∧ subindex = 0))
    (hReadable : (∃ v, s.read index subindex = .ok v) ↔ index ∈ objectIndices ∧ subindex = 0)
    (hReadError : ∀ e, s.read index subindex = .error e → e.abortCode ≠ 0) :
    s.AccessLaw A index subindex value := by
  have hNever (next : DriveSimulator R) : s.write index subindex value ≠ .ok next := by
    rw [hWrite]
    simp
  constructor
  · exact iff_of_false (fun ⟨next, hNext⟩ => hNever next hNext) hAddress
  · exact hReadable
  · intro e' hError
    rw [hWrite] at hError
    obtain rfl := Except.error.inj hError
    exact ⟨hCode, by rw [DriveSimulator.step, hWrite]⟩
  · exact hReadError
  · rfl
  · exact fun next hNext => absurd hNext (hNever next)
  · exact fun next hNext => absurd hNext (hNever next)

namespace Drive
variable {R : Type} (A : DoubleArith R) (d : Drive R)

theorem value_store_self {o : Object} (hAccess : o.access = .rw) (v : OdValue) :
    (d.store o v).value A o = v := by
  cases o with
  | controlword =>
      simp only [store]
      split <;> rfl
  | modesOfOperation | targetVelocity | targetPosition | profileAcceleration
  | profileDeceleration | maxMotorSpeed => rfl
  | _ => cases hAccess

/-- A write changes one object, unless it drives the state machine or selects a
mode. -/
theorem value_store_of_ne {o o' : Object} (hOther : o' ≠ o) (v : OdValue)
    (hChanged : (d.store o v).value A o' ≠ d.value A o') :
    (o = .controlword ∧ d.mode = .immediate ∧ (o' = .statusword ∨ o' = .errorCode)) ∨
      (o = .modesOfOperation ∧ o' = .modesOfOperationDisplay) := by
  cases o with
  | controlword =>
      left
      cases hMode : d.mode with
      | immediate =>
          simp only [store, hMode] at hChanged
          cases o' with
          | controlword => exact absurd rfl hOther
          | statusword => exact ⟨rfl, rfl, Or.inl rfl⟩
          | errorCode => exact ⟨rfl, rfl, Or.inr rfl⟩
          | _ => exact absurd rfl hChanged
      | deferred pending =>
          simp only [store, hMode] at hChanged
          cases o' with
          | controlword => exact absurd rfl hOther
          | _ => exact absurd rfl hChanged
  | modesOfOperation =>
      cases o' with
      | modesOfOperation => exact absurd rfl hOther
      | modesOfOperationDisplay => exact Or.inr ⟨rfl, rfl⟩
      | _ => exact absurd rfl hChanged
  | _ => cases o' <;> first | exact absurd rfl hOther | exact absurd rfl hChanged

/-- Dictionaries that differ at a key differ in the value of an object. -/
theorem exists_value_ne {values values' : Object → OdValue} {key : OdAddress}
    (h : dictionary values' key ≠ dictionary values key) :
    ∃ o : Object, key = o.key ∧ values' o ≠ values o := by
  cases hObject : Object.ofKey? key with
  | none =>
      refine absurd ?_ h
      show (Object.ofKey? key).map _ = (Object.ofKey? key).map _
      rw [hObject]
      rfl
  | some o =>
      obtain rfl := (Object.ofKey?_eq_some_iff key o).mp hObject
      refine ⟨o, rfl, fun hSame => h ?_⟩
      rw [dictionary_key, dictionary_key, hSame]

theorem read_toSimulator_of_none (index : UInt16) (subindex : UInt8)
    (hNone : Object.ofKey? (makeKey index subindex) = none) :
    (d.toSimulator A).read index subindex = .error
      { message := "OD read: object " ++ hex16 index ++ " sub " ++ hex8 subindex ++
          " does not exist"
        abortCode := 0x06020000 } := by
  have hFind : (d.toSimulator A).od (makeKey index subindex) = none := by
    rw [od_toSimulator, dictionary_makeKey, hNone, Option.map_none]
  simp only [DriveSimulator.read, hFind]

/-- An address without an object. -/
theorem accessLaw_of_none (index : UInt16) (subindex : UInt8) (value : OdValue)
    (hNone : Object.ofKey? (makeKey index subindex) = none) :
    (d.toSimulator A).AccessLaw A index subindex value := by
  have hRead := read_toSimulator_of_none A d index subindex hNone
  have hUnknown : ¬(index ∈ objectIndices ∧ subindex = 0) := by
    rintro ⟨hIndex, rfl⟩
    obtain ⟨o, rfl⟩ := Object.exists_of_mem_objectIndices hIndex
    have hSome := (ofKey?_makeKey_eq_some_iff o.index 0 o).mpr ⟨rfl, rfl⟩
    rw [hNone] at hSome
    cases hSome
  apply DriveSimulator.AccessLaw.of_refused
    (write_toSimulator_of_none A d index subindex value hNone)
  · simp
  · intro h
    exact hUnknown ⟨Object.mem_objectIndices_of_writable h.1, h.2⟩
  · rw [hRead]
    exact iff_of_false (by simp) hUnknown
  · intro e hError
    rw [hRead] at hError
    obtain rfl := Except.error.inj hError
    simp

theorem accessLaw_of_ro (o : Object) (value : OdValue) (hAccess : o.access = .ro) :
    (d.toSimulator A).AccessLaw A o.index 0 value := by
  have hRead := read_toSimulator A d o
  apply DriveSimulator.AccessLaw.of_refused (write_toSimulator_of_ro A d o value hAccess)
  · simp
  · rw [Object.index_mem_writableIndices_iff, hAccess]
    simp
  · exact iff_of_true ⟨_, hRead⟩ ⟨o.mem_objectIndices, rfl⟩
  · intro e hError
    rw [hRead] at hError
    cases hError

theorem accessLaw_of_rw (o : Object) (value : OdValue) (hAccess : o.access = .rw) :
    (d.toSimulator A).AccessLaw A o.index 0 value := by
  have hWrite := write_toSimulator A d o value hAccess
  have hRead := read_toSimulator A d o
  constructor
  · exact iff_of_true ⟨_, hWrite⟩ ⟨o.index_mem_writableIndices_iff.mpr hAccess, rfl⟩
  · exact iff_of_true ⟨_, hRead⟩ ⟨o.mem_objectIndices, rfl⟩
  · intro e hError
    rw [hWrite] at hError
    cases hError
  · intro e hError
    rw [hRead] at hError
    cases hError
  · rfl
  · intro next hNext
    rw [hWrite] at hNext
    obtain rfl := Except.ok.inj hNext
    rw [read_toSimulator, value_store_self A d hAccess]
  · intro next hNext key hChanged
    rw [hWrite] at hNext
    obtain rfl := Except.ok.inj hNext
    rw [od_toSimulator, od_toSimulator] at hChanged
    obtain ⟨o', rfl, hValue⟩ := exists_value_ne hChanged
    by_cases hSame : o' = o
    · subst hSame
      exact Or.inl rfl
    · right
      rcases d.value_store_of_ne A hSame value hValue with ⟨rfl, hMode, hOther⟩ | ⟨rfl, rfl⟩
      · left
        refine ⟨rfl, by simp [toSimulator, hMode, FsmMode.isDeferred], ?_⟩
        rcases hOther with rfl | rfl
        · exact Or.inl rfl
        · exact Or.inr rfl
      · exact Or.inr ⟨rfl, rfl⟩

/-- The law holds of every simulator that represents a drive. -/
theorem accessLaw_toSimulator (index : UInt16) (subindex : UInt8) (value : OdValue) :
    (d.toSimulator A).AccessLaw A index subindex value := by
  cases hObject : Object.ofKey? (makeKey index subindex) with
  | none => exact d.accessLaw_of_none A index subindex value hObject
  | some o =>
      obtain ⟨rfl, rfl⟩ := (ofKey?_makeKey_eq_some_iff index subindex o).mp hObject
      cases hAccess : o.access with
      | rw => exact d.accessLaw_of_rw A o value hAccess
      | ro => exact d.accessLaw_of_ro A o value hAccess
      | wo => cases o <;> cases hAccess

end Drive

/-- Every access to the dictionary of a reachable simulator obeys the law. -/
theorem dictionary_access_law {R : Type} (A : DoubleArith R) {s : DriveSimulator R}
    (hReach : s.Reachable A) (index : UInt16) (subindex : UInt8) (value : OdValue) :
    s.AccessLaw A index subindex value := by
  obtain ⟨d, rfl⟩ := Drive.exists_of_reachable A hReach
  exact d.accessLaw_toSimulator A index subindex value

theorem dictionary_access_law_powerOn :
    (DriveSimulator.initial (.exact fun _ => 0)).AccessLaw (.exact fun _ => 0)
      Cia402Index.controlword 0 6 :=
  dictionary_access_law _ (Transition.Reachable.refl _) _ _ _

end Ca1MotorCtrl
