import Ca1MotorCtrl.Simulator.DriveSimulator

/-! The documented object dictionary: twelve objects at subindex 0 with fixed
access flags. A dictionary of this shape is determined by one value for each
object, and the simulator's accessors keep the shape. -/
namespace Ca1MotorCtrl

inductive Object where
  | controlword
  | statusword
  | modesOfOperation
  | modesOfOperationDisplay
  | targetVelocity
  | velocityActual
  | positionActual
  | targetPosition
  | profileAcceleration
  | profileDeceleration
  | maxMotorSpeed
  | errorCode
  deriving DecidableEq, Repr

namespace Object

def all : List Object :=
  [.controlword, .statusword, .modesOfOperation, .modesOfOperationDisplay, .targetVelocity,
    .velocityActual, .positionActual, .targetPosition, .profileAcceleration, .profileDeceleration,
    .maxMotorSpeed, .errorCode]

theorem mem_all (o : Object) : o ∈ all := by cases o <;> decide

def index : Object → UInt16
  | .controlword => Cia402Index.controlword
  | .statusword => Cia402Index.statusword
  | .modesOfOperation => Cia402Index.modesOfOperation
  | .modesOfOperationDisplay => Cia402Index.modesOfOperationDisplay
  | .targetVelocity => Cia402Index.targetVelocity
  | .velocityActual => Cia402Index.velocityActual
  | .positionActual => Cia402Index.positionActual
  | .targetPosition => Cia402Index.targetPosition
  | .profileAcceleration => Cia402Index.profileAcceleration
  | .profileDeceleration => Cia402Index.profileDeceleration
  | .maxMotorSpeed => Cia402Index.maxMotorSpeed
  | .errorCode => Cia402Index.errorCode

def access : Object → Access
  | .statusword | .modesOfOperationDisplay | .velocityActual | .positionActual | .errorCode => .ro
  | _ => .rw

/-- Address of the object's only entry. -/
def key (o : Object) : OdAddress := makeKey o.index 0

def ofKey? (k : OdAddress) : Option Object := all.find? fun o => o.key == k

theorem ofKey?_key (o : Object) : ofKey? o.key = some o := by cases o <;> decide

theorem ofKey?_eq_some_iff (k : OdAddress) (o : Object) : ofKey? k = some o ↔ o.key = k := by
  constructor
  · intro h
    simpa using List.find?_some h
  · rintro rfl
    exact ofKey?_key o

def layout : UnorderedMap.Layout Object OdAddress where
  key := key
  index? := ofKey?
  index?_eq_some_iff := ofKey?_eq_some_iff

end Object

theorem makeKey_toNat (index : UInt16) (subindex : UInt8) :
    (makeKey index subindex).toNat = index.toNat * 256 + subindex.toNat := by
  have hIndex := index.toNat_lt
  have hSub := subindex.toNat_lt
  simp only [makeKey, UInt32.toNat_or, UInt32.toNat_shiftLeft, UInt16.toNat_toUInt32,
    UInt32.reduceToNat, Nat.reduceMod, Nat.reducePow, UInt8.toNat_toUInt32]
  rw [Nat.mod_eq_of_lt (by rw [Nat.shiftLeft_eq]; omega),
    ← Nat.shiftLeft_add_eq_or_of_lt (by omega), Nat.shiftLeft_eq]

/-- Packed keys do not collide. -/
theorem makeKey_inj {index index' : UInt16} {subindex subindex' : UInt8} :
    makeKey index subindex = makeKey index' subindex' ↔ index = index' ∧ subindex = subindex' := by
  constructor
  · intro h
    have hNat := congrArg UInt32.toNat h
    rw [makeKey_toNat, makeKey_toNat] at hNat
    have hSub := subindex.toNat_lt
    have hSub' := subindex'.toNat_lt
    exact ⟨UInt16.toNat.inj (by omega), UInt8.toNat.inj (by omega)⟩
  · rintro ⟨rfl, rfl⟩
    rfl

/-- The dictionary with the documented objects and the given values. -/
def dictionary (values : Object → OdValue) : UnorderedMap OdAddress OdEntry :=
  UnorderedMap.table Object.layout fun o => ⟨values o, o.access⟩

@[simp] theorem dictionary_key (values : Object → OdValue) (o : Object) :
    dictionary values o.key = some ⟨values o, o.access⟩ :=
  UnorderedMap.table_key Object.layout _ o

theorem dictionary_makeKey (values : Object → OdValue) (index : UInt16) (subindex : UInt8) :
    dictionary values (makeKey index subindex) =
      (Object.ofKey? (makeKey index subindex)).map fun o => ⟨values o, o.access⟩ := rfl

theorem assign_dictionary (values : Object → OdValue) (o : Object) (value : OdValue) :
    (dictionary values).assign o.key ⟨value, o.access⟩ =
      dictionary (Function.update values o value) := by
  refine (UnorderedMap.assign_table Object.layout _ o _).trans (congrArg _ ?_)
  funext o'
  by_cases h : o' = o
  · subst h
    simp
  · simp [Function.update_of_ne h]

namespace DriveSimulator
variable {R : Type} (values : Object → OdValue) (state : DriveState) (prev : UInt16)
  (position : R) (deferred pending : Bool)

@[simp] theorem odAt_dictionary (o : Object) :
    (⟨dictionary values, state, prev, position, deferred, pending⟩ : DriveSimulator R).odAt o.key =
      (⟨values o, o.access⟩, ⟨dictionary values, state, prev, position, deferred, pending⟩) := by
  have h := UnorderedMap.subscript_of_find (dictionary_key values o)
  simp only [odAt, h]

@[simp] theorem setValue_dictionary (o : Object) (value : OdValue) :
    (⟨dictionary values, state, prev, position, deferred, pending⟩ : DriveSimulator R).setValue
        o.key value =
      ⟨dictionary (Function.update values o value), state, prev, position, deferred, pending⟩ := by
  simp only [setValue, odAt_dictionary, assign_dictionary]

@[simp] theorem setState_dictionary (newState : DriveState) :
    (⟨dictionary values, state, prev, position, deferred, pending⟩ : DriveSimulator R).setState
        newState =
      ⟨dictionary (Function.update values .statusword
          (odValueOfUInt16 (encodeState newState))),
        newState, prev, position, deferred, pending⟩ :=
  setValue_dictionary values newState prev position deferred pending .statusword _

end DriveSimulator

end Ca1MotorCtrl
