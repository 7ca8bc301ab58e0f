import Ca1MotorCtrl.Drive.Refinement

/-! Deferred mode refines immediate mode. A transducer turns the operations
on a deferred simulator into operations on an immediate one: Controlword
writes are held back, and a tick writes the last one held. -/
namespace Ca1MotorCtrl

open Transition

variable {R : Type}

/-- All operations but a reset or a mode switch. -/
def Operation.KeepsMode : Operation R → Prop
  | .reset | .setFsmDeferred _ => False
  | _ => True

/-- A Controlword write is remembered and deleted. A tick becomes one write of
the value remembered since the tick before it, if there is one. -/
def coalesceStep (held : Option OdValue) : Operation R → Option OdValue × List (Operation R)
  | .write index subindex v =>
      if index = Cia402Index.controlword ∧ subindex = 0 then (some v, [])
      else (held, [.write index subindex v])
  | .updateFsm => (none, (held.map (.write Cia402Index.controlword 0)).toList)
  | op => (held, [op])

/-- The immediate-mode sequence for a deferred-mode one. -/
def coalesce (ops : List (Operation R)) : List (Operation R) := transduce coalesceStep none ops

namespace Drive
variable (A : DoubleArith R)

/-- The same drive with another FSM mode and Controlword entry. -/
def withWord (d : Drive R) (mode : FsmMode) (cw : OdValue) : Drive R :=
  { d with mode := mode, controlword := cw }

/-- The immediate drive that a deferred one with a held-back word refines. -/
def Refines (held : Option OdValue) (d e : Drive R) : Prop :=
  d.mode = .deferred held.isSome ∧ d.controlword = held.getD e.controlword ∧
    e = d.withWord .immediate e.controlword

theorem update_withWord (d : Drive R) (mode : FsmMode) (cw : OdValue) (dt : R) :
    (d.withWord mode cw).update A dt = (d.update A dt).withWord mode cw := by
  have hUpdate := d.update_with A mode cw d.prevControlword dt
  have hPrev := d.update_prevControlword A dt
  calc (d.withWord mode cw).update A dt
      = { d.update A dt with
          mode := mode, controlword := cw, prevControlword := d.prevControlword } := hUpdate
    _ = (d.update A dt).withWord mode cw := by rw [← hPrev]; rfl

/-- Neither the FSM mode nor the Controlword matters to the other operations. -/
theorem step_withWord (d : Drive R) (mode : FsmMode) (cw : OdValue) (op : Operation R)
    (hOp : op.KeepsMode) (hTick : op ≠ .updateFsm)
    (hWord : ∀ v, op ≠ .write Cia402Index.controlword 0 v) :
    (d.withWord mode cw).step A op = (d.step A op).withWord mode cw ∧
      (d.step A op).mode = d.mode ∧ (d.step A op).controlword = d.controlword := by
  cases op with
  | write index subindex v =>
      simp only [step]
      cases hObject : Object.ofKey? (makeKey index subindex) with
      | none => exact ⟨rfl, rfl, rfl⟩
      | some o =>
          obtain ⟨rfl, rfl⟩ := (ofKey?_makeKey_eq_some_iff index subindex o).mp hObject
          cases o with
          | controlword => exact absurd rfl (hWord v)
          | _ => exact ⟨rfl, rfl, rfl⟩
  | update dt => exact ⟨d.update_withWord A mode cw dt, d.update_frame A dt⟩
  | updateFsm => exact absurd rfl hTick
  | setFsmDeferred deferred => exact hOp.elim
  | reset => exact hOp.elim
  | _ => exact ⟨rfl, rfl, rfl⟩

theorem refines_step (held : Option OdValue) (d e : Drive R) (op : Operation R)
    (hOp : op.KeepsMode) (h : Refines held d e) :
    Refines (coalesceStep held op).1 (d.step A op) (run (step A) e (coalesceStep held op).2) := by
  obtain ⟨hMode, hHeld, hEq⟩ := h
  have hOther (hTick : op ≠ .updateFsm) (hWord : ∀ v, op ≠ .write Cia402Index.controlword 0 v) :
      Refines held (d.step A op) (e.step A op) := by
    obtain ⟨hStep, hKeepMode, hKeepWord⟩ :=
      d.step_withWord A .immediate e.controlword op hOp hTick hWord
    have hNext : e.step A op = (d.step A op).withWord .immediate e.controlword := by
      rw [hEq, hStep]
      rfl
    have hNextWord : (e.step A op).controlword = e.controlword := by rw [hNext, withWord]
    refine ⟨hKeepMode.trans hMode, ?_, ?_⟩
    · rw [hKeepWord, hNextWord, hHeld]
    · rw [hNextWord, hNext]
  cases op with
  | write index subindex v =>
      by_cases hWord : index = Cia402Index.controlword ∧ subindex = 0
      · obtain ⟨rfl, rfl⟩ := hWord
        have hStore : d.step A (.write Cia402Index.controlword 0 v) =
            d.withWord (.deferred true) v := by
          show d.store .controlword v = _
          simp only [store, hMode]
          rfl
        rw [hStore]
        refine ⟨rfl, rfl, ?_⟩
        rw [hEq]
        rfl
      · rw [coalesceStep, if_neg hWord]
        exact hOther (by simp) fun v' hWrite => hWord (by cases hWrite; exact ⟨rfl, rfl⟩)
  | updateFsm =>
      cases held with
      | none =>
          have hIdle : d.step A .updateFsm = d := by
            show d.updateFsm = d
            simp only [updateFsm, hMode]
            rfl
          rw [hIdle]
          exact ⟨hMode, hHeld, hEq⟩
      | some v =>
          have hTick : d.step A .updateFsm =
              { d with mode := .deferred false }.applyWord (lowWord v) := by
            show d.updateFsm = _
            simp only [updateFsm, hMode, hHeld]
            rfl
          rw [hTick, hEq]
          exact ⟨rfl, hHeld, rfl⟩
  | setFsmDeferred deferred => exact hOp.elim
  | reset => exact hOp.elim
  | _ => exact hOther (by simp) (by simp)

end Drive

namespace DriveSimulator

/-- Agreement on everything that the state machine and the physics work on,
and on all entries but Controlword. -/
structure AgreesUpToControlword (s t : DriveSimulator R) : Prop where
  state : s.state = t.state
  prevControlword : s.prevControlword = t.prevControlword
  positionActual : s.positionActual = t.positionActual
  od : ∀ key, key ≠ makeKey Cia402Index.controlword 0 → s.od key = t.od key

end DriveSimulator

namespace Drive
variable (A : DoubleArith R)

theorem agrees_withWord (d : Drive R) (mode : FsmMode) (cw : OdValue) :
    (d.toSimulator A).AgreesUpToControlword ((d.withWord mode cw).toSimulator A) where
  state := rfl
  prevControlword := rfl
  positionActual := rfl
  od := by
    intro key hKey
    have hValue : (d.withWord mode cw).value A = Function.update (d.value A) .controlword cw := by
      funext o
      cases o <;> rfl
    rw [od_toSimulator, od_toSimulator, hValue, ← assign_dictionary]
    exact (Function.update_of_ne hKey _ _).symm

end Drive

open DriveSimulator

/-- After every prefix of the operations the deferred simulator agrees with the
immediate one that runs the coalesced sequence, right after a tick also on
Controlword. Coalescing only ever deletes writes that succeed. -/
theorem deferred_refines_immediate (A : DoubleArith R) (ops : List (Operation R))
    (hOps : ∀ op ∈ ops, op.KeepsMode) :
    ∀ before, before <+: ops →
      let deferred := run (step A) ((initial A).setFsmDeferred true) before
      let immediate := run (step A) (initial A) (coalesce before)
      coalesce before <+: coalesce ops ∧
      deferred.AgreesUpToControlword immediate ∧
      (before.getLast? = some .updateFsm → deferred.od = immediate.od) ∧
      ∀ v, ∃ next, deferred.write Cia402Index.controlword 0 v = .ok next := by
  intro before hBefore
  obtain ⟨after, rfl⟩ := hBefore
  have hPrefix : coalesce before <+: coalesce (before ++ after) :=
    ⟨_, (transduce_append coalesceStep none before after).symm⟩
  let d := run (Drive.step A) (Drive.powerOn A (.deferred false)) before
  let e := run (Drive.step A) (Drive.powerOn A .immediate) (coalesce before)
  have hRefines : Drive.Refines (transducerMemory coalesceStep none before) d e :=
    run_transduce (fun held d e op => Drive.refines_step A held d e op) ⟨rfl, rfl, rfl⟩
      fun op hOp => hOps op (List.mem_append_left after hOp)
  obtain ⟨-, hHeld, hEq⟩ := hRefines
  have hDeferred : run (step A) ((initial A).setFsmDeferred true) before = d.toSimulator A := by
    rw [← Drive.run_toSimulator, Drive.initial_eq_powerOn]
    rfl
  have hImmediate : run (step A) (initial A) (coalesce before) = e.toSimulator A := by
    rw [← Drive.run_toSimulator, Drive.initial_eq_powerOn]
  intro deferred immediate
  refine ⟨hPrefix, ?_, fun hLast => ?_, fun v => ?_⟩
  · simp only [deferred, immediate]
    rw [hDeferred, hImmediate, hEq]
    exact d.agrees_withWord A .immediate e.controlword
  · obtain ⟨front, hFront⟩ := List.getLast?_eq_some_iff.mp hLast
    have hNone : transducerMemory coalesceStep none before = none := by
      rw [hFront, transducerMemory, run_append]
      rfl
    rw [hNone] at hHeld
    simp only [deferred, immediate]
    rw [hDeferred, hImmediate, hEq, Drive.od_toSimulator, Drive.od_toSimulator]
    refine congrArg dictionary ?_
    funext o
    cases o with
    | controlword => exact hHeld
    | _ => rfl
  · exact ⟨_, hDeferred ▸ d.write_toSimulator A .controlword v rfl⟩

/-- Two words held back and one tick: the first leaves no trace. -/
theorem deferred_refines_immediate_of_two_words :
    (run (step (.exact fun _ => 0)) ((initial (.exact fun _ => 0)).setFsmDeferred true)
        [.write Cia402Index.controlword 0 0x80, .write Cia402Index.controlword 0 6,
          .updateFsm]).AgreesUpToControlword
      (run (step (.exact fun _ => 0)) (initial (.exact fun _ => 0))
        [.write Cia402Index.controlword 0 6]) :=
  (deferred_refines_immediate (.exact fun _ => 0)
    [.write Cia402Index.controlword 0 0x80, .write Cia402Index.controlword 0 6, .updateFsm]
    (by simp [Operation.KeepsMode]) _ (List.prefix_refl _)).2.1

end Ca1MotorCtrl
