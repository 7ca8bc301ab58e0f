import Ca1MotorCtrl.Simulator.AccessLaw

/-! The Controlword bits that command nothing. Two runs that differ in bits
other than 0 to 3 and 7 of the words written to CONTROLWORD stay equal but for
that object and the edge reference, which agree on the bits that count. -/
namespace Ca1MotorCtrl

open Transition

/-- Words with the same command and the same fault-reset bit. -/
def SameCommand (cw cw' : UInt16) : Prop := cw &&& 0x8F = cw' &&& 0x8F

namespace SameCommand
variable {cw cw' prev prev' : UInt16}

theorem and_eq (h : SameCommand cw cw') {mask : UInt16} (hMask : 0x8F &&& mask = mask) :
    cw &&& mask = cw' &&& mask := by
  rw [← hMask, ← UInt16.and_assoc, ← UInt16.and_assoc, show cw &&& 0x8F = cw' &&& 0x8F from h]

theorem ofWord_eq (h : SameCommand cw cw') : Command.ofWord cw = Command.ofWord cw' := by
  rw [Command.ofWord_of_nibble (h.and_eq rfl : cw &&& 0x0F = cw' &&& 0x0F)]
  exact (Command.ofWord_of_nibble rfl).symm

theorem risingEdge_eq (hPrev : SameCommand prev prev') (h : SameCommand cw cw') :
    risingEdge prev cw = risingEdge prev' cw' := by
  have hNew : cw &&& Controlword.faultResetBit = cw' &&& Controlword.faultResetBit := h.and_eq rfl
  have hOld : prev &&& Controlword.faultResetBit = prev' &&& Controlword.faultResetBit :=
    hPrev.and_eq rfl
  rw [risingEdge, risingEdge, hNew, hOld]

end SameCommand

/-- Object values that agree on bits 0 to 3 and 7. -/
def AgreeOnCommandBits (v v' : OdValue) : Prop := v &&& 0x8F = v' &&& 0x8F

theorem AgreeOnCommandBits.lowWord {v v' : OdValue} (h : AgreeOnCommandBits v v') :
    SameCommand (lowWord v) (lowWord v') := by
  have hWord (v : OdValue) :
      Ca1MotorCtrl.lowWord (v &&& 0x8F) = Ca1MotorCtrl.lowWord v &&& 0x8F := by
    rw [Ca1MotorCtrl.lowWord, Int32.toUInt32_and, UInt32.toUInt16_and]
    rfl
  rw [SameCommand, ← hWord, ← hWord, show v &&& 0x8F = v' &&& 0x8F from h]

/-- Operations that differ at most in the ignored bits of a written Controlword. -/
inductive SameButIgnoredBits {R : Type} : Operation R → Operation R → Prop where
  | same (op : Operation R) : SameButIgnoredBits op op
  | controlword (subindex : UInt8) {v v' : OdValue} (hBits : AgreeOnCommandBits v v') :
      SameButIgnoredBits (.write Cia402Index.controlword subindex v)
        (.write Cia402Index.controlword subindex v')

namespace Drive
variable {R : Type} (A : DoubleArith R)

/-- The drive with another CONTROLWORD and another edge reference. -/
def withWords (d : Drive R) (v : OdValue) (prev : UInt16) : Drive R :=
  { d with controlword := v, prevControlword := prev }

/-- Drives that differ in the ignored bits of these two words only. -/
def SameButWords (d d' : Drive R) : Prop :=
  ∃ v prev, d' = d.withWords v prev ∧ AgreeOnCommandBits d.controlword v ∧
    SameCommand d.prevControlword prev

theorem SameButWords.refl (d : Drive R) : d.SameButWords d := ⟨_, _, rfl, rfl, rfl⟩

theorem update_withWords (d : Drive R) (v : OdValue) (prev : UInt16) (dt : R) :
    (d.withWords v prev).update A dt = (d.update A dt).withWords v prev := by
  have hUpdate := d.update_with A d.mode v prev dt
  have hMode := (d.update_frame A dt).1
  calc (d.withWords v prev).update A dt
      = { d.update A dt with mode := d.mode, controlword := v, prevControlword := prev } := hUpdate
    _ = (d.update A dt).withWords v prev := by rw [← hMode]; rfl

theorem store_withWords (d : Drive R) (v x : OdValue) (prev : UInt16) {o : Object}
    (hOther : o ≠ .controlword) :
    (d.withWords v prev).store o x = (d.store o x).withWords v prev := by
  cases o with
  | controlword => exact absurd rfl hOther
  | _ => rfl

/-- Applying words with the same command. -/
theorem SameButWords.applyWord {d d' : Drive R} (h : d.SameButWords d') {cw cw' : UInt16}
    (hCommand : SameCommand cw cw') : (d.applyWord cw).SameButWords (d'.applyWord cw') := by
  obtain ⟨v, prev, rfl, hWord, hPrev⟩ := h
  have hEdge := hPrev.risingEdge_eq hCommand
  have hPower : d.power.apply (risingEdge prev cw') cw' =
      d.power.apply (risingEdge d.prevControlword cw) cw := by
    rw [hEdge, PowerState.apply, PowerState.apply, hCommand.ofWord_eq]
  have hError : (if risingEdge prev cw' && d.power == .fault then 0 else d.errorCode) =
      if risingEdge d.prevControlword cw && d.power == .fault then 0 else d.errorCode := by
    rw [hEdge]
  have hApply : (d.withWords v prev).applyWord cw' = (d.applyWord cw).withWords v cw' :=
    Drive.ext hPower rfl rfl rfl rfl rfl rfl rfl rfl rfl rfl rfl hError
  exact ⟨v, cw', hApply, hWord, hCommand⟩

theorem SameButWords.store_controlword {d d' : Drive R} (h : d.SameButWords d') {x x' : OdValue}
    (hBits : AgreeOnCommandBits x x') :
    (d.store .controlword x).SameButWords (d'.store .controlword x') := by
  obtain ⟨v, prev, rfl, -, hPrev⟩ := h
  have hStored : SameButWords { d with controlword := x }
      { d.withWords v prev with controlword := x' } := ⟨x', prev, rfl, hBits, hPrev⟩
  cases hMode : d.mode with
  | immediate =>
      have hMode' : (d.withWords v prev).mode = .immediate := hMode
      rw [store_controlword_of_immediate hMode, store_controlword_of_immediate hMode']
      exact hStored.applyWord hBits.lowWord
  | deferred pending =>
      have hMode' : (d.withWords v prev).mode = .deferred pending := hMode
      rw [store_controlword_of_deferred hMode, store_controlword_of_deferred hMode']
      exact ⟨x', prev, rfl, hBits, hPrev⟩

theorem SameButWords.updateFsm {d d' : Drive R} (h : d.SameButWords d') :
    d.updateFsm.SameButWords d'.updateFsm := by
  obtain ⟨v, prev, rfl, hWord, hPrev⟩ := h
  have hTaken : SameButWords { d with mode := .deferred false }
      { d.withWords v prev with mode := .deferred false } := ⟨v, prev, rfl, hWord, hPrev⟩
  by_cases hMode : d.mode = .deferred true
  · have hMode' : (d.withWords v prev).mode = .deferred true := hMode
    rw [updateFsm_of_pending hMode, updateFsm_of_pending hMode']
    exact hTaken.applyWord hWord.lowWord
  · have hMode' : (d.withWords v prev).mode ≠ .deferred true := hMode
    rw [updateFsm_of_idle hMode, updateFsm_of_idle hMode']
    exact ⟨v, prev, rfl, hWord, hPrev⟩

theorem SameButWords.write {d d' : Drive R} (h : d.SameButWords d') (index : UInt16)
    (subindex : UInt8) {x x' : OdValue}
    (hValue : x = x' ∨ index = Cia402Index.controlword ∧ AgreeOnCommandBits x x') :
    (d.step A (.write index subindex x)).SameButWords (d'.step A (.write index subindex x')) := by
  cases hObject : Object.ofKey? (makeKey index subindex) with
  | none =>
      simp only [step, hObject]
      exact h
  | some o =>
      simp only [step, hObject]
      obtain ⟨rfl, -⟩ := (ofKey?_makeKey_eq_some_iff index subindex o).mp hObject
      by_cases hWord : o = .controlword
      · subst hWord
        refine h.store_controlword ?_
        rcases hValue with rfl | ⟨-, hBits⟩
        · rfl
        · exact hBits
      · have hIndex : o.index ≠ Cia402Index.controlword := by
          intro hEq
          cases o with
          | controlword => exact hWord rfl
          | _ => exact absurd hEq (by decide)
        obtain rfl : x = x' := hValue.resolve_right fun hBits => hIndex hBits.1
        obtain ⟨v, prev, rfl, hStored, hPrev⟩ := h
        rw [d.store_withWords v x prev hWord]
        refine ⟨v, prev, rfl, ?_, ?_⟩
        · cases o <;> first | exact hStored | exact absurd rfl hWord
        · cases o <;> first | exact hPrev | exact absurd rfl hWord

theorem SameButWords.step {d d' : Drive R} (h : d.SameButWords d') {op op' : Operation R}
    (hOp : SameButIgnoredBits op op') : (d.step A op).SameButWords (d'.step A op') := by
  cases hOp with
  | controlword subindex hBits => exact h.write A _ subindex (Or.inr ⟨rfl, hBits⟩)
  | same =>
      cases op with
      | write index subindex x => exact h.write A index subindex (Or.inl rfl)
      | updateFsm => exact h.updateFsm
      | update dt =>
          obtain ⟨v, prev, rfl, hWord, hPrev⟩ := h
          refine ⟨v, prev, d.update_withWords A v prev dt, ?_, ?_⟩
          · rw [Drive.step, (d.update_frame A dt).2]
            exact hWord
          · rw [Drive.step, d.update_prevControlword A dt]
            exact hPrev
      | reset =>
          obtain ⟨v, prev, rfl, hWord, hPrev⟩ := h
          exact .refl _
      | _ =>
          obtain ⟨v, prev, rfl, hWord, hPrev⟩ := h
          exact ⟨v, prev, rfl, hWord, hPrev⟩

end Drive

/-- An operation that throws nothing. -/
def Reply.succeeded : Reply → Bool
  | .error _ => false
  | _ => true

namespace DriveSimulator
variable {R : Type} (A : DoubleArith R)

/-- Equal for an observer who cannot see CONTROLWORD. -/
structure SameButControlword (s s' : DriveSimulator R) : Prop where
  state : s.state = s'.state
  position : s.positionActual = s'.positionActual
  od : ∀ key, key ≠ makeKey Cia402Index.controlword 0 → s.od key = s'.od key

/-- The simulators represent drives that differ in ignored bits only. -/
def SameButIgnored (s s' : DriveSimulator R) : Prop :=
  ∃ d d' : Drive R, s = d.toSimulator A ∧ s' = d'.toSimulator A ∧ d.SameButWords d'

theorem SameButIgnored.step {s s' : DriveSimulator R} {op op' : Operation R}
    (h : SameButIgnored A s s') (hOp : SameButIgnoredBits op op') :
    SameButIgnored A (s.step A op) (s'.step A op') := by
  obtain ⟨d, d', rfl, rfl, hSame⟩ := h
  exact ⟨_, _, d.step_toSimulator A op, d'.step_toSimulator A op', hSame.step A hOp⟩

theorem SameButIgnored.sameButControlword {s s' : DriveSimulator R} (h : SameButIgnored A s s') :
    s.SameButControlword s' := by
  obtain ⟨d, _, rfl, rfl, v, prev, rfl, -, -⟩ := h
  refine ⟨rfl, rfl, fun key hKey => ?_⟩
  by_contra hDiffers
  obtain ⟨o, rfl, hValue⟩ := Drive.exists_value_ne hDiffers
  cases o with
  | controlword => exact hKey rfl
  | _ => exact hValue rfl

/-- The accesses that the dictionary allows. -/
def Permitted : Operation R → Prop
  | .read index subindex => index ∈ objectIndices ∧ subindex = 0
  | .write index subindex _ => index ∈ writableIndices ∧ subindex = 0
  | _ => True

/-- The address alone decides whether an access succeeds. -/
theorem succeeded_reply_toSimulator (d : Drive R) (op : Operation R) :
    ((d.toSimulator A).reply op).succeeded = true ↔ Permitted op := by
  cases op with
  | read index subindex =>
      rw [Permitted, ← (d.accessLaw_toSimulator A index subindex 0).read_ok_iff, reply]
      cases (d.toSimulator A).read index subindex <;> simp [Reply.succeeded]
  | write index subindex v =>
      rw [Permitted, ← (d.accessLaw_toSimulator A index subindex v).write_ok_iff, reply]
      cases (d.toSimulator A).write index subindex v <;> simp [Reply.succeeded]
  | _ => exact iff_of_true rfl trivial

theorem SameButIgnored.succeeded_eq {s s' : DriveSimulator R} {op op' : Operation R}
    (h : SameButIgnored A s s') (hOp : SameButIgnoredBits op op') :
    (s.reply op).succeeded = (s'.reply op').succeeded := by
  obtain ⟨d, d', rfl, rfl, -⟩ := h
  rw [Bool.eq_iff_iff, succeeded_reply_toSimulator, succeeded_reply_toSimulator]
  cases hOp <;> exact Iff.rfl

theorem SameButIgnored.initial : SameButIgnored A (initial A) (initial A) :=
  ⟨_, _, Drive.initial_eq_powerOn A, Drive.initial_eq_powerOn A, .refl _⟩

end DriveSimulator

open DriveSimulator

/-- Runs that differ in the ignored bits of written Controlwords only agree on
the success of every access and, after every step, on everything but
CONTROLWORD. -/
theorem only_command_bits_matter {R : Type} (A : DoubleArith R) {ops ops' : List (Operation R)}
    (hOps : List.Forall₂ SameButIgnoredBits ops ops') :
    trace (step A) (fun s op => (s.reply op).succeeded) (initial A) ops =
      trace (step A) (fun s op => (s.reply op).succeeded) (initial A) ops' ∧
    ∀ n, (run (step A) (initial A) (ops.take n)).SameButControlword
      (run (step A) (initial A) (ops'.take n)) := by
  have hStep (s s' : DriveSimulator R) (op op' : Operation R) (h : SameButIgnored A s s')
      (hOp : SameButIgnoredBits op op') : SameButIgnored A (s.step A op) (s'.step A op') :=
    h.step A hOp
  constructor
  · refine trace_forall₂ hStep ?_ (.initial A) hOps
    intro s s' op op' h hOp
    exact h.succeeded_eq A hOp
  · intro n
    have hSame := run_forall₂ hStep (.initial A) (List.forall₂_take n hOps)
    exact hSame.sameButControlword

/-- Shutdown and Switch On, with and without the Halt bit. -/
theorem only_command_bits_matter_halt :
    let A : DoubleArith ℚ := .exact fun _ => 0
    let plain : List (Operation ℚ) :=
      [.write Cia402Index.controlword 0 0x06, .write Cia402Index.controlword 0 0x07]
    let halted : List (Operation ℚ) :=
      [.write Cia402Index.controlword 0 0x106, .write Cia402Index.controlword 0 (-0xF9)]
    trace (step A) (fun s op => (s.reply op).succeeded) (initial A) plain =
      trace (step A) (fun s op => (s.reply op).succeeded) (initial A) halted ∧
    ∀ n, (run (step A) (initial A) (plain.take n)).SameButControlword
      (run (step A) (initial A) (halted.take n)) := by
  have hShutdown : AgreeOnCommandBits 0x06 0x106 := rfl
  have hSwitchOn : AgreeOnCommandBits 0x07 (-0xF9) := rfl
  exact only_command_bits_matter _
    (.cons (.controlword 0 hShutdown) (.cons (.controlword 0 hSwitchOn) .nil))

end Ca1MotorCtrl
