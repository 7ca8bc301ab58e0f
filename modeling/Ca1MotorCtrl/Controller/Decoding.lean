import Ca1MotorCtrl.Controller.DriveController
import Ca1MotorCtrl.MaskedPattern
import Ca1MotorCtrl.Simulator.Motion

/-! Statusword decoding as a table of masked patterns. No word matches two of
the patterns, and the bits outside a pattern's mask are ignored, so every word
that agrees with a stored Statusword where it counts is decoded to its state. -/
namespace Ca1MotorCtrl

open MaskedPattern

/-- Table 30, in the order of the source. -/
def statuswordPatterns : List (MaskedPattern OdValue DriveState) :=
  [⟨0x4F, 0x0F, .faultReactionActive⟩, ⟨0x4F, 0x08, .fault⟩, ⟨0x4F, 0x40, .switchOnDisabled⟩,
    ⟨0x4F, 0x00, .notReadyToSwitchOn⟩, ⟨0x6F, 0x07, .quickStopActive⟩,
    ⟨0x6F, 0x27, .operationEnabled⟩, ⟨0x6F, 0x23, .switchedOn⟩, ⟨0x6F, 0x21, .readyToSwitchOn⟩]

theorem statuswordPatterns_exclusive : statuswordPatterns.Pairwise Exclusive := by decide

/-- The source tries the patterns one after another. -/
theorem decodeStatusword_eq_decode (sw : OdValue) :
    DriveController.decodeStatusword sw = (decode statuswordPatterns sw).getD .unknown := by
  simp only [DriveController.decodeStatusword, decode, statuswordPatterns, List.find?_cons, Matches]
  split_ifs <;> simp_all

theorem decodeStatusword_of_matches {p : MaskedPattern OdValue DriveState} {sw : OdValue}
    (hMem : p ∈ statuswordPatterns) (hMatch : p.Matches sw) :
    DriveController.decodeStatusword sw = p.result := by
  rw [decodeStatusword_eq_decode, decode_eq_some statuswordPatterns_exclusive hMem hMatch]
  rfl

/-- The Statusword bits that tell a state from the others. -/
def DriveState.statusMask : DriveState → OdValue
  | .readyToSwitchOn | .switchedOn | .operationEnabled | .quickStopActive => 0x6F
  | _ => 0x4F

/-- Each state but UNKNOWN has a pattern, with the bits that `set_state` stores. -/
theorem encodeState_mem_statuswordPatterns {state : DriveState} (hKnown : state ≠ .unknown) :
    ⟨state.statusMask, odValueOfUInt16 (DriveSimulator.encodeState state) &&& state.statusMask,
      state⟩ ∈ statuswordPatterns := by
  cases state with
  | unknown => exact absurd rfl hKnown
  | _ => decide

/-- The Statusword entry after `set_state`. -/
theorem DriveSimulator.entry_setState {R : Type} (s : DriveSimulator R) (state : DriveState) :
    (s.setState state).entry Cia402Index.statusword = odValueOfUInt16 (encodeState state) := by
  rw [setState, setValue_entry, if_pos rfl]

/-- A word that agrees with a stored Statusword on the bits that count. -/
theorem decodeStatusword_of_agrees {R : Type} (s : DriveSimulator R) {state : DriveState}
    (hKnown : state ≠ .unknown) {sw : OdValue}
    (hAgrees : sw &&& state.statusMask =
      (s.setState state).entry Cia402Index.statusword &&& state.statusMask) :
    DriveController.decodeStatusword sw = state := by
  rw [s.entry_setState] at hAgrees
  exact decodeStatusword_of_matches (encodeState_mem_statuswordPatterns hKnown) hAgrees

/-- At most one pattern matches a word, the order of the tests is irrelevant,
and every state is decoded from any word with its own defining bits. -/
theorem statusword_unambiguous {R : Type} (s : DriveSimulator R) (sw : OdValue) :
    statuswordPatterns.countP (fun p => decide (p.Matches sw)) ≤ 1 ∧
    (∀ order, order.Perm statuswordPatterns →
      (decode order sw).getD .unknown = DriveController.decodeStatusword sw) ∧
    ∀ state, state ≠ .unknown →
      sw &&& state.statusMask =
        (s.setState state).entry Cia402Index.statusword &&& state.statusMask →
      DriveController.decodeStatusword sw = state := by
  refine ⟨countP_matches_le_one statuswordPatterns_exclusive sw, ?_, ?_⟩
  · intro order hPerm
    rw [decodeStatusword_eq_decode, decode_perm hPerm statuswordPatterns_exclusive]
  · intro state hKnown hAgrees
    exact decodeStatusword_of_agrees s hKnown hAgrees

/-- Remote, target-reached and all upper bits set. -/
theorem statusword_unambiguous_remote :
    DriveController.decodeStatusword (-1 - 0x48) = .operationEnabled :=
  (statusword_unambiguous (DriveSimulator.initial (.exact fun _ => 0)) (-1 - 0x48)).2.2
    .operationEnabled (by decide) (by
      rw [DriveSimulator.entry_setState]
      decide)

end Ca1MotorCtrl
