import Ca1MotorCtrl.Loop.Configuration
import Mathlib.Data.List.ReduceOption

/-! What the controller node announces. In front of any server the state topic
carries the decoded states without repetition, and each entry into Fault is
followed by one report of an error code. -/
namespace Ca1MotorCtrl

open Transition

namespace Publication

/-- An event whose text starts with a tag of seven characters. -/
def isTagged (tag : String) : Publication → Bool
  | .event text => text.toList.take 7 == tag.toList
  | _ => false

/-- Messages on the state topic, the events that repeat them, and the reports of
error codes. -/
def announces : Publication → Bool
  | .driveState _ => true
  | p => p.isTagged "[STATE]" || p.isTagged "[FAULT]"

/-- What the node publishes about a new state. -/
def ofState (state : DriveState) : List Publication :=
  [.driveState state.toString, .event ("[STATE] Drive: " ++ state.toString)]

def ofErrorCode (err : OdValue) : Publication :=
  .event ("[FAULT] Fault detected (error " ++ hexString 4 err.toUInt32.toNat ++ ") — resetting.")

theorem isTagged_append (tag : String) {text : String} (tail : String)
    (h : 7 ≤ text.toList.length) :
    (event (text ++ tail)).isTagged tag = (event text).isTagged tag := by
  simp only [isTagged, String.toList_append, List.take_append_of_le_length h]

/-- An error event announces nothing. -/
theorem not_isTagged_of_isError {p : Publication} (h : p.isError = true) {tag : String}
    (hTag : tag.toList ≠ "[ERROR]".toList) : p.isTagged tag = false := by
  cases p with
  | event text =>
      have hTake : text.toList.take 7 = "[ERROR]".toList := beq_iff_eq.mp h
      rw [isTagged, hTake, beq_false_of_ne (Ne.symm hTag)]
  | _ => rfl

theorem isError_modeNotAccepted (requested display : String) :
    (event ("[ERROR] Mode not accepted: requested " ++ requested ++ ", display " ++
      display)).isError = true :=
  isError_append_of_isError (isError_append_of_isError (isError_append_of_isError (by decide) _) _)
    _

theorem announces_of_isError {p : Publication} (h : p.isError = true) : p.announces = false := by
  have hState := not_isTagged_of_isError h (show "[STATE]".toList ≠ "[ERROR]".toList by decide)
  have hFault := not_isTagged_of_isError h (show "[FAULT]".toList ≠ "[ERROR]".toList by decide)
  cases p with
  | driveState name => cases h
  | _ => rw [announces, hState, hFault, Bool.or_self]; nofun

theorem filter_announces_ofState (state : DriveState) :
    (ofState state).filter announces = ofState state := by
  cases state <;> decide

theorem isTagged_ofErrorCode (err : OdValue) : (ofErrorCode err).isTagged "[FAULT]" = true := by
  rw [ofErrorCode, isTagged_append _ _ (by simp), isTagged_append _ _ (by decide)]
  rfl

theorem announces_ofErrorCode (err : OdValue) : (ofErrorCode err).announces = true := by
  have hFault := isTagged_ofErrorCode err
  rw [ofErrorCode] at hFault ⊢
  rw [announces, hFault, Bool.or_true]
  nofun

end Publication

namespace DriveControllerNode
variable {Server : Type} (services : Services Server) (server : Server)

theorem forall_isError_syncRead (index : UInt16) (subindex : UInt8) :
    ∀ p ∈ (syncRead services server index subindex).2.2, p.isError = true := by
  unfold syncRead
  rcases services.odRead server index subindex with ⟨next, _ | res⟩
  · exact List.forall_mem_singleton.mpr (Publication.isError_timeout (by decide) index)
  · have hTag : (Publication.event "[ERROR] od_read ").isError = true := by decide
    cases hSuccess : res.success with
    | true => simp [hSuccess]
    | false => simpa [hSuccess] using Publication.isError_failure hTag index res.message

theorem forall_isError_syncWrite (index : UInt16) (subindex : UInt8) (value : OdValue) :
    ∀ p ∈ (syncWrite services server index subindex value).2.2, p.isError = true := by
  unfold syncWrite
  rcases services.odWrite server index subindex value with ⟨next, _ | res⟩
  · exact List.forall_mem_singleton.mpr (Publication.isError_timeout (by decide) index)
  · have hTag : (Publication.event "[ERROR] od_write ").isError = true := by decide
    cases hSuccess : res.success with
    | true => simp [hSuccess]
    | false => simpa [hSuccess] using Publication.isError_failure hTag index res.message

/-- The state that a turn of the thread decodes. -/
def decoded (node : DriveControllerNode) : Option DriveState :=
  match node.phase with
  | .step raw => some (DriveController.decodeStatusword raw)
  | _ => none

/-- The error code that a turn of the thread reports, zero if it cannot be read. -/
def reportedCode (node : DriveControllerNode) : Option OdValue :=
  match node.phase with
  | .readErrorCode _ => some ((syncRead services server Cia402Index.errorCode 0).2.1.getD 0)
  | _ => none

theorem filter_announces_of_isError {published : List Publication}
    (h : ∀ p ∈ published, p.isError = true) : published.filter Publication.announces = [] := by
  refine List.filter_eq_nil_iff.mpr fun p hMem => ?_
  rw [Publication.announces_of_isError (h p hMem)]
  exact Bool.false_ne_true

theorem stepController_snd (node : DriveControllerNode) (raw : OdValue) :
    (node.stepController raw).2 =
      if node.controller.state ≠ DriveController.decodeStatusword raw then
        Publication.ofState (DriveController.decodeStatusword raw)
      else [] := by
  have hChanged : (node.controller.step raw).1.stateChanged =
      (DriveController.decodeStatusword raw != node.controller.state) := rfl
  simp only [stepController, hChanged]
  by_cases hSame : node.controller.state = DriveController.decodeStatusword raw
  · simp [hSame]
  · simp only [bne_iff_ne.mpr (Ne.symm hSame), if_true, if_pos hSame]
    rfl

theorem state_fsmThread (node : DriveControllerNode) :
    (fsmThread services server node).2.1.controller.state =
      node.decoded.getD node.controller.state := by
  obtain ⟨controller, phase⟩ := node
  cases phase with
  | readStatusword =>
      simp only [fsmThread]
      split <;> rfl
  | step raw =>
      simp only [fsmThread, stepController]
      split <;> rfl
  | write cmd rest =>
      simp only [fsmThread]
      split <;> rfl
  | _ => rfl

/-- What a turn of the thread announces, apart from errors and telemetry. -/
theorem filter_announces_fsmThread (node : DriveControllerNode) :
    (fsmThread services server node).2.2.filter Publication.announces =
      (node.decoded.toList.filter (node.controller.state ≠ ·)).flatMap Publication.ofState ++
        (node.reportedCode services server).toList.map Publication.ofErrorCode := by
  have hReads index subindex :=
    filter_announces_of_isError (forall_isError_syncRead services server index subindex)
  obtain ⟨controller, phase⟩ := node
  cases phase with
  | readStatusword =>
      have hRead := hReads Cia402Index.statusword 0
      simp only [fsmThread]
      split <;> exact hRead
  | step raw =>
      simp only [fsmThread, stepController_snd, decoded, reportedCode, Option.toList_some]
      by_cases hSame : controller.state = DriveController.decodeStatusword raw
      · simp [hSame]
      · simp [hSame, Publication.filter_announces_ofState]
  | readErrorCode cmds =>
      simp only [fsmThread, List.filter_append, hReads, List.nil_append]
      exact List.filter_cons_of_pos (Publication.announces_ofErrorCode _)
  | write cmd rest =>
      have hWrite := filter_announces_of_isError
        (forall_isError_syncWrite services server cmd.index cmd.subindex cmd.value)
      simp only [fsmThread]
      split <;> exact hWrite
  | readDisplay requested rest =>
      simp only [fsmThread, List.filter_append, hReads, List.nil_append]
      cases (syncRead services server Cia402Index.modesOfOperationDisplay 0).2.1 with
      | none => rfl
      | some display =>
          by_cases hSame : display = requested
          · simp [hSame, decoded, reportedCode]
          · have hError := Publication.isError_modeNotAccepted (toString requested.toInt)
              (toString display.toInt)
            simp only [ne_eq, hSame, not_false_eq_true, if_true]
            exact List.filter_cons_of_neg
              (Bool.eq_false_iff.mp (Publication.announces_of_isError hError))
  | readVelocity =>
      simp only [fsmThread, List.filter_append, hReads, List.nil_append]
      cases (syncRead services server Cia402Index.velocityActual 0).2.1 <;> rfl
  | readPosition =>
      simp only [fsmThread, List.filter_append, hReads, List.nil_append]
      cases (syncRead services server Cia402Index.positionActual 0).2.1 <;> rfl

end DriveControllerNode

/-- The next announcement is the report of an error code. -/
def Phase.reports : Phase → Bool
  | .readErrorCode _ => true
  | _ => false

theorem Phase.reports_ofCommands (cmds : List OdCommand) : (ofCommands cmds).reports = false := by
  cases cmds <;> rfl

/-- The announcements of some changes of the state and some error codes, in the
order in which the node makes them: one report after each entry into Fault. The
flag says whether a report is due. -/
inductive Announces : Bool → List DriveState → List OdValue → List Publication → Prop where
  | done (due : Bool) : Announces due [] [] []
  | state (state : DriveState) {states : List DriveState} {codes : List OdValue}
      {published : List Publication} (h : Announces (state == .fault) states codes published) :
      Announces false (state :: states) codes (Publication.ofState state ++ published)
  | report (err : OdValue) {states : List DriveState} {codes : List OdValue}
      {published : List Publication} (h : Announces false states codes published) :
      Announces true states (err :: codes) (Publication.ofErrorCode err :: published)

section System
variable {Server R : Type} (services : Services Server) (act : Server → Operation R → Server)

/-- What an event publishes on the topics of the controller node. -/
def loopPublished (config : Server × DriveControllerNode) : LoopEvent R → List Publication
  | .fsmThread => (DriveControllerNode.fsmThread services config.1 config.2).2.2
  | .setEnable data => (config.2.setEnable data).2.2
  | _ => []

/-- The state that an event decodes. -/
def loopDecoded (config : Server × DriveControllerNode) : LoopEvent R → Option DriveState
  | .fsmThread => config.2.decoded
  | _ => none

/-- The error code that an event reports. -/
def loopReported (config : Server × DriveControllerNode) : LoopEvent R → Option OdValue
  | .fsmThread => config.2.reportedCode services config.1
  | _ => none

/-- A turn of the thread makes the announcements of its step or its report. -/
theorem Announces.fsmThread (server : Server) (node : DriveControllerNode)
    {samples : List DriveState} {codes : List OdValue} {published : List Publication}
    (h : let next := (DriveControllerNode.fsmThread services server node).2.1
      Announces next.phase.reports (changes next.controller.state samples) codes published) :
    Announces node.phase.reports
      (changes node.controller.state (node.decoded.toList ++ samples))
      ((node.reportedCode services server).toList ++ codes)
      ((DriveControllerNode.fsmThread services server node).2.2.filter Publication.announces ++
        published) := by
  rw [DriveControllerNode.filter_announces_fsmThread]
  obtain ⟨controller, phase⟩ := node
  cases phase with
  | step raw =>
      have hChanged : (controller.step raw).1.stateChanged =
          (DriveController.decodeStatusword raw != controller.state) := rfl
      have hDecoded : (controller.step raw).1.state = DriveController.decodeStatusword raw := rfl
      simp only [DriveControllerNode.fsmThread, DriveControllerNode.stepController, hChanged,
        hDecoded] at h
      by_cases hSame : controller.state = DriveController.decodeStatusword raw
      · rw [hSame, bne_self_eq_false, if_neg Bool.false_ne_true, Phase.reports_ofCommands] at h
        simpa [DriveControllerNode.decoded, DriveControllerNode.reportedCode, hSame, hDecoded,
          Phase.reports] using h
      · rw [if_pos (bne_iff_ne.mpr (Ne.symm hSame))] at h
        have hDue : Announces (DriveController.decodeStatusword raw == .fault)
            (changes (DriveController.decodeStatusword raw) samples) codes published := by
          by_cases hFault : DriveController.decodeStatusword raw = .fault
          · rw [hFault, beq_self_eq_true]
            simpa [hDecoded, hFault, Phase.reports] using h
          · rw [beq_false_of_ne hFault]
            simpa [hDecoded, hFault, Phase.reports_ofCommands] using h
        have hState := Announces.state _ hDue
        simpa [DriveControllerNode.decoded, DriveControllerNode.reportedCode, hSame,
          changes_cons_of_ne hSame, Phase.reports] using hState
  | readErrorCode cmds =>
      simp only [DriveControllerNode.fsmThread, Phase.reports_ofCommands] at h
      exact Announces.report _ h
  | readStatusword =>
      simp only [DriveControllerNode.fsmThread] at h
      split at h <;> exact h
  | write cmd rest =>
      simp only [DriveControllerNode.fsmThread] at h
      split at h
      · exact h
      · rwa [Phase.reports_ofCommands] at h
  | readDisplay requested rest =>
      simp only [DriveControllerNode.fsmThread, Phase.reports_ofCommands] at h
      exact h
  | readVelocity | readPosition => exact h

theorem announces_run (config : Server × DriveControllerNode) (events : List (LoopEvent R)) :
    Announces config.2.phase.reports
      (changes config.2.controller.state
        (trace (loopStep services act) loopDecoded config events).reduceOption)
      (trace (loopStep services act) (loopReported services) config events).reduceOption
      ((trace (loopStep services act) (loopPublished services) config events).flatten.filter
        Publication.announces) := by
  have hCons {Value : Type} (value : Option Value) (rest : List (Option Value)) :
      (value :: rest).reduceOption = value.toList ++ rest.reduceOption := by
    cases value <;> rfl
  induction events generalizing config with
  | nil => exact .done _
  | cons event events ih =>
      obtain ⟨server, node⟩ := config
      have hNext := ih (loopStep services act (server, node) event)
      simp only [trace, hCons, List.flatten_cons, List.filter_append]
      cases event with
      | fsmThread => exact Announces.fsmThread services server node hNext
      | setEnable data => cases data <;> exact hNext
      | _ => exact hNext

theorem getLastD_decoded (config : Server × DriveControllerNode) (events : List (LoopEvent R)) :
    (trace (loopStep services act) loopDecoded config events).reduceOption.getLastD
        config.2.controller.state =
      (run (loopStep services act) config events).2.controller.state := by
  induction events generalizing config with
  | nil => rfl
  | cons event events ih =>
      have hNext := ih (loopStep services act config event)
      have hState : (loopStep services act config event).2.controller.state =
          (loopDecoded config event).getD config.2.controller.state := by
        cases event with
        | fsmThread => exact DriveControllerNode.state_fsmThread services config.1 config.2
        | _ => rfl
      rw [run_cons, ← hNext, hState, trace]
      cases loopDecoded config event with
      | none => rfl
      | some state => rw [List.reduceOption_cons_of_some, List.getLastD_cons]; rfl

/-- The state topic carries the decoded states without repetition, each repeated as
an event, and ends with the state of the controller. Between them the node reports
one error code after each entry into Fault, before it announces anything else. -/
theorem announcements_follow_states (server : Server) (node : DriveControllerNode)
    (events : List (LoopEvent R)) :
    let start := (server, node)
    let samples := (trace (loopStep services act) loopDecoded start events).reduceOption
    let codes := (trace (loopStep services act) (loopReported services) start events).reduceOption
    let published := (trace (loopStep services act) (loopPublished services) start events).flatten
    let states := changes node.controller.state samples
    Announces node.phase.reports states codes (published.filter Publication.announces) ∧
      (node.controller.state :: states).IsChain (· ≠ ·) ∧
      states.getLastD node.controller.state =
        (run (loopStep services act) start events).2.controller.state := by
  intro start samples codes published states
  exact ⟨announces_run services act start events, isChain_cons_changes _ samples,
    (getLastD_changes _ samples).trans (getLastD_decoded services act start events)⟩

end System

end Ca1MotorCtrl
