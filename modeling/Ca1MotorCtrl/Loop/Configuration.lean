import Ca1MotorCtrl.Loop.ClosedLoop

/-! The batch that configures and enables a drive in Switched On, against a
server that may reject, time out or answer anything. The thread makes its calls
in a fixed order and reports each failure as an event, but goes on regardless:
Enable Operation follows the configuration, whatever has become of it. -/
namespace Ca1MotorCtrl

open Transition

/-- A call of the FSM thread with its outcome. -/
inductive ServiceCall where
  | read (index : UInt16) (value : Option OdValue)
  | write (cmd : OdCommand) (success : Bool)
  | display (requested : OdValue) (value : Option OdValue)
  deriving DecidableEq, Repr

/-- Calls that fail or time out, and a display of another mode than requested. -/
def ServiceCall.failed : ServiceCall → Bool
  | .read _ value => value.isNone
  | .write _ success => !success
  | .display requested value => value ≠ some requested

/-- Events that report an error. -/
def Publication.isError : Publication → Bool
  | .event text => text.toList.take 7 == "[ERROR]".toList
  | _ => false

namespace Publication

@[simp] theorem isError_driveState (name : String) : (driveState name).isError = false := rfl

@[simp] theorem isError_velocityActual (velocity : OdValue) :
    (velocityActual velocity).isError = false := rfl

@[simp] theorem isError_positionActual (position : OdValue) :
    (positionActual position).isError = false := rfl

theorem isError_append (text tail : String) (h : 7 ≤ text.toList.length) :
    (event (text ++ tail)).isError = (event text).isError := by
  simp only [isError, String.toList_append, List.take_append_of_le_length h]

/-- A tagged text is long enough for its tag. -/
theorem isError_append_of_isError {text : String} (h : (event text).isError = true)
    (tail : String) : (event (text ++ tail)).isError = true := by
  have hTake : text.toList.take 7 = "[ERROR]".toList := beq_iff_eq.mp h
  have hLength := congrArg List.length hTake
  rw [List.length_take] at hLength
  have hSeven : "[ERROR]".toList.length = 7 := by decide
  rw [isError_append text tail (by omega), h]

/-- The buffer of the source is longer than the tag. -/
theorem isError_truncated (text : String) :
    (event (truncated 160 text)).isError = (event text).isError := by
  simp only [isError, truncated, String.toList_ofList, List.take_take]
  rfl

/-- The events of a call that timed out and of a call that was refused. -/
theorem isError_timeout {tag : String} (h : (event tag).isError = true) (index : UInt16) :
    (event (tag ++ hex16 index ++ ")")).isError = true :=
  isError_append_of_isError (isError_append_of_isError h _) _

theorem isError_failure {tag : String} (h : (event tag).isError = true) (index : UInt16)
    (message : String) :
    (event (truncated 160 (tag ++ hex16 index ++ ": " ++ message))).isError = true := by
  rw [isError_truncated]
  exact isError_append_of_isError
    (isError_append_of_isError (isError_append_of_isError h _) _) _

end Publication

namespace DriveControllerNode
variable {Server : Type} (services : Services Server) (server : Server)

/-- A read reports an error exactly if it returns no value. -/
theorem exists_isError_syncRead_iff (index : UInt16) (subindex : UInt8) :
    (∃ p ∈ (syncRead services server index subindex).2.2, p.isError = true) ↔
      (syncRead services server index subindex).2.1 = none := by
  unfold syncRead
  rcases services.odRead server index subindex with ⟨next, _ | res⟩
  · have hTimeout := Publication.isError_timeout
      (show (Publication.event "[ERROR] od_read timeout (index ").isError = true by decide) index
    exact iff_of_true ⟨_, List.mem_singleton_self _, hTimeout⟩ rfl
  · cases hSuccess : res.success with
    | true => simp [hSuccess]
    | false =>
        have hFailure := Publication.isError_failure
          (show (Publication.event "[ERROR] od_read ").isError = true by decide) index res.message
        simp [hSuccess, hFailure]

/-- A write reports an error exactly if it returns no success. -/
theorem exists_isError_syncWrite_iff (index : UInt16) (subindex : UInt8) (value : OdValue) :
    (∃ p ∈ (syncWrite services server index subindex value).2.2, p.isError = true) ↔
      (syncWrite services server index subindex value).2.1 = false := by
  unfold syncWrite
  rcases services.odWrite server index subindex value with ⟨next, _ | res⟩
  · have hTimeout := Publication.isError_timeout
      (show (Publication.event "[ERROR] od_write timeout (index ").isError = true by decide) index
    exact iff_of_true ⟨_, List.mem_singleton_self _, hTimeout⟩ rfl
  · cases hSuccess : res.success with
    | true => simp [hSuccess]
    | false =>
        have hFailure := Publication.isError_failure
          (show (Publication.event "[ERROR] od_write ").isError = true by decide) index res.message
        simp [hSuccess, hFailure]

/-- The service call of the next transition of the FSM thread, if it makes one. -/
def serviceCall (node : DriveControllerNode) : Option ServiceCall :=
  match node.phase with
  | .readStatusword =>
      some (.read Cia402Index.statusword
        (syncRead services server Cia402Index.statusword 0).2.1)
  | .step _ => none
  | .readErrorCode _ =>
      some (.read Cia402Index.errorCode (syncRead services server Cia402Index.errorCode 0).2.1)
  | .write cmd _ =>
      some (.write cmd (syncWrite services server cmd.index cmd.subindex cmd.value).2.1)
  | .readDisplay requested _ =>
      some (.display requested
        (syncRead services server Cia402Index.modesOfOperationDisplay 0).2.1)
  | .readVelocity =>
      some (.read Cia402Index.velocityActual
        (syncRead services server Cia402Index.velocityActual 0).2.1)
  | .readPosition =>
      some (.read Cia402Index.positionActual
        (syncRead services server Cia402Index.positionActual 0).2.1)

/-- The section under the mutex reports no error. -/
theorem not_isError_of_mem_stepController (node : DriveControllerNode) (raw : OdValue)
    {p : Publication} (h : p ∈ (node.stepController raw).2) : ¬p.isError = true := by
  unfold stepController at h
  generalize node.controller.step raw = result at h
  obtain ⟨controller, cmds⟩ := result
  simp only at h
  split at h
  · have hState (name : String) :
        ¬(Publication.event ("[STATE] Drive: " ++ name)).isError = true := by
      rw [Publication.isError_append _ _ (by decide)]
      decide
    simp only [List.mem_cons, List.not_mem_nil, or_false] at h
    rcases h with rfl | rfl
    · simp
    · exact hState _
  · cases h

/-- The thread reports an error exactly if its call fails. -/
theorem exists_isError_fsmThread_iff (node : DriveControllerNode) :
    (∃ p ∈ (fsmThread services server node).2.2, p.isError = true) ↔
      ∃ call, node.serviceCall services server = some call ∧ call.failed = true := by
  have hReads := exists_isError_syncRead_iff services server
  obtain ⟨controller, phase⟩ := node
  cases phase with
  | readStatusword =>
      have hRead := hReads Cia402Index.statusword 0
      simp only [fsmThread, serviceCall]
      generalize syncRead services server Cia402Index.statusword 0 = outcome at hRead ⊢
      rcases outcome with ⟨next, _ | raw, published⟩ <;>
        simpa [ServiceCall.failed] using hRead
  | step raw =>
      have hNone (p : Publication) :=
        not_isError_of_mem_stepController ⟨controller, .step raw⟩ raw (p := p)
      simpa [fsmThread, serviceCall] using hNone
  | readErrorCode cmds =>
      have hRead := hReads Cia402Index.errorCode 0
      have hFault (code : String) : ¬(Publication.event ("[FAULT] Fault detected (error " ++ code ++
          ") — resetting.")).isError = true := by
        rw [Publication.isError_append _ _ (by simp), Publication.isError_append _ _ (by decide)]
        decide
      simp only [fsmThread, serviceCall]
      generalize syncRead services server Cia402Index.errorCode 0 = outcome at hRead ⊢
      rcases outcome with ⟨next, value, published⟩
      simpa [ServiceCall.failed, or_and_right, exists_or, hFault] using hRead
  | write cmd rest =>
      have hWrite := exists_isError_syncWrite_iff services server cmd.index cmd.subindex cmd.value
      simp only [fsmThread, serviceCall]
      generalize syncWrite services server cmd.index cmd.subindex cmd.value = outcome at hWrite ⊢
      rcases outcome with
        ⟨next, success, published⟩
      split <;> simpa [ServiceCall.failed] using hWrite
  | readDisplay requested rest =>
      have hRead := hReads Cia402Index.modesOfOperationDisplay 0
      have hMode (requested display : String) : (Publication.event
          ("[ERROR] Mode not accepted: requested " ++ requested ++ ", display " ++
            display)).isError = true :=
        Publication.isError_append_of_isError (Publication.isError_append_of_isError
          (Publication.isError_append_of_isError (by decide) _) _) _
      simp only [fsmThread, serviceCall]
      generalize syncRead services server Cia402Index.modesOfOperationDisplay 0 = outcome at hRead ⊢
      rcases outcome with
        ⟨next, _ | display, published⟩
      · simpa [ServiceCall.failed] using hRead
      · by_cases hSame : display = requested
        · simpa [ServiceCall.failed, hSame] using hRead
        · simp only [ne_eq, hSame, not_false_eq_true, if_true]
          refine iff_of_true ⟨_, List.mem_append_right _ (List.mem_singleton_self _), hMode _ _⟩ ?_
          exact ⟨_, rfl, by simpa [ServiceCall.failed] using hSame⟩
  | readVelocity =>
      have hRead := hReads Cia402Index.velocityActual 0
      simp only [fsmThread, serviceCall]
      generalize syncRead services server Cia402Index.velocityActual 0 = outcome at hRead ⊢
      rcases outcome with
        ⟨next, _ | value, published⟩ <;>
        simpa [ServiceCall.failed, or_and_right, exists_or] using hRead
  | readPosition =>
      have hRead := hReads Cia402Index.positionActual 0
      simp only [fsmThread, serviceCall]
      generalize syncRead services server Cia402Index.positionActual 0 = outcome at hRead ⊢
      rcases outcome with
        ⟨next, _ | value, published⟩ <;>
        simpa [ServiceCall.failed, or_and_right, exists_or] using hRead

end DriveControllerNode

/-- The calls that the thread has made, and what it has published, since the
controller's last step. -/
structure BatchLog where
  calls : List ServiceCall := []
  published : List Publication := []

/-- The events published since the step report an error exactly if a call has
failed since. -/
def BatchLog.Reports (log : BatchLog) : Prop :=
  (∃ p ∈ log.published, p.isError = true) ↔ ∃ call ∈ log.calls, call.failed = true

namespace OdCommand

def mode : OdCommand := ⟨Cia402Index.modesOfOperation, 0, ModeOfOperation.profileVelocity.toInt32⟩

def acceleration (accel : OdValue) : OdCommand := ⟨Cia402Index.profileAcceleration, 0, accel⟩

def deceleration (decel : OdValue) : OdCommand := ⟨Cia402Index.profileDeceleration, 0, decel⟩

def enableOperation : OdCommand :=
  DriveController.controlwordCommand Controlword.enableOperation

end OdCommand

/-- The calls that lead up to Enable Operation, with their outcomes. -/
def configurationCalls (accel decel : OdValue) (modeOk : Bool) (display : Option OdValue)
    (accelOk decelOk : Bool) : List ServiceCall :=
  [.write .mode modeOk, .display ModeOfOperation.profileVelocity.toInt32 display,
    .write (.acceleration accel) accelOk, .write (.deceleration decel) decelOk]

theorem exists_failed_configurationCalls_iff (accel decel : OdValue) (modeOk : Bool)
    (display : Option OdValue) (accelOk decelOk : Bool) :
    (∃ call ∈ configurationCalls accel decel modeOk display accelOk decelOk,
        call.failed = true) ↔
      ¬(modeOk = true ∧ display = some ModeOfOperation.profileVelocity.toInt32 ∧
        accelOk = true ∧ decelOk = true) := by
  by_cases hDisplay : display = some ModeOfOperation.profileVelocity.toInt32 <;>
    cases modeOk <;> cases accelOk <;> cases decelOk <;>
    simp [configurationCalls, ServiceCall.failed, hDisplay]

/-- How far the batch for Switched On has got, and the calls it has made. -/
inductive Configures : Phase → List ServiceCall → Prop where
  | mode (accel decel : OdValue) :
      Configures (.write .mode [.acceleration accel, .deceleration decel, .enableOperation]) []
  | display (accel decel : OdValue) (modeOk : Bool) :
      Configures
        (.readDisplay ModeOfOperation.profileVelocity.toInt32
          [.acceleration accel, .deceleration decel, .enableOperation])
        [.write .mode modeOk]
  | acceleration (accel decel : OdValue) (modeOk : Bool) (display : Option OdValue) :
      Configures (.write (.acceleration accel) [.deceleration decel, .enableOperation])
        [.write .mode modeOk, .display ModeOfOperation.profileVelocity.toInt32 display]
  | deceleration (accel decel : OdValue) (modeOk : Bool) (display : Option OdValue)
      (accelOk : Bool) :
      Configures (.write (.deceleration decel) [.enableOperation])
        [.write .mode modeOk, .display ModeOfOperation.profileVelocity.toInt32 display,
          .write (.acceleration accel) accelOk]
  | enable (accel decel : OdValue) (modeOk : Bool) (display : Option OdValue)
      (accelOk decelOk : Bool) :
      Configures (.write .enableOperation [])
        (configurationCalls accel decel modeOk display accelOk decelOk)
  | done (phase : Phase) (calls : List ServiceCall) (h : phase.remaining = []) :
      Configures phase calls

/-- Enable Operation comes after the whole configuration. -/
theorem Configures.calls_of_enable {phase : Phase} {calls : List ServiceCall}
    {rest : List OdCommand} (h : Configures phase calls)
    (hPhase : phase = .write .enableOperation rest) :
    ∃ accel decel modeOk display accelOk decelOk,
      calls = configurationCalls accel decel modeOk display accelOk decelOk := by
  have hIndex {cmd : OdCommand} {rest' : List OdCommand}
      (hWrite : Phase.write cmd rest' = .write .enableOperation rest) :
      cmd.index = Cia402Index.controlword := congrArg OdCommand.index (Phase.write.inj hWrite).1
  cases h with
  | mode => exact absurd (hIndex hPhase) (by decide)
  | display => cases hPhase
  | acceleration accel =>
      exact absurd (show Cia402Index.profileAcceleration = _ from hIndex hPhase) (by decide)
  | deceleration _ decel =>
      exact absurd (show Cia402Index.profileDeceleration = _ from hIndex hPhase) (by decide)
  | enable accel decel modeOk display accelOk decelOk =>
      exact ⟨accel, decel, modeOk, display, accelOk, decelOk, rfl⟩
  | done _ _ hRemaining =>
      rw [hPhase] at hRemaining
      cases hRemaining

/-- A write takes the batch one call further, whatever its outcome. -/
theorem Configures.write {cmd : OdCommand} {rest : List OdCommand} {calls : List ServiceCall}
    (h : Configures (.write cmd rest) calls) (success : Bool) :
    Configures
      (if cmd.index = Cia402Index.modesOfOperation then .readDisplay cmd.value rest
        else .ofCommands rest)
      (calls ++ [.write cmd success]) := by
  cases h with
  | mode accel decel => exact .display accel decel success
  | acceleration accel decel modeOk display =>
      exact .deceleration accel decel modeOk display success
  | deceleration accel decel modeOk display accelOk =>
      exact .enable accel decel modeOk display accelOk success
  | enable => exact .done _ _ rfl
  | done _ _ hRemaining => cases hRemaining

/-- So does the read-back of the mode. -/
theorem Configures.readDisplay {requested : OdValue} {rest : List OdCommand}
    {calls : List ServiceCall} (h : Configures (.readDisplay requested rest) calls)
    (value : Option OdValue) :
    Configures (.ofCommands rest) (calls ++ [.display requested value]) := by
  cases h with
  | display accel decel modeOk => exact .acceleration accel decel modeOk value
  | done _ _ hRemaining =>
      obtain rfl : rest = [] := hRemaining
      exact .done _ _ rfl

section System
variable {Server R : Type} (services : Services Server) (act : Server → Operation R → Server)

/-- A step starts a new batch. -/
def recordBatch (log : BatchLog) (config : Server × DriveControllerNode) : LoopEvent R → BatchLog
  | .fsmThread =>
      let log := match config.2.phase with
        | .step _ => ({} : BatchLog)
        | _ => log
      { calls := log.calls ++ (config.2.serviceCall services config.1).toList
        published := log.published ++
          (DriveControllerNode.fsmThread services config.1 config.2).2.2 }
  | _ => log

/-- The next event sends Enable Operation from the batch for Switched On. -/
def SendsEnable (config : Server × DriveControllerNode) (event : LoopEvent R) : Prop :=
  event = .fsmThread ∧ config.2.controller.state = .switchedOn ∧
    ∃ rest, config.2.phase = .write .enableOperation rest

theorem BatchLog.Reports.append {log : BatchLog} (h : log.Reports) (server : Server)
    (node : DriveControllerNode) :
    BatchLog.Reports
      { calls := log.calls ++ (node.serviceCall services server).toList
        published := log.published ++
          (DriveControllerNode.fsmThread services server node).2.2 } := by
  have hThread := DriveControllerNode.exists_isError_fsmThread_iff services server node
  have hCalls : (∃ call ∈ log.calls ++ (node.serviceCall services server).toList,
      call.failed = true) ↔ (∃ call ∈ log.calls, call.failed = true) ∨
        ∃ call, node.serviceCall services server = some call ∧ call.failed = true := by
    simp only [List.mem_append, Option.mem_toList, or_and_right, exists_or]
  unfold Reports at h ⊢
  rw [hCalls, ← h, ← hThread]
  simp only [List.mem_append, or_and_right, exists_or]

/-- The log is faithful, and in Switched On it shows how far the batch is. -/
structure BatchLog.Follows (log : BatchLog) (node : DriveControllerNode) : Prop where
  reports : log.Reports
  configures : node.controller.state = .switchedOn → Configures node.phase log.calls

theorem Configures.ofCommands_nil (calls : List ServiceCall) :
    Configures (.ofCommands []) calls :=
  .done _ _ rfl

theorem configures_commands {c : DriveController} (h : c.state = .switchedOn) :
    Configures (.ofCommands c.commands) [] := by
  rw [DriveController.commands, h]
  cases c.enabled with
  | true => exact .mode c.accel c.decel
  | false => exact .ofCommands_nil _

/-- The section under the mutex starts the batch for Switched On, or none. -/
theorem configures_stepController (node : DriveControllerNode) (raw : OdValue)
    (hState : (node.stepController raw).1.controller.state = .switchedOn) :
    Configures (node.stepController raw).1.phase [] := by
  simp only [DriveControllerNode.stepController] at hState ⊢
  split
  next hChanged =>
    rw [if_pos hChanged] at hState
    have hFault : ¬(node.controller.step raw).1.state = .fault := by
      rw [show (node.controller.step raw).1.state = .switchedOn from hState]
      decide
    rw [if_neg hFault]
    exact configures_commands hState
  next hSame =>
    rw [if_neg hSame] at hState
    exact configures_commands hState

theorem follows_fsmThread (server : Server) (node : DriveControllerNode) {log : BatchLog}
    (h : log.Follows node) :
    (recordBatch (R := R) services log (server, node) .fsmThread).Follows
      (DriveControllerNode.fsmThread services server node).2.1 := by
  obtain ⟨controller, phase⟩ := node
  obtain ⟨hReports, hConfigures⟩ := h
  have hNext := hReports.append services server ⟨controller, phase⟩
  cases phase with
  | step raw =>
      refine ⟨BatchLog.Reports.append services (by simp [BatchLog.Reports]) server _,
        fun hState => ?_⟩
      exact configures_stepController _ raw hState
  | readStatusword =>
      refine ⟨hNext, fun _ => .done _ _ ?_⟩
      simp only [DriveControllerNode.fsmThread]
      split <;> rfl
  | readErrorCode cmds =>
      refine ⟨hNext, fun hState => ?_⟩
      cases hConfigures hState with
      | done _ _ hRemaining =>
          obtain rfl : cmds = [] := hRemaining
          exact .ofCommands_nil _
  | write cmd rest =>
      refine ⟨hNext, fun hState => ?_⟩
      have hSame : controller.state = .switchedOn := by
        simp only [DriveControllerNode.fsmThread] at hState
        split at hState <;> exact hState
      have hBatch := (hConfigures hSame).write
        (DriveControllerNode.syncWrite services server cmd.index cmd.subindex cmd.value).2.1
      simp only [DriveControllerNode.fsmThread]
      split
      next hMode =>
        rw [if_pos hMode] at hBatch
        exact hBatch
      next hOther =>
        rw [if_neg hOther] at hBatch
        exact hBatch
  | readDisplay requested rest =>
      exact ⟨hNext, fun hState => (hConfigures hState).readDisplay _⟩
  | readVelocity => exact ⟨hNext, fun _ => .done _ _ rfl⟩
  | readPosition => exact ⟨hNext, fun _ => .done _ _ rfl⟩

theorem follows_loopStep (server : Server) (node : DriveControllerNode) {log : BatchLog}
    (h : log.Follows node) (event : LoopEvent R) :
    (recordBatch services log (server, node) event).Follows
      (loopStep services act (server, node) event).2 := by
  cases event with
  | fsmThread => exact follows_fsmThread services server node h
  | _ => exact ⟨h.reports, h.configures⟩

/-- Whenever the thread sends Enable Operation from the batch for Switched On,
it has written the mode, read it back and written both ramps in the same
batch, and has published an error since the step unless all four reported
success with the requested mode. -/
theorem enable_follows_configuration (server : Server) (c : DriveController)
    (events : List (LoopEvent R)) :
    EveryStep (recordStep (loopStep services act) (recordBatch services))
      (fun config event => SendsEnable config.1 event →
        ∃ accel decel modeOk display accelOk decelOk,
          config.2.calls = configurationCalls accel decel modeOk display accelOk decelOk ∧
          ((∃ p ∈ config.2.published, p.isError = true) ↔
            ¬(modeOk = true ∧ display = some ModeOfOperation.profileVelocity.toInt32 ∧
              accelOk = true ∧ decelOk = true)))
      ((server, { controller := c }), {}) events := by
  apply everyStep_of_invariant fun config : (Server × DriveControllerNode) × BatchLog =>
    config.2.Follows config.1.2
  · intro config event hFollows
    obtain ⟨⟨server, node⟩, log⟩ := config
    refine ⟨fun hSends => ?_, follows_loopStep services act server node hFollows event⟩
    obtain ⟨-, hState, rest, hPhase⟩ := hSends
    obtain ⟨accel, decel, modeOk, display, accelOk, decelOk, hCalls⟩ :=
      (hFollows.configures hState).calls_of_enable hPhase
    refine ⟨accel, decel, modeOk, display, accelOk, decelOk, hCalls, ?_⟩
    have hReports : log.Reports := hFollows.reports
    unfold BatchLog.Reports at hReports
    rw [hReports, show log.calls = _ from hCalls]
    exact exists_failed_configurationCalls_iff accel decel modeOk display accelOk decelOk
  · exact ⟨by simp [BatchLog.Reports], fun _ => .done _ _ rfl⟩

end System

/-- A drive in Switched On that never answers a write of the mode. -/
def deafToMode : Services Unit where
  odRead _ index _ :=
    ((), some
      { value := if index = Cia402Index.statusword then
          odValueOfUInt16 (DriveSimulator.encodeState .switchedOn)
          else ModeOfOperation.profileVelocity.toInt32
        success := true })
  odWrite _ index _ _ :=
    ((), if index = Cia402Index.modesOfOperation then none else some { success := true })

/-- After the timeout Enable Operation is sent all the same. -/
theorem enable_follows_timeout :
    ¬EveryStep (recordStep (loopStep deafToMode fun server (_ : Operation ℚ) => server)
        (recordBatch deafToMode))
      (fun config event => SendsEnable config.1 event →
        ∀ call ∈ config.2.calls, call.failed = false)
      (((), {}), {}) (List.replicate 6 .fsmThread ++ [.fsmThread]) := by
  intro h
  obtain ⟨-, hLast, -⟩ := (everyStep_append _ _ (List.replicate 6 _) [_]).mp h
  have hCalls := hLast ⟨rfl, by decide, [], by decide⟩
  exact absurd (hCalls (.write .mode false) (by decide)) (by decide)

end Ca1MotorCtrl
