import Ca1MotorCtrl.Loop.Poll
import Ca1MotorCtrl.Loop.Settling
import Ca1MotorCtrl.Transition.Ranking

/-! How long the usage example takes. In immediate mode each poll brings the drive one
state closer to the goal of the controller, and nothing but a fault, a Controlword of
someone else or a restart sets it back. -/
namespace Ca1MotorCtrl

open Transition

/-- Between two polls the power state machine is left alone, and the controller keeps
its permission. -/
def PollEvent.Undisturbed {R : Type} (A : DoubleArith R)
    (config : DriveSimulator R × DriveController) : PollEvent R → Prop
  | .poll => True
  | .operation op => config.1.effect A op = .idle ∧ op ≠ .setFsmDeferred true
  | .set setting => ∀ enable, setting ≠ .enable enable

def PollEvent.isPoll {R : Type} : PollEvent R → Bool
  | .poll => true
  | _ => false

/-- The words of a poll shorten the distance by one. -/
theorem PowerCore.distance_applyWords (c : PowerCore) (enabled : Bool) :
    (c.applyWords (c.power.words enabled)).power.distance enabled =
      c.power.distance enabled - 1 := by
  rcases c with ⟨power, prev, code⟩
  cases enabled <;> cases power <;>
    simp [applyWords, PowerState.words, DriveController.batch, PowerState.toDriveState, act,
      PowerState.apply, PowerState.next, PowerState.distance]

section Run
variable {R : Type} (A : DoubleArith R)

/-- A drive in immediate mode at a distance from the goal. -/
def AtDistance (enabled : Bool) (n : ℕ) (config : DriveSimulator R × DriveController) : Prop :=
  config.2.enabled = enabled ∧ ∃ d : Drive R, config.1 = d.toSimulator A ∧ d.mode = .immediate ∧
    d.power.distance enabled = n

variable {A} {enabled : Bool} {config : DriveSimulator R × DriveController}

/-- The distance from the goal after `n` polls. -/
theorem atDistance_pollStep {distance n : ℕ} {event : PollEvent R}
    (h : AtDistance A enabled (distance - n) config) (hEvent : event.Undisturbed A config) :
    AtDistance A enabled (distance - (n + if event.isPoll then 1 else 0))
      (pollStep A config event) := by
  obtain ⟨_, c⟩ := config
  obtain ⟨rfl, d, rfl, hMode, hDistance⟩ := h
  cases event with
  | poll =>
      obtain ⟨d', hPoll, hMode', hCore, hKeep⟩ := d.poll_toSimulator A c hMode
      refine ⟨hKeep, d', hPoll, hMode', ?_⟩
      have hNext : d'.core.power.distance c.enabled = d.power.distance c.enabled - 1 := by
        rw [hCore]
        exact d.core.distance_applyWords c.enabled
      rw [← Nat.sub_sub, ← hDistance]
      exact hNext
  | operation op =>
      obtain ⟨hIdle, hOp⟩ := hEvent
      rw [d.effect_toSimulator A op] at hIdle
      have hPower : (d.step A op).power = d.power := by
        rw [d.power_step A op, hIdle]
        rfl
      exact ⟨rfl, d.step A op, d.step_toSimulator A op, d.mode_step_of_immediate A op hMode hOp,
        hPower ▸ hDistance⟩
  | set setting =>
      refine ⟨?_, d, rfl, hMode, hDistance⟩
      cases setting with
      | enable enable => exact absurd rfl (hEvent enable)
      | _ => rfl

/-- The usage example reaches the goal of the controller with exactly as many polls as
the state is away from it, in whatever order other operations come in between. -/
theorem usage_example_settles (A : DoubleArith R) {s : DriveSimulator R} (hReach : s.Reachable A)
    (hImmediate : s.deferredFsm = false) (c : DriveController) {power : PowerState}
    (hPower : s.state = power.toDriveState) {events : List (PollEvent R)}
    (hEvents : EveryStep (pollStep A) (fun config event => event.Undisturbed A config)
      (s, c) events) :
    (run (pollStep A) (s, c) events).1.state = (PowerState.goal c.enabled).toDriveState ↔
      power.distance c.enabled ≤ events.countP PollEvent.isPoll := by
  obtain ⟨d, rfl⟩ := Drive.exists_of_reachable A hReach
  obtain rfl := (d.state_toSimulator_eq_iff A power).mp hPower
  have hStart : AtDistance A c.enabled (d.power.distance c.enabled - 0) (d.toSimulator A, c) :=
    ⟨rfl, d, rfl, d.mode_of_deferredFsm A hImmediate, rfl⟩
  obtain ⟨-, d', hLast, -, hDistance⟩ :=
    run_countP (fun n => AtDistance A c.enabled (d.power.distance c.enabled - n)) PollEvent.isPoll
      (fun _ _ _ h hEvent => atDistance_pollStep h hEvent) hStart hEvents
  rw [hLast, d'.state_toSimulator_eq_iff A, ← PowerState.distance_eq_zero_iff, hDistance,
    Nat.zero_add, Nat.sub_eq_zero_iff_le]

/-- A drive in Fault needs four polls, whatever is read and set in between. -/
theorem usage_example_settles_from_fault :
    let A : DoubleArith ℚ := .exact fun _ => 0
    (run (pollStep A) ((DriveSimulator.initial A).injectFault, {})
      [.poll, .poll, .operation (.read Cia402Index.statusword 0), .poll,
        .set (.targetVelocity 100), .poll]).1.state = .operationEnabled := by
  intro A
  have hReach : (DriveSimulator.initial A).injectFault.Reachable A := ⟨[.injectFault], rfl⟩
  have hFault : (DriveSimulator.initial A).injectFault.state = PowerState.fault.toDriveState := rfl
  let events : List (PollEvent ℚ) :=
    [.poll, .poll, .operation (.read Cia402Index.statusword 0), .poll, .set (.targetVelocity 100),
      .poll]
  have hEvents : EveryStep (pollStep A) (fun config event => event.Undisturbed A config)
      ((DriveSimulator.initial A).injectFault, {}) events :=
    ⟨trivial, trivial, ⟨rfl, nofun⟩, trivial, nofun, trivial, trivial⟩
  exact (usage_example_settles A hReach rfl {} hFault hEvents).mpr (by decide)

end Run

end Ca1MotorCtrl
