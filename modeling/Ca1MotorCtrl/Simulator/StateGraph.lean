import Ca1MotorCtrl.Simulator.Effect

/-! The state graph of the simulated drive: which states follow each other under a
single operation, in any mode, with nothing left out and nothing in it that the drive
cannot do. -/
namespace Ca1MotorCtrl

open Transition

namespace PowerState

/-- The changes of state. Ready to Switch On falls back under Shutdown, Quick Stop is
also reached from Switched On, and a fault ends in Switch On Disabled. -/
def edges : List (PowerState × PowerState) :=
  [(switchOnDisabled, readyToSwitchOn), (switchOnDisabled, fault),
    (readyToSwitchOn, switchedOn), (readyToSwitchOn, switchOnDisabled), (readyToSwitchOn, fault),
    (switchedOn, operationEnabled), (switchedOn, readyToSwitchOn), (switchedOn, quickStopActive),
    (switchedOn, switchOnDisabled), (switchedOn, fault),
    (operationEnabled, switchedOn), (operationEnabled, readyToSwitchOn),
    (operationEnabled, quickStopActive), (operationEnabled, switchOnDisabled),
    (operationEnabled, fault),
    (quickStopActive, operationEnabled), (quickStopActive, switchOnDisabled),
    (quickStopActive, fault),
    (fault, switchOnDisabled)]

theorem next_mem_edges {power : PowerState} {command : Command} (h : power.next command ≠ power) :
    (power, power.next command) ∈ edges := by
  revert h
  cases power <;> cases command <;> decide

theorem apply_mem_edges {power : PowerState} {edge : Bool} {cw : UInt16}
    (h : power.apply edge cw ≠ power) : (power, power.apply edge cw) ∈ edges := by
  by_cases hFault : power = fault
  · subst hFault
    cases edge with
    | false => exact next_mem_edges h
    | true => exact (by decide : (fault, switchOnDisabled) ∈ edges)
  · rw [apply_of_ne_fault hFault] at h ⊢
    exact next_mem_edges h

/-- Every other state has an edge to Fault, and to Switch On Disabled. -/
theorem fault_mem_edges {power : PowerState} (h : fault ≠ power) : (power, fault) ∈ edges := by
  revert h
  cases power <;> decide

theorem switchOnDisabled_mem_edges {power : PowerState} (h : switchOnDisabled ≠ power) :
    (power, switchOnDisabled) ∈ edges := by
  revert h
  cases power <;> decide

section Ways
variable {R : Type}

def word (value : OdValue) : Operation R := .write Cia402Index.controlword 0 value

/-- A way from power-on to each state. -/
def way : PowerState → List (Operation R)
  | switchOnDisabled => []
  | readyToSwitchOn => [word 0x06]
  | switchedOn => [word 0x06, word 0x07]
  | operationEnabled => [word 0x06, word 0x07, word 0x0F]
  | quickStopActive => [word 0x06, word 0x07, word 0x02]
  | fault => [.injectFault]

/-- An operation that takes an edge to each state, wherever it comes from. -/
def entering : PowerState → Operation R
  | switchOnDisabled => word 0x00
  | readyToSwitchOn => word 0x06
  | switchedOn => word 0x07
  | operationEnabled => word 0x0F
  | quickStopActive => word 0x02
  | fault => .injectFault

end Ways

end PowerState

namespace Drive
variable {R : Type} (A : DoubleArith R)

/-- An operation changes the state along an edge. -/
theorem step_mem_edges (d : Drive R) (op : Operation R) (h : (d.step A op).power ≠ d.power) :
    (d.power, (d.step A op).power) ∈ PowerState.edges := by
  rw [power_step] at h ⊢
  cases hEffect : d.effect A op with
  | idle =>
      rw [hEffect] at h
      exact absurd rfl h
  | applied cw =>
      rw [hEffect] at h
      exact PowerState.apply_mem_edges h
  | raised code =>
      rw [hEffect] at h
      exact PowerState.fault_mem_edges h
  | restarted =>
      rw [hEffect] at h
      exact PowerState.switchOnDisabled_mem_edges h

/-- Each edge is taken at the end of the way to its first state. -/
theorem power_step_entering {power next : PowerState} (h : (power, next) ∈ PowerState.edges) :
    let d := run (step A) (powerOn A .immediate) power.way
    d.power = power ∧ (d.step A next.entering).power = next := by
  cases power <;> cases next <;> first | exact absurd h (by decide) | exact ⟨rfl, rfl⟩

end Drive

/-- A state follows another under some operation in some reachable state exactly along
the edges of the graph, whatever the arithmetic is. -/
theorem state_graph_exact {R : Type} (A : DoubleArith R) (before after : DriveState) :
    (∃ (s : DriveSimulator R) (op : Operation R), s.Reachable A ∧ s.state = before ∧
      (s.step A op).state = after ∧ before ≠ after) ↔
    ∃ power next : PowerState, (power, next) ∈ PowerState.edges ∧
      power.toDriveState = before ∧ next.toDriveState = after := by
  constructor
  · rintro ⟨s, op, hReach, rfl, rfl, hChange⟩
    obtain ⟨d, rfl⟩ := Drive.exists_of_reachable A hReach
    rw [Drive.step_toSimulator] at hChange ⊢
    have hPower : (d.step A op).power ≠ d.power :=
      fun hSame => hChange (congrArg PowerState.toDriveState hSame).symm
    exact ⟨d.power, (d.step A op).power, d.step_mem_edges A op hPower, rfl, rfl⟩
  · rintro ⟨power, next, hEdge, rfl, rfl⟩
    obtain ⟨hBefore, hAfter⟩ := Drive.power_step_entering A hEdge
    have hReach : ((run (Drive.step A) (Drive.powerOn A .immediate) power.way).toSimulator
        A).Reachable A :=
      ⟨power.way, by rw [Drive.initial_eq_powerOn, Drive.run_toSimulator]⟩
    have hNe : power ≠ next := by
      rintro rfl
      revert hEdge
      cases power <;> decide
    refine ⟨_, next.entering, hReach, congrArg PowerState.toDriveState hBefore, ?_,
      fun h => hNe (PowerState.toDriveState_injective h)⟩
    rw [Drive.step_toSimulator]
    exact congrArg PowerState.toDriveState hAfter

end Ca1MotorCtrl
