import Ca1MotorCtrl.WebUi.Telemetry
import Mathlib.Algebra.Order.Field.Basic
import Mathlib.Data.Rat.Cast.Order
import Mathlib.Tactic.Linarith

/-! The charts of the page, with the coordinates as exact rationals. Whatever has been
shown, the position chart fits into its canvas; the velocity chart has a fixed scale. -/
namespace Ca1MotorCtrl

open Transition BoundedLog

/-- What `draw` strokes: the line of zero and the curve, none for a single sample. -/
structure Drawing where
  baseline : ℚ
  curve : List (ℚ × ℚ)
  deriving DecidableEq, Repr

namespace Page

/-- `draw` on a canvas of the given width and height. A bound that is not given is that
of the data and zero. -/
def draw (data : List OdValue) (lo hi : Option ℚ) (W H : ℚ) : Drawing :=
  let mn := lo.getD (data.foldr (fun v m => Min.min (v.toInt : ℚ) m) 0)
  let mx := hi.getD (data.foldr (fun v m => Max.max (v.toInt : ℚ) m) 0)
  let r := if mx = mn then 1 else mx - mn
  { baseline := H * (1 - (0 - mn) / r)
    curve :=
      if data.length < 2 then []
      else data.zipIdx.map fun p => (p.2 / (max - 1) * W, H * (1 - (p.1.toInt - mn) / r)) }

/-- The two charts after a message. -/
def velocityChart (page : Page) : Drawing := draw page.vd (some (-250)) (some 250) 720 160

def positionChart (page : Page) : Drawing := draw page.pd none none 720 160

end Page

/-- A point of the canvases of the page. -/
def OnCanvas (p : ℚ × ℚ) : Prop := (0 ≤ p.1 ∧ p.1 ≤ 720) ∧ 0 ≤ p.2 ∧ p.2 ≤ 160

section Scale

/-- A value between the bounds of a scale is drawn between the borders. -/
theorem scaled_mem_iff {H mn mx : ℚ} (hH : 0 < H) (hScale : mn < mx) (v : ℚ) :
    (0 ≤ H * (1 - (v - mn) / (mx - mn)) ∧ H * (1 - (v - mn) / (mx - mn)) ≤ H) ↔
      mn ≤ v ∧ v ≤ mx := by
  have hRange : 0 < mx - mn := sub_pos.mpr hScale
  have hLow : H * (1 - (v - mn) / (mx - mn)) ≤ H ↔ 0 ≤ (v - mn) / (mx - mn) := by
    constructor
    · intro h
      nlinarith
    · intro h
      nlinarith
  have hHigh : 0 ≤ H * (1 - (v - mn) / (mx - mn)) ↔ (v - mn) / (mx - mn) ≤ 1 := by
    rw [mul_nonneg_iff_of_pos_left hH, sub_nonneg]
  rw [hLow, hHigh, div_le_one hRange, le_div_iff₀ hRange, zero_mul]
  constructor
  · rintro ⟨hTop, hBottom⟩
    exact ⟨by linarith, by linarith⟩
  · rintro ⟨hBottom, hTop⟩
    exact ⟨by linarith, by linarith⟩

/-- The bounds of a chart without a fixed scale. -/
theorem foldr_min_le (data : List OdValue) :
    data.foldr (fun v m => Min.min (v.toInt : ℚ) m) 0 ≤ 0 ∧
      ∀ v ∈ data, data.foldr (fun v m => Min.min (v.toInt : ℚ) m) 0 ≤ v.toInt := by
  induction data with
  | nil => exact ⟨le_rfl, fun v hMem => absurd hMem List.not_mem_nil⟩
  | cons first data ih =>
      refine ⟨(min_le_right _ _).trans ih.1, fun v hMem => ?_⟩
      rcases List.mem_cons.mp hMem with rfl | hMem
      · exact min_le_left _ _
      · exact (min_le_right _ _).trans (ih.2 v hMem)

theorem le_foldr_max (data : List OdValue) :
    0 ≤ data.foldr (fun v m => Max.max (v.toInt : ℚ) m) 0 ∧
      ∀ v ∈ data, v.toInt ≤ data.foldr (fun v m => Max.max (v.toInt : ℚ) m) 0 := by
  induction data with
  | nil => exact ⟨le_rfl, fun v hMem => absurd hMem List.not_mem_nil⟩
  | cons first data ih =>
      refine ⟨ih.1.trans (le_max_right _ _), fun v hMem => ?_⟩
      rcases List.mem_cons.mp hMem with rfl | hMem
      · exact le_max_left _ _
      · exact (ih.2 v hMem).trans (le_max_right _ _)

/-- The same for a scale with a bound on one side only, which is zero. -/
theorem scaled_mem {H mn mx : ℚ} (hH : 0 < H) {v : ℚ} (hBottom : mn ≤ v) (hTop : v ≤ mx) :
    0 ≤ H * (1 - (v - mn) / (if mx = mn then 1 else mx - mn)) ∧
      H * (1 - (v - mn) / (if mx = mn then 1 else mx - mn)) ≤ H := by
  split
  next hFlat =>
    have hZero : v - mn = 0 := by linarith
    rw [hZero, zero_div, sub_zero, mul_one]
    exact ⟨hH.le, le_rfl⟩
  next hScale =>
    exact (scaled_mem_iff hH (lt_of_le_of_ne (hBottom.trans hTop) (Ne.symm hScale)) v).mpr
      ⟨hBottom, hTop⟩

theorem column_mem {i : ℕ} (h : i < 300) :
    0 ≤ (i : ℚ) / (Page.max - 1) * 720 ∧ (i : ℚ) / (Page.max - 1) * 720 ≤ 720 := by
  have hColumn : (i : ℚ) ≤ 299 := by exact_mod_cast Nat.le_of_lt_succ h
  have hMax : (Page.max : ℚ) - 1 = 299 := by norm_num [Page.max]
  rw [hMax]
  constructor
  · positivity
  · linarith

end Scale

namespace Page

/-- The position chart fits into its canvas, whatever its data are. -/
theorem onCanvas_positionChart {page : Page} (hLength : page.pd.length ≤ 300) :
    (∀ p ∈ page.positionChart.curve, OnCanvas p) ∧
      0 ≤ page.positionChart.baseline ∧ page.positionChart.baseline ≤ 160 := by
  obtain ⟨hMinZero, hMin⟩ := foldr_min_le page.pd
  obtain ⟨hMaxZero, hMax⟩ := le_foldr_max page.pd
  constructor
  · intro p hMem
    simp only [positionChart, draw, Option.getD_none] at hMem
    split at hMem
    · cases hMem
    · obtain ⟨⟨v, i⟩, hSample, rfl⟩ := List.mem_map.mp hMem
      have hValue := List.fst_mem_of_mem_zipIdx hSample
      have hIndex := List.snd_lt_of_mem_zipIdx hSample
      exact ⟨column_mem (by omega), scaled_mem (by norm_num) (hMin v hValue) (hMax v hValue)⟩
  · exact scaled_mem (by norm_num) hMinZero hMaxZero

/-- The velocity chart fits exactly while no sample leaves its scale. -/
theorem onCanvas_velocityChart_iff {page : Page} (hLength : page.vd.length ≤ 300) :
    (∀ p ∈ page.velocityChart.curve, OnCanvas p) ↔
      page.vd.length < 2 ∨ ∀ v ∈ page.vd, |v.toInt| ≤ 250 := by
  have hFixed : ((250 : ℚ) = -250) = False := by norm_num
  simp only [velocityChart, draw, Option.getD_some, hFixed, if_false]
  split
  next hShort => exact iff_of_true (fun p hMem => absurd hMem List.not_mem_nil) (Or.inl hShort)
  next hLong =>
    have hScale (v : OdValue) :
        (0 ≤ (160 : ℚ) * (1 - (v.toInt - -250) / (250 - -250)) ∧
          (160 : ℚ) * (1 - (v.toInt - -250) / (250 - -250)) ≤ 160) ↔ |v.toInt| ≤ 250 := by
      rw [scaled_mem_iff (by norm_num) (by norm_num), abs_le]
      norm_cast
    rw [or_iff_right hLong, List.forall_mem_map]
    constructor
    · intro h v hMem
      obtain ⟨i, hIndex, rfl⟩ := List.mem_iff_getElem.mp hMem
      have hSample : (page.vd[i], i) ∈ page.vd.zipIdx :=
        List.mem_zipIdx_iff_getElem?.mpr (List.getElem?_eq_getElem hIndex)
      exact (hScale _).mp (h _ hSample).2
    · intro h p hSample
      have hIndex := List.snd_lt_of_mem_zipIdx hSample
      exact ⟨column_mem (by omega), (hScale p.1).mpr (h _ (List.fst_mem_of_mem_zipIdx hSample))⟩

end Page

section System
variable {Server R : Type} (strings : Topic String) (numbers : Topic OdValue)
  (services : Services Server) (act : Server → Operation R → Server)

variable {strings numbers} in
/-- The messages that the page has handled. -/
def recordShown (shown : List Status) (s : Telemetry Server strings numbers) :
    TelemetryEvent R → List Status
  | .onmessage => shown ++ s.stream.take 1
  | _ => shown

/-- A chart has the newest samples. -/
theorem Page.addSample_newest (shown : List OdValue) (sample : OdValue) :
    addSample (newest max shown) sample = newest max (shown ++ [sample]) := by
  rw [← newest_newest_append, addSample]
  have hLength := length_newest_le max shown
  split
  next hLong =>
    rw [List.length_append, List.length_singleton] at hLong
    have hOne : (newest max shown ++ [sample]).length - max = 1 := by
      rw [List.length_append, List.length_singleton]
      omega
    rw [← List.drop_one]
    exact (congrArg (fun n => (newest max shown ++ [sample]).drop n) hOne).symm
  next hShort => rw [newest_of_length_le max (Nat.le_of_not_lt hShort)]

theorem samples_run (server : Server) (node : DriveControllerNode)
    (events : List (TelemetryEvent R)) :
    let start : Telemetry Server strings numbers := { loop := (server, node) }
    let config := run (recordStep (Telemetry.step services act) recordShown) (start, []) events
    config.1.page.vd = newest Page.max (config.2.map Status.velocityActual) ∧
      config.1.page.pd = newest Page.max (config.2.map Status.positionActual) := by
  have hStart : [] = newest Page.max ([] : List OdValue) :=
    (newest_of_length_le Page.max (Nat.zero_le _)).symm
  refine run_invariant (fun config : Telemetry Server strings numbers × List Status =>
    config.1.page.vd = newest Page.max (config.2.map Status.velocityActual) ∧
      config.1.page.pd = newest Page.max (config.2.map Status.positionActual)) ?_
    ⟨hStart, hStart⟩ events
  rintro ⟨s, shown⟩ event ⟨hVelocity, hPosition⟩
  cases event with
  | onmessage =>
      simp only [recordStep, Telemetry.step, recordShown]
      split
      next hNone =>
        rw [hNone, List.take_nil, List.append_nil]
        exact ⟨hVelocity, hPosition⟩
      next d rest hStream =>
        have hVd : (s.page.onmessage d).vd = Page.addSample s.page.vd d.velocityActual := rfl
        have hPd : (s.page.onmessage d).pd = Page.addSample s.page.pd d.positionActual := rfl
        rw [hStream, List.take_succ_cons, List.take_zero, List.map_append, List.map_append]
        exact ⟨by rw [hVd, hVelocity, Page.addSample_newest, List.map_singleton],
          by rw [hPd, hPosition, Page.addSample_newest, List.map_singleton]⟩
  | loop event =>
      cases event with
      | fsmThread =>
          simp only [recordStep, Telemetry.step, recordShown]
          split <;> exact ⟨hVelocity, hPosition⟩
      | _ => exact ⟨hVelocity, hPosition⟩
  | publish =>
      simp only [recordStep, Telemetry.step, recordShown]
      split
      next => exact ⟨hVelocity, hPosition⟩
      next p rest _ => cases p <;> exact ⟨hVelocity, hPosition⟩
  | transport topic choice => cases topic <;> exact ⟨hVelocity, hPosition⟩
  | onState | onVel | onPos | onCtrlEvent ts | status | send =>
      simp only [recordStep, Telemetry.step, recordShown]
      split <;> exact ⟨hVelocity, hPosition⟩
  | operation op | manual req outcome | onerror => exact ⟨hVelocity, hPosition⟩

/-- The charts show the newest 300 samples that the page has been sent. All of the
position chart lies on its canvas; the velocity chart does so exactly while the
samples stay within the default speed limit. -/
theorem charts_on_canvas (server : Server) (node : DriveControllerNode)
    (events : List (TelemetryEvent R)) :
    let start : Telemetry Server strings numbers := { loop := (server, node) }
    let config := run (recordStep (Telemetry.step services act) recordShown) (start, []) events
    let page := config.1.page
    page.vd = newest 300 (config.2.map Status.velocityActual) ∧
      page.pd = newest 300 (config.2.map Status.positionActual) ∧
      (∀ p ∈ page.positionChart.curve, OnCanvas p) ∧
      (0 ≤ page.positionChart.baseline ∧ page.positionChart.baseline ≤ 160) ∧
      ((∀ p ∈ page.velocityChart.curve, OnCanvas p) ↔
        page.vd.length < 2 ∨ ∀ v ∈ page.vd, |v.toInt| ≤ 250) := by
  intro start config page
  obtain ⟨hVelocity, hPosition⟩ := samples_run strings numbers services act server node events
  have hVelocityLength : page.vd.length ≤ 300 := hVelocity ▸ length_newest_le Page.max _
  have hPositionLength : page.pd.length ≤ 300 := hPosition ▸ length_newest_le Page.max _
  obtain ⟨hCurve, hBaseline⟩ := Page.onCanvas_positionChart hPositionLength
  exact ⟨hVelocity, hPosition, hCurve, hBaseline, Page.onCanvas_velocityChart_iff hVelocityLength⟩

end System

end Ca1MotorCtrl
