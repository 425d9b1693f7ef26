import Drift.Rdp.Resize
import Mathlib.Tactic.Common

/-!
# The layout policy

The monitor layout that is asked of the server for a view. The numbers of a view are floating point: what
the policy rounds to pixels is a parameter. Its integer arithmetic is checked, so a result says that no
operation wrapped around and that the shrinking loop ended.
-/

namespace Drift.Rdp

def minMonitorDimension : Nat := 200

def maxMonitorDimension : Nat := 8192

/-- `u64::MAX`. -/
abbrev u64Max : Nat := 2 ^ 64 - 1

/-- The largest total monitor area, `A × B × MaxNumMonitors`, saturating. -/
def DisplayControlCaps.maxArea (caps : DisplayControlCaps) : Nat :=
  let area := min (caps.maxMonitorAreaFactorA * caps.maxMonitorAreaFactorB) u64Max
  min (area * caps.maxNumMonitors) u64Max

def clampDimension (v : Nat) : Nat := min (max v minMonitorDimension) maxMonitorDimension

/-- `v & !1`. -/
def even (v : Nat) : Nat := v - v % 2

/-- An area, unless it overflows a `u64`. -/
def area (w h : Nat) : Option Nat := if w * h ≤ u64Max then some (w * h) else none

def checkedSub (a b : Nat) : Option Nat := if b ≤ a then some (a - b) else none

/-- Shrinks the larger side until the area fits, in fewer than `fuel` rounds. -/
def shrink (maxArea : Nat) : Nat → Nat → Nat → Option (Nat × Nat)
  | 0, _, _ => none
  | fuel + 1, w, h =>
    (area w h).bind fun current =>
      if maxArea < current ∧ (minMonitorDimension < w ∨ minMonitorDimension < h) then
        if (h ≤ w ∧ minMonitorDimension < w) ∨ h ≤ minMonitorDimension then
          (checkedSub w 2).bind fun w => shrink maxArea fuel w h
        else (checkedSub h 1).bind fun h => shrink maxArea fuel w h
      else some (w, h)

/-- What the floating-point steps of the policy give: whether a view counts as Retina, its sides in pixels
for a number of pixels per point, and two sides scaled down to an area. -/
structure FloatSteps (Geometry : Type) where
  isRetina : Geometry → Bool
  toPixels : Geometry → Nat → Nat × Nat
  scale : Nat → Nat → Nat → Nat × Nat

variable {Geometry : Type}

def fitToCaps (steps : FloatSteps Geometry) (width height maxArea : Nat) : Option (Nat × Nat) :=
  let w := even (clampDimension width)
  let h := clampDimension height
  (area w h).bind fun current =>
    if current ≤ maxArea then some (w, h)
    else
      let scaled := steps.scale w h maxArea
      let w := even (clampDimension scaled.1)
      let h := clampDimension scaled.2
      shrink maxArea (w + h + 1) w h

def desiredLayout (steps : FloatSteps Geometry) (view : Geometry) (prefs : DisplayPrefs)
    (caps : DisplayControlCaps) : Option MonitorLayout :=
  let retina := prefs.retina && steps.isRetina view
  let (factor, desktopScaleFactor) := if retina then (2, 200) else (1, 100)
  let (width, height) := steps.toPixels view factor
  (fitToCaps steps width height caps.maxArea).map fun (width, height) =>
    { width := width
      height := height
      desktopScaleFactor := desktopScaleFactor
      deviceScaleFactor := deviceScaleFor desktopScaleFactor }

/-! ### The limits of the protocol -/

/-- The sides that may be asked for. -/
structure InLimits (w h : Nat) : Prop where
  even_width : 2 ∣ w
  min_width : minMonitorDimension ≤ w
  max_width : w ≤ maxMonitorDimension
  min_height : minMonitorDimension ≤ h
  max_height : h ≤ maxMonitorDimension

theorem area_eq {w h : Nat} (hw : w ≤ maxMonitorDimension) (hh : h ≤ maxMonitorDimension) :
    area w h = some (w * h) := by
  refine if_pos ?_
  calc w * h ≤ maxMonitorDimension * maxMonitorDimension := Nat.mul_le_mul hw hh
    _ ≤ u64Max := by decide

theorem inLimits_clamped (width height : Nat) :
    InLimits (even (clampDimension width)) (clampDimension height) := by
  unfold even clampDimension minMonitorDimension maxMonitorDimension
  constructor
  case even_width => omega
  case min_width => unfold minMonitorDimension; omega
  case max_width => unfold maxMonitorDimension; omega
  case min_height => unfold minMonitorDimension; omega
  case max_height => unfold maxMonitorDimension; omega

/-- The loop ends with a size that fits, or with the smallest one. -/
theorem shrink_spec (maxArea : Nat) {fuel w h : Nat} (hlimits : InLimits w h) (hfuel : w + h < fuel) :
    ∃ w' h', shrink maxArea fuel w h = some (w', h') ∧ InLimits w' h' ∧
      (w' * h' ≤ maxArea ∨ w' = minMonitorDimension ∧ h' = minMonitorDimension) := by
  induction fuel generalizing w h with
  | zero => omega
  | succ fuel ih =>
      obtain ⟨heven, hminw, hmaxw, hminh, hmaxh⟩ := hlimits
      rw [shrink, area_eq hmaxw hmaxh, Option.bind_some]
      by_cases hloop : maxArea < w * h ∧ (minMonitorDimension < w ∨ minMonitorDimension < h)
      · rw [if_pos hloop]
        by_cases hwide : (h ≤ w ∧ minMonitorDimension < w) ∨ h ≤ minMonitorDimension
        · -- Either way the width is above its minimum, and even numbers are two apart.
          have habove : minMonitorDimension + 2 ≤ w := by
            have hlt : minMonitorDimension < w := by omega
            unfold minMonitorDimension at hlt ⊢
            omega
          rw [if_pos hwide, checkedSub, if_pos (by omega), Option.bind_some]
          exact ih ⟨by omega, by omega, by omega, hminh, hmaxh⟩ (by omega)
        · rw [if_neg hwide, checkedSub, if_pos (by omega), Option.bind_some]
          exact ih ⟨heven, hminw, hmaxw, by omega, by omega⟩ (by omega)
      · rw [if_neg hloop]
        refine ⟨w, h, rfl, ⟨heven, hminw, hmaxw, hminh, hmaxh⟩, ?_⟩
        omega

theorem fitToCaps_spec (steps : FloatSteps Geometry) (width height maxArea : Nat) :
    ∃ w h, fitToCaps steps width height maxArea = some (w, h) ∧ InLimits w h ∧
      (minMonitorDimension * minMonitorDimension ≤ maxArea → w * h ≤ maxArea) := by
  unfold fitToCaps
  have hlimits := inLimits_clamped width height
  simp only [area_eq hlimits.max_width hlimits.max_height, Option.bind_some]
  by_cases hfits : even (clampDimension width) * clampDimension height ≤ maxArea
  · rw [if_pos hfits]
    exact ⟨_, _, rfl, hlimits, fun _ => hfits⟩
  · rw [if_neg hfits]
    set scaled := steps.scale (even (clampDimension width)) (clampDimension height) maxArea
    obtain ⟨w, h, hshrink, hlimits', harea⟩ :=
      shrink_spec maxArea (inLimits_clamped scaled.1 scaled.2) (Nat.lt_succ_self _)
    refine ⟨w, h, hshrink, hlimits', fun hmin => ?_⟩
    rcases harea with hle | ⟨rfl, rfl⟩
    · exact hle
    · exact hmin

theorem deviceScaleFor_mem (desktopScale : Nat) : deviceScaleFor desktopScale ∈ deviceScaleFactors := by
  unfold deviceScaleFor deviceScaleFactors
  simp only [List.foldl_cons, List.foldl_nil]
  split_ifs <;> simp

/-- What may be asked of a server with the given capabilities. -/
structure MonitorLayout.Valid (layout : MonitorLayout) (caps : DisplayControlCaps) : Prop where
  sides : InLimits layout.width layout.height
  area : minMonitorDimension * minMonitorDimension ≤ caps.maxArea →
    layout.width * layout.height ≤ caps.maxArea
  desktop_scale : layout.desktopScaleFactor ∈ [100, 200]
  device_scale : layout.deviceScaleFactor ∈ deviceScaleFactors

theorem valid_of_fitToCaps (steps : FloatSteps Geometry) (sides : Nat × Nat) (caps : DisplayControlCaps)
    {desktopScale : Nat} (hscale : desktopScale ∈ [100, 200]) :
    ∃ layout, (fitToCaps steps sides.1 sides.2 caps.maxArea).map (fun sides => MonitorLayout.mk sides.1
      sides.2 desktopScale (deviceScaleFor desktopScale)) = some layout ∧ layout.Valid caps := by
  obtain ⟨w, h, hfit, hlimits, harea⟩ := fitToCaps_spec steps sides.1 sides.2 caps.maxArea
  rw [hfit, Option.map_some]
  refine ⟨_, rfl, ?_⟩
  constructor
  case sides => exact hlimits
  case area => exact harea
  case desktop_scale => exact hscale
  case device_scale =>
    dsimp only
    exact deviceScaleFor_mem desktopScale

/-- **Layouts satisfy the protocol.** The sides that are fitted to the server's capabilities, and those of
the layout of any view, are within the limits, and within the largest area if any size is. -/
theorem layouts_in_limits (steps : FloatSteps Geometry) :
    (∀ width height maxArea, ∃ w h, fitToCaps steps width height maxArea = some (w, h) ∧
      InLimits w h ∧ (minMonitorDimension * minMonitorDimension ≤ maxArea → w * h ≤ maxArea)) ∧
    ∀ view prefs caps, ∃ layout, desiredLayout steps view prefs caps = some layout ∧
      layout.Valid caps := by
  refine ⟨fitToCaps_spec steps, fun view prefs caps => ?_⟩
  unfold desiredLayout
  cases prefs.retina && steps.isRetina view with
  | true => exact valid_of_fitToCaps steps (steps.toPixels view 2) caps (by decide)
  | false => exact valid_of_fitToCaps steps (steps.toPixels view 1) caps (by decide)

end Drift.Rdp
