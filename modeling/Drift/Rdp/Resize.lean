import Drift.Core.State

/-!
# The resize driver

Debounces the geometry of the view into monitor layouts for the Display Control channel. The type of
a geometry is a parameter: its numbers are floating point, and the driver only compares two
geometries, with the source's `==`, and hands them to the layout policy.
-/

namespace Drift.Rdp

inductive ConnectMode where
  | remoteLogin
  | headless
  | desktopSharing
  deriving DecidableEq

structure DisplayPrefs where
  adaptive : Bool
  retina : Bool
  deriving DecidableEq

structure DisplayControlCaps where
  maxNumMonitors : Nat
  maxMonitorAreaFactorA : Nat
  maxMonitorAreaFactorB : Nat
  deriving DecidableEq

/-- One monitor of up to 8192 × 8192 pixels. -/
def DisplayControlCaps.default : DisplayControlCaps := ⟨1, 8192, 8192⟩

structure MonitorLayout where
  width : Nat
  height : Nat
  desktopScaleFactor : Nat
  deviceScaleFactor : Nat
  deriving DecidableEq

def deviceScaleFactors : List Nat := [100, 140, 180]

/-- The device scale factor nearest to a desktop scale; ties go to the lower. -/
def deviceScaleFor (desktopScale : Nat) : Nat :=
  let distance : Nat → Nat := fun c => (c - desktopScale) + (desktopScale - c)
  deviceScaleFactors.foldl (fun best c => if distance c < distance best then c else best) 100

abbrev LayoutPolicy (Geometry : Type) :=
  Geometry → DisplayPrefs → DisplayControlCaps → MonitorLayout

def resizeDebounce : Duration := .fromMillis 250

def modeHasDisplayControl : ConnectMode → Bool
  | .remoteLogin | .headless => true
  | .desktopSharing => false

structure ResizeDriver (Geometry : Type) where
  mode : ConnectMode
  prefs : DisplayPrefs
  geometry : Option Geometry
  caps : Option DisplayControlCaps
  current : Option MonitorLayout
  due : Option Instant

namespace ResizeDriver

variable {Geometry : Type}

def new (mode : ConnectMode) (prefs : DisplayPrefs) : ResizeDriver Geometry where
  mode := mode
  prefs := prefs
  geometry := none
  caps := none
  current := none
  due := none

def adaptive (r : ResizeDriver Geometry) : Bool :=
  r.prefs.adaptive && modeHasDisplayControl r.mode

def desired (desiredLayout : LayoutPolicy Geometry) (r : ResizeDriver Geometry) :
    Option MonitorLayout :=
  match r.geometry with
  | none => none
  | some geometry =>
    if r.adaptive then some (desiredLayout geometry r.prefs (r.caps.getD .default)) else none

def connectLayout (desiredLayout : LayoutPolicy Geometry) (r : ResizeDriver Geometry) :
    Option MonitorLayout :=
  r.desired desiredLayout

def onGeometry [BEq Geometry] (r : ResizeDriver Geometry) (geometry : Geometry) (now : Instant) :
    ResizeDriver Geometry :=
  if r.geometry.any (· == geometry) then r
  else
    { r with
      geometry := some geometry
      due := if r.adaptive then some (now + resizeDebounce) else r.due }

def onLegActivated (r : ResizeDriver Geometry) (layout : MonitorLayout) : ResizeDriver Geometry :=
  { r with caps := none, current := some layout }

def onDisplayControlReady (r : ResizeDriver Geometry) (caps : DisplayControlCaps) (now : Instant) :
    ResizeDriver Geometry :=
  { r with
    caps := some caps
    due := if r.adaptive && r.geometry.isSome && r.due.isNone then some now else r.due }

def poll (desiredLayout : LayoutPolicy Geometry) (r : ResizeDriver Geometry) (now : Instant) :
    ResizeDriver Geometry × Option MonitorLayout :=
  if r.due.any (now < ·) then (r, none)
  else if r.caps.isNone then (r, none)
  else
    let r := { r with due := none }
    match r.desired desiredLayout with
    | none => (r, none)
    | some desired =>
      if r.current = some desired then (r, none)
      else ({ r with current := some desired }, some desired)

/-- The geometry in use is the given one, or one that the source's comparison takes for it. -/
def SameGeometry [BEq Geometry] : Option Geometry → Option Geometry → Prop
  | none, none => True
  | some used, some given => used = given ∨ (used == given) = true
  | _, _ => False

instance [BEq Geometry] [DecidableEq Geometry] :
    ∀ used given : Option Geometry, Decidable (SameGeometry used given)
  | none, none => isTrue trivial
  | some used, some given => inferInstanceAs (Decidable (used = given ∨ (used == given) = true))
  | none, some _ | some _, none => isFalse not_false

theorem sameGeometry_onGeometry [BEq Geometry] (r : ResizeDriver Geometry) (geometry : Geometry)
    (now : Instant) : SameGeometry (r.onGeometry geometry now).geometry (some geometry) := by
  by_cases hsame : r.geometry.any (· == geometry)
  · obtain ⟨used, hused, hequal⟩ := (Option.any_eq_true _ _).mp hsame
    rw [onGeometry, if_pos hsame, hused]
    exact .inr hequal
  · rw [onGeometry, if_neg hsame]
    exact .inl rfl

@[simp]
theorem geometry_onLegActivated (r : ResizeDriver Geometry) (layout : MonitorLayout) :
    (r.onLegActivated layout).geometry = r.geometry := rfl

@[simp]
theorem geometry_onDisplayControlReady (r : ResizeDriver Geometry) (caps : DisplayControlCaps)
    (now : Instant) : (r.onDisplayControlReady caps now).geometry = r.geometry := rfl

@[simp]
theorem geometry_poll (desiredLayout : LayoutPolicy Geometry) (r : ResizeDriver Geometry)
    (now : Instant) : (r.poll desiredLayout now).1.geometry = r.geometry := by
  unfold poll
  split_ifs <;> [rfl; rfl; skip]
  simp only
  split
  · rfl
  · split_ifs <;> rfl

end ResizeDriver

end Drift.Rdp
