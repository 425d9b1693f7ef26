import Drift.Core.Geometry
import Mathlib.Algebra.Order.Field.Rat
import Mathlib.Tactic.FieldSimp
import Mathlib.Tactic.Linarith

/-!
# The present layout

How the composed desktop maps onto the drawable: texel for texel when the sizes agree, and otherwise scaled
into the largest rectangle of its aspect ratio, centred. The integer arithmetic is checked, so a result says
that no operation wrapped around.
-/

namespace Drift.Render

inductive Filter where
  | nearest
  | linear
  deriving DecidableEq

structure PresentLayout where
  filter : Filter
  viewport : Rect
  deriving DecidableEq

/-- A number that a `u64` holds. -/
def u64 (v : Nat) : Option Nat := if v < 2 ^ 64 then some v else none

/-- `a - b` of two `u32`. -/
def subU32 (a b : Nat) : Option Nat := if b ≤ a then some (a - b) else none

/-- Rounded integer division, clamped to `1..=limit`; a zero `den` and an empty range are errors. -/
def scale (num den limit : Nat) : Option Nat := do
  let sum ← u64 ((← u64 (2 * num)) + den)
  let divisor ← u64 (2 * den)
  if divisor = 0 ∨ limit < 1 then none
  else some (min (max (sum / divisor) 1) limit)

def presentLayout (desktop drawable : Size) : Option (Option PresentLayout) :=
  if desktop.width = 0 ∨ desktop.height = 0 ∨ drawable.width = 0 ∨ drawable.height = 0 then some none
  else if desktop = drawable then
    some (some ⟨.nearest, ⟨0, 0, drawable.width, drawable.height⟩⟩)
  else do
    let (dw, dh) := (desktop.width, desktop.height)
    let (tw, th) := (drawable.width, drawable.height)
    let twdh ← u64 (tw * dh)
    let thdw ← u64 (th * dw)
    let (w, h) ←
      if twdh ≤ thdw then (scale twdh dw th).map fun h => (tw, h) -- bars top and bottom
      else (scale thdw dh tw).map fun w => (w, th) -- bars left and right
    let (w, h) := (w % 2 ^ 32, h % 2 ^ 32)
    let x ← subU32 drawable.width w
    let y ← subU32 drawable.height h
    some (some ⟨.linear, ⟨x / 2, y / 2, w, h⟩⟩)

/-! ### One scaled side -/

/-- A rounded division of numbers below the limits is within one of the quotient, also where it is lifted
to one, and it stays below what the quotient stays below. -/
theorem scale_spec {num den limit : Nat} (hnum : 0 < num) (hden : 0 < den) (hlimit : 0 < limit)
    (hle : num ≤ limit * den) (hnumMax : num < 2 ^ 62) (hdenMax : den < 2 ^ 31) :
    ∃ v, scale num den limit = some v ∧ 0 < v ∧ v ≤ limit ∧
      num < v * den + den ∧ v * den < num + den := by
  have hsum : u64 (2 * num) = some (2 * num) := if_pos (by omega)
  have htotal : u64 (2 * num + den) = some (2 * num + den) := if_pos (by omega)
  have hdivisor : u64 (2 * den) = some (2 * den) := if_pos (by omega)
  set q := (2 * num + den) / (2 * den)
  have hvalue : scale num den limit = some (min (max q 1) limit) := by
    simp only [scale, hsum, htotal, hdivisor, Option.bind_eq_bind, Option.bind_some]
    exact if_neg (by omega)
  have hbelow : 2 * (q * den) ≤ 2 * num + den := by
    calc 2 * (q * den) = q * (2 * den) := Nat.mul_left_comm 2 q den
      _ ≤ 2 * num + den := Nat.div_mul_le_self _ _
  have habove : 2 * num + den < 2 * (q * den) + 2 * den := by
    calc 2 * num + den < q * (2 * den) + 2 * den := Nat.lt_div_mul_add (by omega)
      _ = 2 * (q * den) + 2 * den := by rw [Nat.mul_left_comm q 2 den]
  clear_value q
  have hqlimit : q ≤ limit := by
    by_contra hover
    have hmul : (limit + 1) * den ≤ q * den := Nat.mul_le_mul_right den (by omega)
    rw [Nat.succ_mul] at hmul
    omega
  refine ⟨_, hvalue, by omega, Nat.min_le_right _ _, ?_⟩
  by_cases hzero : q = 0
  · have hone : min (max q 1) limit = 1 := by omega
    rw [hzero] at habove
    rw [hone]
    omega
  · have hsame : min (max q 1) limit = q := by omega
    rw [hsame]
    omega

/-- Within one of a quotient, over the rational numbers. -/
theorem abs_sub_div_lt_one {v num den : Nat} (hden : 0 < den) (hbelow : num < v * den + den)
    (habove : v * den < num + den) : |(v : ℚ) - num / den| < 1 := by
  have hpos : (0 : ℚ) < den := by exact_mod_cast hden
  have hbelow' : (num : ℚ) < v * den + den := by exact_mod_cast hbelow
  have habove' : (v : ℚ) * den < num + den := by exact_mod_cast habove
  rw [abs_sub_lt_iff, sub_lt_iff_lt_add, sub_lt_iff_lt_add, div_lt_iff₀ hpos]
  constructor
  · rw [← sub_lt_iff_lt_add', lt_div_iff₀ hpos, sub_mul, one_mul]
    linarith
  · rw [add_mul, one_mul]
    linarith

/-! ### The viewport -/

/-- The two margins of a side differ by one pixel at most. -/
def Centred (offset length side : Nat) : Prop :=
  |((side : ℤ) - (offset + length)) - offset| ≤ 1

theorem centred_half {length side : Nat} (h : length ≤ side) :
    Centred ((side - length) / 2) length side := by
  unfold Centred
  rw [abs_le]
  omega

/-- A layout that shows the whole desktop as large as its aspect ratio allows. -/
structure PresentLayout.Fits (layout : PresentLayout) (desktop drawable : Size) : Prop where
  nonempty : layout.viewport.isEmpty = false
  inside : layout.viewport.Inside drawable
  centred_x : Centred layout.viewport.x layout.viewport.width drawable.width
  centred_y : Centred layout.viewport.y layout.viewport.height drawable.height
  aspect :
    layout.viewport.width = drawable.width ∧
        |(layout.viewport.height : ℚ) - drawable.width * desktop.height / desktop.width| < 1 ∨
      layout.viewport.height = drawable.height ∧
        |(layout.viewport.width : ℚ) - drawable.height * desktop.width / desktop.height| < 1
  exact_iff :
    layout.filter = .nearest ∧ layout.viewport = ⟨0, 0, drawable.width, drawable.height⟩ ↔
      desktop = drawable

/-- The sizes that the layout is computed for: no side is empty, and none has more than 31 bits. -/
structure Presentable (size : Size) : Prop where
  width_pos : 1 ≤ size.width
  width_le : size.width ≤ 2 ^ 31 - 1
  height_pos : 1 ≤ size.height
  height_le : size.height ≤ 2 ^ 31 - 1

theorem product_lt {a b : Nat} (ha : a ≤ 2 ^ 31 - 1) (hb : b ≤ 2 ^ 31 - 1) : a * b < 2 ^ 62 := by
  calc a * b ≤ (2 ^ 31 - 1) * (2 ^ 31 - 1) := Nat.mul_le_mul ha hb
    _ < 2 ^ 62 := by decide

/-- The layout from the sides that were computed for it. -/
theorem presentLayout_eq {desktop drawable : Size} (hdesktop : Presentable desktop)
    (hdrawable : Presentable drawable) (hne : desktop ≠ drawable) :
    ∃ w h, presentLayout desktop drawable =
        some (some ⟨.linear, ⟨(drawable.width - w) / 2, (drawable.height - h) / 2, w, h⟩⟩) ∧
      0 < w ∧ w ≤ drawable.width ∧ 0 < h ∧ h ≤ drawable.height ∧
      (w = drawable.width ∧ drawable.width * desktop.height < h * desktop.width + desktop.width ∧
          h * desktop.width < drawable.width * desktop.height + desktop.width ∨
        h = drawable.height ∧ drawable.height * desktop.width < w * desktop.height + desktop.height ∧
          w * desktop.height < drawable.height * desktop.width + desktop.height) := by
  obtain ⟨hdw, hdwMax, hdh, hdhMax⟩ := hdesktop
  obtain ⟨htw, htwMax, hth, hthMax⟩ := hdrawable
  have htwdh := product_lt htwMax hdhMax
  have hthdw := product_lt hthMax hdwMax
  have hwide : u64 (drawable.width * desktop.height) = some (drawable.width * desktop.height) :=
    if_pos (by omega)
  have htall : u64 (drawable.height * desktop.width) = some (drawable.height * desktop.width) :=
    if_pos (by omega)
  -- What is left of the computation once both sides are known and are at most those of the drawable.
  have hfinish : ∀ {w h : Nat}, w ≤ drawable.width → h ≤ drawable.height →
      (do let x ← subU32 drawable.width (w % 2 ^ 32)
          let y ← subU32 drawable.height (h % 2 ^ 32)
          some (some (PresentLayout.mk .linear ⟨x / 2, y / 2, w % 2 ^ 32, h % 2 ^ 32⟩))) =
        some (some ⟨.linear, ⟨(drawable.width - w) / 2, (drawable.height - h) / 2, w, h⟩⟩) := by
    intro w h hw hh
    rw [Nat.mod_eq_of_lt (by omega : w < 2 ^ 32), Nat.mod_eq_of_lt (by omega : h < 2 ^ 32), subU32,
      if_pos hw, subU32, if_pos hh]
    rfl
  unfold presentLayout
  rw [if_neg (by omega), if_neg hne]
  simp only [hwide, htall, Option.bind_eq_bind, Option.bind_some]
  by_cases hlimit : drawable.width * desktop.height ≤ drawable.height * desktop.width
  · obtain ⟨h, hscale, hpos, hle, hbelow, habove⟩ :=
      scale_spec (Nat.mul_pos htw hdh) hdw hth hlimit htwdh (by omega)
    rw [if_pos hlimit, hscale, Option.map_some, Option.bind_some]
    exact ⟨drawable.width, h, hfinish le_rfl hle, htw, le_rfl, hpos, hle, .inl ⟨rfl, hbelow, habove⟩⟩
  · obtain ⟨w, hscale, hpos, hle, hbelow, habove⟩ :=
      scale_spec (Nat.mul_pos hth hdw) hdh htw (by omega) hthdw (by omega)
    rw [if_neg hlimit, hscale, Option.map_some, Option.bind_some]
    exact ⟨w, drawable.height, hfinish hle le_rfl, hpos, hle, hth, le_rfl, .inr ⟨rfl, hbelow, habove⟩⟩

/-- The whole drawable fits a desktop of its own size. -/
theorem fits_whole {size : Size} (hsize : Presentable size) :
    PresentLayout.Fits ⟨.nearest, ⟨0, 0, size.width, size.height⟩⟩ size size := by
  obtain ⟨hwidth, -, hheight, -⟩ := hsize
  have hpos : (0 : ℚ) < size.width := by exact_mod_cast hwidth
  constructor
  case nonempty => simp [Rect.isEmpty]; omega
  case inside => exact ⟨by simp, by simp⟩
  case centred_x => simp [Centred]
  case centred_y => simp [Centred]
  case aspect =>
    refine .inl ⟨rfl, ?_⟩
    rw [mul_div_cancel_left₀ _ hpos.ne', sub_self, abs_zero]
    exact one_pos
  case exact_iff => exact iff_of_true ⟨rfl, rfl⟩ rfl

/-- **The present layout fits.** For sizes without an empty side and with sides of at most 31 bits the
layout is computed without an overflow, and it fits. -/
theorem presentLayout_fits {desktop drawable : Size} (hdesktop : Presentable desktop)
    (hdrawable : Presentable drawable) :
    ∃ layout, presentLayout desktop drawable = some (some layout) ∧ layout.Fits desktop drawable := by
  by_cases hsame : desktop = drawable
  · subst hsame
    refine ⟨_, ?_, fits_whole hdesktop⟩
    obtain ⟨hwidth, -, hheight, -⟩ := hdesktop
    rw [presentLayout, if_neg (by omega), if_pos rfl]
  · obtain ⟨w, h, hlayout, hwpos, hwle, hhpos, hhle, haspect⟩ :=
      presentLayout_eq hdesktop hdrawable hsame
    refine ⟨_, hlayout, ?_⟩
    constructor
    case nonempty => simp [Rect.isEmpty]; omega
    case inside => exact ⟨by dsimp only; omega, by dsimp only; omega⟩
    case centred_x => exact centred_half hwle
    case centred_y => exact centred_half hhle
    case aspect =>
      refine haspect.imp ?_ ?_
      · rintro ⟨hw, hbelow, habove⟩
        refine ⟨hw, ?_⟩
        have hnear := abs_sub_div_lt_one hdesktop.width_pos hbelow habove
        rwa [Nat.cast_mul] at hnear
      · rintro ⟨hh, hbelow, habove⟩
        refine ⟨hh, ?_⟩
        have hnear := abs_sub_div_lt_one hdesktop.height_pos hbelow habove
        rwa [Nat.cast_mul] at hnear
    case exact_iff => exact iff_of_false (fun hexact => nomatch hexact.1) hsame

theorem presentLayout_fits_hd :
    Presentable ⟨1280, 800⟩ ∧ Presentable ⟨1920, 1080⟩ ∧
      ∃ layout, presentLayout ⟨1280, 800⟩ ⟨1920, 1080⟩ = some (some layout) ∧
        layout.Fits ⟨1280, 800⟩ ⟨1920, 1080⟩ := by
  have hdesktop : Presentable ⟨1280, 800⟩ := by constructor <;> decide
  have hdrawable : Presentable ⟨1920, 1080⟩ := by constructor <;> decide
  exact ⟨hdesktop, hdrawable, presentLayout_fits hdesktop hdrawable⟩

end Drift.Render
