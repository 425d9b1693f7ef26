import Drift.Input.Scroll
import Drift.Lib.Transition
import Mathlib.Algebra.BigOperators.Group.List.Basic
import Mathlib.Data.List.Induction
import Mathlib.Tactic.Linarith

/-!
# No motion is lost

Over the rational numbers, the units that a push emits on an axis and the remainder it leaves make up the
remainder before it and the delta, so over many pushes the units and the last remainder make up all deltas.
-/

namespace Drift.Input

open Scalar (clamp isNaN le lt toInt trunc)

/-- The units of an event on the horizontal or the vertical axis. -/
def unitsOn (axis : Bool) : InputEvent → Int
  | .wheel horizontal units => if horizontal = axis then units.toInt else 0
  | _ => 0

def sumOn (axis : Bool) (events : List InputEvent) : Int := (events.map (unitsOn axis)).sum

@[simp]
theorem sumOn_append (axis : Bool) (events events' : List InputEvent) :
    sumOn axis (events ++ events') = sumOn axis events + sumOn axis events' := by
  simp [sumOn]

/-- The wheel events of one axis and push: not zero, of one sign, and bounded. -/
def Bounded (chunk : Nat) (axis : Bool) (total : Int) (event : InputEvent) : Prop :=
  ∃ units : Int16, event = .wheel axis units ∧ units.toInt ≠ 0 ∧ |units.toInt| ≤ chunk ∧
    (0 < units.toInt ↔ 0 < total)

/-! ### Splitting -/

section Split

variable (chunk : Nat) [NeZero chunk] (hchunk : chunk ≤ 255) (axis : Bool)

include hchunk

omit [NeZero chunk] in
theorem toInt_step (remaining : Int) :
    (Int16.ofInt (max (-chunk : Int) (min remaining chunk))).toInt =
      max (-chunk : Int) (min remaining chunk) := by
  apply Int16.toInt_ofInt_of_le <;> omega

theorem sumOn_splitUnits (remaining : Int) : sumOn axis (splitUnits chunk axis remaining) = remaining := by
  fun_induction splitUnits chunk axis remaining with
  | case1 => rfl
  | case2 remaining hne step ih =>
      have hstep : (Int16.ofInt step).toInt = step := toInt_step chunk hchunk remaining
      simp only [sumOn, List.map_cons, List.sum_cons, unitsOn, if_true] at ih ⊢
      rw [ih, hstep]
      exact add_sub_cancel step remaining

theorem bounded_splitUnits (remaining : Int) :
    ∀ event ∈ splitUnits chunk axis remaining, Bounded chunk axis remaining event := by
  have hpos : chunk ≠ 0 := NeZero.ne chunk
  fun_induction splitUnits chunk axis remaining with
  | case1 => exact nofun
  | case2 remaining hne step ih =>
      have hstep : (Int16.ofInt step).toInt = step := toInt_step chunk hchunk remaining
      have hdef : step = max (-chunk : Int) (min remaining chunk) := rfl
      intro event hevent
      rcases List.mem_cons.mp hevent with rfl | hevent
      · refine ⟨_, rfl, ?_⟩
        rw [hstep, abs_le]
        omega
      · -- Nothing follows a step that reaches the end, and what follows another has its sign.
        obtain ⟨units, rfl, hne', hbound, hsign⟩ := ih event hevent
        refine ⟨units, rfl, hne', hbound, hsign.trans ?_⟩
        have hrest : remaining - step ≠ 0 := by
          intro hzero
          rw [hzero, splitUnits, if_pos rfl] at hevent
          exact List.not_mem_nil hevent
        omega

end Split

/-! ### One axis -/

def perPush (units : ℚ) : ℚ := max (-(255 * 64)) (min units (255 * 64))

theorem clamp_eq_perPush (units : ℚ) :
    clamp units (-maxUnitsPerPush) maxUnitsPerPush = perPush units := by
  have hmax : (maxUnitsPerPush : ℚ) = 255 * 64 := rfl
  have hlt : ∀ a b : ℚ, (lt a b = true ↔ a < b) := by
    intro a b
    simp only [lt, le, Bool.and_eq_true, decide_eq_true_eq, Bool.not_eq_true', decide_eq_false_iff_not,
      not_le]
    exact ⟨fun h => h.2, fun h => ⟨h.le, h⟩⟩
  unfold clamp perPush
  rw [hmax]
  by_cases hlow : units < -(255 * 64)
  · rw [if_pos ((hlt _ _).mpr hlow), max_eq_left]
    exact (min_le_left _ _).trans hlow.le
  · rw [if_neg (mt (hlt _ _).mp hlow)]
    by_cases hhigh : 255 * 64 < units
    · rw [if_pos ((hlt _ _).mpr hhigh), min_eq_right hhigh.le, max_eq_right (by norm_num)]
    · rw [if_neg (mt (hlt _ _).mp hhigh), min_eq_left (not_lt.mp hhigh), max_eq_right (not_lt.mp hlow)]

theorem trunc_spec (a : ℚ) : ∃ n : Int, trunc a = (n : ℚ) ∧ |a - n| < 1 := by
  by_cases hneg : a < 0
  · refine ⟨⌈a⌉, if_pos hneg, ?_⟩
    have hle := Int.le_ceil a
    have hlt := Int.ceil_lt_add_one a
    rw [abs_lt]
    constructor <;> linarith
  · refine ⟨⌊a⌋, if_neg hneg, ?_⟩
    have hle := Int.floor_le a
    have hlt := Int.lt_floor_add_one a
    rw [abs_lt]
    constructor <;> linarith

theorem emitUnits_spec (residual units : ℚ) (chunk : Nat) [NeZero chunk] (hchunk : chunk ≤ 255)
    (axis : Bool) :
    let emitted := emitUnits residual units chunk axis
    |emitted.1| < 1 ∧ (sumOn axis emitted.2 : ℚ) + emitted.1 = residual + perPush units ∧
      ∃ total, ∀ event ∈ emitted.2, Bounded chunk axis total event := by
  obtain ⟨n, htrunc, hnear⟩ := trunc_spec (residual + perPush units)
  have hemit : emitUnits residual units chunk axis =
      (residual + perPush units - n, splitUnits chunk axis n) := by
    have hnan : isNaN units = false := rfl
    have hwhole : toInt (n : ℚ) = n := Int.floor_intCast n
    unfold emitUnits
    simp only [hnan, Bool.false_eq_true, if_false, clamp_eq_perPush]
    rw [htrunc, hwhole]
  rw [hemit]
  refine ⟨hnear, ?_, n, bounded_splitUnits chunk hchunk axis n⟩
  rw [sumOn_splitUnits chunk hchunk axis n]
  ring

theorem Bounded.sumOn_other {chunk : Nat} {axis : Bool} {total : Int} {events : List InputEvent}
    (h : ∀ event ∈ events, Bounded chunk axis total event) : sumOn (!axis) events = 0 := by
  refine List.sum_eq_zero fun units hunits => ?_
  obtain ⟨event, hevent, rfl⟩ := List.mem_map.mp hunits
  obtain ⟨units, rfl, -⟩ := h event hevent
  simp [unitsOn]

/-! ### Pushes -/

namespace ScrollAccumulator

def converted (config : ScrollConfig ℚ) (axis : Bool) (delta : ScrollDelta ℚ) : ℚ :=
  let sign : ℚ := if config.reverse then -1 else 1
  match delta with
  | .precise dx dy => (if axis then -sign * dx else sign * dy) * config.unitsPerPoint
  | .lines dx dy => (if axis then -sign * dx else sign * dy) * unitsPerNotch

def eventBound : ScrollDelta ℚ → Nat
  | .precise _ _ => maxUnitsPerEvent
  | .lines _ _ => unitsPerNotch

def remainder (acc : ScrollAccumulator ℚ) (axis : Bool) : ℚ :=
  if axis then acc.horizontal else acc.vertical

/-- The events of one push: on each axis they are not zero, bounded, and of one sign. -/
def WellSplit (bound : Nat) (events : List InputEvent) : Prop :=
  ∃ total : Bool → Int, ∀ event ∈ events, ∃ axis, Bounded bound axis (total axis) event

theorem push_eq (acc : ScrollAccumulator ℚ) (delta : ScrollDelta ℚ) :
    ∃ (chunk : Nat) (_ : NeZero chunk), chunk = eventBound delta ∧
      acc.push delta =
        ({ acc with
            vertical := (emitUnits acc.vertical (converted acc.config false delta) chunk false).1
            horizontal := (emitUnits acc.horizontal (converted acc.config true delta) chunk true).1 },
          (emitUnits acc.vertical (converted acc.config false delta) chunk false).2 ++
            (emitUnits acc.horizontal (converted acc.config true delta) chunk true).2) := by
  cases delta with
  | precise dx dy => exact ⟨maxUnitsPerEvent, inferInstance, rfl, rfl⟩
  | lines dx dy => exact ⟨unitsPerNotch, inferInstance, rfl, rfl⟩

theorem push_spec (acc : ScrollAccumulator ℚ) (delta : ScrollDelta ℚ) :
    let pushed := acc.push delta
    pushed.1.config = acc.config ∧ WellSplit (eventBound delta) pushed.2 ∧
      ∀ axis, |remainder pushed.1 axis| < 1 ∧
        (sumOn axis pushed.2 : ℚ) + remainder pushed.1 axis =
          remainder acc axis + perPush (converted acc.config axis delta) := by
  obtain ⟨chunk, hne, hchunk, hpush⟩ := push_eq acc delta
  have hle : chunk ≤ 255 := by
    rw [hchunk]
    cases delta with
    | precise dx dy => exact le_rfl
    | lines dx dy => exact (by decide : 120 ≤ 255)
  obtain ⟨hv, hvsum, vtotal, hvevents⟩ :=
    emitUnits_spec acc.vertical (converted acc.config false delta) chunk hle false
  obtain ⟨hh, hhsum, htotal, hhevents⟩ :=
    emitUnits_spec acc.horizontal (converted acc.config true delta) chunk hle true
  have hvother := Bounded.sumOn_other hvevents
  have hhother := Bounded.sumOn_other hhevents
  intro pushed
  have hpushed : pushed = _ := hpush
  rw [hpushed]
  refine ⟨rfl, ⟨fun axis => if axis then htotal else vtotal, fun event hevent => ?_⟩, fun axis => ?_⟩
  · rw [← hchunk]
    rcases List.mem_append.mp hevent with hevent | hevent
    · exact ⟨false, hvevents event hevent⟩
    · exact ⟨true, hhevents event hevent⟩
  · rw [sumOn_append]
    cases axis with
    | false =>
        rw [Bool.not_true] at hhother
        rw [hhother, add_zero]
        exact ⟨hv, hvsum⟩
    | true =>
        rw [Bool.not_false] at hvother
        rw [hvother, zero_add]
        exact ⟨hh, hhsum⟩

/-- **No motion is lost or invented.** After any pushes since a reset, the units emitted on an axis and the
remainder are the sum of the deltas, the remainder is less than a unit, and every push emits bounded events
of one sign. -/
theorem scroll_conserved (acc : ScrollAccumulator ℚ) (deltas : List (ScrollDelta ℚ)) :
    let run := Transition.run push acc.reset deltas
    (∀ axis, (sumOn axis run.2 : ℚ) + remainder run.1 axis =
        (deltas.map fun delta => perPush (converted acc.config axis delta)).sum ∧
      |remainder run.1 axis| < 1) ∧
    ∀ delta, WellSplit (eventBound delta) (run.1.push delta).2 := by
  intro run
  refine ⟨?_, fun delta => (push_spec run.1 delta).2.1⟩
  have hinv : run.1.config = acc.config ∧ ∀ axis, (sumOn axis run.2 : ℚ) + remainder run.1 axis =
      (deltas.map fun delta => perPush (converted acc.config axis delta)).sum ∧
        |remainder run.1 axis| < 1 := by
    induction deltas using List.reverseRecOn with
    | nil =>
        refine ⟨rfl, fun axis => ?_⟩
        have hzero : remainder acc.reset axis = 0 := by cases axis <;> rfl
        have hrun : run = (acc.reset, []) := rfl
        rw [hrun, hzero]
        simp [sumOn]
    | append_singleton deltas delta ih =>
        obtain ⟨hconfig, hsums⟩ := ih
        obtain ⟨hconfig', -, hpush⟩ := push_spec (Transition.run push acc.reset deltas).1 delta
        have hrun : run = ((Transition.run push acc.reset deltas).1.push delta |>.1,
            (Transition.run push acc.reset deltas).2 ++
              ((Transition.run push acc.reset deltas).1.push delta).2) :=
          Transition.run_concat push acc.reset deltas delta
        rw [hrun]
        refine ⟨hconfig'.trans hconfig, fun axis => ⟨?_, (hpush axis).1⟩⟩
        have hone := (hpush axis).2
        have hbefore := (hsums axis).1
        rw [hconfig] at hone
        rw [sumOn_append, List.map_append, List.sum_append, ← hbefore, List.map_singleton,
          List.sum_singleton, Int.cast_add]
        linarith
  exact hinv.2

end ScrollAccumulator

end Drift.Input
