import Drift.Lib.Transition
import Drift.Rdp.Resize

/-!
# What the resize driver settles on

The driver is observed from outside: what was reported and when, the capabilities of the leg and the layout
the server has. It emits a layout only where one is permitted, and once the capabilities are known and the
debounce has passed, the server has the layout of the last geometry (`follows_geometry`).
-/

namespace Drift.Rdp

open Transition

/-- A call of the driver. -/
inductive ResizeInput (Geometry : Type) where
  | geometry (geometry : Geometry) (now : Instant)
  | activated (layout : MonitorLayout)
  | ready (caps : DisplayControlCaps) (now : Instant)
  | poll (now : Instant)

def ResizeInput.time? {Geometry : Type} : ResizeInput Geometry → Option Instant
  | geometry _ now | ready _ now | poll now => some now
  | activated _ => none

abbrev ResizeCall (Geometry : Type) := ResizeInput Geometry × Option MonitorLayout

/-- What an observer of the calls knows: the geometry that was reported last, the last report that was a
change and its time, the capabilities and the layout of the leg, and the time of the last call. -/
structure ResizeView (Geometry : Type) where
  reported : Option Geometry
  change : Option (Geometry × Instant)
  caps : Option DisplayControlCaps
  server : Option MonitorLayout
  clock : Instant

section Driver

variable {Geometry : Type} [BEq Geometry] (desiredLayout : LayoutPolicy Geometry)

def ResizeDriver.step (r : ResizeDriver Geometry) (input : ResizeInput Geometry) :
    ResizeDriver Geometry × List (ResizeCall Geometry) :=
  match input with
  | .geometry geometry now => (r.onGeometry geometry now, [(input, none)])
  | .activated layout => (r.onLegActivated layout, [(input, none)])
  | .ready caps now => (r.onDisplayControlReady caps now, [(input, none)])
  | .poll now =>
    let (r, emitted) := r.poll desiredLayout now
    (r, [(input, emitted)])

namespace ResizeView

def new : ResizeView Geometry := ⟨none, none, none, none, 0⟩

def observe (v : ResizeView Geometry) (call : ResizeCall Geometry) : ResizeView Geometry :=
  match call.1 with
  | .geometry geometry now =>
    let change := if v.change.any (·.1 == geometry) then v.change else some (geometry, now)
    { v with reported := some geometry, change := change, clock := now }
  | .activated layout => { v with caps := none, server := some layout }
  | .ready caps now => { v with caps := some caps, clock := now }
  | .poll now => { v with server := call.2.or v.server, clock := now }

/-- The debounce window of the last change has passed. -/
def Quiet (v : ResizeView Geometry) (now : Instant) : Prop :=
  ∀ geometry changed, v.change = some (geometry, changed) → changed + resizeDebounce ≤ now

/-- A layout may be emitted. -/
structure Permits (mode : ConnectMode) (prefs : DisplayPrefs) (v : ResizeView Geometry) (now : Instant)
    (layout : MonitorLayout) : Prop where
  adaptive : prefs.adaptive = true
  mode : modeHasDisplayControl mode = true
  caps : v.caps.isSome = true
  quiet : v.Quiet now
  fresh : v.server ≠ some layout

/-- The server has the layout for a geometry that the source's comparison takes for the one reported
last: for that very geometry, when the policy does not tell such geometries apart. -/
structure Follows (prefs : DisplayPrefs) (reported : Geometry) (caps : DisplayControlCaps)
    (server : Option MonitorLayout) : Prop where
  used : ∃ used, ResizeDriver.SameGeometry (some used) (some reported) ∧
    server = some (desiredLayout used prefs caps)
  verbatim : (∀ a b, (a == b) = true → desiredLayout a = desiredLayout b) →
    server = some (desiredLayout reported prefs caps)

/-- What holds of a call: only a poll emits, a layout that is permitted, and a poll that can settle the
size does. -/
structure Sound (mode : ConnectMode) (prefs : DisplayPrefs) (v : ResizeView Geometry)
    (call : ResizeCall Geometry) : Prop where
  emits : ∀ layout, call.2 = some layout →
    ∃ now, call.1 = .poll now ∧ v.Permits mode prefs now layout
  settles : ∀ now caps reported, call.1 = .poll now → prefs.adaptive = true →
    modeHasDisplayControl mode = true → v.caps = some caps → v.reported = some reported →
    v.Quiet now → Follows desiredLayout prefs reported caps (v.observe call).server

end ResizeView

/-- The driver knows what the observer knows, and its deadline is that of the last change or has passed. -/
structure Alongside (mode : ConnectMode) (prefs : DisplayPrefs) (r : ResizeDriver Geometry)
    (v : ResizeView Geometry) : Prop where
  mode : r.mode = mode
  prefs : r.prefs = prefs
  geometry : r.geometry = v.change.map (·.1)
  same : ResizeDriver.SameGeometry r.geometry v.reported
  caps : r.caps = v.caps
  server : r.current = v.server
  pending : r.adaptive = true → ∀ geometry changed, v.change = some (geometry, changed) →
    r.due = some (changed + resizeDebounce) ∨ changed + resizeDebounce ≤ v.clock
  idle : r.adaptive = false → r.due = none
  due : ∀ due, r.due = some due → due ≤ v.clock ∨
    ∃ geometry changed, v.change = some (geometry, changed) ∧ due = changed + resizeDebounce

/-! ### One call -/

section Calls

variable {desiredLayout} {mode : ConnectMode} {prefs : DisplayPrefs} {r : ResizeDriver Geometry}
  {v : ResizeView Geometry}

omit [BEq Geometry] in
theorem poll_waits {now : Instant} (h : (∃ due, r.due = some due ∧ now < due) ∨ r.caps = none) :
    r.poll desiredLayout now = (r, none) := by
  rcases h with ⟨due, hdue, hearly⟩ | hcaps
  · have hheld : r.due.any (now < ·) = true := by
      rw [hdue]
      simpa using hearly
    rw [ResizeDriver.poll, if_pos hheld]
  · simp only [ResizeDriver.poll, hcaps, Option.isNone_none, if_true, ite_self]

omit [BEq Geometry] in
/-- A poll that may settle the size, of a view that has one or of one that has none. -/
theorem poll_settles (desiredLayout : LayoutPolicy Geometry) {caps : DisplayControlCaps} {now : Instant}
    (hdue : ∀ due, r.due = some due → due ≤ now) (hcaps : r.caps = some caps) :
    (∀ used, r.geometry = some used → r.adaptive = true →
      r.poll desiredLayout now =
        ({ r with due := none, current := some (desiredLayout used r.prefs caps) },
          if r.current = some (desiredLayout used r.prefs caps) then none
          else some (desiredLayout used r.prefs caps))) ∧
      (r.geometry = none ∨ r.adaptive = false →
        r.poll desiredLayout now = ({ r with due := none }, none)) := by
  have hpassed : ¬ r.due.any (now < ·) = true := by
    cases hr : r.due with
    | none => exact Bool.false_ne_true
    | some due =>
        have hlate := hdue due hr
        simpa using hlate
  have hknown : ¬ r.caps.isNone = true := by simp [hcaps]
  have hdesired : ({ r with due := none } : ResizeDriver Geometry).desired desiredLayout =
      r.desired desiredLayout := rfl
  constructor
  · intro used hused hadaptive
    have hlayout : r.desired desiredLayout = some (desiredLayout used r.prefs caps) := by
      simp only [ResizeDriver.desired, hused, hadaptive, hcaps, if_true, Option.getD_some]
    simp only [ResizeDriver.poll, if_neg hpassed, if_neg hknown, hdesired, hlayout]
    by_cases hsame : r.current = some (desiredLayout used r.prefs caps)
    · rw [if_pos hsame, if_pos hsame, ← hsame]
    · rw [if_neg hsame, if_neg hsame]
  · intro hnone
    have hlayout : r.desired desiredLayout = none := by
      rcases hnone with hgeometry | hadaptive
      · simp only [ResizeDriver.desired, hgeometry]
      · cases hgeometry : r.geometry <;> simp [ResizeDriver.desired, hgeometry, hadaptive]
    simp only [ResizeDriver.poll, if_neg hpassed, if_neg hknown, hdesired, hlayout]

theorem alongside_geometry (h : Alongside mode prefs r v) {geometry : Geometry} {now : Instant}
    (hclock : v.clock ≤ now) :
    Alongside mode prefs (r.onGeometry geometry now) (v.observe (.geometry geometry now, none)) := by
  have hany : r.geometry.any (· == geometry) = v.change.any (·.1 == geometry) := by
    rw [h.geometry, Option.any_map]
  have hsame := ResizeDriver.sameGeometry_onGeometry r geometry now
  by_cases hknown : v.change.any (·.1 == geometry) = true
  · have hkept : r.onGeometry geometry now = r := if_pos (hany.trans hknown)
    rw [hkept] at hsame ⊢
    have hchange : (v.observe (.geometry geometry now, none)).change = v.change := if_pos hknown
    refine ⟨h.mode, h.prefs, ?_, hsame, h.caps, h.server, ?_, h.idle, ?_⟩
    · rw [hchange]
      exact h.geometry
    · intro hadaptive g changed hg
      rw [hchange] at hg
      exact (h.pending hadaptive g changed hg).imp_right (Nat.le_trans · hclock)
    · intro due hdue
      rw [hchange]
      exact (h.due due hdue).imp_left (Nat.le_trans · hclock)
  · have hreported : r.onGeometry geometry now =
        { r with
          geometry := some geometry
          due := if r.adaptive then some (now + resizeDebounce) else r.due } :=
      if_neg (hany ▸ hknown)
    have hadapts : (r.onGeometry geometry now).adaptive = r.adaptive := by rw [hreported]; rfl
    have hdeadline : (r.onGeometry geometry now).due =
        if r.adaptive then some (now + resizeDebounce) else r.due := by rw [hreported]
    have hchange : (v.observe (.geometry geometry now, none)).change = some (geometry, now) :=
      if_neg hknown
    refine ⟨by rw [hreported]; exact h.mode, by rw [hreported]; exact h.prefs,
      by rw [hreported, hchange]; rfl, hsame, by rw [hreported]; exact h.caps,
      by rw [hreported]; exact h.server, ?_, ?_, ?_⟩
    · intro hadaptive g changed hg
      rw [hchange] at hg
      obtain ⟨rfl, rfl⟩ := Prod.mk.inj (Option.some.inj hg)
      rw [hdeadline]
      exact .inl (if_pos (hadapts ▸ hadaptive))
    · intro hadaptive
      rw [hadapts] at hadaptive
      rw [hdeadline, hadaptive]
      exact h.idle hadaptive
    · intro due hdue
      rw [hdeadline] at hdue
      rw [hchange]
      cases hadaptive : r.adaptive with
      | true =>
          rw [hadaptive, if_pos rfl] at hdue
          exact .inr ⟨geometry, now, rfl, (Option.some.inj hdue).symm⟩
      | false =>
          rw [hadaptive, if_neg Bool.false_ne_true, h.idle hadaptive] at hdue
          cases hdue

theorem alongside_activated (h : Alongside mode prefs r v) (layout : MonitorLayout) :
    Alongside mode prefs (r.onLegActivated layout) (v.observe (.activated layout, none)) where
  mode := h.mode
  prefs := h.prefs
  geometry := h.geometry
  same := h.same
  caps := rfl
  server := rfl
  pending := h.pending
  idle := h.idle
  due := h.due

/-- Capabilities set a deadline only where no window is open, and it is due at once. -/
theorem alongside_ready (h : Alongside mode prefs r v) {caps : DisplayControlCaps} {now : Instant}
    (hclock : v.clock ≤ now) :
    Alongside mode prefs (r.onDisplayControlReady caps now) (v.observe (.ready caps now, none)) := by
  by_cases hcatch : (r.adaptive && r.geometry.isSome && r.due.isNone) = true
  · have hdeadline : (r.onDisplayControlReady caps now).due = some now := if_pos hcatch
    simp only [Bool.and_eq_true, Option.isNone_iff_eq_none] at hcatch
    obtain ⟨⟨hadaptive, -⟩, hnone⟩ := hcatch
    refine ⟨h.mode, h.prefs, h.geometry, h.same, rfl, h.server, ?_, ?_, ?_⟩
    · intro _ g changed hg
      refine .inr (Nat.le_trans ?_ hclock)
      rcases h.pending hadaptive g changed hg with hdue | hpassed
      · rw [hnone] at hdue
        cases hdue
      · exact hpassed
    · intro hfixed
      have hfalse : r.adaptive = false := hfixed
      rw [hadaptive] at hfalse
      cases hfalse
    · intro due hdue
      rw [hdeadline] at hdue
      exact .inl (Nat.le_of_eq (Option.some.inj hdue).symm)
  · have hdeadline : (r.onDisplayControlReady caps now).due = r.due := if_neg hcatch
    refine ⟨h.mode, h.prefs, h.geometry, h.same, rfl, h.server, ?_, ?_, ?_⟩
    · intro hadaptive g changed hg
      rw [hdeadline]
      exact (h.pending hadaptive g changed hg).imp_right (Nat.le_trans · hclock)
    · intro hadaptive
      rw [hdeadline]
      exact h.idle hadaptive
    · intro due hdue
      rw [hdeadline] at hdue
      exact (h.due due hdue).imp_left (Nat.le_trans · hclock)

theorem alongside_passed (h : Alongside mode prefs r v) {now : Instant} {current emitted : Option MonitorLayout}
    (hclock : v.clock ≤ now) (hdue : ∀ due, r.due = some due → due ≤ now)
    (hserver : current = emitted.or v.server) :
    Alongside mode prefs { r with due := none, current := current } (v.observe (.poll now, emitted)) where
  mode := h.mode
  prefs := h.prefs
  geometry := h.geometry
  same := h.same
  caps := h.caps
  server := hserver
  pending := by
    intro hadaptive g changed hg
    rcases h.pending hadaptive g changed hg with hpending | hpassed
    · exact .inr (hdue _ hpending)
    · exact .inr (Nat.le_trans hpassed hclock)
  idle := fun _ => rfl
  due := nofun

theorem Alongside.adaptive_eq (h : Alongside mode prefs r v) :
    r.adaptive = (prefs.adaptive && modeHasDisplayControl mode) := by
  rw [ResizeDriver.adaptive, h.prefs, h.mode]

/-- A poll waits for capabilities, or for the window of the last change. -/
theorem alongside_poll_waits (h : Alongside mode prefs r v) {now : Instant} (hclock : v.clock ≤ now)
    (hwaits : (∃ due, r.due = some due ∧ now < due) ∨ r.caps = none) :
    Alongside mode prefs r (v.observe (.poll now, none)) ∧
      ResizeView.Sound desiredLayout mode prefs v (.poll now, none) := by
  constructor
  · refine ⟨h.mode, h.prefs, h.geometry, h.same, h.caps, h.server, ?_, h.idle, ?_⟩
    · intro hadaptive g changed hg
      exact (h.pending hadaptive g changed hg).imp_right (Nat.le_trans · hclock)
    · intro due hdue
      exact (h.due due hdue).imp_left (Nat.le_trans · hclock)
  · refine ⟨nofun, ?_⟩
    intro now' caps reported hcall _ _ hcaps _ hquiet
    obtain rfl : now = now' := by
      injection hcall
    exfalso
    rcases hwaits with ⟨due, hdue, hearly⟩ | hnone
    · rcases h.due due hdue with hpassed | ⟨g, changed, hchange, rfl⟩
      · exact Nat.not_lt_of_le (Nat.le_trans hpassed hclock) hearly
      · exact Nat.not_lt_of_le (hquiet g changed hchange) hearly
    · rw [h.caps, hcaps] at hnone
      cases hnone

theorem alongside_poll_ready (h : Alongside mode prefs r v) {now : Instant} (hclock : v.clock ≤ now)
    {caps : DisplayControlCaps} (hdue : ∀ due, r.due = some due → due ≤ now)
    (hcaps : r.caps = some caps) :
    Alongside mode prefs (r.poll desiredLayout now).1
        (v.observe (.poll now, (r.poll desiredLayout now).2)) ∧
      ResizeView.Sound desiredLayout mode prefs v (.poll now, (r.poll desiredLayout now).2) := by
  obtain ⟨hlayout, hnothing⟩ := poll_settles desiredLayout hdue hcaps
  by_cases hidle : r.geometry = none ∨ r.adaptive = false
  · rw [hnothing hidle]
    refine ⟨alongside_passed h hclock hdue h.server, nofun, ?_⟩
    intro now' caps' reported _ hprefs hmode _ hreported _
    exfalso
    rcases hidle with hgeometry | hfixed
    · have hsame := h.same
      rw [hgeometry, hreported] at hsame
      exact hsame
    · rw [h.adaptive_eq, hprefs, hmode] at hfixed
      cases hfixed
  · obtain ⟨used, hused⟩ : ∃ used, r.geometry = some used :=
      Option.ne_none_iff_exists'.mp fun hnone => hidle (.inl hnone)
    have hadaptive : r.adaptive = true := Bool.of_not_eq_false fun hfixed => hidle (.inr hfixed)
    rw [hlayout used hused hadaptive, h.prefs]
    generalize hwanted : desiredLayout used prefs caps = wanted
    have hserver : some wanted = (if r.current = some wanted then none else some wanted).or v.server := by
      by_cases hsame : r.current = some wanted
      · rw [if_pos hsame, Option.none_or, ← h.server, hsame]
      · rw [if_neg hsame, Option.some_or]
    have hpassed := alongside_passed h hclock hdue hserver
    simp only [h.prefs] at hpassed
    refine ⟨hpassed, ?_, ?_⟩
    · intro layout hemits
      by_cases hsame : r.current = some wanted
      · rw [if_pos hsame] at hemits
        cases hemits
      rw [if_neg hsame] at hemits
      obtain rfl := Option.some.inj hemits
      have hboth : prefs.adaptive = true ∧ modeHasDisplayControl mode = true := by
        rw [h.adaptive_eq] at hadaptive
        simpa using hadaptive
      refine ⟨now, rfl, hboth.1, hboth.2, by rw [← h.caps, hcaps]; rfl, ?_, by rwa [← h.server]⟩
      intro g changed hchange
      rcases h.pending hadaptive g changed hchange with hpending | hpassed
      · exact hdue _ hpending
      · exact Nat.le_trans hpassed hclock
    · intro now' caps' reported _ _ _ hcaps' hreported _
      obtain rfl : caps = caps' := by
        rw [← h.caps, hcaps] at hcaps'
        exact Option.some.inj hcaps'
      have hsame : ResizeDriver.SameGeometry (some used) (some reported) := by
        rw [← hused, ← hreported]
        exact h.same
      have hafter : (v.observe (.poll now, if r.current = some wanted then none else some wanted)).server =
          some (desiredLayout used prefs caps) := by
        rw [hwanted]
        exact hserver.symm
      refine ⟨⟨used, hsame, hafter⟩, fun hpolicy => ?_⟩
      rw [hafter]
      rcases hsame with rfl | hequal
      · rfl
      · rw [hpolicy used reported hequal]

theorem alongside_step (h : Alongside mode prefs r v) (input : ResizeInput Geometry)
    (hclock : ∀ now, input.time? = some now → v.clock ≤ now) :
    Holds ResizeView.observe (ResizeView.Sound desiredLayout mode prefs) v (r.step desiredLayout input).2 ∧
      Alongside mode prefs (r.step desiredLayout input).1
        ((r.step desiredLayout input).2.foldl ResizeView.observe v) := by
  cases input with
  | geometry geometry now =>
      exact ⟨⟨⟨nofun, nofun⟩, trivial⟩, alongside_geometry h (hclock now rfl)⟩
  | activated layout => exact ⟨⟨⟨nofun, nofun⟩, trivial⟩, alongside_activated h layout⟩
  | ready caps now => exact ⟨⟨⟨nofun, nofun⟩, trivial⟩, alongside_ready h (hclock now rfl)⟩
  | poll now =>
      have hnow := hclock now rfl
      have hpolled : Alongside mode prefs (r.poll desiredLayout now).1
            (v.observe (.poll now, (r.poll desiredLayout now).2)) ∧
          ResizeView.Sound desiredLayout mode prefs v (.poll now, (r.poll desiredLayout now).2) := by
        by_cases hwaits : (∃ due, r.due = some due ∧ now < due) ∨ r.caps = none
        · rw [poll_waits hwaits]
          exact alongside_poll_waits h hnow hwaits
        · obtain ⟨caps, hcaps⟩ : ∃ caps, r.caps = some caps :=
            Option.ne_none_iff_exists'.mp fun hnone => hwaits (.inr hnone)
          have hdue : ∀ due, r.due = some due → due ≤ now := by
            intro due hdue
            by_contra hearly
            exact hwaits (.inl ⟨due, hdue, Nat.lt_of_not_le hearly⟩)
          exact alongside_poll_ready h hnow hdue hcaps
      exact ⟨⟨hpolled.2, trivial⟩, hpolled.1⟩

end Calls

/-! ### Every sequence of calls -/

section Runs

variable {desiredLayout} {mode : ConnectMode} {prefs : DisplayPrefs}

/-- The times never fall below the clock of an observer, from one call to the next. -/
theorem clock_along {r : ResizeDriver Geometry} {v : ResizeView Geometry}
    {inputs : List (ResizeInput Geometry)}
    (htimes : (v.clock :: inputs.filterMap ResizeInput.time?).Pairwise (· ≤ ·)) :
    Along (ResizeDriver.step desiredLayout) ResizeView.observe
      (fun _ v input => ∀ now, input.time? = some now → v.clock ≤ now) r v inputs := by
  induction inputs generalizing r v with
  | nil => trivial
  | cons input inputs ih =>
      cases htime : input.time? with
      | none =>
          rw [List.filterMap_cons_none htime] at htimes
          refine ⟨fun now hnow => by simp [htime] at hnow, ih ?_⟩
          cases input with
          | activated layout => exact htimes
          | _ => cases htime
      | some now =>
          rw [List.filterMap_cons_some htime] at htimes
          obtain ⟨hclock, hlater⟩ := List.pairwise_cons.mp htimes
          refine ⟨fun now' hnow => ?_, ih ?_⟩
          · obtain rfl : now = now' := Option.some.inj (htime.symm.trans hnow)
            exact hclock now List.mem_cons_self
          · cases input with
            | activated layout => cases htime
            | _ =>
                obtain rfl := Option.some.inj htime
                exact hlater

end Runs

/-- **Resizing.** In every sequence of calls with non-decreasing times, only polls emit, and each layout
emitted is permitted: for an adaptive profile whose mode has Display Control, with capabilities of the leg,
a debounce window after the last change, and another one than the server has. A poll of such a session with
the capabilities known and the window passed leaves the server with the layout of the last geometry. -/
theorem follows_geometry (mode : ConnectMode) (prefs : DisplayPrefs)
    (inputs : List (ResizeInput Geometry))
    (htimes : (inputs.filterMap ResizeInput.time?).Pairwise (· ≤ ·)) :
    Holds ResizeView.observe (ResizeView.Sound desiredLayout mode prefs) .new
      (run (ResizeDriver.step desiredLayout) (.new mode prefs) inputs).2 := by
  have hnew : Alongside mode prefs (ResizeDriver.new mode prefs : ResizeDriver Geometry) .new :=
    ⟨rfl, rfl, rfl, trivial, rfl, rfl, nofun, fun _ => rfl, nofun⟩
  have hclock : ((ResizeView.new : ResizeView Geometry).clock ::
      inputs.filterMap ResizeInput.time?).Pairwise (· ≤ ·) :=
    List.pairwise_cons.mpr ⟨fun now _ => Nat.zero_le now, htimes⟩
  exact (run_holds (Alongside mode prefs) (fun r v input h hinput => alongside_step h input hinput) hnew
    (clock_along hclock)).1

end Driver

/-- A window is resized twice in a burst before the capabilities arrive, and once more later. -/
theorem follows_geometry_burst :
    Holds ResizeView.observe
      (ResizeView.Sound (fun width _ _ => ⟨width, 200, 100, 100⟩) .headless ⟨true, false⟩) .new
      (run (ResizeDriver.step fun width _ _ => ⟨width, 200, 100, 100⟩) (.new .headless ⟨true, false⟩)
        [.geometry 640 5, .activated ⟨640, 200, 100, 100⟩, .geometry 800 10, .ready ⟨1, 8192, 8192⟩ 20,
          .poll 30, .poll (resizeDebounce + 10), .geometry 802 (resizeDebounce + 40)]).2 :=
  follows_geometry _ .headless ⟨true, false⟩ _ (by decide)

end Drift.Rdp
