import Drift.Gfx.Proof.Contract
import Drift.Gfx.Proof.Effects
import Drift.Render.Proof.Equivalence
import Drift.Render.Screen

/-!
# The tables of the client and of the renderer

The sink knows the sizes of the surfaces and of the cached images from the history of the calls, and a
canvas has exactly these as long as no SurfaceToCache stores an empty rectangle (`Shows.apply`). The client
accepts such a rectangle and takes its slot for filled, where a renderer leaves the slot as it was.
-/

namespace Drift.Render

open Std Drift.Gfx Drift.Codec Transition

/-! ### Sizes -/

namespace Canvas

variable {canvas : Canvas} {picture : Picture}

theorem surface_onSurface (canvas : Canvas) (id : UInt16) (f : BgraImage → BgraImage) (j : UInt16) :
    (canvas.onSurface id f).surface j =
      if id = j then (canvas.surface j).map f else canvas.surface j := by
  unfold onSurface surface
  cases hid : canvas.surfaces[id]? with
  | none =>
      by_cases hj : id = j
      · subst hj
        simp [hid]
      · simp [hj]
  | some found =>
      simp only [ExtTreeMap.getElem?_insert, LawfulEqCmp.compare_eq_iff_eq]
      by_cases hj : id = j
      · subst hj
        simp [hid]
      · simp [hj]

theorem size_onSurface (canvas : Canvas) (id : UInt16) {f : BgraImage → BgraImage}
    (hf : ∀ img, (f img).width = img.width ∧ (f img).height = img.height) (j : UInt16) :
    ((canvas.onSurface id f).surface j).map BgraImage.size =
      (canvas.surface j).map BgraImage.size := by
  have hsize : BgraImage.size ∘ f = BgraImage.size := by
    funext img
    simp only [Function.comp_apply, BgraImage.size, (hf img).1, (hf img).2]
  rw [surface_onSurface]
  split
  · rw [Option.map_map, hsize]
  · rfl

theorem cache_onSurface (canvas : Canvas) (id : UInt16) (f : BgraImage → BgraImage) :
    (canvas.onSurface id f).cache = canvas.cache := by
  unfold onSurface
  split <;> rfl

end Canvas

/-- The canvas has the sizes that the sink knows, and no empty image is in a slot. -/
structure Shows (v : SinkView) (canvas : Canvas) : Prop where
  surfaces : ∀ id : UInt16, (canvas.surface id).map BgraImage.size = v.surfaces[id]?
  slots : ∀ slot : UInt16, (canvas.cache[slot]?).map BgraImage.size = v.slots[slot]?
  nonempty : ∀ (slot : UInt16) (img : BgraImage), canvas.cache[slot]? = some img →
    ¬ (img.width = 0 ∨ img.height = 0)

/-- A call that neither stores nothing in a slot nor takes a new surface that is too large. -/
def Plain : SinkCall Nv12Frame → Prop
  | .surfaceToCache _ rect _ => rect.isEmpty = false
  | call => IsU32 call

section Calls

variable {v v' : SinkView} {canvas : Canvas} {picture : Picture}

theorem shows_empty : Shows .empty .empty :=
  ⟨fun id => by simp [Canvas.surface, Canvas.empty, SinkView.empty],
    fun slot => by simp [Canvas.empty, SinkView.empty],
    fun slot img h => by simp [Canvas.empty] at h⟩

theorem Shows.onSurface (h : Shows v canvas) (id : UInt16) {f : BgraImage → BgraImage}
    (hf : ∀ img, (f img).width = img.width ∧ (f img).height = img.height) :
    Shows v (canvas.onSurface id f) where
  surfaces j := (Canvas.size_onSurface canvas id hf j).trans (h.surfaces j)
  slots slot := by
    rw [Canvas.cache_onSurface]
    exact h.slots slot
  nonempty slot img := by
    rw [Canvas.cache_onSurface]
    exact h.nonempty slot img

theorem Shows.stamp (h : Shows v canvas) (id : UInt16) (img : BgraImage) (dests : List Point) :
    Shows v (canvas.stamp id img dests) := h.onSurface id (Canvas.size_foldl_over img dests)

theorem Shows.brush (h : Shows v canvas) (id : UInt16) (f : Nat → Nat → Option Bgra)
    (rects : List Rect) : Shows v (canvas.brush id f rects) :=
  h.onSurface id (Canvas.size_foldl_paint f rects)

theorem part_of_inside {img : BgraImage} {r : Rect} (hinside : r.Inside img.size)
    (hempty : r.isEmpty = false) : img.part r = some (img.crop r) := by
  rw [BgraImage.part, clipRect_of_inside hinside hempty, Option.map_some]

theorem onSurface_eq_some {id : UInt16} {ok : Size → Bool} (h : v.onSurface id ok = some v') :
    v' = v ∧ ∃ bounds, v.surfaces[id]? = some bounds ∧ ok bounds = true := by
  unfold SinkView.onSurface at h
  cases hid : v.surfaces[id]? with
  | none =>
      rw [hid] at h
      cases h
  | some bounds =>
      rw [hid] at h
      simp only [Option.ite_none_right_eq_some, Option.some.injEq] at h
      exact ⟨h.2.symm, bounds, rfl, h.1⟩

theorem Shows.surface (h : Shows v canvas) {id : UInt16} {bounds : Size}
    (hid : v.surfaces[id]? = some bounds) :
    ∃ img, canvas.surface id = some img ∧ img.size = bounds := by
  rw [← h.surfaces, Option.map_eq_some_iff] at hid
  exact hid

theorem Shows.surfaceToCache (h : Shows v canvas) {id slot : UInt16} {r : Rect} {bounds : Size}
    (hid : v.surfaces[id]? = some bounds) (hinside : r.Inside bounds) (hempty : r.isEmpty = false) :
    Shows { v with slots := v.slots.insert slot r.size }
      (canvas.apply picture (.surfaceToCache id r slot)) := by
  obtain ⟨img, himg, rfl⟩ := h.surface hid
  have hpart : (canvas.surface id).bind (·.part r) = some (img.crop r) := by
    rw [himg, Option.bind_some, part_of_inside hinside hempty]
  simp only [Canvas.apply, hpart]
  refine ⟨h.surfaces, fun j => ?_, fun j found hj => ?_⟩
  · simp only [ExtTreeMap.getElem?_insert]
    split
    · exact congrArg some BgraImage.size_crop
    · exact h.slots j
  · simp only [ExtTreeMap.getElem?_insert] at hj
    split at hj
    · obtain rfl := Option.some.inj hj
      rw [BgraImage.width_crop, BgraImage.height_crop]
      simpa [Rect.isEmpty] using hempty
    · exact h.nonempty j found hj

/-- **Calls.** A call that the sink accepts leads to the sizes that the sink knows then. -/
theorem Shows.apply (h : Shows v canvas) {call : SinkCall Nv12Frame} (hplain : Plain call)
    (hcheck : v.check call = some v') : Shows v' (canvas.apply picture call) := by
  cases call with
  | reset output =>
      obtain rfl := Option.some.inj hcheck
      exact ⟨shows_empty.surfaces, shows_empty.slots, shows_empty.nonempty⟩
  | createSurface id size =>
      simp only [SinkView.check, Option.ite_none_left_eq_some, Option.some.injEq] at hcheck
      obtain ⟨-, rfl⟩ := hcheck
      refine ⟨fun j => ?_, h.slots, h.nonempty⟩
      simp only [Canvas.apply, Canvas.surface, ExtTreeMap.getElem?_insert]
      split
      · rfl
      · exact h.surfaces j
  | deleteSurface id =>
      simp only [SinkView.check, Option.ite_none_right_eq_some, Option.some.injEq] at hcheck
      obtain ⟨-, rfl⟩ := hcheck
      refine ⟨fun j => ?_, h.slots, h.nonempty⟩
      simp only [Canvas.apply, Canvas.surface, ExtTreeMap.getElem?_erase]
      split
      · rfl
      · exact h.surfaces j
  | mapSurfaceToOutput id origin =>
      obtain ⟨rfl, -⟩ := onSurface_eq_some hcheck
      simp only [Canvas.apply]
      cases hid : canvas.surfaces[id]? with
      | none => exact h
      | some found =>
          refine ⟨fun j => ?_, h.slots, h.nonempty⟩
          rw [← h.surfaces j]
          simp only [Canvas.surface, ExtTreeMap.getElem?_insert, LawfulEqCmp.compare_eq_iff_eq]
          split
          · next hj => rw [← hj, hid]; rfl
          · rfl
  | blitBgra id rect stride data =>
      obtain ⟨rfl, -⟩ := onSurface_eq_some hcheck
      simp only [Canvas.apply]
      cases bgraTile rect stride data with
      | none => exact h
      | some tile => exact h.stamp id tile _
  | blitNv12 id frame regions =>
      obtain ⟨rfl, -⟩ := onSurface_eq_some hcheck
      simp only [Canvas.apply]
      cases picture frame with
      | none => exact h
      | some colors => exact h.brush id colors regions
  | solidFill id color rects =>
      obtain ⟨rfl, -⟩ := onSurface_eq_some hcheck
      exact h.brush id _ rects
  | surfaceToSurface src dst rect dests =>
      obtain ⟨found, hsrc, hdst⟩ := Option.bind_eq_some_iff.mp hcheck
      obtain ⟨rfl, -⟩ := onSurface_eq_some hsrc
      obtain ⟨rfl, -⟩ := onSurface_eq_some hdst
      simp only [Canvas.apply]
      cases (canvas.surface src).bind (·.part rect) with
      | none => exact h
      | some snapshot => exact h.stamp dst snapshot dests
  | surfaceToCache id rect slot =>
      obtain ⟨found, hsrc, rfl⟩ := Option.map_eq_some_iff.mp hcheck
      obtain ⟨rfl, bounds, hid, hinside⟩ := onSurface_eq_some hsrc
      exact h.surfaceToCache hid (of_decide_eq_true hinside) hplain
  | cacheToSurface slot id dests =>
      simp only [SinkView.check] at hcheck
      cases hslot : v.slots[slot]? with
      | none =>
          rw [hslot] at hcheck
          cases hcheck
      | some size =>
          rw [hslot] at hcheck
          obtain ⟨rfl, -⟩ := onSurface_eq_some hcheck
          simp only [Canvas.apply]
          cases canvas.cache[slot]? with
          | none => exact h
          | some entry => exact h.stamp id entry dests
  | evictCache slot =>
      simp only [SinkView.check, Option.ite_none_right_eq_some, Option.some.injEq] at hcheck
      obtain ⟨-, rfl⟩ := hcheck
      refine ⟨h.surfaces, fun j => ?_, fun j img hj => ?_⟩
      · simp only [Canvas.apply, ExtTreeMap.getElem?_erase]
        split
        · rfl
        · exact h.slots j
      · simp only [Canvas.apply, ExtTreeMap.getElem?_erase] at hj
        split at hj
        · cases hj
        · exact h.nonempty j img hj
  | endFrame frameId =>
      obtain rfl := Option.some.inj hcheck
      exact h
  | setVisible visible =>
      obtain rfl := Option.some.inj hcheck
      exact h

theorem cache_apply {call : SinkCall Nv12Frame}
    (hcall : ∀ id rect slot, call ≠ .surfaceToCache id rect slot) {slot : UInt16} {img : BgraImage}
    (hslot : (canvas.apply picture call).cache[slot]? = some img) :
    canvas.cache[slot]? = some img := by
  have hsame : ∀ c : Canvas, c.cache = canvas.cache → c.cache[slot]? = some img →
      canvas.cache[slot]? = some img := fun c hc h => by rwa [hc] at h
  cases call with
  | reset output => simp [Canvas.apply] at hslot
  | createSurface id size => exact hslot
  | deleteSurface id => exact hslot
  | mapSurfaceToOutput id origin =>
      refine hsame _ ?_ hslot
      simp only [Canvas.apply]
      split <;> rfl
  | blitBgra id rect stride data =>
      refine hsame _ ?_ hslot
      simp only [Canvas.apply]
      split
      · exact Canvas.cache_onSurface ..
      · rfl
  | blitNv12 id frame regions =>
      refine hsame _ ?_ hslot
      simp only [Canvas.apply]
      split
      · exact Canvas.cache_onSurface ..
      · rfl
  | solidFill id color rects => exact hsame _ (Canvas.cache_onSurface ..) hslot
  | surfaceToSurface src dst rect dests =>
      refine hsame _ ?_ hslot
      simp only [Canvas.apply]
      split
      · exact Canvas.cache_onSurface ..
      · rfl
  | surfaceToCache id rect found => exact absurd rfl (hcall id rect found)
  | cacheToSurface found id dests =>
      refine hsame _ ?_ hslot
      simp only [Canvas.apply]
      split
      · exact Canvas.cache_onSurface ..
      · rfl
  | evictCache found =>
      simp only [Canvas.apply, ExtTreeMap.getElem?_erase] at hslot
      split at hslot
      · cases hslot
      · exact hslot
  | endFrame frameId => exact hslot
  | setVisible visible => exact hslot

end Calls

/-! ### What the client calls -/

/-- A call that puts nothing into a slot, and takes no new surface that is too large. -/
def PutsNothing : SinkCall Nv12Frame → Prop
  | .surfaceToCache _ _ _ => False
  | call => IsU32 call

theorem PutsNothing.plain {call : SinkCall Nv12Frame} (h : PutsNothing call) : Plain call := by
  cases call with
  | surfaceToCache id rect slot => exact h.elim
  | _ => exact h

theorem PutsNothing.isU32 {call : SinkCall Nv12Frame} (h : PutsNothing call) : IsU32 call := by
  cases call with
  | surfaceToCache id rect slot => exact h.elim
  | _ => exact h

section Client

variable {Clear H264 Caps : Type} (d : Decoders Clear H264 Nv12Frame Caps)
  {c : GfxClient Clear H264 Caps}

/-- A call of a PDU without effect on the surfaces, unless it is a SurfaceToCache. -/
theorem putsNothing_of_aside {call : SinkCall Nv12Frame} (haside : call.isAside = true)
    (hstore : call.isStore = false) : PutsNothing call := by
  cases call with
  | surfaceToCache id rect slot => cases hstore
  | createSurface id size => cases haside
  | _ => trivial

theorem calls_handlePdu {p : GfxPdu} (hp : p.isStore = false) :
    ∀ call ∈ (c.handlePdu d p).2.1, PutsNothing call := by
  by_cases haside : p.isAside = true
  · intro call hcall
    obtain ⟨hcalls, hstore⟩ := (aside_handlePdu d c haside).calls call hcall
    rw [hp] at hstore
    exact putsNothing_of_aside hcalls (Bool.eq_false_iff.mpr fun h => by cases hstore h)
  have hsingle : ∀ made : SinkCall Nv12Frame, PutsNothing made → ∀ call ∈ [made], PutsNothing call :=
    fun made hmade call hcall => List.mem_singleton.mp hcall ▸ hmade
  cases p with
  | createSurface id width height format =>
      have hmax : u16Max ≤ u32Max := by decide
      simp only [GfxClient.handlePdu, GfxClient.check]
      split
      · exact hsingle _ ⟨Nat.le_trans (Nat.le_of_lt_succ width.toNat_lt) hmax,
          Nat.le_trans (Nat.le_of_lt_succ height.toNat_lt) hmax⟩
      · exact fun _ hcall => by cases hcall
  | deleteSurface id =>
      simp only [GfxClient.handlePdu]
      split
      · exact hsingle _ trivial
      · exact fun _ hcall => by cases hcall
  | resetGraphics width height => exact hsingle _ trivial
  | endFrame frameId => exact hsingle _ trivial
  | startFrame => exact fun _ hcall => by cases hcall
  | deleteEncodingContext id codecContextId => exact fun _ hcall => by cases hcall
  | wireToSurface2 w =>
      simp only [GfxClient.handlePdu, GfxClient.wireToSurface2, GfxClient.check]
      split
      · split
        · intro call hcall
          obtain ⟨tile, -, hcall⟩ := List.mem_flatMap.mp hcall
          obtain ⟨hcalls, hstore⟩ := aside_blit false call hcall
          exact putsNothing_of_aside hcalls (Bool.eq_false_iff.mpr fun h => by cases hstore h)
        · exact fun _ hcall => by cases hcall
      · exact fun _ hcall => by cases hcall
  | _ => exact absurd rfl haside

theorem ok_of_check {α : Type} {x : Except GfxError α}
    {next : α → GfxClient.Outcome Clear H264 Nv12Frame Caps}
    (h : (c.check x next).2.2 = .ok ()) :
    ∃ a, x = .ok a ∧ c.check x next = next a ∧ (next a).2.2 = .ok () := by
  cases x with
  | ok a => exact ⟨a, rfl, rfl, h⟩
  | error e => cases h

theorem rect_eq_ok {e : ExclusiveRectangle} {r : Rect} (h : rect e = .ok r) :
    r = ⟨e.left, e.top, e.right - e.left, e.bottom - e.top⟩ := by
  unfold rect at h
  split at h
  · next found hfound =>
      obtain rfl := Except.ok.inj h
      exact (Rect.fromLtrb_eq_some hfound).2.2
  · cases h

theorem accepts_surfaceToCache {p : SurfaceToCachePdu} (h : c.Accepts d (.surfaceToCache p)) :
    ∃ surface, c.state.surface p.surfaceId = .ok surface ∧
      (surface.Wire → (storedRect p).Inside surface.size) ∧
      c.handlePdu d (.surfaceToCache p) =
        GfxClient.done { c with state :=
          { c.state with cache := c.state.cache.insert p.cacheSlot (storedRect p).size } }
          [.surfaceToCache p.surfaceId (storedRect p) p.cacheSlot] := by
  obtain ⟨surface, hsurface, heq, h⟩ := ok_of_check h
  obtain ⟨r, hr, heq', h⟩ := ok_of_check h
  obtain ⟨u, hwithin, heq'', h⟩ := ok_of_check h
  obtain ⟨state, hstore, hlast, h⟩ := ok_of_check h
  obtain rfl : r = storedRect p := rect_eq_ok hr
  obtain rfl := cacheStore_eq_ok hstore
  refine ⟨surface, hsurface, fun hwire => inside_of_ensureWithin hwire hwithin, ?_⟩
  exact heq.trans (heq'.trans (heq''.trans hlast))

theorem destinations_eq {id : UInt16} {bounds size : Size} {points dests : List Point}
    (h : GfxClient.destinations id bounds size points = .ok dests) : dests = points := by
  induction points generalizing dests with
  | nil => exact (Except.ok.inj h).symm
  | cons q qs ih =>
      unfold GfxClient.destinations at h
      cases hq : ensureWithin id bounds ⟨q.x, q.y, size.width, size.height⟩ "destination" with
      | error e =>
          rw [hq] at h
          cases h
      | ok u =>
          cases hrest : GfxClient.destinations id bounds size qs with
          | error e =>
              rw [hq, hrest] at h
              cases h
          | ok rest =>
              rw [hq, hrest] at h
              obtain rfl := Except.ok.inj h
              rw [ih hrest]

theorem accepts_cacheToSurface {p : CacheToSurfacePdu} (h : c.Accepts d (.cacheToSurface p)) :
    (∃ size, c.state.cache[p.cacheSlot]? = some size) ∧
      c.handlePdu d (.cacheToSurface p) =
        c.done [.cacheToSurface p.cacheSlot p.surfaceId p.destinationPoints] := by
  obtain ⟨size, hsize, heq, h⟩ := ok_of_check h
  obtain ⟨surface, hsurface, heq', h⟩ := ok_of_check h
  obtain ⟨dests, hdests, hlast, h⟩ := ok_of_check h
  rw [destinations_eq hdests] at hlast
  refine ⟨?_, heq.trans (heq'.trans hlast)⟩
  unfold GfxState.cacheEntry at hsize
  split at hsize
  · next found hfound => exact ⟨found, hfound⟩
  · cases hsize

end Client

/-! ### Steps -/

/-- A renderer whose calls draw on a canvas, as far as a relation between the two tells. -/
structure Renderer.Models {σ : Type} (r : Renderer σ) (picture : Picture) (R : σ → Canvas → Prop) :
    Prop where
  new : R r.new .empty
  call : ∀ x canvas made, R x canvas → IsU32 made → R (r.call x made) (canvas.apply picture made)
  surface : ∀ x canvas, R x canvas → ∀ id, r.surface x id = canvas.surface id
  slot : ∀ x canvas, R x canvas → ∀ slot : UInt16, r.slot x slot = canvas.cache[slot]?

theorem CpuCompositor.models (nv12ToRgb : ToRgb) :
    (CpuCompositor.renderer nv12ToRgb).Models (planesPicture nv12ToRgb)
      fun x canvas => x.canvas = canvas ∧ canvas.Fits where
  new := ⟨rfl, Canvas.fits_empty⟩
  call := by
    rintro x canvas made ⟨rfl, hfits⟩ hmade
    exact ⟨CpuCompositor.canvas_step nv12ToRgb hfits made, hfits.apply _ hmade⟩
  surface := by
    rintro x canvas ⟨rfl, -⟩ id
    rfl
  slot := by
    rintro x canvas ⟨rfl, -⟩ slot
    rfl

theorem Compositor.models {g : Gpu} (hgrants : ∀ n, g.grants n = true) :
    (Compositor.renderer g).Models (gpuPicture g.nv12ToRgb) (Compositor.Draws g) where
  new := by
    refine ⟨Compositor.sound_new, Compositor.canvas_ext rfl (fun id => ?_) fun slot => ?_⟩
    · simp [Compositor.surfaces_canvas, Compositor.renderer, Compositor.new, Canvas.empty]
    · simp [Compositor.cache_canvas, Compositor.renderer, Compositor.new, Canvas.empty]
  call := by
    rintro x canvas made ⟨hsound, rfl⟩ -
    exact Compositor.call_draws hgrants hsound 0 made
  surface := by
    rintro x canvas ⟨-, rfl⟩ id
    exact Compositor.readSurface_eq g x id
  slot := by
    rintro x canvas ⟨-, rfl⟩ slot
    exact Compositor.readSlot_eq g x slot

section Steps

variable {σ Clear H264 Caps : Type} {r : Renderer σ} {picture : Picture} {R : σ → Canvas → Prop}
  {d : Decoders Clear H264 Nv12Frame Caps} {s : Screen σ Clear H264 Caps} {canvas : Canvas}

/-- The tables of the client are those of the canvas, the renderer draws what the canvas holds, and the
slots hold what was stored last. -/
structure Screen.Related (R : σ → Canvas → Prop) (s : Screen σ Clear H264 Caps) (v : SinkView)
    (canvas : Canvas) : Prop where
  tracks : Tracks s.client.state v
  shows : Shows v canvas
  drawn : R s.renderer canvas
  stored : ∀ (slot : UInt16) (img : BgraImage), canvas.cache[slot]? = some img →
    s.stored slot = some img

theorem Screen.Related.agrees (hmodel : r.Models picture R) {v : SinkView} (h : s.Related R v canvas) :
    s.Agrees r where
  surfaces id := by
    rw [hmodel.surface _ _ h.drawn, h.shows.surfaces, h.tracks.surfaces]
  slots slot := by
    rw [hmodel.slot _ _ h.drawn, h.shows.slots, h.tracks.slots]
  stored slot img hslot := by
    rw [hmodel.slot _ _ h.drawn] at hslot
    exact h.stored slot img hslot

theorem foldl_calls (hmodel : r.Models picture R) {calls : List (SinkCall Nv12Frame)}
    (hcalls : ∀ call ∈ calls, PutsNothing call) {x : σ} {v v' : SinkView} {canvas : Canvas}
    (hshows : Shows v canvas) (hdrawn : R x canvas)
    (hjudge : judge SinkView.check v calls = some v') :
    let drawn := calls.foldl (Canvas.apply picture) canvas
    Shows v' drawn ∧ R (calls.foldl r.call x) drawn ∧
      ∀ (slot : UInt16) (img : BgraImage), drawn.cache[slot]? = some img →
        canvas.cache[slot]? = some img := by
  induction calls generalizing x v canvas with
  | nil =>
      obtain rfl := Option.some.inj hjudge
      exact ⟨hshows, hdrawn, fun _ _ h => h⟩
  | cons call calls ih =>
      have hcall := hcalls call List.mem_cons_self
      rw [judge_cons, Option.bind_eq_some_iff] at hjudge
      obtain ⟨v₁, hcheck, hrest⟩ := hjudge
      obtain ⟨hshows', hdrawn', hcache⟩ :=
        ih (fun call' h => hcalls call' (List.mem_cons_of_mem _ h))
          (hshows.apply hcall.plain hcheck)
          (hmodel.call x canvas call hdrawn hcall.isU32) hrest
      refine ⟨hshows', hdrawn', fun slot img hslot => ?_⟩
      refine cache_apply (fun id rect found heq => ?_) (hcache slot img hslot)
      rw [heq] at hcall
      exact hcall

theorem Screen.Related.step_of_ne (hmodel : r.Models picture R) {v : SinkView}
    (h : s.Related R v canvas) {p : GfxPdu} (hp : p.isStore = false) :
    ∃ v', (s.step r d p).1.Related R v'
      ((s.client.handlePdu d p).2.1.foldl (Canvas.apply picture) canvas) := by
  obtain ⟨v', hjudge, htracks⟩ := accepted_handlePdu d h.tracks p
  obtain ⟨hshows, hdrawn, hcache⟩ :=
    foldl_calls hmodel (calls_handlePdu d hp) h.shows h.drawn hjudge
  have hstored : (s.step r d p).1.stored = s.stored := by
    simp only [Screen.step]
    cases p with
    | surfaceToCache q => cases hp
    | _ => rfl
  refine ⟨v', htracks, hshows, hdrawn, fun slot img hslot => ?_⟩
  rw [hstored]
  exact h.stored slot img (hcache slot img hslot)

theorem Screen.Related.step_surfaceToCache (hmodel : r.Models picture R) {v : SinkView}
    (h : s.Related R v canvas) {p : SurfaceToCachePdu}
    (haccepts : s.client.Accepts d (.surfaceToCache p))
    (hempty : (storedRect p).isEmpty = false) :
    ∃ v', (s.step r d (.surfaceToCache p)).1.Related R v'
      (canvas.apply picture (.surfaceToCache p.surfaceId (storedRect p) p.cacheSlot)) := by
  obtain ⟨surface, hsurface, hinside, heq⟩ := accepts_surfaceToCache d haccepts
  have hwire := h.tracks.wire_of_surface hsurface
  have hknown : v.surfaces[p.surfaceId]? = some surface.size := by
    rw [h.tracks.surfaces, surface_eq_ok.mp hsurface]
    rfl
  obtain ⟨img, himg, hsize⟩ := h.shows.surface hknown
  have hnote : (s.step r d (.surfaceToCache p)).1.stored =
      Function.update s.stored p.cacheSlot (some (img.crop (storedRect p))) := by
    simp only [Screen.step, heq, GfxClient.done, Screen.note]
    rw [hmodel.surface _ _ h.drawn, himg]
    rfl
  refine ⟨_, ?_, h.shows.surfaceToCache hknown (hinside hwire) hempty, ?_, fun slot found hslot => ?_⟩
  · simp only [Screen.step, heq, GfxClient.done]
    exact ⟨h.tracks.surfaces, congrArg (·.insert p.cacheSlot (storedRect p).size) h.tracks.slots,
      h.tracks.wire⟩
  · simp only [Screen.step, heq, GfxClient.done]
    exact hmodel.call _ _ _ h.drawn trivial
  · have hpart : (canvas.surface p.surfaceId).bind (·.part (storedRect p)) =
        some (img.crop (storedRect p)) := by
      rw [himg, Option.bind_some, part_of_inside (hsize ▸ hinside hwire) hempty]
    simp only [Canvas.apply, hpart, ExtTreeMap.getElem?_insert, LawfulEqCmp.compare_eq_iff_eq] at hslot
    rw [hnote]
    by_cases hj : p.cacheSlot = slot
    · subst hj
      rw [if_pos rfl] at hslot
      rw [Function.update_self]
      exact hslot
    · rw [if_neg hj] at hslot
      rw [Function.update_of_ne (Ne.symm hj)]
      exact h.stored slot found hslot

theorem Screen.Related.not_agrees (hmodel : r.Models picture R) {v : SinkView}
    (h : s.Related R v canvas) {p : SurfaceToCachePdu}
    (haccepts : s.client.Accepts d (.surfaceToCache p)) (hempty : (storedRect p).isEmpty = true) :
    ¬ (s.step r d (.surfaceToCache p)).1.Agrees r := by
  intro hagrees
  obtain ⟨surface, hsurface, hinside, heq⟩ := accepts_surfaceToCache d haccepts
  have hslot := hagrees.slots p.cacheSlot
  simp only [Screen.step, heq, GfxClient.done, ExtTreeMap.getElem?_insert_self, List.foldl_cons,
    List.foldl_nil] at hslot
  have hdrawn := hmodel.call _ _ (.surfaceToCache p.surfaceId (storedRect p) p.cacheSlot) h.drawn
    trivial
  have hsame : canvas.apply picture (.surfaceToCache p.surfaceId (storedRect p) p.cacheSlot) =
      canvas := by
    have hnone : (canvas.surface p.surfaceId).bind (·.part (storedRect p)) = none := by
      cases canvas.surface p.surfaceId with
      | none => rfl
      | some img => rw [Option.bind_some, BgraImage.part, clipRect_empty hempty]; rfl
    simp only [Canvas.apply, hnone]
  rw [hsame] at hdrawn
  rw [hmodel.slot _ _ hdrawn, Option.map_eq_some_iff] at hslot
  obtain ⟨img, himg, hsize⟩ := hslot
  have hsides : (storedRect p).width = 0 ∨ (storedRect p).height = 0 := of_decide_eq_true hempty
  have hwidth : img.width = (storedRect p).width := congrArg Size.width hsize
  have hheight : img.height = (storedRect p).height := congrArg Size.height hsize
  exact h.shows.nonempty p.cacheSlot img himg (by omega)

theorem Screen.Related.drawsStored (hmodel : r.Models picture R) {v : SinkView}
    (h : s.Related R v canvas) {p : GfxPdu} (haccepts : s.client.Accepts d p) :
    s.DrawsStored r (s.step r d p).1 p := by
  cases p with
  | cacheToSurface p =>
      obtain ⟨⟨size, hsize⟩, heq⟩ := accepts_cacheToSurface d haccepts
      have hslot := h.shows.slots p.cacheSlot
      rw [h.tracks.slots, hsize, Option.map_eq_some_iff] at hslot
      obtain ⟨img, himg, -⟩ := hslot
      refine ⟨img, h.stored _ _ himg, ?_⟩
      have hdrawn := hmodel.call _ _ (.cacheToSurface p.cacheSlot p.surfaceId p.destinationPoints)
        h.drawn trivial
      simp only [Screen.step, heq, GfxClient.done, List.foldl_cons, List.foldl_nil]
      rw [hmodel.surface _ _ hdrawn, hmodel.surface _ _ h.drawn]
      simp only [Canvas.apply, himg, Canvas.stamp]
      rw [Canvas.surface_onSurface, if_pos rfl]
  | _ => trivial

/-- **Runs.** The tables agree after every PDU exactly when no SurfaceToCache stores nothing. -/
theorem Screen.Related.faithful_iff (hmodel : r.Models picture R) {v : SinkView}
    (h : s.Related R v canvas) {ps : List GfxPdu} (hok : s.client.AcceptsAll d ps) :
    s.Faithful r d ps ↔ ∀ p ∈ ps, ¬ StoresNothing p := by
  induction ps generalizing s v canvas with
  | nil => simp [Screen.Faithful]
  | cons p ps ih =>
      obtain ⟨haccepts, hrest⟩ := hok
      have hnext : (s.step r d p).1.client = s.client.next d p := rfl
      have hdraws := h.drawsStored hmodel haccepts
      have hgood : (∃ v' canvas', (s.step r d p).1.Related R v' canvas') → ¬ StoresNothing p →
          (s.Faithful r d (p :: ps) ↔ ∀ q ∈ p :: ps, ¬ StoresNothing q) := by
        rintro ⟨v', canvas', hrelated⟩ hp
        have hfaithful := ih hrelated (hnext ▸ hrest)
        rw [List.forall_mem_cons]
        constructor
        · exact fun hall => ⟨hp, hfaithful.mp hall.2.2⟩
        · exact fun hall => ⟨hrelated.agrees hmodel, hdraws, hfaithful.mpr hall.2⟩
      cases hstore : p.isStore with
      | true =>
          cases p with
          | surfaceToCache q =>
              cases hempty : (storedRect q).isEmpty with
              | false =>
                  obtain ⟨v', hrelated⟩ := h.step_surfaceToCache hmodel haccepts hempty
                  exact hgood ⟨v', _, hrelated⟩ (Bool.eq_false_iff.mp hempty)
              | true =>
                  have hbad := h.not_agrees hmodel haccepts hempty
                  exact iff_of_false (fun hall => hbad hall.1)
                    fun hall => hall _ List.mem_cons_self hempty
          | _ => cases hstore
      | false =>
          obtain ⟨v', hrelated⟩ := h.step_of_ne (d := d) hmodel hstore
          refine hgood ⟨v', _, hrelated⟩ fun hp => ?_
          cases p with
          | surfaceToCache q => cases hstore
          | _ => exact hp

end Steps

/-- With either renderer, the tables of the client and of the renderer agree after every PDU of an accepted
sequence, and a CacheToSurface draws what was stored last, exactly when no SurfaceToCache of the
sequence has an empty source rectangle. -/
theorem renderers_faithful_iff {Clear H264 Caps : Type} {d : Decoders Clear H264 Nv12Frame Caps}
    {h264 : H264} {ps : List GfxPdu} (hok : (GfxClient.new d h264).AcceptsAll d ps) :
    (∀ nv12ToRgb : ToRgb,
      let r := CpuCompositor.renderer nv12ToRgb
      (Screen.new r d h264).Faithful r d ps ↔ ∀ p ∈ ps, ¬ StoresNothing p) ∧
      ∀ g : Gpu, (∀ n, g.grants n = true) →
        let r := Compositor.renderer g
        (Screen.new r d h264).Faithful r d ps ↔ ∀ p ∈ ps, ¬ StoresNothing p := by
  have hnew : ∀ {σ : Type} {r : Renderer σ} {picture : Picture} {R : σ → Canvas → Prop},
      r.Models picture R → (Screen.new r d h264).Related R .empty .empty := by
    intro σ r picture R hmodel
    exact ⟨tracks_empty, shows_empty, hmodel.new, fun slot img h => by simp [Canvas.empty] at h⟩
  refine ⟨fun nv12ToRgb => ?_, fun g hgrants => ?_⟩
  · have hmodel := CpuCompositor.models nv12ToRgb
    exact (hnew hmodel).faithful_iff hmodel hok
  · have hmodel := Compositor.models hgrants
    exact (hnew hmodel).faithful_iff hmodel hok

/-! ### Two small sequences -/

def noDecoders : Decoders Unit Unit Nv12Frame Unit := .refusing (.error "refused")

/-- The surface 1 of four by four pixels is stored in the slot 7, and so is a part of it. -/
def storeTwice (part : ExclusiveRectangle) : List GfxPdu :=
  [.createSurface 1 4 4 .xRgb, .surfaceToCache ⟨1, 7, ⟨0, 0, 2, 2⟩⟩, .surfaceToCache ⟨1, 7, part⟩,
    .cacheToSurface ⟨7, 1, [⟨2, 2⟩]⟩]

theorem renderers_faithful_iff_storeTwice :
    let cpu := CpuCompositor.renderer lumaGpu.nv12ToRgb
    let gpu := Compositor.renderer lumaGpu
    (Screen.new cpu noDecoders ()).Faithful cpu noDecoders (storeTwice ⟨1, 1, 2, 3⟩) ∧
      (Screen.new gpu noDecoders ()).Faithful gpu noDecoders (storeTwice ⟨1, 1, 2, 3⟩) := by
  have hok : (GfxClient.new noDecoders ()).AcceptsAll noDecoders (storeTwice ⟨1, 1, 2, 3⟩) :=
    ⟨rfl, rfl, rfl, rfl, trivial⟩
  have hstores : ∀ p ∈ storeTwice ⟨1, 1, 2, 3⟩, ¬ StoresNothing p := by
    simp [storeTwice, StoresNothing, storedRect, Rect.isEmpty]
  obtain ⟨hcpu, hgpu⟩ := renderers_faithful_iff hok
  exact ⟨(hcpu _).mpr hstores, (hgpu lumaGpu fun _ => rfl).mpr hstores⟩

/-- The second part is empty: the slot keeps the first image, which the CacheToSurface draws. -/
theorem not_renderers_faithful :
    ¬ ∀ ps : List GfxPdu, (GfxClient.new noDecoders ()).AcceptsAll noDecoders ps →
      let r := CpuCompositor.renderer lumaGpu.nv12ToRgb
      (Screen.new r noDecoders ()).Faithful r noDecoders ps := by
  intro hall
  have hfaithful := hall (storeTwice ⟨1, 1, 1, 1⟩) ⟨rfl, rfl, rfl, rfl, trivial⟩
  have hslots := hfaithful.2.2.2.2.1.slots 7
  exact absurd hslots (by decide)

end Drift.Render
