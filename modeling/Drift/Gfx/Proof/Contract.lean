import Drift.Gfx.Client

/-!
# The client respects the sink

The surfaces and cache slots of a client are those that the history of its calls tells (`Tracks`), so
the contract of the sink accepts every call it makes, whatever PDUs arrive (`judge_run_new`).
-/

namespace Drift.Gfx

open Std Drift.Codec Transition

/-- The tables of a client are what the sink knows, and its surfaces have 16-bit sides. -/
structure Tracks (state : GfxState) (v : SinkView) : Prop where
  surfaces : ∀ id : UInt16, v.surfaces[id]? = (state.surfaces[id]?).map Surface.size
  slots : v.slots = state.cache
  wire : ∀ (id : UInt16) (s : Surface), state.surfaces[id]? = some s → s.Wire

/-- The sink accepts the calls of an outcome, and the client still tracks it after them. -/
def Accepted {Clear H264 Frame Caps : Type} (v : SinkView)
    (o : GfxClient.Outcome Clear H264 Frame Caps) : Prop :=
  ∃ v', judge SinkView.check v o.2.1 = some v' ∧ Tracks o.1.state v'

/-! ### The tables -/

section Tables

variable {state state' : GfxState} {v : SinkView} {id slot : UInt16}

theorem tracks_empty : Tracks .empty .empty :=
  ⟨fun id => by simp [GfxState.empty, SinkView.empty], rfl, fun id s h => by
    simp [GfxState.empty] at h⟩

theorem surface_eq_ok {s : Surface} :
    state.surface id = .ok s ↔ state.surfaces[id]? = some s := by
  unfold GfxState.surface
  cases state.surfaces[id]? with
  | none => simp
  | some found => simp

theorem Tracks.wire_of_surface (h : Tracks state v) {s : Surface}
    (hs : state.surface id = .ok s) : s.Wire := h.wire id s (surface_eq_ok.mp hs)

/-- A use of a surface that the client found is accepted when its condition holds there. -/
theorem Tracks.onSurface (h : Tracks state v) {s : Surface} (hs : state.surface id = .ok s)
    {P : Size → Prop} [DecidablePred P] (hsize : P s.size) :
    (v.onSurface id fun bounds => P bounds) = some v := by
  rw [SinkView.onSurface, h.surfaces, surface_eq_ok.mp hs]
  exact if_pos (decide_eq_true hsize)

theorem Tracks.contains (h : Tracks state v) :
    v.surfaces.contains id = state.surfaces.contains id := by
  rw [ExtTreeMap.contains_eq_isSome_getElem?, ExtTreeMap.contains_eq_isSome_getElem?, h.surfaces,
    Option.isSome_map]

theorem Tracks.create (h : Tracks state v) {size : Size} {format : PixelFormat}
    (hwidth : size.width ≤ u16Max) (hheight : size.height ≤ u16Max)
    (hcreate : state.create id size format = .ok state') :
    v.surfaces.contains id = false ∧
      Tracks state' { v with surfaces := v.surfaces.insert id size } := by
  unfold GfxState.create at hcreate
  split at hcreate
  · cases hcreate
  split at hcreate
  · cases hcreate
  next hfresh =>
    obtain rfl := Except.ok.inj hcreate
    refine ⟨by rw [h.contains]; exact Bool.eq_false_iff.mpr hfresh, ⟨?_, h.slots, ?_⟩⟩
    · intro j
      simp only [ExtTreeMap.getElem?_insert]
      split
      · rfl
      · exact h.surfaces j
    · intro j s hs
      simp only [ExtTreeMap.getElem?_insert] at hs
      split at hs
      · obtain rfl := Option.some.inj hs
        exact ⟨hwidth, hheight⟩
      · exact h.wire j s hs

theorem Tracks.delete (h : Tracks state v) :
    Tracks (state.delete id).1 { v with surfaces := v.surfaces.erase id } := by
  refine ⟨?_, h.slots, ?_⟩
  · intro j
    simp only [GfxState.delete, ExtTreeMap.getElem?_erase]
    split
    · rfl
    · exact h.surfaces j
  · intro j s hs
    simp only [GfxState.delete, ExtTreeMap.getElem?_erase] at hs
    split at hs
    · cases hs
    · exact h.wire j s hs

theorem erase_eq_self {β : Type} {m : ExtTreeMap UInt16 β} {k : UInt16}
    (h : m.contains k = false) : m.erase k = m := by
  rw [ExtTreeMap.contains_eq_isSome_getElem?, Option.isSome_eq_false_iff,
    Option.isNone_iff_eq_none] at h
  refine ExtTreeMap.ext_getElem? fun j => ?_
  rw [ExtTreeMap.getElem?_erase]
  split
  · next heq => rw [← LawfulEqCmp.eq_of_compare heq, h]
  · rfl

theorem Tracks.delete_absent (h : Tracks state v) (habsent : state.surfaces.contains id = false) :
    Tracks (state.delete id).1 v := by
  rwa [GfxState.delete, erase_eq_self habsent]

theorem Tracks.cacheStore (h : Tracks state v) {size : Size}
    (hstore : state.cacheStore slot size = .ok state') :
    Tracks state' { v with slots := v.slots.insert slot size } := by
  unfold GfxState.cacheStore at hstore
  cases hslot : GfxState.checkSlot slot with
  | error e =>
      rw [hslot] at hstore
      cases hstore
  | ok u =>
      rw [hslot] at hstore
      obtain rfl := Except.ok.inj hstore
      exact ⟨h.surfaces, congrArg (·.insert slot size) h.slots, h.wire⟩

theorem Tracks.cacheEntry (h : Tracks state v) {size : Size}
    (hentry : state.cacheEntry slot = .ok size) : v.slots[slot]? = some size := by
  unfold GfxState.cacheEntry at hentry
  rw [h.slots]
  cases hslot : state.cache[slot]? with
  | none =>
      rw [hslot] at hentry
      cases hentry
  | some found =>
      rw [hslot] at hentry
      obtain rfl := Except.ok.inj hentry
      rfl

end Tables

/-! ### Outcomes -/

section Outcomes

variable {Clear H264 Frame Caps : Type} {c : GfxClient Clear H264 Caps} {v : SinkView}

theorem accepted_fail (h : Tracks c.state v) (e : GfxError) :
    Accepted v (c.fail e : GfxClient.Outcome Clear H264 Frame Caps) := ⟨v, rfl, h⟩

theorem accepted_check {α : Type} (h : Tracks c.state v) {x : Except GfxError α}
    {next : α → GfxClient.Outcome Clear H264 Frame Caps}
    (hnext : ∀ a, x = .ok a → Accepted v (next a)) : Accepted v (c.check x next) := by
  cases x with
  | ok a => exact hnext a rfl
  | error e => exact accepted_fail h e

/-- Calls that leave the view of the sink alone are accepted together. -/
theorem accepted_done (h : Tracks c.state v) {calls : List (SinkCall Frame)}
    (hcalls : ∀ call ∈ calls, v.check call = some v) : Accepted v (c.done calls) :=
  ⟨v, judge_of_forall_eq hcalls, h⟩

theorem accepted_done_singleton {v' : SinkView} {call : SinkCall Frame}
    (hcall : v.check call = some v') (h : Tracks c.state v') : Accepted v (c.done [call]) :=
  ⟨v', by rw [GfxClient.done, judge_singleton, hcall], h⟩

end Outcomes

/-! ### Rectangles -/

theorem inside_of_mem_clipAll {rectangles : List ExclusiveRectangle} {bounds : Size}
    {rects : List Rect} (h : GfxClient.clipAll rectangles bounds = .ok rects) :
    ∀ r ∈ rects, r.Inside bounds := by
  induction rectangles generalizing rects with
  | nil =>
      obtain rfl := Except.ok.inj h
      simp
  | cons q qs ih =>
      unfold GfxClient.clipAll at h
      cases hrect : rect q with
      | error e =>
          rw [hrect] at h
          cases h
      | ok r =>
          cases hrest : GfxClient.clipAll qs bounds with
          | error e =>
              rw [hrect, hrest] at h
              cases h
          | ok rest =>
              rw [hrect, hrest] at h
              obtain rfl := Except.ok.inj h
              intro p hp
              rcases List.mem_append.mp hp with hp | hp
              · exact inside_of_clip (Option.mem_toList.mp hp)
              · exact ih hrest p hp

theorem destsInside_of_destinations {id : UInt16} {s : Surface} {size : Size}
    {points dests : List Point} (hs : s.Wire)
    (h : GfxClient.destinations id s.size size points = .ok dests) :
    DestsInside size s.size dests := by
  induction points generalizing dests with
  | nil =>
      obtain rfl := Except.ok.inj h
      intro p hp
      cases hp
  | cons q qs ih =>
      unfold GfxClient.destinations at h
      cases hq : ensureWithin id s.size ⟨q.x, q.y, size.width, size.height⟩ "destination" with
      | error e =>
          rw [hq] at h
          cases h
      | ok u =>
          cases hrest : GfxClient.destinations id s.size size qs with
          | error e =>
              rw [hq, hrest] at h
              cases h
          | ok rest =>
              rw [hq, hrest] at h
              obtain rfl := Except.ok.inj h
              intro p hp
              rcases List.mem_cons.mp hp with rfl | hp
              · exact inside_of_ensureWithin hs hq
              · exact ih hrest p hp

/-! ### PDUs -/

section Pdus

variable {Clear H264 Frame Caps : Type} (d : Decoders Clear H264 Frame Caps)
  {c : GfxClient Clear H264 Caps} {v : SinkView}

/-- The writes of a tile lie in the surface and have the data they need. -/
theorem check_blit {state : GfxState} (h : Tracks state v) {id : UInt16} {s : Surface}
    (hs : state.surface id = .ok s) (tile : BgraTile) :
    ∀ call ∈ (GfxClient.blit id s.size tile : List (SinkCall Frame)), v.check call = some v := by
  intro call hcall
  obtain ⟨b, hb, rfl⟩ := List.mem_map.mp hcall
  obtain ⟨hmem, hfits⟩ := List.mem_filter.mp hb
  have hwire := h.wire_of_surface hs
  have hmax : u16Max < u32Max := by decide
  have hinside : b.rect.Inside s.size :=
    Rect.inside_of_fitsWithin (Nat.lt_of_le_of_lt hwire.1 hmax)
      (Nat.lt_of_le_of_lt hwire.2 hmax) hfits
  exact h.onSurface hs (P := fun bounds => b.rect.Inside bounds ∧
    neededBytes b.rect b.stride ≤ b.data.length) ⟨hinside, BgraTile.mem_blits hmem⟩

theorem accepted_solidFill (h : Tracks c.state v) (f : SolidFillPdu) :
    Accepted v (c.solidFill f : GfxClient.Outcome Clear H264 Frame Caps) := by
  refine accepted_check h fun surface hsurface => accepted_check h fun rects hrects => ?_
  refine accepted_done h fun call hcall => ?_
  split at hcall
  · cases hcall
  · obtain rfl := List.mem_singleton.mp hcall
    exact h.onSurface hsurface (P := fun bounds => ∀ r ∈ rects, r.Inside bounds)
      (inside_of_mem_clipAll hrects)

theorem accepted_surfaceToSurface (h : Tracks c.state v) (s : SurfaceToSurfacePdu) :
    Accepted v (c.surfaceToSurface s : GfxClient.Outcome Clear H264 Frame Caps) := by
  refine accepted_check h fun src hsrc => accepted_check h fun dst hdst => ?_
  refine accepted_check h fun r _ => accepted_check h fun u hwithin => ?_
  refine accepted_check h fun dests hdests => accepted_done_singleton ?_ h
  have hsource : r.Inside src.size := inside_of_ensureWithin (h.wire_of_surface hsrc) hwithin
  have hdest : DestsInside r.size dst.size dests :=
    destsInside_of_destinations (h.wire_of_surface hdst) hdests
  rw [SinkView.check, h.onSurface hsrc (P := fun bounds => r.Inside bounds) hsource,
    Option.bind_some]
  exact h.onSurface hdst (P := fun bounds => DestsInside r.size bounds dests) hdest

theorem accepted_surfaceToCache (h : Tracks c.state v) (s : SurfaceToCachePdu) :
    Accepted v (c.surfaceToCache s : GfxClient.Outcome Clear H264 Frame Caps) := by
  refine accepted_check h fun surface hsurface => accepted_check h fun r _ => ?_
  refine accepted_check h fun u hwithin => accepted_check h fun state hstore => ?_
  have hsource : r.Inside surface.size :=
    inside_of_ensureWithin (h.wire_of_surface hsurface) hwithin
  refine accepted_done_singleton ?_ (h.cacheStore hstore)
  rw [SinkView.check, h.onSurface hsurface (P := fun bounds => r.Inside bounds) hsource,
    Option.map_some]

theorem accepted_cacheToSurface (h : Tracks c.state v) (p : CacheToSurfacePdu) :
    Accepted v (c.cacheToSurface p : GfxClient.Outcome Clear H264 Frame Caps) := by
  refine accepted_check h fun size hsize => accepted_check h fun surface hsurface => ?_
  refine accepted_check h fun dests hdests => accepted_done_singleton ?_ h
  have hdest : DestsInside size surface.size dests :=
    destsInside_of_destinations (h.wire_of_surface hsurface) hdests
  simp only [SinkView.check, h.cacheEntry hsize]
  exact h.onSurface hsurface (P := fun bounds => DestsInside size bounds dests) hdest

theorem accepted_avc420 (h : Tracks c.state v) {id : UInt16} {s : Surface}
    (hs : c.state.surface id = .ok s) (data : Bytes) :
    Accepted v (c.avc420 d id s.size data) := by
  refine accepted_check h fun stream _ => accepted_check h fun regions hregions => ?_
  rcases d.decodeH264 c.h264 stream.2 with ⟨h264, decoded⟩
  refine accepted_check (c := { c with h264 := h264 }) h fun frame _ => accepted_done h ?_
  intro call hcall
  cases frame with
  | none => cases hcall
  | some frame =>
      simp only at hcall
      split at hcall
      · cases hcall
      · obtain rfl := List.mem_singleton.mp hcall
        exact h.onSurface hs (P := fun bounds => ∀ r ∈ regions, r.Inside bounds)
          (inside_of_mem_clipAll hregions)

theorem accepted_wireToSurface1 (h : Tracks c.state v) (w : WireToSurface1Pdu) :
    Accepted v (c.wireToSurface1 d w) := by
  refine accepted_check h fun surface hsurface => accepted_check h fun dest _ => ?_
  cases w.codecId with
  | avc420 => exact accepted_avc420 d h hsurface w.bitmapData
  | uncompressed =>
      refine accepted_check h fun _ _ => accepted_check h fun tile _ => ?_
      exact accepted_done h (check_blit h hsurface tile)
  | planar =>
      refine accepted_check h fun _ _ => accepted_check h fun tile _ => ?_
      exact accepted_done h (check_blit h hsurface tile)
  | clearCodec =>
      refine accepted_check h fun _ _ => ?_
      rcases d.decodeClear c.clear dest w.bitmapData with ⟨clear, decoded⟩
      refine accepted_check (c := { c with clear := clear }) h fun tile _ => ?_
      exact accepted_done h (check_blit h hsurface tile)
  | remoteFx => exact accepted_fail h _
  | alpha => exact accepted_fail h _
  | avc444 => exact accepted_fail h _
  | avc444v2 => exact accepted_fail h _

theorem accepted_wireToSurface2 (h : Tracks c.state v) (w : WireToSurface2Pdu) :
    Accepted v (c.wireToSurface2 d w) := by
  refine accepted_check h fun surface hsurface => ?_
  rcases c.progressive.decode d.progressive w.surfaceId w.codecContextId surface.size
    w.bitmapData with ⟨progressive, decoded⟩
  refine accepted_check (c := { c with progressive := progressive }) h fun tiles _ =>
    accepted_done h ?_
  intro call hcall
  obtain ⟨tile, _, hcall⟩ := List.mem_flatMap.mp hcall
  exact check_blit h hsurface tile call hcall

theorem accepted_deleteSurface (h : Tracks c.state v) (id : UInt16) :
    Accepted v (c.handlePdu d (.deleteSurface id)) := by
  have hview : v.surfaces.contains id = c.state.surfaces.contains id := h.contains
  cases hcontains : c.state.surfaces.contains id with
  | true =>
      have hdelete : c.state.delete id = ((c.state.delete id).1, true) :=
        Prod.ext rfl hcontains
      simp only [GfxClient.handlePdu]
      rw [hdelete]
      refine accepted_done_singleton ?_ h.delete
      rw [hcontains] at hview
      simp only [SinkView.check, hview, if_true]
  | false =>
      have hdelete : c.state.delete id = ((c.state.delete id).1, false) :=
        Prod.ext rfl hcontains
      simp only [GfxClient.handlePdu]
      rw [hdelete]
      exact accepted_done (h.delete_absent hcontains) fun call hcall => nomatch hcall

theorem accepted_evictCacheEntry (h : Tracks c.state v) (slot : UInt16) :
    Accepted v (c.handlePdu d (.evictCacheEntry slot)) := by
  refine accepted_check h fun r hevict => ?_
  unfold GfxState.cacheEvict at hevict
  cases hslot : GfxState.checkSlot slot with
  | error e =>
      rw [hslot] at hevict
      cases hevict
  | ok u =>
      rw [hslot] at hevict
      obtain rfl := Except.ok.inj hevict
      have htracks : Tracks { c.state with cache := c.state.cache.erase slot }
          { v with slots := v.slots.erase slot } :=
        ⟨h.surfaces, congrArg (·.erase slot) h.slots, h.wire⟩
      cases hcontains : c.state.cache.contains slot with
      | true =>
          refine accepted_done_singleton ?_ htracks
          simp only [SinkView.check, h.slots, hcontains, if_true]
      | false =>
          have herase : v.slots.erase slot = v.slots := by
            rw [h.slots]
            exact erase_eq_self hcontains
          rw [herase] at htracks
          exact accepted_done htracks fun call hcall => nomatch hcall

/-- **PDUs.** The sink accepts the calls of every PDU. -/
theorem accepted_handlePdu (h : Tracks c.state v) (pdu : GfxPdu) :
    Accepted v (c.handlePdu d pdu) := by
  have hnil : ∀ c' : GfxClient Clear H264 Caps, c'.state = c.state →
      Accepted v (c'.done [] : GfxClient.Outcome Clear H264 Frame Caps) := fun c' hc' =>
    accepted_done (hc' ▸ h) fun call hcall => nomatch hcall
  cases pdu with
  | capabilitiesConfirm caps => exact accepted_check h fun _ _ => hnil _ rfl
  | resetGraphics width height => exact accepted_done_singleton rfl tracks_empty
  | createSurface id width height format =>
      refine accepted_check h fun state hcreate => ?_
      obtain ⟨hfresh, htracks⟩ := h.create (Nat.le_of_lt_succ width.toNat_lt)
        (Nat.le_of_lt_succ height.toNat_lt) hcreate
      refine accepted_done_singleton ?_ htracks
      simp only [SinkView.check, hfresh, Bool.false_eq_true, if_false]
  | deleteSurface id => exact accepted_deleteSurface d h id
  | mapSurfaceToOutput id x y =>
      exact accepted_check h fun s hs => accepted_done_singleton (h.onSurface hs (P := fun _ => True) trivial) h
  | mapSurfaceToScaledOutput id x y =>
      exact accepted_check h fun s hs => accepted_done_singleton (h.onSurface hs (P := fun _ => True) trivial) h
  | mapSurfaceToWindow => exact hnil c rfl
  | mapSurfaceToScaledWindow => exact hnil c rfl
  | startFrame => exact hnil _ rfl
  | endFrame frameId => exact accepted_done_singleton rfl h
  | solidFill f => exact accepted_solidFill h f
  | surfaceToSurface s => exact accepted_surfaceToSurface h s
  | surfaceToCache s => exact accepted_surfaceToCache h s
  | cacheToSurface p => exact accepted_cacheToSurface h p
  | evictCacheEntry slot => exact accepted_evictCacheEntry d h slot
  | cacheImportReply => exact hnil c rfl
  | deleteEncodingContext id codecContextId => exact hnil _ rfl
  | wireToSurface1 w => exact accepted_wireToSurface1 d h w
  | wireToSurface2 w => exact accepted_wireToSurface2 d h w
  | capabilitiesAdvertise => exact accepted_fail h _
  | frameAcknowledge => exact accepted_fail h _
  | qoeFrameAcknowledge => exact accepted_fail h _
  | cacheImportOffer => exact accepted_fail h _

end Pdus

/-- **Contract.** Whatever PDUs a fresh client is given, accepted or rejected, the sink's history of
calls justifies every call the client makes. -/
theorem judge_run_new {Clear H264 Frame Caps : Type} (d : Decoders Clear H264 Frame Caps)
    (h264 : H264) (inputs : List ClientInput) :
    ∃ v, judge SinkView.check .empty
      (run (GfxClient.step d) (GfxClient.new d h264) inputs).2 = some v := by
  have hstep : ∀ (c : GfxClient Clear H264 Caps) v input, Tracks c.state v →
      ∃ v', judge SinkView.check v (c.step d input).2 = some v' ∧
        Tracks (c.step d input).1.state v' := by
    intro c v input h
    cases input with
    | pdu p => exact accepted_handlePdu d h p
    | setVisible visible => exact ⟨v, rfl, h⟩
  have hnew : Tracks (GfxClient.new d h264).state .empty := tracks_empty
  obtain ⟨v, hv, _⟩ := run_judged (fun (c : GfxClient Clear H264 Caps) v => Tracks c.state v) hstep
    hnew inputs
  exact ⟨v, hv⟩

end Drift.Gfx
