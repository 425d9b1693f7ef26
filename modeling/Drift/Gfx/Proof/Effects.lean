import Drift.Gfx.Client

/-!
# What a PDU has no effect on

Most PDUs leave the surfaces, the progressive codec and the acknowledgements alone, whether they are
accepted or not (`aside_handlePdu`), and only a SurfaceToCache makes the call of that name.
-/

namespace Drift.Gfx

open Std Drift.Codec

/-- A call that neither changes the table of the surfaces nor ends a frame. -/
def SinkCall.isAside {Frame : Type} : SinkCall Frame → Bool
  | .reset _ => false
  | .createSurface _ _ => false
  | .deleteSurface _ => false
  | .endFrame _ => false
  | .setVisible _ => false
  | _ => true

def SinkCall.isStore {Frame : Type} : SinkCall Frame → Bool
  | .surfaceToCache _ _ _ => true
  | _ => false

/-- A PDU that has no effect on surfaces, tiles and acknowledgements. -/
def GfxPdu.isAside : GfxPdu → Bool
  | .resetGraphics _ _ => false
  | .createSurface _ _ _ _ => false
  | .deleteSurface _ => false
  | .startFrame => false
  | .endFrame _ => false
  | .deleteEncodingContext _ _ => false
  | .wireToSurface2 _ => false
  | _ => true

section Effects

variable {Clear H264 Frame Caps : Type} (d : Decoders Clear H264 Frame Caps)
  {c : GfxClient Clear H264 Caps}

/-- The outcome keeps the surfaces, the tiles and the acknowledgements of a client. -/
structure Aside (c : GfxClient Clear H264 Caps) (stores : Bool)
    (o : GfxClient.Outcome Clear H264 Frame Caps) : Prop where
  surfaces : o.1.state.surfaces = c.state.surfaces
  progressive : o.1.progressive = c.progressive
  acks : o.1.acks = c.acks
  calls : ∀ call ∈ o.2.1, call.isAside = true ∧ (call.isStore = true → stores = true)

theorem aside_singleton {stores : Bool} {call : SinkCall Frame} (hcall : call.isAside = true)
    (hstore : call.isStore = true → stores = true) : Aside c stores (c.done [call]) :=
  ⟨rfl, rfl, rfl, fun _ h => List.mem_singleton.mp h ▸ ⟨hcall, hstore⟩⟩

theorem aside_check {stores : Bool} {c' : GfxClient Clear H264 Caps} {α : Type} {x : Except GfxError α}
    {next : α → GfxClient.Outcome Clear H264 Frame Caps}
    (hsurfaces : c'.state.surfaces = c.state.surfaces) (hprogressive : c'.progressive = c.progressive)
    (hacks : c'.acks = c.acks) (hnext : ∀ a, x = .ok a → Aside c stores (next a)) :
    Aside c stores (c'.check x next) := by
  cases x with
  | ok a => exact hnext a rfl
  | error e => exact ⟨hsurfaces, hprogressive, hacks, nofun⟩

theorem aside_own {stores : Bool} {α : Type} {x : Except GfxError α}
    {next : α → GfxClient.Outcome Clear H264 Frame Caps}
    (hnext : ∀ a, x = .ok a → Aside c stores (next a)) : Aside c stores (c.check x next) :=
  aside_check rfl rfl rfl hnext

theorem aside_fail (c : GfxClient Clear H264 Caps) (stores : Bool) (e : GfxError) :
    Aside c stores (c.fail e : GfxClient.Outcome Clear H264 Frame Caps) :=
  ⟨rfl, rfl, rfl, nofun⟩

theorem aside_blit (stores : Bool) {id : UInt16} {bounds : Size} {tile : BgraTile} :
    ∀ call ∈ (GfxClient.blit id bounds tile : List (SinkCall Frame)),
      call.isAside = true ∧ (call.isStore = true → stores = true) := by
  intro call hcall
  obtain ⟨b, -, rfl⟩ := List.mem_map.mp hcall
  exact ⟨rfl, nofun⟩

theorem aside_ite {stores : Bool} {P : Prop} [Decidable P] {made : SinkCall Frame}
    (hmade : made.isAside = true) (hstore : made.isStore = false) :
    (∀ call ∈ (if P then [] else [made]), call.isAside = true ∧ (call.isStore = true → stores = true)) ∧
      ∀ call ∈ (if P then [made] else []),
        call.isAside = true ∧ (call.isStore = true → stores = true) := by
  have hcall : ∀ call ∈ [made], call.isAside = true ∧ (call.isStore = true → stores = true) := by
    intro call hcall
    rw [List.mem_singleton.mp hcall, hstore]
    exact ⟨hmade, nofun⟩
  by_cases hP : P
  · rw [if_pos hP, if_pos hP]
    exact ⟨nofun, hcall⟩
  · rw [if_neg hP, if_neg hP]
    exact ⟨hcall, nofun⟩

theorem aside_wireToSurface1 (c : GfxClient Clear H264 Caps) (w : WireToSurface1Pdu) :
    Aside c false (c.wireToSurface1 d w) := by
  refine aside_own fun surface _ => aside_own fun dest _ => ?_
  cases w.codecId with
  | avc420 =>
      refine aside_own fun stream _ => aside_own fun regions _ => ?_
      rcases d.decodeH264 c.h264 stream.2 with ⟨h264, decoded⟩
      refine aside_check rfl rfl rfl fun frame _ => ⟨rfl, rfl, rfl, ?_⟩
      cases frame with
      | none => exact nofun
      | some frame => exact (aside_ite rfl rfl).1
  | uncompressed =>
      exact aside_own fun _ _ => aside_own fun tile _ => ⟨rfl, rfl, rfl, aside_blit _⟩
  | planar => exact aside_own fun _ _ => aside_own fun tile _ => ⟨rfl, rfl, rfl, aside_blit _⟩
  | clearCodec =>
      refine aside_own fun _ _ => ?_
      rcases d.decodeClear c.clear dest w.bitmapData with ⟨clear, decoded⟩
      exact aside_check rfl rfl rfl fun tile _ => ⟨rfl, rfl, rfl, aside_blit _⟩
  | remoteFx => exact aside_fail c _ _
  | alpha => exact aside_fail c _ _
  | avc444 => exact aside_fail c _ _
  | avc444v2 => exact aside_fail c _ _

def GfxPdu.isStore : GfxPdu → Bool
  | .surfaceToCache _ => true
  | _ => false

theorem cacheStore_eq_ok {state state' : GfxState} {slot : UInt16} {size : Size}
    (h : state.cacheStore slot size = .ok state') :
    state' = { state with cache := state.cache.insert slot size } := by
  unfold GfxState.cacheStore at h
  cases hslot : GfxState.checkSlot slot with
  | error e =>
      rw [hslot] at h
      cases h
  | ok u =>
      rw [hslot] at h
      exact (Except.ok.inj h).symm

theorem surfaces_cacheEvict {state : GfxState} {slot : UInt16} {r : GfxState × Bool}
    (h : state.cacheEvict slot = .ok r) : r.1.surfaces = state.surfaces := by
  unfold GfxState.cacheEvict at h
  cases hslot : GfxState.checkSlot slot with
  | error e =>
      rw [hslot] at h
      cases h
  | ok u =>
      rw [hslot] at h
      obtain rfl := Except.ok.inj h
      rfl

/-- **Asides.** Whether it is accepted or not, a PDU without effect keeps the surfaces, the tiles and the
acknowledgements, and only a SurfaceToCache makes the call of that name. -/
theorem aside_handlePdu (c : GfxClient Clear H264 Caps) {p : GfxPdu} (hp : p.isAside = true) :
    Aside c p.isStore (c.handlePdu d p) := by
  cases p with
  | resetGraphics width height => cases hp
  | createSurface id width height format => cases hp
  | deleteSurface id => cases hp
  | startFrame => cases hp
  | endFrame frameId => cases hp
  | deleteEncodingContext id codecContextId => cases hp
  | wireToSurface2 w => cases hp
  | capabilitiesConfirm caps => exact aside_own fun _ _ => ⟨rfl, rfl, rfl, nofun⟩
  | mapSurfaceToOutput id x y => exact aside_own fun _ _ => aside_singleton rfl nofun
  | mapSurfaceToScaledOutput id x y => exact aside_own fun _ _ => aside_singleton rfl nofun
  | solidFill f =>
      exact aside_own fun _ _ => aside_own fun rects _ => ⟨rfl, rfl, rfl, (aside_ite rfl rfl).1⟩
  | surfaceToSurface s =>
      refine aside_own fun _ _ => aside_own fun _ _ => aside_own fun _ _ => ?_
      exact aside_own fun _ _ => aside_own fun _ _ => aside_singleton rfl nofun
  | surfaceToCache s =>
      refine aside_own fun _ _ => aside_own fun _ _ => aside_own fun _ _ => ?_
      refine aside_own fun state hstore => ?_
      obtain rfl := cacheStore_eq_ok hstore
      refine ⟨rfl, rfl, rfl, fun call hcall => ?_⟩
      rw [List.mem_singleton.mp hcall]
      exact ⟨rfl, fun _ => rfl⟩
  | cacheToSurface p =>
      exact aside_own fun _ _ => aside_own fun _ _ => aside_own fun _ _ => aside_singleton rfl nofun
  | evictCacheEntry slot =>
      exact aside_own fun r hevict => ⟨surfaces_cacheEvict hevict, rfl, rfl,
        (aside_ite rfl rfl).2⟩
  | wireToSurface1 w => exact aside_wireToSurface1 d c w
  | mapSurfaceToWindow => exact ⟨rfl, rfl, rfl, nofun⟩
  | mapSurfaceToScaledWindow => exact ⟨rfl, rfl, rfl, nofun⟩
  | cacheImportReply => exact ⟨rfl, rfl, rfl, nofun⟩
  | capabilitiesAdvertise => exact aside_fail c _ _
  | frameAcknowledge => exact aside_fail c _ _
  | qoeFrameAcknowledge => exact aside_fail c _ _
  | cacheImportOffer => exact aside_fail c _ _

end Effects

end Drift.Gfx
