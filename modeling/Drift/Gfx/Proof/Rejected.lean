import Drift.Gfx.Client

/-!
# Rejected PDUs

A PDU that fails has made no call on the sink by then, and has changed neither the acknowledgements nor
the tables of the surfaces and of the cache. Every handler checks all it needs before its first effect, and
what fails after a codec ran has only changed the state of the codec (`spares_check`).
-/

namespace Drift.Gfx

/-- What a rejected PDU leaves: no call was made, and the tables and acknowledgements are those of `c`. -/
structure Unharmed {Clear H264 Frame Caps : Type} (c c' : GfxClient Clear H264 Caps)
    (calls : List (SinkCall Frame)) : Prop where
  calls : calls = []
  acks : c'.acks = c.acks
  surfaces : c'.state.surfaces = c.state.surfaces
  cache : c'.state.cache = c.state.cache

section Spares

variable {Clear H264 Frame Caps : Type} {c : GfxClient Clear H264 Caps}

/-- The outcome does no harm to a client unless it succeeds. -/
def Spares (c : GfxClient Clear H264 Caps) (o : GfxClient.Outcome Clear H264 Frame Caps) : Prop :=
  ∀ e, o.2.2 = .error e → Unharmed c o.1 o.2.1

theorem spares_done (c c' : GfxClient Clear H264 Caps) (calls : List (SinkCall Frame)) :
    Spares c (c'.done calls) := nofun

/-- A failure after a codec ran: only the tables and the acknowledgements have to be as before. -/
theorem spares_fail {c' : GfxClient Clear H264 Caps} (hacks : c'.acks = c.acks)
    (hstate : c'.state = c.state) (e : GfxError) :
    Spares c (c'.fail e : GfxClient.Outcome Clear H264 Frame Caps) :=
  fun _ _ => ⟨rfl, hacks, congrArg GfxState.surfaces hstate, congrArg GfxState.cache hstate⟩

theorem spares_check {c' : GfxClient Clear H264 Caps} {α : Type} {x : Except GfxError α}
    {next : α → GfxClient.Outcome Clear H264 Frame Caps} (hacks : c'.acks = c.acks)
    (hstate : c'.state = c.state) (hnext : ∀ a, x = .ok a → Spares c (next a)) :
    Spares c (c'.check x next) := by
  cases x with
  | ok a => exact hnext a rfl
  | error e => exact spares_fail hacks hstate e

theorem spares_own {α : Type} {x : Except GfxError α}
    {next : α → GfxClient.Outcome Clear H264 Frame Caps}
    (hnext : ∀ a, x = .ok a → Spares c (next a)) : Spares c (c.check x next) := by
  apply spares_check rfl rfl
  exact hnext

variable (d : Decoders Clear H264 Frame Caps)

theorem spares_avc420 (c : GfxClient Clear H264 Caps) (id : UInt16) (bounds : Size) (data : Bytes) :
    Spares c (c.avc420 d id bounds data) := by
  apply spares_own
  intro stream _
  apply spares_own
  intro regions _
  obtain ⟨h264, decoded⟩ := d.decodeH264 c.h264 stream.2
  refine spares_check rfl rfl fun frame _ => ?_
  exact spares_done c _ _

theorem spares_wireToSurface1 (c : GfxClient Clear H264 Caps) (w : WireToSurface1Pdu) :
    Spares c (c.wireToSurface1 d w) := by
  apply spares_own
  intro surface _
  apply spares_own
  intro dest _
  cases w.codecId with
  | avc420 => exact spares_avc420 d c w.surfaceId surface.size w.bitmapData
  | uncompressed => exact spares_own fun _ _ => spares_own fun tile _ => spares_done c _ _
  | planar => exact spares_own fun _ _ => spares_own fun tile _ => spares_done c _ _
  | clearCodec =>
      apply spares_own
      intro _ _
      obtain ⟨clear, decoded⟩ := d.decodeClear c.clear dest w.bitmapData
      refine spares_check rfl rfl fun tile _ => ?_
      exact spares_done c _ _
  | remoteFx => exact spares_fail rfl rfl _
  | alpha => exact spares_fail rfl rfl _
  | avc444 => exact spares_fail rfl rfl _
  | avc444v2 => exact spares_fail rfl rfl _

theorem spares_wireToSurface2 (c : GfxClient Clear H264 Caps) (w : WireToSurface2Pdu) :
    Spares c (c.wireToSurface2 d w) := by
  apply spares_own
  intro surface _
  obtain ⟨progressive, decoded⟩ := c.progressive.decode d.progressive w.surfaceId w.codecContextId
    surface.size w.bitmapData
  refine spares_check rfl rfl fun tiles _ => ?_
  exact spares_done c _ _

theorem spares_deleteSurface (c : GfxClient Clear H264 Caps) (id : UInt16) :
    Spares c (c.handlePdu d (.deleteSurface id)) := by
  rw [GfxClient.handlePdu]
  cases hdelete : c.state.delete id with
  | mk state existed =>
      cases existed with
      | true => exact spares_done c _ _
      | false => exact spares_done c _ _

theorem spares_handlePdu (c : GfxClient Clear H264 Caps) (pdu : GfxPdu) :
    Spares c (c.handlePdu d pdu) := by
  cases pdu with
  | capabilitiesConfirm caps => exact spares_own fun _ _ => spares_done c _ _
  | resetGraphics width height => exact spares_done c _ _
  | createSurface id width height format => exact spares_own fun _ _ => spares_done c _ _
  | deleteSurface id => exact spares_deleteSurface d c id
  | mapSurfaceToOutput id x y => exact spares_own fun _ _ => spares_done c _ _
  | mapSurfaceToScaledOutput id x y => exact spares_own fun _ _ => spares_done c _ _
  | mapSurfaceToWindow => exact spares_done c _ _
  | mapSurfaceToScaledWindow => exact spares_done c _ _
  | startFrame => exact spares_done c _ _
  | endFrame frameId => exact spares_done c _ _
  | solidFill f => exact spares_own fun _ _ => spares_own fun _ _ => spares_done c _ _
  | surfaceToSurface s =>
      apply spares_own
      intro src _
      apply spares_own
      intro dst _
      apply spares_own
      intro r _
      exact spares_own fun _ _ => spares_own fun dests _ => spares_done c _ _
  | surfaceToCache s =>
      apply spares_own
      intro surface _
      apply spares_own
      intro r _
      exact spares_own fun _ _ => spares_own fun state _ => spares_done c _ _
  | cacheToSurface p =>
      apply spares_own
      intro size _
      exact spares_own fun _ _ => spares_own fun dests _ => spares_done c _ _
  | evictCacheEntry slot => exact spares_own fun _ _ => spares_done c _ _
  | cacheImportReply => exact spares_done c _ _
  | deleteEncodingContext id codecContextId => exact spares_done c _ _
  | wireToSurface1 w => exact spares_wireToSurface1 d c w
  | wireToSurface2 w => exact spares_wireToSurface2 d c w
  | capabilitiesAdvertise => exact spares_fail rfl rfl _
  | frameAcknowledge => exact spares_fail rfl rfl _
  | qoeFrameAcknowledge => exact spares_fail rfl rfl _
  | cacheImportOffer => exact spares_fail rfl rfl _

/-- **Rejected PDUs.** At any client, a PDU on which `handle_pdu` returns an error has made no call on the
sink, and has left the acknowledgements, the surfaces and the cache slots as they were. -/
theorem unharmed_of_error (c : GfxClient Clear H264 Caps) (pdu : GfxPdu) (e : GfxError)
    (herror : (c.handlePdu d pdu).2.2 = .error e) :
    Unharmed c (c.handlePdu d pdu).1 (c.handlePdu d pdu).2.1 := spares_handlePdu d c pdu e herror

end Spares

/-- Decoders that refuse the only tile of every progressive stream. -/
def tileRefused : Decoders Unit Unit Unit Unit :=
  .refusing (.ok [.context true, .frameBegin,
    .region ⟨[], [.lossless], [], [.simple ⟨⟨0, 0, 0⟩, 0, 0, 0, ⟨[], [], []⟩⟩]⟩])

/-- A surface, a filled slot and a frame that is yet to be presented. -/
def drawnFrame : List GfxPdu :=
  [.createSurface 7 64 64 .xRgb, .surfaceToCache ⟨7, 3, ⟨0, 0, 8, 8⟩⟩, .startFrame, .endFrame 1]

/-- The second rectangle of a fill is inverted, and the tile of a payload fails when its codec runs. -/
theorem unharmed_drawnFrame :
    let c := drawnFrame.foldl (GfxClient.next tileRefused) (.new tileRefused ())
    let filled := c.handlePdu tileRefused (.solidFill ⟨7, ⟨0, 0, 0, 0⟩, [⟨0, 0, 4, 4⟩, ⟨8, 0, 4, 4⟩]⟩)
    let drawn := c.handlePdu tileRefused (.wireToSurface2 ⟨7, 0, []⟩)
    (c.state.surfaces.keys = [7] ∧ c.state.cache.keys = [3] ∧ c.acks.inFlight = 1) ∧
      Unharmed c filled.1 filled.2.1 ∧
      drawn.1.progressive.contexts.keys = [(7, 0)] ∧ Unharmed c drawn.1 drawn.2.1 := by
  intro c filled drawn
  refine ⟨⟨rfl, rfl, rfl⟩, ?_, rfl, ?_⟩
  · exact unharmed_of_error _ _ _ _ rfl
  · exact unharmed_of_error _ _ _ (.codec (.malformed .progressive "progressive RLGR decode: refused")) rfl

end Drift.Gfx
