import Drift.Codec.Proof.Agreement
import Drift.Gfx.Client

/-!
# Every progressive tile is drawn

The update rectangles of a tile are cut out of the tile and the surface at once, and its pixels are always
complete. So the checks between the decoder and the sink, which drop a stray rectangle, never do.
-/

namespace Drift.Codec

open Std

def tileBytes : Nat := tileSize * tileSize * bpp

/-- `inner` lies in `outer`, no edge being cut off at the largest number. -/
structure Within (inner outer : Rect) : Prop where
  left : outer.x ≤ inner.x
  top : outer.y ≤ inner.y
  right : inner.x + inner.width ≤ outer.x + outer.width
  bottom : inner.y + inner.height ≤ outer.y + outer.height

/-- An update rectangle that has something to draw, inside its tile and the surface. -/
structure Drawable (surface : Size) (tile : BgraTile) (rect : Rect) : Prop where
  not_empty : 0 < rect.width ∧ 0 < rect.height
  within : Within rect tile.footprint
  inside : rect.Inside surface

/-- A tile of which every part is drawn. -/
structure FullyDrawn (surface : Size) (tile : BgraTile) : Prop where
  size : tile.size = ⟨tileSize, tileSize⟩
  bytes : tile.data.length = tileBytes
  rects : ∀ rect ∈ tile.updateRects, Drawable surface tile rect

/-! ### Pixels -/

theorem length_swizzle (bytes : Bytes) : (swizzle bytes).length = bytes.length := by
  fun_induction swizzle bytes with
  | case1 r g b a rest ih => simp only [List.length_cons, ih]
  | case2 => rfl

section Pixels

variable (tr : Transforms)

theorem length_renderBgra (state : TileState) : (renderBgra tr state).length = tileBytes := by
  unfold renderBgra
  rw [length_swizzle, Vector.length_toList]
  rfl

/-- The tiles decoded so far have all their pixels. -/
def Complete (decoded : Decoded) : Prop :=
  ∀ (key : TileKey) px, decoded[key]? = some px → px.length = tileBytes

theorem complete_empty : Complete (∅ : Decoded) := by
  intro key px h
  rw [ExtTreeMap.getElem?_empty] at h
  exact nomatch h

theorem Complete.insert {decoded : Decoded} (h : Complete decoded) (key : TileKey) {px : Bytes}
    (hpx : px.length = tileBytes) : Complete (decoded.insert key px) := by
  intro key' px' hget
  rw [ExtTreeMap.getElem?_insert] at hget
  split at hget
  · rw [← Option.some.inj hget]
    exact hpx
  · exact h key' px' hget

theorem Complete.erase {decoded : Decoded} (h : Complete decoded) (key : TileKey) :
    Complete (decoded.erase key) := by
  intro key' px hget
  rw [ExtTreeMap.getElem?_erase] at hget
  split at hget
  · exact nomatch hget
  · exact h key' px hget

theorem length_of_runJob {job job' : Job} {useReduceExtrapolate : Bool} {key : TileKey} {px : Bytes}
    (h : runJob tr job useReduceExtrapolate = (job', .ok (key, px))) : px.length = tileBytes := by
  unfold runJob at h
  split at h
  · cases h
  · cases h
    exact length_renderBgra tr _

theorem Complete.collectResults {decoded : Decoded} (h : Complete decoded)
    {results : List (Except CodecError (TileKey × Bytes))}
    (hresults : ∀ key px, .ok (key, px) ∈ results → px.length = tileBytes) {decoded' : Decoded}
    (hcollect : Codec.collectResults decoded results = .ok decoded') : Complete decoded' := by
  induction results generalizing decoded with
  | nil => cases hcollect; exact h
  | cons result results ih =>
      cases result with
      | error e => exact nomatch hcollect
      | ok done =>
          refine ih (h.insert done.1 (hresults _ _ List.mem_cons_self)) ?_ hcollect
          exact fun key px hmem => hresults key px (List.mem_cons_of_mem _ hmem)

theorem Complete.decodeRound {ctx : RegionCtx} {s : TileStore} {decoded decoded' : Decoded}
    (h : Complete decoded) {round : List ProgressiveTile}
    (hround : (Codec.decodeRound tr ctx s decoded round).2 = .ok decoded') : Complete decoded' := by
  unfold Codec.decodeRound at hround
  split at hround
  · exact nomatch hround
  · refine h.collectResults ?_ hround
    intro key px hmem
    obtain ⟨run, hrun, heq⟩ := List.mem_map.mp hmem
    obtain ⟨job, -, rfl⟩ := List.mem_map.mp hrun
    exact length_of_runJob tr (Prod.ext rfl heq)

theorem Complete.decodeRounds {ctx : RegionCtx} {s : TileStore} {decoded decoded' : Decoded}
    (h : Complete decoded) {rounds : List (List ProgressiveTile)}
    (hrounds : (Codec.decodeRounds tr ctx s decoded rounds).2 = .ok decoded') : Complete decoded' := by
  induction rounds generalizing s decoded with
  | nil => cases hrounds; exact h
  | cons round rounds ih =>
      unfold Codec.decodeRounds at hrounds
      split at hrounds
      · exact nomatch hrounds
      · next heq => exact ih (h.decodeRound tr (congrArg Prod.snd heq)) hrounds

end Pixels

/-! ### Rectangles -/

/-- A stretch inside one of 64 that starts at `x` and ends with the `u16` numbers and the surface, when it is
not empty: then the start did not saturate. -/
theorem edge_bounds {x m extent low high : Nat}
    (hopen : min x m < min (min (min x m + 64) m) extent) (hlow : min x m ≤ low)
    (hhigh : high ≤ min (min (min x m + 64) m) extent - 1) :
    x ≤ low ∧ high < x + 64 ∧ high < extent := by
  omega

theorem fits_of_edges {low high bound : Nat} (hle : low ≤ high) (h : high < bound) :
    low + (high + 1 - low) ≤ bound := by
  omega

/-- The visible parts of a tile are drawable, its position being within the 16 bits then. -/
theorem drawable_of_mem_visibleRects {clipping : Region} {key : TileKey} {surface : Size} {rect : Rect}
    (h : rect ∈ visibleRects clipping key surface.width surface.height) {tile : BgraTile}
    (horigin : tile.origin = ⟨key.1.toNat * tileSize, key.2.toNat * tileSize⟩)
    (hsize : tile.size = ⟨tileSize, tileSize⟩) : Drawable surface tile rect := by
  unfold visibleRects at h
  simp only at h
  split at h
  · exact absurd h List.not_mem_nil
  · next hvisible =>
      obtain ⟨r, hr, rfl⟩ := List.mem_map.mp h
      obtain ⟨hl, ht, hlr, htb, hright, hbottom⟩ := within_intersectRectangle _ _ r hr
      rw [not_or, Nat.not_le, Nat.not_le] at hvisible
      obtain ⟨hwide, hhigh⟩ := hvisible
      obtain ⟨hx, hwidth, hx'⟩ := edge_bounds hwide hl hright
      obtain ⟨hy, hheight, hy'⟩ := edge_bounds hhigh ht hbottom
      constructor
      case not_empty =>
        show 0 < r.right + 1 - r.left ∧ 0 < r.bottom + 1 - r.top
        omega
      case within =>
        rw [BgraTile.footprint, horigin, hsize]
        constructor
        · exact hx
        · exact hy
        · show r.left + (r.right + 1 - r.left) ≤ key.1.toNat * tileSize + 64
          exact fits_of_edges hlr hwidth
        · show r.top + (r.bottom + 1 - r.top) ≤ key.2.toNat * tileSize + 64
          exact fits_of_edges htb hheight
      case inside =>
        unfold Rect.Inside
        constructor
        · exact fits_of_edges hlr hx'
        · exact fits_of_edges htb hy'

theorem fullyDrawn_of_visible (clipping : Region) (key : TileKey) {surface : Size} {tile : BgraTile}
    (horigin : tile.origin = ⟨key.1.toNat * tileSize, key.2.toNat * tileSize⟩)
    (hsize : tile.size = ⟨tileSize, tileSize⟩) (hdata : tile.data.length = tileBytes)
    (hrects : tile.updateRects = visibleRects clipping key surface.width surface.height) :
    FullyDrawn surface tile := by
  refine ⟨hsize, hdata, fun rect hrect => ?_⟩
  rw [hrects] at hrect
  exact drawable_of_mem_visibleRects hrect horigin hsize

/-! ### Payloads -/

section Payloads

variable (tr : Transforms) (surface : Size)

/-- What is shown so far will be drawn once the pending tiles are filled in. -/
structure ShownWell (grid : SurfaceTiles) (st : Showing) : Prop where
  decoded : Complete st.regionTiles
  pending_lt : ∀ p ∈ st.pending, p.1 < st.out.length
  drawn : ∀ tile ∈ fillPending tr grid st.pending st.out, FullyDrawn surface tile

variable {tr surface}

theorem ShownWell.showTiles {grid : SurfaceTiles} {clipping : Region} {st st' : Showing}
    (h : ShownWell tr surface grid st) {keys : List TileKey}
    (hshow : Codec.showTiles grid clipping surface.width surface.height st keys = .ok st') :
    ShownWell tr surface grid st' := by
  induction keys generalizing st with
  | nil => cases hshow; exact h
  | cons key keys ih =>
      unfold Codec.showTiles at hshow
      cases hwork : charge st.work (max clipping.rectangles.length 1) with
      | error e => simp only [hwork, bind, Except.bind] at hshow; cases hshow
      | ok work =>
          simp only [hwork, bind, Except.bind] at hshow
          have hcharged : ShownWell tr surface grid { st with work := work } :=
            ⟨h.decoded, h.pending_lt, h.drawn⟩
          split at hshow
          · exact ih hcharged hshow
          · have hdraws : ∀ data : Bytes, data.length = tileBytes →
                FullyDrawn surface
                  { origin := ⟨key.1.toNat * tileSize, key.2.toNat * tileSize⟩
                    size := ⟨tileSize, tileSize⟩
                    data := data
                    updateRects := visibleRects clipping key surface.width surface.height } := by
              intro data hdata
              refine fullyDrawn_of_visible clipping key rfl rfl hdata ?_
              dsimp only
            have hmore : ∀ p ∈ st.pending, p.1 < st.out.length + 1 :=
              fun p hp => Nat.lt_succ_of_lt (h.pending_lt p hp)
            split at hshow
            · next px hpx =>
                refine ih ⟨h.decoded.erase key, ?_, ?_⟩ hshow
                · rw [List.length_append]
                  exact hmore
                · intro tile htile
                  rw [fillPending_append tr grid h.pending_lt] at htile
                  rcases List.mem_append.mp htile with htile | htile
                  · exact h.drawn tile htile
                  · rw [List.mem_singleton.mp htile]
                    exact hdraws px (h.decoded key px hpx)
            · split at hshow
              · next hretained =>
                  refine ih ?_ hshow
                  refine ⟨h.decoded, ?_, ?_⟩
                  · intro p hp
                    rw [List.length_append]
                    rcases List.mem_append.mp hp with hp | hp
                    · exact hmore p hp
                    · rw [List.mem_singleton.mp hp]
                      exact Nat.lt_succ_self _
                  · intro tile htile
                    obtain ⟨state, hstate⟩ := Option.isSome_iff_exists.mp hretained
                    rw [fillPending_concat tr grid h.pending_lt] at htile
                    rcases List.mem_append.mp htile with htile | htile
                    · exact h.drawn tile htile
                    · rw [List.mem_singleton.mp htile, hstate, Option.map_some, Option.getD_some]
                      dsimp only
                      exact hdraws _ (length_renderBgra tr state)
              · exact ih hcharged hshow

variable (tr)

theorem drawn_decodeRegion {surfaceId : UInt16} {flag : Bool} {st st' : PayloadState}
    (h : ∀ tile ∈ st.out, FullyDrawn surface tile) {region : ProgressiveRegion}
    (hregion : decodeRegion tr surfaceId surface.width surface.height flag st region = (st', .ok ())) :
    ∀ tile ∈ st'.out, FullyDrawn surface tile := by
  unfold decodeRegion at hregion
  split at hregion
  · cases hregion
  · next store regionTiles htiles =>
      simp only at hregion
      split at hregion
      · cases hregion
      · next shown hshown =>
          cases hregion
          obtain ⟨clipping, hshow⟩ : ∃ clipping : Region × Nat, Codec.showTiles store.grid clipping.1
              surface.width surface.height ⟨regionTiles, st.out, [], clipping.2⟩
                (st.frameTiles.insertMany regionTiles.keys).toList = .ok shown := by
            cases hclipping : clippingRegion surface.width surface.height .new st.work region.rects with
            | error e => simp only [hclipping, bind, Except.bind] at hshown; exact nomatch hshown
            | ok clipping => exact ⟨clipping, by simpa only [hclipping, bind, Except.bind] using hshown⟩
          have hstart : ShownWell tr surface store.grid ⟨regionTiles, st.out, [], clipping.2⟩ :=
            ⟨complete_empty.decodeRounds tr (congrArg Prod.snd htiles), nofun, h⟩
          exact (hstart.showTiles hshow).drawn

theorem drawn_decodeBlocks {surfaceId : UInt16} {flag : Bool} {st st' : PayloadState}
    (h : ∀ tile ∈ st.out, FullyDrawn surface tile) {blocks : List ProgressiveBlock}
    (hblocks : decodeBlocks tr surfaceId surface.width surface.height flag st blocks = (st', .ok ())) :
    ∀ tile ∈ st'.out, FullyDrawn surface tile := by
  induction blocks generalizing st with
  | nil => cases hblocks; exact h
  | cons block blocks ih =>
      have hmarked : (if st.frameEnded then st else { st with inFrame := true }).out = st.out := by
        split <;> rfl
      unfold decodeBlocks at hblocks
      cases block with
      | region region =>
          dsimp only at hblocks
          by_cases hframe : st.inFrame = true
          · rw [if_pos hframe] at hblocks
            split at hblocks
            · cases hblocks
            · next heq => exact ih (drawn_decodeRegion tr h heq) hblocks
          · rw [if_neg hframe] at hblocks
            exact ih h hblocks
      | frameBegin =>
          dsimp only at hblocks
          refine ih ?_ hblocks
          rw [hmarked]
          exact h
      | frameEnd =>
          dsimp only at hblocks
          refine ih ?_ hblocks
          exact h
      | sync =>
          dsimp only at hblocks
          exact ih h hblocks
      | context flag =>
          dsimp only at hblocks
          exact ih h hblocks

theorem drawn_decode {codec codec' : ProgressiveCodec} {surfaceId : UInt16} {contextId : UInt32}
    {data : Bytes} {tiles : List BgraTile}
    (h : codec.decode tr surfaceId contextId surface data = (codec', .ok tiles)) :
    ∀ tile ∈ tiles, FullyDrawn surface tile := by
  unfold ProgressiveCodec.decode at h
  split at h
  · cases h
  · split at h
    · cases h
    · next blocks _ =>
        simp only at h
        split at h
        · cases h
        · split at h
          · cases h
          · next codec'' out hpayload =>
              cases h
              unfold ProgressiveCodec.decodePayload at hpayload
              split at hpayload
              · cases hpayload
              · simp only at hpayload
                obtain ⟨hstate, hresult⟩ := Prod.mk.inj hpayload
                cases hdone : (decodeBlocks tr surfaceId surface.width surface.height _ _ blocks).2 with
                | error e => rw [hdone] at hresult; exact nomatch hresult
                | ok u =>
                    rw [hdone] at hresult
                    obtain rfl := Except.ok.inj hresult
                    exact drawn_decodeBlocks tr (fun tile htile => absurd htile List.not_mem_nil)
                      (Prod.ext rfl hdone)

/-! ### Blits -/

theorem Within.contains {inner outer : Rect} (h : Within inner outer) :
    Codec.contains outer inner = true := by
  rw [Codec.contains, decide_eq_true_eq]
  refine ⟨h.left, h.top, ?_, ?_⟩
  · exact Nat.le_min.mpr ⟨(Nat.min_le_left _ _).trans h.right, Nat.min_le_right _ _⟩
  · exact Nat.le_min.mpr ⟨(Nat.min_le_left _ _).trans h.bottom, Nat.min_le_right _ _⟩

/-- A write that starts in row `y` and column `x` of a tile and leaves neither has its data. -/
theorem start_add_needed {x y width height stride bpp rows : Nat} (hheight : 0 < height)
    (hwidth : (x + width) * bpp ≤ stride) (hrows : y + height ≤ rows) :
    y * stride + x * bpp + ((height - 1) * stride + width * bpp) ≤ rows * stride := by
  calc
    y * stride + x * bpp + ((height - 1) * stride + width * bpp)
    _ = (y + (height - 1)) * stride + (x + width) * bpp := by
      rw [Nat.add_mul, Nat.add_mul]
      omega
    _ ≤ (y + (height - 1)) * stride + stride := Nat.add_le_add_left hwidth _
    _ = (y + height) * stride := by
      rw [← Nat.succ_mul]
      congr 1
      omega
    _ ≤ rows * stride := Nat.mul_le_mul_right stride hrows

theorem FullyDrawn.blit?_eq {tile : BgraTile} (h : FullyDrawn surface tile) {rect : Rect}
    (hrect : rect ∈ tile.updateRects) : ∃ b, tile.blit? rect = some b ∧ b.rect = rect := by
  obtain ⟨⟨hwidth, hheight⟩, hwithin, -⟩ := h.rects rect hrect
  have hempty : rect.isEmpty = false := by
    simp only [Rect.isEmpty, decide_eq_false_iff_not]
    omega
  have hright : rect.x + rect.width ≤ tile.origin.x + tileSize := by
    simpa [BgraTile.footprint, h.size] using hwithin.right
  have hbottom : rect.y + rect.height ≤ tile.origin.y + tileSize := by
    simpa [BgraTile.footprint, h.size] using hwithin.bottom
  have hleft : tile.origin.x ≤ rect.x := hwithin.left
  have htop : tile.origin.y ≤ rect.y := hwithin.top
  have hstride : tile.stride = tileSize * bpp := by rw [BgraTile.stride, h.size]
  have hcolumns : (rect.x - tile.origin.x + rect.width) * bpp ≤ tile.stride := by
    rw [hstride]
    exact Nat.mul_le_mul_right bpp (by omega)
  have hrows : rect.y - tile.origin.y + rect.height ≤ tileSize := by omega
  have hfits := start_add_needed hheight hcolumns hrows
  have hlength : tile.data.length = tileSize * tile.stride := by
    rw [h.bytes, hstride, tileBytes, Nat.mul_assoc]
  unfold BgraTile.blit?
  rw [hempty, hwithin.contains]
  simp only [Bool.not_true, Bool.or_self, Bool.false_eq_true, if_false]
  rw [if_neg (by omega), if_pos]
  · exact ⟨_, rfl, rfl⟩
  · rw [List.length_drop, neededBytes, hlength]
    omega

theorem map_rect_filterMap {tile : BgraTile} {rects : List Rect}
    (h : ∀ rect ∈ rects, ∃ b, tile.blit? rect = some b ∧ b.rect = rect) :
    (rects.filterMap tile.blit?).map Blit.rect = rects := by
  induction rects with
  | nil => rfl
  | cons rect rects ih =>
      obtain ⟨b, hb, hrect⟩ := h rect List.mem_cons_self
      rw [List.filterMap_cons, hb, List.map_cons, hrect,
        ih fun r hr => h r (List.mem_cons_of_mem _ hr)]

theorem FullyDrawn.blits_eq {tile : BgraTile} (h : FullyDrawn surface tile) :
    tile.blits.map Blit.rect = tile.updateRects :=
  map_rect_filterMap fun _ hrect => h.blit?_eq hrect

end Payloads

end Drift.Codec

namespace Drift.Gfx

open Drift.Codec

/-- A rectangle inside a surface passes the check in front of the sink. -/
theorem fitsWithin_of_inside {rect : Rect} {bounds : Size} (h : rect.Inside bounds) :
    rect.fitsWithin bounds = true := by
  rw [Rect.fitsWithin, decide_eq_true_eq]
  exact ⟨(Nat.min_le_left _ _).trans h.1, (Nat.min_le_left _ _).trans h.2⟩

theorem blit_eq_of_fullyDrawn {Frame : Type} {surface : Size} {tile : BgraTile}
    (h : FullyDrawn surface tile) (id : UInt16) :
    GfxClient.blit id surface tile =
      tile.blits.map fun b => (.blitBgra id b.rect b.stride b.data : SinkCall Frame) := by
  unfold GfxClient.blit
  rw [List.filter_eq_self.mpr]
  intro b hb
  have hrect : b.rect ∈ tile.updateRects := by
    rw [← h.blits_eq]
    exact List.mem_map_of_mem hb
  exact fitsWithin_of_inside (h.rects b.rect hrect).inside

/-- When a payload is decoded, every update rectangle of every tile is not empty and inside the tile and the
surface, every tile has all its pixels, and the sink is called for each of the rectangles in turn. -/
theorem tiles_drawn {Frame : Type} {tr : Transforms} {codec : ProgressiveCodec} {surfaceId : UInt16}
    {contextId : UInt32} {surface : Size} {data : Bytes} {tiles : List BgraTile}
    (h : (codec.decode tr surfaceId contextId surface data).2 = .ok tiles) :
    ∀ tile ∈ tiles,
      FullyDrawn surface tile ∧
      tile.blits.map Blit.rect = tile.updateRects ∧
      GfxClient.blit surfaceId surface tile =
        tile.blits.map fun b => (.blitBgra surfaceId b.rect b.stride b.data : SinkCall Frame) := by
  intro tile htile
  have hdrawn := drawn_decode tr (Prod.ext rfl h) tile htile
  exact ⟨hdrawn, hdrawn.blits_eq, blit_eq_of_fullyDrawn hdrawn surfaceId⟩

/-- A stream of one tile in the bottom right corner of a surface, of which a part is shown. -/
def cornerTile : Transforms where
  decodeProgressiveStream := fun _ =>
    .ok [.context false, .frameBegin,
      .region
        { rects := [⟨90, 70, 20, 20⟩]
          quantVals := [.uniform 6]
          quantProgVals := []
          tiles := [.simple ⟨.replicate 0, 1, 1, 0, .replicate []⟩] }]
  decodeFirstPassToDwtq := fun _ _ _ => .ok (Vector.replicate 4096 0, Vector.replicate 4096 0)
  decodeUpgradePass := fun _ _ _ _ _ _ _ => .error "srl"
  reconstructToRgba := fun _ => Vector.replicate 16384 0

theorem tiles_drawn_cornerTile :
    ∃ tile, (ProgressiveCodec.new.decode cornerTile 1 0 ⟨100, 80⟩ []).2 = .ok [tile] ∧
      tile.updateRects = [⟨90, 70, 10, 10⟩] ∧
      FullyDrawn ⟨100, 80⟩ tile ∧
      tile.blits.map Blit.rect = tile.updateRects ∧
      GfxClient.blit 1 ⟨100, 80⟩ tile =
        tile.blits.map fun b => (.blitBgra 1 b.rect b.stride b.data : SinkCall Unit) := by
  have hshown : (ProgressiveCodec.new.decode cornerTile 1 0 ⟨100, 80⟩ []).2.map
      (List.map BgraTile.updateRects) = .ok [[⟨90, 70, 10, 10⟩]] := rfl
  cases hdecode : (ProgressiveCodec.new.decode cornerTile 1 0 ⟨100, 80⟩ []).2 with
  | error e => rw [hdecode] at hshown; exact nomatch hshown
  | ok tiles =>
      rw [hdecode] at hshown
      obtain ⟨tile, rfl, hrects⟩ := List.map_eq_singleton_iff.mp (Except.ok.inj hshown)
      exact ⟨tile, rfl, hrects, tiles_drawn hdecode tile List.mem_cons_self⟩

end Drift.Gfx
