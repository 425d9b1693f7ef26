import Drift.Codec.Proof.Sequential

/-!
# Payloads agree

The states of the two decoders are kept in step through the tiles of a REGION
(`rel_decodeRegionTiles`), the clipping of the frame (`rel_showTiles`) and the blocks of a payload
(`rel_decodeBlocks`).
-/

namespace Drift.Codec

open Std Keyed Lockstep

/-! ### Tiles of a REGION -/

/-- The states of the two decoders while a REGION is decoded; `frame` holds the tiles of the frame
before it. -/
structure SameTiles (frame : TileSet) (shape : Nat × Nat) (sd : TileStore × Decoded)
    (st : RegionState) : Prop where
  store : sd.1 = st.store
  shape_eq : (sd.1.grid.tilesWide, sd.1.grid.tilesHigh) = shape
  mem_frameTiles : ∀ k : TileKey, k ∈ st.frameTiles ↔ k ∈ frame ∨ k ∈ sd.2
  decoded : ∀ k : TileKey, sd.2[k]? = (st.regionTiles[k]?).map fun tile => swizzle tile.pixels
  keys : ∀ (k : TileKey) (tile : DecodedTile), st.regionTiles[k]? = some tile →
    (tile.xIdx, tile.yIdx) = k

section Tiles

variable (tr : Transforms) (ctx : RegionCtx) {frame : TileSet} {shape : Nat × Nat}

theorem SameTiles.add {sd : TileStore × Decoded} {st : RegionState}
    (h : SameTiles frame shape sd st) (key : TileKey) (px : Bytes) :
    SameTiles frame shape (sd.1, sd.2.insert key (swizzle px))
      (st.add { xIdx := key.1, yIdx := key.2, pixels := px, updateRectangles := [] }) where
  store := h.store
  shape_eq := h.shape_eq
  mem_frameTiles := by
    intro k
    simp only [RegionState.add, ExtTreeSet.mem_insert, ExtTreeMap.mem_insert, h.mem_frameTiles k]
    exact or_left_comm
  decoded := by
    intro k
    simp only [RegionState.add, ExtTreeMap.getElem?_insert]
    split
    · rfl
    · exact h.decoded k
  keys := by
    intro k tile hk
    simp only [RegionState.add, ExtTreeMap.getElem?_insert] at hk
    split at hk
    · next heq =>
      obtain rfl := Option.some.inj hk
      exact LawfulEqCmp.eq_of_compare heq
    · exact h.keys k tile hk

theorem rel_decode {sd : TileStore × Decoded} {st : RegionState}
    (h : SameTiles frame shape sd st) (tile : ProgressiveTile) :
    Option.Rel (SameTiles frame shape)
      (step (tileStore ctx.surfaceId) (tileWork tr ctx) decodedOutput ProgressiveTile.key sd tile)
      (RegionState.decode tr ctx.surfaceId ctx.region ctx.useReduceExtrapolate st
        tile).toOption := by
  unfold RegionState.decode
  simp only [toOption_bind, toOption_pure, toOption_decodeTileBlock, ← h.store]
  unfold step
  by_cases hvalid : sd.1.grid.InBounds tile.key
  · rw [if_pos hvalid, if_pos (c := (tileStore ctx.surfaceId).Valid sd.1 tile.key) hvalid]
    change Option.Rel _ (Option.map _ ((tileWork tr ctx).act tile
      (sd.1.part ctx.surfaceId tile.key))) _
    cases (tileWork tr ctx).act tile (sd.1.part ctx.surfaceId tile.key) with
    | none => exact .none
    | some r =>
        obtain ⟨part, px⟩ := r
        have hset : SameTiles frame shape (sd.1.setPart ctx.surfaceId tile.key part, sd.2)
            { st with store := sd.1.setPart ctx.surfaceId tile.key part } :=
          ⟨rfl, h.shape_eq, h.mem_frameTiles, h.decoded, h.keys⟩
        cases px with
        | none => exact .some hset
        | some px => exact .some (hset.add tile.key px)
  · rw [if_neg hvalid, if_neg (c := (tileStore ctx.surfaceId).Valid sd.1 tile.key) hvalid]
    exact .none

/-- **Tiles.** The tiles of a REGION leave both decoders in the same state. -/
theorem rel_decodeRegionTiles (s : TileStore) (frame : TileSet) :
    Option.Rel (SameTiles frame (s.grid.tilesWide, s.grid.tilesHigh))
      (committed (decodeRegionTiles tr s ctx))
      (ctx.region.tiles.foldlM (RegionState.decode tr ctx.surfaceId ctx.region
        ctx.useReduceExtrapolate) ⟨s, frame, ∅⟩).toOption := by
  rw [committed_decodeRegionTiles, toOption_foldlM]
  refine rel_foldlM (fun sd st tile h => rel_decode tr ctx h tile) ?_ _
  exact ⟨rfl, rfl, by simp, by simp, by simp⟩

theorem SameTiles.insertMany_keys {sd : TileStore × Decoded} {st : RegionState}
    (h : SameTiles frame shape sd st) : frame.insertMany sd.2.keys = st.frameTiles := by
  refine ExtTreeSet.ext_mem fun k => ?_
  rw [h.mem_frameTiles, ExtTreeSet.mem_insertMany_list, List.contains_iff_mem,
    ExtTreeMap.mem_keys]

end Tiles

/-! ### Clipping -/

def ExclusiveRectangle.toRect (r : ExclusiveRectangle) : Option Rect :=
  Rect.fromLtrb r.left r.top r.right r.bottom

def DecodedTile.toBgra (tile : DecodedTile) : BgraTile where
  origin := ⟨tile.xIdx.toNat * tileSize, tile.yIdx.toNat * tileSize⟩
  size := ⟨tileSize, tileSize⟩
  data := swizzle tile.pixels
  updateRects := tile.updateRectangles.filterMap ExclusiveRectangle.toRect

theorem toOption_chargeRegionClippingWork (used units : Nat) :
    (chargeRegionClippingWork used units).toOption = (charge used units).toOption := by
  unfold chargeRegionClippingWork charge
  split <;> rfl

theorem toOption_clipRegion (width height : Nat) (clipping : Region) (work : Nat)
    (rects : List RfxRectangle) :
    (clipRegion width height clipping work rects).toOption =
      (clippingRegion width height clipping work rects).toOption := by
  induction rects generalizing clipping work with
  | nil => rfl
  | cons r rects ih =>
      simp only [clipRegion, clippingRegion]
      split
      · simp only [toOption_bind, toOption_chargeRegionClippingWork, ih]
      · exact ih clipping work

theorem pred_min_lt (a b : Nat) : min (min a u16Max) b - 1 < u16Max := by
  have hmax : u16Max = 65535 := rfl
  omega

/-- A rectangle that ends before the last coordinate of `u16` has an exclusive one. -/
theorem toRect_exclusive {outer r : InclusiveRectangle} (h : outer.Within r)
    (hright : outer.right < u16Max) (hbottom : outer.bottom < u16Max) :
    (exclusive r).toRect = some ⟨r.left, r.top, r.right + 1 - r.left, r.bottom + 1 - r.top⟩ := by
  have hmax : u16Max = 65535 := rfl
  have hr : (r.right + 1) % 2 ^ 16 = r.right + 1 :=
    Nat.mod_eq_of_lt (by have := h.right_le; omega)
  have hb : (r.bottom + 1) % 2 ^ 16 = r.bottom + 1 :=
    Nat.mod_eq_of_lt (by have := h.bottom_le; omega)
  have hwidth : ¬r.right + 1 < r.left := by
    have := h.left_le_right
    omega
  have hheight : ¬r.bottom + 1 < r.top := by
    have := h.top_le_bottom
    omega
  simp only [ExclusiveRectangle.toRect, exclusive, hr, hb, Rect.fromLtrb, if_neg hwidth,
    if_neg hheight]

theorem filterMap_updateRectangles (clipping : Region) (key : TileKey) (width height : Nat) :
    (updateRectangles clipping key width height).filterMap ExclusiveRectangle.toRect =
      visibleRects clipping key width height := by
  unfold updateRectangles visibleRects
  simp only
  split
  · rfl
  · rw [List.filterMap_map, ← List.filterMap_eq_map]
    refine List.filterMap_congr fun r hr => ?_
    exact toRect_exclusive (within_intersectRectangle clipping _ r hr) (pred_min_lt _ _)
      (pred_min_lt _ _)

theorem isEmpty_updateRectangles (clipping : Region) (key : TileKey) (width height : Nat) :
    (updateRectangles clipping key width height).isEmpty =
      (visibleRects clipping key width height).isEmpty := by
  unfold updateRectangles visibleRects
  simp only
  split
  · rfl
  · rw [List.isEmpty_map, List.isEmpty_map]

/-! ### Pending tiles -/

section Pending

variable (tr : Transforms) (grid : SurfaceTiles)

@[simp]
theorem length_fillPending (pending : List (Nat × TileKey)) (out : List BgraTile) :
    (fillPending tr grid pending out).length = out.length := by
  induction pending generalizing out with
  | nil => rfl
  | cons p pending ih => rw [fillPending, List.foldl_cons, ← fillPending, ih, List.length_modify]

private theorem modify_append_left {α : Type} (f : α → α) {n : Nat} {l : List α}
    (h : n < l.length) (l' : List α) : (l ++ l').modify n f = l.modify n f ++ l' := by
  induction l generalizing n with
  | nil => cases h
  | cons a l ih =>
      cases n with
      | zero => rfl
      | succ n =>
          rw [List.cons_append, List.modify_succ_cons, List.modify_succ_cons,
            ih (Nat.lt_of_succ_lt_succ h), List.cons_append]

private theorem modify_concat_length {α : Type} (f : α → α) (l : List α) (a : α) :
    (l ++ [a]).modify l.length f = l ++ [f a] := by
  induction l with
  | nil => rfl
  | cons b l ih => rw [List.cons_append, List.length_cons, List.modify_succ_cons, ih,
      List.cons_append]

theorem fillPending_append {pending : List (Nat × TileKey)} {out : List BgraTile}
    (h : ∀ p ∈ pending, p.1 < out.length) (after : List BgraTile) :
    fillPending tr grid pending (out ++ after) = fillPending tr grid pending out ++ after := by
  induction pending generalizing out with
  | nil => rfl
  | cons p pending ih =>
      have hp : p.1 < out.length := h p List.mem_cons_self
      rw [fillPending, List.foldl_cons, modify_append_left _ hp]
      refine ih fun q hq => ?_
      rw [List.length_modify]
      exact h q (List.mem_cons_of_mem p hq)

theorem fillPending_concat {pending : List (Nat × TileKey)} {out : List BgraTile}
    (h : ∀ p ∈ pending, p.1 < out.length) (tile : BgraTile) (key : TileKey) :
    fillPending tr grid (pending ++ [(out.length, key)]) (out ++ [tile]) =
      fillPending tr grid pending out ++
        [{ tile with data := ((grid.get key).map (renderBgra tr)).getD [] }] := by
  have hfirst : fillPending tr grid (pending ++ [(out.length, key)]) (out ++ [tile]) =
      fillPending tr grid [(out.length, key)] (fillPending tr grid pending (out ++ [tile])) :=
    List.foldl_append
  rw [hfirst, fillPending_append tr grid h, ← length_fillPending tr grid pending out]
  exact modify_concat_length _ (fillPending tr grid pending out) tile

end Pending

/-- The states of the two decoders while the tiles of a frame are clipped. -/
structure SameShown (tr : Transforms) (grid : SurfaceTiles) (st : Showing)
    (regionTiles : ExtTreeMap TileKey DecodedTile tileOrder) (decodedTiles : List DecodedTile)
    (work : Nat) : Prop where
  decoded : ∀ k : TileKey,
    st.regionTiles[k]? = (regionTiles[k]?).map fun tile => swizzle tile.pixels
  keys : ∀ (k : TileKey) (tile : DecodedTile), regionTiles[k]? = some tile →
    (tile.xIdx, tile.yIdx) = k
  filled : fillPending tr grid st.pending st.out = decodedTiles.map DecodedTile.toBgra
  pending_lt : ∀ p ∈ st.pending, p.1 < st.out.length
  work_eq : st.work = work

section Shown

variable {tr : Transforms} {grid : SurfaceTiles} {st : Showing}
  {regionTiles : ExtTreeMap TileKey DecodedTile tileOrder} {decodedTiles : List DecodedTile}
  {work : Nat}

theorem SameShown.show_decoded (h : SameShown tr grid st regionTiles decodedTiles work)
    {key : TileKey} {tile : DecodedTile} (htile : regionTiles[key]? = some tile)
    {rects : List Rect} {rectangles : List ExclusiveRectangle}
    (hrects : rectangles.filterMap ExclusiveRectangle.toRect = rects) :
    SameShown tr grid
      { st with
        regionTiles := st.regionTiles.erase key
        out := st.out ++
          [{ origin := ⟨key.1.toNat * tileSize, key.2.toNat * tileSize⟩
             size := ⟨tileSize, tileSize⟩
             data := swizzle tile.pixels
             updateRects := rects }] }
      (regionTiles.erase key)
      (decodedTiles ++ [{ tile with updateRectangles := rectangles }]) work where
  decoded := by
    intro k
    simp only [ExtTreeMap.getElem?_erase]
    split
    · rfl
    · exact h.decoded k
  keys := by
    intro k tile hk
    simp only [ExtTreeMap.getElem?_erase] at hk
    split at hk
    · cases hk
    · exact h.keys k tile hk
  filled := by
    obtain rfl := h.keys key tile htile
    rw [fillPending_append tr grid h.pending_lt, h.filled, List.map_append]
    simp only [List.map_cons, List.map_nil, DecodedTile.toBgra, hrects]
  pending_lt := by
    intro p hp
    rw [List.length_append]
    exact Nat.lt_of_lt_of_le (h.pending_lt p hp) (Nat.le_add_right _ _)
  work_eq := h.work_eq

/-- A tile decoded earlier in the frame is shown once it is rendered again. -/
theorem SameShown.show_retained (h : SameShown tr grid st regionTiles decodedTiles work)
    {key : TileKey} {state : TileState} (hstate : grid.get key = some state) {rects : List Rect}
    {rectangles : List ExclusiveRectangle}
    (hrects : rectangles.filterMap ExclusiveRectangle.toRect = rects) :
    SameShown tr grid
      { st with
        out := st.out ++
          [{ origin := ⟨key.1.toNat * tileSize, key.2.toNat * tileSize⟩
             size := ⟨tileSize, tileSize⟩
             data := []
             updateRects := rects }]
        pending := st.pending ++ [(st.out.length, key)] }
      regionTiles
      (decodedTiles ++ [{ reconstructed tr key state with updateRectangles := rectangles }])
      work where
  decoded := h.decoded
  keys := h.keys
  filled := by
    rw [fillPending_concat tr grid h.pending_lt, h.filled, List.map_append, hstate]
    simp only [List.map_cons, List.map_nil, DecodedTile.toBgra, hrects]
    rfl
  pending_lt := by
    intro p hp
    rw [List.length_append, List.length_singleton]
    rcases List.mem_append.mp hp with hp | hp
    · exact Nat.lt_succ_of_lt (h.pending_lt p hp)
    · rw [List.mem_singleton.mp hp]
      exact Nat.lt_succ_self _
  work_eq := h.work_eq

theorem rel_showTiles (h : SameShown tr grid st regionTiles decodedTiles work)
    (clipping : Region) (width height : Nat) (keys : List TileKey) :
    Option.Rel (fun st r => fillPending tr grid st.pending st.out = r.1.map DecodedTile.toBgra ∧
        st.work = r.2)
      (showTiles grid clipping width height st keys).toOption
      (clipTiles tr grid clipping width height regionTiles decodedTiles work keys).toOption := by
  induction keys generalizing st regionTiles decodedTiles work with
  | nil => exact .some ⟨h.filled, h.work_eq⟩
  | cons key keys ih =>
      simp only [showTiles, clipTiles, toOption_bind, toOption_chargeRegionClippingWork, h.work_eq]
      cases (charge work (max clipping.rectangles.length 1)).toOption with
      | none => exact .none
      | some work' =>
          simp only [Option.bind_some, isEmpty_updateRectangles]
          have hwork : SameShown tr grid { st with work := work' } regionTiles decodedTiles work' :=
            ⟨h.decoded, h.keys, h.filled, h.pending_lt, rfl⟩
          have hrects := filterMap_updateRectangles clipping key width height
          split
          · exact ih hwork
          · rw [h.decoded key]
            cases htile : regionTiles[key]? with
            | some tile => exact ih (hwork.show_decoded htile hrects)
            | none =>
                cases hstate : grid.get key with
                | none => exact ih hwork
                | some state => exact ih (hwork.show_retained hstate hrects)

end Shown

/-! ### Payloads -/

/-- The states of the two decoders within a payload. -/
structure SamePayload (shape : Nat × Nat) (st : PayloadState) (bt : BitmapState) : Prop where
  store : st.store = bt.store
  shape_eq : (st.store.grid.tilesWide, st.store.grid.tilesHigh) = shape
  frameTiles : st.frameTiles = bt.frameTiles
  out : st.out = bt.decodedTiles.map DecodedTile.toBgra
  work : st.work = bt.regionClippingWork
  inFrame : st.inFrame = bt.inFrame
  frameEnded : st.frameEnded = bt.frameEnded

section Payload

variable (tr : Transforms) (surfaceId : UInt16) (width height : Nat) (useReduceExtrapolate : Bool)
  {shape : Nat × Nat}

theorem committed_decodeRegion (st : PayloadState) (region : ProgressiveRegion) :
    committed (decodeRegion tr surfaceId width height useReduceExtrapolate st region) =
      (committed (decodeRegionTiles tr st.store
        ⟨surfaceId, useReduceExtrapolate, region⟩)).bind fun sd =>
        (clippingRegion width height .new st.work region.rects).toOption.bind fun clipping =>
          (showTiles sd.1.grid clipping.1 width height ⟨sd.2, st.out, [], clipping.2⟩
            (st.frameTiles.insertMany sd.2.keys).toList).toOption.map fun shown =>
              ({ st with
                  store := sd.1
                  frameTiles := st.frameTiles.insertMany sd.2.keys
                  out := fillPending tr sd.1.grid shown.pending shown.out
                  work := shown.work }, ()) := by
  unfold decodeRegion
  rcases decodeRegionTiles tr st.store ⟨surfaceId, useReduceExtrapolate, region⟩ with
    ⟨store, e | regionTiles⟩
  · rfl
  · simp only [committed_ok, Option.bind_some]
    rcases clippingRegion width height .new st.work region.rects with e | ⟨clipping, work⟩
    · rfl
    · simp only [toOption_ok, Option.bind_some]
      cases hshown : showTiles store.grid clipping width height ⟨regionTiles, st.out, [], work⟩
        (st.frameTiles.insertMany regionTiles.keys).toList with
      | error e =>
          simp only [bind, Except.bind, hshown]
          rfl
      | ok shown =>
          simp only [bind, Except.bind, hshown]
          rfl

theorem rel_decodeRegion {st : PayloadState} {bt : BitmapState} (h : SamePayload shape st bt)
    (region : ProgressiveRegion) :
    Option.Rel (fun r bt => SamePayload shape r.1 bt)
      (committed (decodeRegion tr surfaceId width height useReduceExtrapolate st region))
      (decodeBitmapRegion tr surfaceId width height useReduceExtrapolate bt region).toOption := by
  rw [committed_decodeRegion]
  unfold decodeBitmapRegion
  simp only [toOption_bind, toOption_pure, toOption_clipRegion, ← h.store, ← h.frameTiles,
    ← h.work]
  refine rel_bind (rel_decodeRegionTiles tr ⟨surfaceId, useReduceExtrapolate, region⟩ st.store
    st.frameTiles) fun sd tiles htiles => ?_
  cases (clippingRegion width height .new st.work region.rects).toOption with
  | none => exact .none
  | some clipping =>
      have hshown : SameShown tr sd.1.grid ⟨sd.2, st.out, [], clipping.2⟩ tiles.regionTiles
          bt.decodedTiles clipping.2 :=
        ⟨htiles.decoded, htiles.keys, h.out, by simp, rfl⟩
      simp only [Option.bind_some, htiles.insertMany_keys, ← htiles.store]
      rw [Option.map_eq_bind]
      refine rel_bind (rel_showTiles hshown clipping.1 width height _) fun shown r hr => ?_
      exact .some
        { store := rfl
          shape_eq := htiles.shape_eq.trans h.shape_eq
          frameTiles := rfl
          out := hr.1
          work := hr.2
          inFrame := h.inFrame
          frameEnded := h.frameEnded }

theorem rel_decodeBlocks {st : PayloadState} {bt : BitmapState} (h : SamePayload shape st bt)
    (blocks : List ProgressiveBlock) :
    Option.Rel (fun r bt => SamePayload shape r.1 bt)
      (committed (decodeBlocks tr surfaceId width height useReduceExtrapolate st blocks))
      (blocks.foldlM (decodeBitmapBlock tr surfaceId width height useReduceExtrapolate)
        bt).toOption := by
  induction blocks generalizing st bt with
  | nil => exact .some h
  | cons block blocks ih =>
      rw [List.foldlM_cons, toOption_bind]
      cases block with
      | sync => exact ih h
      | frameBegin =>
          refine ih ?_
          rw [h.frameEnded]
          split
          · exact h
          · exact { h with inFrame := rfl, frameEnded := rfl }
      | frameEnd => exact ih { h with inFrame := rfl, frameEnded := rfl }
      | context flag => exact ih h
      | region region =>
          simp only [decodeBlocks, decodeBitmapBlock, h.inFrame]
          split
          · have hregion := rel_decodeRegion tr surfaceId width height useReduceExtrapolate h region
            generalize decodeRegion tr surfaceId width height useReduceExtrapolate st region =
              ours at hregion ⊢
            generalize (decodeBitmapRegion tr surfaceId width height useReduceExtrapolate bt
              region).toOption = theirs at hregion ⊢
            rcases ours with ⟨st', e | ⟨⟩⟩
            · cases hregion
              exact .none
            · cases hregion with
              | some h' => exact ih h'
          · exact ih h

end Payload

end Drift.Codec
