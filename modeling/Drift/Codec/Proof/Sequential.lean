import Drift.Codec.Proof.Rounds

/-!
# Tiles in sequence

A tile block of `ProgressiveDecoder` is one step of the same work (`toOption_decodeTileBlock`), so
the tiles of a REGION come out of both decoders the same (`rel_decodeTiles`).
-/

namespace Drift.Codec

open Std Keyed Lockstep

variable (tr : Transforms) (ctx : RegionCtx)

/-! ### Tile blocks -/

/-- A first pass with a reference is a first pass to whose coefficients the reference is added. -/
theorem toOption_decodeFirstWithDifference (data : Components Bytes)
    (base prog : Components ComponentCodecQuant) (reference : Option (Components Coefficients))
    (quantIdx : Components UInt8) (quality : UInt8) (useReduceExtrapolate : Bool) :
    (TileState.decodeFirstWithDifference tr data base prog reference quantIdx quality
      useReduceExtrapolate).toOption =
      (TileState.decodeFirst tr data base prog quantIdx quality
        useReduceExtrapolate).toOption.map fun state =>
          match reference with
          | none => state
          | some reference =>
            { state with
              coefficients := addReference state.coefficients reference
              isDifference := true } := by
  unfold TileState.decodeFirst TileState.decodeFirstWithDifference
  simp only [toOption_bind, toOption_pure]
  cases ((data.zipWith Prod.mk prog).mapM fun x =>
    tr.decodeFirstPassToDwtq x.1 x.2 useReduceExtrapolate).toOption with
  | none => rfl
  | some decoded =>
      cases reference with
      | none => rfl
      | some reference => rfl

theorem toOption_progressiveQuantFor (quality : UInt8) (table : List ProgressiveCodecQuant) :
    (progressiveQuantFor quality table).toOption = (progressiveQuant quality table).toOption := by
  unfold progressiveQuantFor progressiveQuant
  split
  · rfl
  · cases table[quality.toNat]? <;> rfl

/-- The tile that a tile block leaves to be clipped, if any. -/
def tilesOf (key : TileKey) (px : Option Bytes) : List DecodedTile :=
  (px.map fun px =>
    { xIdx := key.1
      yIdx := key.2
      pixels := px
      updateRectangles := [] }).toList

theorem act_eq (tile : ProgressiveTile) (part : Part) :
    (tileWork tr ctx).act tile part = (prepareTask ctx tile part).bind fun r =>
      match r.2 with
      | none => some (r.1, none)
      | some task => (task.decode tr ctx.useReduceExtrapolate).map fun state =>
          (task.part.retain state, some (tr.reconstructToRgba state).toList) := by
  unfold Work.act
  congr 1
  funext r
  rcases r with ⟨part', _ | task⟩
  · rfl
  · simp only [tileWork, Option.map_map]
    rfl

/-- The first pass of a task decodes with its reference, which a difference tile must have. -/
theorem decode_first {part : Part} {difference : Bool}
    (h : (difference && !part.reference.isSome) = false) (state : TileState)
    (data : Components Bytes) (base prog : Components ComponentCodecQuant)
    (quantIdx : Components UInt8) (quality : UInt8) (useReduceExtrapolate : Bool) :
    (Task.mk part state (.first data base prog quantIdx quality difference)).decode tr
        useReduceExtrapolate =
      (TileState.decodeFirstWithDifference tr data base prog
        (if difference then part.reference else none) quantIdx quality
        useReduceExtrapolate).toOption := by
  rw [toOption_decodeFirstWithDifference]
  simp only [Task.decode]
  cases (TileState.decodeFirst tr data base prog quantIdx quality
      useReduceExtrapolate).toOption with
  | none => rfl
  | some state =>
      cases difference with
      | false => rfl
      | true =>
          cases hreference : part.reference with
          | none => simp [hreference] at h
          | some reference => rfl

theorem toOption_decodeFirstBlock {s : TileStore} {key : TileKey} (h : s.grid.InBounds key)
    (flags : UInt8) (quantIdx : Components UInt8) (data : Components Bytes)
    (quality : Option UInt8)
    {quant : Except ProgressiveDecodeError (Components ComponentCodecQuant × UInt8)}
    (hquant : quant.toOption = (progQuants quality ctx.region.quantProgVals).toOption) :
    (decodeFirstBlock tr ctx.surfaceId s key flags quantIdx data ctx.region.quantVals quant
      ctx.useReduceExtrapolate).toOption =
      ((firstTask ctx (s.part ctx.surfaceId key) ⟨flags, quantIdx, data, quality⟩).bind fun r =>
        match r.2 with
        | none => some (r.1, none)
        | some task => (task.decode tr ctx.useReduceExtrapolate).map fun state =>
            (task.part.retain state, some (tr.reconstructToRgba state).toList)).map fun r =>
          (s.setPart ctx.surfaceId key r.1, tilesOf key r.2) := by
  have href : (s.part ctx.surfaceId key).reference = s.references[(ctx.surfaceId, key)]? := rfl
  have hmissing : ∀ difference : Bool,
      (difference && (if difference then s.references[(ctx.surfaceId, key)]? else none).isNone) =
        (difference && !(s.part ctx.surfaceId key).reference.isSome) := by
    intro difference
    cases difference with
    | false => rfl
    | true => rw [href, if_pos rfl, Option.not_isSome]
  simp only [decodeFirstBlock, SurfaceTiles.tileIndex_of_inBounds h, firstTask]
  generalize (flags &&& tileFlagDifference != 0) = difference
  rw [hmissing difference]
  cases hcheck : difference && !(s.part ctx.surfaceId key).reference.isSome with
  | true => rfl
  | false =>
      simp only [Bool.false_eq_true, if_false]
      cases ctx.region.quantVals[quantIdx.y.toNat]? with
      | none => rfl
      | some y =>
          cases ctx.region.quantVals[quantIdx.cb.toNat]? with
          | none => rfl
          | some cb =>
              cases ctx.region.quantVals[quantIdx.cr.toNat]? with
              | none => rfl
              | some cr =>
                  simp only [toOption_bind, hquant, toOption_mapError, toOption_pure]
                  cases (progQuants quality ctx.region.quantProgVals).toOption with
                  | none => rfl
                  | some q =>
                      simp only [Option.bind_some, Option.map_some, decode_first tr hcheck, href]
                      cases (TileState.decodeFirstWithDifference tr data ⟨y, cb, cr⟩ q.1
                        (if difference then s.references[(ctx.surfaceId, key)]? else none)
                        quantIdx q.2 ctx.useReduceExtrapolate).toOption with
                      | none => rfl
                      | some state => rfl

/-- **Tile blocks.** The reference does the work of a tile block at once. -/
theorem toOption_decodeTileBlock (s : TileStore) (tile : ProgressiveTile) :
    (decodeTileBlock tr ctx.surfaceId s tile ctx.region.quantVals ctx.region.quantProgVals
      ctx.useReduceExtrapolate).toOption =
      if s.grid.InBounds tile.key then
        ((tileWork tr ctx).act tile (s.part ctx.surfaceId tile.key)).map fun r =>
          (s.setPart ctx.surfaceId tile.key r.1, tilesOf tile.key r.2)
      else none := by
  rw [act_eq]
  by_cases h : s.grid.InBounds tile.key
  · rw [if_pos h]
    cases tile with
    | simple t => exact toOption_decodeFirstBlock tr ctx h _ _ _ none rfl
    | first t =>
        refine toOption_decodeFirstBlock tr ctx h _ _ _ (some t.quality) ?_
        rw [toOption_map, toOption_progressiveQuantFor, progQuants, toOption_map]
        rfl
    | upgrade t =>
        have hindex : s.grid.tileIndex (t.xIdx, t.yIdx) =
            some (s.grid.position (t.xIdx, t.yIdx)) := SurfaceTiles.tileIndex_of_inBounds h
        simp only [decodeTileBlock, hindex, prepareTask]
        change _ = Option.map _ (Option.bind (if ((s.grid.get (t.xIdx, t.yIdx)).getD
          s.grid.freshTile).pass = 0 then _ else _) _)
        by_cases hpass : ((s.grid.get (t.xIdx, t.yIdx)).getD s.grid.freshTile).pass = 0
        · rw [if_pos hpass, if_pos hpass]
          simp only [toOption_ok, Option.bind_some, Option.map_some, TileStore.setPart,
            TileStore.part, setReference_self]
          rfl
        · rw [if_neg hpass, if_neg hpass]
          simp only [toOption_bind, toOption_progressiveQuantFor, toOption_mapError, toOption_pure]
          cases (progressiveQuant t.quality ctx.region.quantProgVals).toOption with
          | none => rfl
          | some pq =>
              obtain ⟨upgraded, hupgraded⟩ : ∃ upgraded, ((TileState.decodeUpgrade tr
                ((s.grid.get (t.xIdx, t.yIdx)).getD s.grid.freshTile) t.srlData t.rawData
                ⟨pq.yQuant, pq.cbQuant, pq.crQuant⟩ t.quality).toOption) = upgraded := ⟨_, rfl⟩
              simp only [Option.bind_some, Option.map_some, Task.decode]
              change Option.bind _ _ = Option.map _ (Option.map _ (TileState.decodeUpgrade tr
                ((s.grid.get (t.xIdx, t.yIdx)).getD s.grid.freshTile) t.srlData t.rawData
                ⟨pq.yQuant, pq.cbQuant, pq.crQuant⟩ t.quality).toOption)
              rw [hupgraded]
              cases upgraded with
              | none => rfl
              | some state => rfl
  · rw [if_neg h]
    have hindex : s.grid.tileIndex tile.key = none := SurfaceTiles.tileIndex_of_not_inBounds h
    cases tile <;>
      simp only [ProgressiveTile.key, ProgressiveTile.xIdx, ProgressiveTile.yIdx] at hindex <;>
      simp only [decodeTileBlock, decodeFirstBlock, hindex, toOption_error]

end Drift.Codec
