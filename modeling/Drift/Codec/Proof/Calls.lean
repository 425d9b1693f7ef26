import Drift.Codec.Proof.Agreement

/-!
# The two decoders agree

`ProgressiveCodec` and `ProgressiveDecoder` answer the same calls. Up to the first decode that fails,
they succeed and fail together, give the same tiles up to the order of the colour bytes, and retain
the same tile states and references (`replay_agree`).
-/

namespace Drift.Codec

open Std Lockstep

/-! ### Calls -/

/-- A call to a progressive decoder. -/
inductive Call where
  | beginFrame
  | endFrame
  | decode (surfaceId : UInt16) (codecContextId : UInt32) (width height : UInt16) (data : Bytes)
  | deleteContext (surfaceId : UInt16) (codecContextId : UInt32)
  | deleteSurface (surfaceId : UInt16)
  | reset

/-- Answers a call with a new state and the tiles of a decode, or with a failure. -/
def ProgressiveCodec.answer (tr : Transforms) (codec : ProgressiveCodec) :
    Call → Option (ProgressiveCodec × List BgraTile)
  | .beginFrame => some (codec.beginFrame, [])
  | .endFrame => some (codec.endFrame, [])
  | .decode surfaceId codecContextId width height data =>
    committed (codec.decode tr surfaceId codecContextId ⟨width.toNat, height.toNat⟩ data)
  | .deleteContext surfaceId codecContextId => some (codec.deleteContext surfaceId codecContextId, [])
  | .deleteSurface surfaceId => some (codec.deleteSurface surfaceId, [])
  | .reset => some (codec.reset, [])

def ProgressiveDecoder.answer (tr : Transforms) (decoder : ProgressiveDecoder) :
    Call → Option (ProgressiveDecoder × List DecodedTile)
  | .beginFrame => some (decoder.beginFrame, [])
  | .endFrame => some (decoder.endFrame, [])
  | .decode surfaceId codecContextId width height data =>
    (decoder.decodeBitmap tr surfaceId codecContextId width height data).toOption
  | .deleteContext surfaceId codecContextId =>
    some (decoder.deleteContext surfaceId codecContextId, [])
  | .deleteSurface surfaceId => some (decoder.deleteSurface surfaceId, [])
  | .reset => some (decoder.reset, [])

/-- The answers to a list of calls up to the first failure, and the state after them unless there was
one. -/
def replay {σ τ : Type} (answer : σ → Call → Option (σ × List τ)) :
    σ → List Call → List (List τ) × Option σ
  | s, [] => ([], some s)
  | s, call :: calls =>
    match answer s call with
    | none => ([], none)
    | some (s, tiles) => (tiles :: (replay answer s calls).1, (replay answer s calls).2)

/-- The tile states and the references of the two decoders are the same. -/
def RetainsSame (codec : ProgressiveCodec) (decoder : ProgressiveDecoder) : Prop :=
  codec.contexts = decoder.contexts ∧ codec.references = decoder.references

/-! ### Decodes -/

def SurfaceTiles.Small (grid : SurfaceTiles) : Prop :=
  grid.tilesWide ≤ SurfaceTiles.tilesOver maxSurfaceDim ∧
    grid.tilesHigh ≤ SurfaceTiles.tilesOver maxSurfaceDim

/-- The states of the two decoders between calls. -/
structure Mirrors (codec : ProgressiveCodec) (decoder : ProgressiveDecoder) : Prop where
  contexts : codec.contexts = decoder.contexts
  references : codec.references = decoder.references
  frameTiles : codec.frameTiles = decoder.frameTiles
  frameActive : codec.frameActive = decoder.frameActive
  surfaceContextFlags : codec.surfaceContextFlags = decoder.surfaceContextFlags
  small : ∀ (key : ContextKey) (grid : SurfaceTiles), codec.contexts[key]? = some grid → grid.Small

theorem small_of_new {width height : Nat} {flag : Bool} {grid : SurfaceTiles}
    (h : SurfaceTiles.new width height flag = some grid) : grid.Small := by
  unfold SurfaceTiles.new at h
  split at h
  · cases h
  · next hdims =>
    obtain rfl := Option.some.inj h
    simp only [SurfaceTiles.Small, SurfaceTiles.tilesOver, maxSurfaceDim, tileDim] at hdims ⊢
    omega

theorem new_eq_none {width height : Nat} (flag : Bool)
    (h : width > maxSurfaceDim ∨ height > maxSurfaceDim) :
    SurfaceTiles.new width height flag = none := if_pos h

theorem tilesOver_lt {pixels : Nat} (h : maxSurfaceDim < pixels) :
    SurfaceTiles.tilesOver maxSurfaceDim < SurfaceTiles.tilesOver pixels := by
  simp only [SurfaceTiles.tilesOver, maxSurfaceDim, tileDim] at h ⊢
  omega

theorem surfaceFor_eq_none {decoder : ProgressiveDecoder} {key : ContextKey} {width height : Nat}
    (flag : Bool)
    (hsmall : ∀ grid : SurfaceTiles, decoder.contexts[key]? = some grid → grid.Small)
    (h : width > maxSurfaceDim ∨ height > maxSurfaceDim) :
    decoder.surfaceFor key width height flag = none := by
  unfold ProgressiveDecoder.surfaceFor
  simp only [new_eq_none flag h, Option.orElse_eq_orElse, Option.orElse_eq_or, Option.or_none]
  cases hgrid : decoder.contexts[key]? with
  | none => rfl
  | some grid =>
      obtain ⟨hwide, hhigh⟩ := hsmall grid hgrid
      have hresized : (decide (grid.tilesWide ≠ SurfaceTiles.tilesOver width) ||
          decide (grid.tilesHigh ≠ SurfaceTiles.tilesOver height)) = true := by
        rcases h with h | h
        · rw [decide_eq_true (Nat.ne_of_lt (Nat.lt_of_le_of_lt hwide (tilesOver_lt h))),
            Bool.true_or]
        · rw [decide_eq_true (Nat.ne_of_lt (Nat.lt_of_le_of_lt hhigh (tilesOver_lt h))),
            Bool.or_true]
      simp only [Option.bind_some, hresized, if_true, Option.map_none]

theorem small_of_gridFor {codec : ProgressiveCodec} {key : ContextKey} {width height : Nat}
    {flag resized : Bool} {grid : SurfaceTiles}
    (hsmall : ∀ grid : SurfaceTiles, codec.contexts[key]? = some grid → grid.Small)
    (h : codec.gridFor key width height flag = some (grid, resized)) : grid.Small := by
  obtain ⟨context, hcontext, h⟩ := Option.bind_eq_some_iff.mp h
  have hcontext : context.Small := by
    rw [Option.orElse_eq_orElse, Option.orElse_eq_or, Option.or_eq_some_iff] at hcontext
    rcases hcontext with hfound | ⟨_, hnew⟩
    · exact hsmall context hfound
    · exact small_of_new hnew
  obtain ⟨fitted, hfitted, h⟩ := Option.map_eq_some_iff.mp h
  have hfitted : fitted.Small := by
    split at hfitted
    · exact small_of_new hfitted
    · obtain rfl := Option.some.inj hfitted
      exact hcontext
  obtain ⟨rfl, _⟩ := Prod.mk.inj h
  exact hfitted

section Mirrors

variable (tr : Transforms) {codec : ProgressiveCodec} {decoder : ProgressiveDecoder}

theorem Mirrors.noteContext (h : Mirrors codec decoder) (surfaceId : UInt16)
    (blocks : List ProgressiveBlock) :
    Mirrors (codec.noteContext surfaceId blocks) (decoder.rememberFlag surfaceId blocks) := by
  have hsignalled : ProgressiveDecoder.signalled blocks = signalledFlag blocks := rfl
  unfold ProgressiveCodec.noteContext ProgressiveDecoder.rememberFlag
  rw [hsignalled]
  cases signalledFlag blocks with
  | none => exact { h with }
  | some flag =>
      exact { h with surfaceContextFlags := congrArg (·.insert surfaceId flag) h.surfaceContextFlags }

theorem Mirrors.contextFlag_eq (h : Mirrors codec decoder) (key : ContextKey)
    (blocks : List ProgressiveBlock) :
    decoder.useReduceExtrapolate key blocks = codec.contextFlag key blocks := by
  unfold ProgressiveDecoder.useReduceExtrapolate ProgressiveCodec.contextFlag
  rw [h.contexts, h.surfaceContextFlags]
  rfl

theorem Mirrors.clearInactive (h : Mirrors codec decoder) :
    Mirrors codec.clearInactive decoder.clearFrameTiles := by
  unfold ProgressiveCodec.clearInactive ProgressiveDecoder.clearFrameTiles
  rw [h.frameActive]
  split
  · exact h
  · exact { h with frameTiles := rfl, frameActive := rfl }

theorem Mirrors.gridFor_eq (h : Mirrors codec decoder) (key : ContextKey) (width height : Nat)
    (flag : Bool) :
    decoder.surfaceFor key width height flag = codec.gridFor key width height flag := by
  unfold ProgressiveDecoder.surfaceFor ProgressiveCodec.gridFor
  rw [h.contexts]

theorem rel_decodePayload (h : Mirrors codec decoder) (key : ContextKey) (width height : Nat)
    (flag : Bool) (blocks : List ProgressiveBlock) :
    Option.Rel (fun r r' => Mirrors r.1 r'.1 ∧ r.2 = r'.2.map DecodedTile.toBgra)
      (committed (codec.decodePayload tr key ⟨width, height⟩ flag blocks))
      (decoder.decodeOnSurface tr key width height flag blocks).toOption := by
  unfold ProgressiveCodec.decodePayload ProgressiveDecoder.decodeOnSurface
  rw [h.gridFor_eq]
  cases hgrid : codec.gridFor key width height flag with
  | none => exact .none
  | some g =>
      obtain ⟨grid, resized⟩ := g
      have hsmall : grid.Small := small_of_gridFor (h.small key) hgrid
      simp only [toOption_bind, toOption_pure, ← h.references, ← h.frameTiles]
      have hstart : SamePayload (grid.tilesWide, grid.tilesHigh)
          ⟨⟨grid, codec.references⟩, if resized then ∅ else (codec.frameTiles[key]?).getD ∅, [], 0,
            false, false⟩
          ⟨⟨grid, codec.references⟩, if resized then ∅ else (codec.frameTiles[key]?).getD ∅, [], 0,
            false, false⟩ :=
        ⟨rfl, rfl, rfl, rfl, rfl, rfl, rfl⟩
      have hblocks := rel_decodeBlocks tr key.1 width height flag hstart blocks
      generalize (blocks.foldlM (decodeBitmapBlock tr key.1 width height flag) _).toOption = theirs
        at hblocks ⊢
      generalize decodeBlocks tr key.1 width height flag _ blocks = ours at hblocks ⊢
      rcases ours with ⟨st, e | ⟨⟩⟩
      · cases hblocks
        exact .none
      · cases hblocks with
        | some hst =>
            refine .some ⟨?_, hst.out⟩
            exact { h with
              contexts := by rw [hst.store, h.contexts]
              references := congrArg TileStore.references hst.store
              frameTiles := by rw [hst.frameTiles, h.frameTiles]
              small := by
                intro k found hfound
                simp only [ExtTreeMap.getElem?_insert] at hfound
                split at hfound
                · obtain rfl := Option.some.inj hfound
                  obtain ⟨hwide, hhigh⟩ := Prod.mk.inj hst.shape_eq
                  exact ⟨hwide ▸ hsmall.1, hhigh ▸ hsmall.2⟩
                · exact h.small k found hfound }

/-- **Decodes.** A decode keeps the two decoders in step. -/
theorem rel_decode_decodeBitmap (h : Mirrors codec decoder) (surfaceId : UInt16)
    (codecContextId : UInt32) (width height : UInt16) (data : Bytes) :
    Option.Rel (fun r r' => Mirrors r.1 r'.1 ∧ r.2 = r'.2.map DecodedTile.toBgra)
      (committed (codec.decode tr surfaceId codecContextId ⟨width.toNat, height.toNat⟩ data))
      (decoder.decodeBitmap tr surfaceId codecContextId width height data).toOption := by
  unfold ProgressiveCodec.decode ProgressiveDecoder.decodeBitmap
  simp only [toOption_bind, toOption_mapError]
  cases tr.decodeProgressiveStream data with
  | error e =>
      split
      · exact .none
      · exact .none
  | ok blocks =>
      have hnoted := h.noteContext surfaceId blocks
      have hflag := hnoted.contextFlag_eq (surfaceId, codecContextId) blocks
      simp only [toOption_ok, Option.bind_some, hflag]
      by_cases hdims : width.toNat > maxSurfaceDim ∨ height.toNat > maxSurfaceDim
      · rw [if_pos hdims]
        cases (codec.noteContext surfaceId blocks).contextFlag (surfaceId, codecContextId) blocks with
        | none => exact .none
        | some flag =>
            have hcleared := hnoted.clearInactive
            have hnone := surfaceFor_eq_none flag (fun grid hgrid =>
              hcleared.small (surfaceId, codecContextId) grid (hcleared.contexts ▸ hgrid)) hdims
            simp only [ProgressiveDecoder.decodeOnSurface, hnone]
            exact .none
      · rw [if_neg hdims]
        cases (codec.noteContext surfaceId blocks).contextFlag (surfaceId, codecContextId) blocks with
        | none => exact .none
        | some flag =>
            have hpayload := rel_decodePayload tr hnoted.clearInactive (surfaceId, codecContextId)
              width.toNat height.toNat flag blocks
            simp only [toOption_bind, toOption_pure]
            generalize (decoder.rememberFlag surfaceId blocks).clearFrameTiles.decodeOnSurface tr
              (surfaceId, codecContextId) width.toNat height.toNat flag blocks = theirs at hpayload ⊢
            generalize (codec.noteContext surfaceId blocks).clearInactive.decodePayload tr
              (surfaceId, codecContextId) ⟨width.toNat, height.toNat⟩ flag blocks = ours
              at hpayload ⊢
            generalize theirs.toOption = theirs at hpayload ⊢
            rcases ours with ⟨codec', e | out⟩
            · cases hpayload
              exact .none
            · cases hpayload with
              | some hstep => exact .some ⟨hstep.1.clearInactive, hstep.2⟩

end Mirrors

/-! ### Runs of calls -/

theorem mirrors_new : Mirrors .new .new :=
  ⟨rfl, rfl, rfl, rfl, rfl, by simp [ProgressiveCodec.new]⟩

theorem rel_answer (tr : Transforms) {codec : ProgressiveCodec} {decoder : ProgressiveDecoder}
    (h : Mirrors codec decoder) (call : Call) :
    Option.Rel (fun r r' => Mirrors r.1 r'.1 ∧ r.2 = r'.2.map DecodedTile.toBgra)
      (codec.answer tr call) (decoder.answer tr call) := by
  cases call with
  | beginFrame => exact .some ⟨{ h with frameTiles := rfl, frameActive := rfl }, rfl⟩
  | endFrame => exact .some ⟨{ h with frameTiles := rfl, frameActive := rfl }, rfl⟩
  | decode surfaceId codecContextId width height data =>
      exact rel_decode_decodeBitmap tr h surfaceId codecContextId width height data
  | deleteContext surfaceId codecContextId =>
      refine .some ⟨{ h with contexts := ?_, frameTiles := ?_, small := ?_ }, rfl⟩
      · exact congrArg (·.erase (surfaceId, codecContextId)) h.contexts
      · exact congrArg (·.erase (surfaceId, codecContextId)) h.frameTiles
      · intro key grid hgrid
        simp only [ProgressiveCodec.deleteContext, ExtTreeMap.getElem?_erase] at hgrid
        split at hgrid
        · cases hgrid
        · exact h.small key grid hgrid
  | deleteSurface surfaceId =>
      refine .some ⟨⟨?_, ?_, ?_, h.frameActive, ?_, ?_⟩, rfl⟩
      · exact congrArg (·.filter fun key _ => key.1 ≠ surfaceId) h.contexts
      · exact congrArg (·.filter fun key _ => key.1 ≠ surfaceId) h.references
      · exact congrArg (·.filter fun key _ => key.1 ≠ surfaceId) h.frameTiles
      · exact congrArg (·.erase surfaceId) h.surfaceContextFlags
      · intro key grid hgrid
        simp only [ProgressiveCodec.deleteSurface, ExtTreeMap.getElem?_filter] at hgrid
        exact h.small key grid (Option.eq_some_of_pfilter_eq_some hgrid)
  | reset =>
      exact .some ⟨⟨rfl, h.references, rfl, rfl, h.surfaceContextFlags,
        by simp [ProgressiveCodec.reset]⟩, rfl⟩

theorem replay_mirrors (tr : Transforms) {codec : ProgressiveCodec} {decoder : ProgressiveDecoder}
    (h : Mirrors codec decoder) (calls : List Call) :
    (replay (ProgressiveCodec.answer tr) codec calls).1 =
        (replay (ProgressiveDecoder.answer tr) decoder calls).1.map
          (List.map DecodedTile.toBgra) ∧
      Option.Rel Mirrors (replay (ProgressiveCodec.answer tr) codec calls).2
        (replay (ProgressiveDecoder.answer tr) decoder calls).2 := by
  induction calls generalizing codec decoder with
  | nil => exact ⟨rfl, .some h⟩
  | cons call calls ih =>
      have hanswer := rel_answer tr h call
      unfold replay
      generalize codec.answer tr call = ours at hanswer ⊢
      generalize decoder.answer tr call = theirs at hanswer ⊢
      cases hanswer with
      | none => exact ⟨rfl, .none⟩
      | some hstep =>
          obtain ⟨htiles, hrest⟩ := ih hstep.1
          exact ⟨by rw [List.map_cons, ← hstep.2, ← htiles], hrest⟩

/-- **Agreement.** For every list of calls, the two decoders give the same tiles up to the first
failed decode, fail at the same call or not at all, and retain the same tile states and
references. -/
theorem replay_agree (tr : Transforms) (calls : List Call) :
    (replay (ProgressiveCodec.answer tr) .new calls).1 =
        (replay (ProgressiveDecoder.answer tr) .new calls).1.map (List.map DecodedTile.toBgra) ∧
      Option.Rel RetainsSame (replay (ProgressiveCodec.answer tr) .new calls).2
        (replay (ProgressiveDecoder.answer tr) .new calls).2 := by
  obtain ⟨htiles, hstates⟩ := replay_mirrors tr mirrors_new calls
  refine ⟨htiles, ?_⟩
  generalize (replay (ProgressiveCodec.answer tr) .new calls).2 = ours at hstates ⊢
  generalize (replay (ProgressiveDecoder.answer tr) .new calls).2 = theirs at hstates ⊢
  cases hstates with
  | none => exact .none
  | some h => exact .some ⟨h.contexts, h.references⟩

end Drift.Codec
