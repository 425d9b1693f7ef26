import Drift.Codec.Progressive

/-!
# A decode keeps to its surface

A decode for a surface reads and writes the entries of that surface only. Relations between the references
that such a decode cannot break (`Confined`) go through the rounds, the regions and the payloads. With the
references of one surface compared, this says that the decode depends on nothing else (`alike_decode`),
with the references of another surface held fixed, that it touches nothing else (`alike_decode_other`).
-/

namespace Drift.Codec

open Std

/-- A relation that what a decode for a surface does to the references cannot break. -/
structure Confined (j : UInt16) (R : References → References → Prop) : Prop where
  lookup : ∀ r r', R r r' → ∀ k : TileKey, r[(j, k)]? = r'[(j, k)]?
  erase : ∀ r r', R r r' → ∀ k : TileKey, R (r.erase (j, k)) (r'.erase (j, k))
  insert : ∀ r r', R r r' → ∀ (k : TileKey) (v : Components Coefficients),
    R (r.insert (j, k) v) (r'.insert (j, k) v)

def SameReferences (id : UInt16) (r r' : References) : Prop :=
  ∀ k : TileKey, r[(id, k)]? = r'[(id, k)]?

theorem confined_same (id : UInt16) : Confined id (SameReferences id) where
  lookup r r' h := h
  erase r r' h k k' := by
    rw [ExtTreeMap.getElem?_erase, ExtTreeMap.getElem?_erase, h k']
  insert r r' h k v k' := by
    rw [ExtTreeMap.getElem?_insert, ExtTreeMap.getElem?_insert, h k']

theorem confined_other {id j : UInt16} (hne : j ≠ id) (kept : References) :
    Confined j fun r r' => r = r' ∧ SameReferences id r kept where
  lookup := by
    rintro r r' ⟨rfl, -⟩ k
    rfl
  erase := by
    rintro r r' ⟨rfl, h⟩ k
    refine ⟨rfl, fun k' => ?_⟩
    rw [ExtTreeMap.getElem?_erase, if_neg, h k']
    rw [LawfulEqCmp.compare_eq_iff_eq, Prod.mk.injEq]
    exact fun heq => hne heq.1
  insert := by
    rintro r r' ⟨rfl, h⟩ k v
    refine ⟨rfl, fun k' => ?_⟩
    rw [ExtTreeMap.getElem?_insert, if_neg, h k']
    rw [LawfulEqCmp.compare_eq_iff_eq, Prod.mk.injEq]
    exact fun heq => hne heq.1

/-! ### Rounds -/

/-- The same grid, and related references. -/
structure Beside (R : References → References → Prop) (s s' : TileStore) : Prop where
  grid : s.grid = s'.grid
  references : R s.references s'.references

/-- Results that are the same but for the references. -/
structure Same {α : Type} (R : References → References → Prop) (x x' : TileStore × α) : Prop where
  store : Beside R x.1 x'.1
  result : x.2 = x'.2

section Rounds

variable {R : References → References → Prop} {s s' : TileStore} {ctx : RegionCtx}

theorem Beside.ensureTile (h : Beside R s s') (index : Nat) :
    Beside R (s.ensureTile index) (s'.ensureTile index) := by
  unfold TileStore.ensureTile
  rw [h.grid]
  split
  · exact ⟨rfl, h.references⟩
  · exact h

theorem same_firstPass (hR : Confined ctx.surfaceId R) (h : Beside R s s') (key : TileKey)
    (index : Nat) (block : FirstBlock) :
    Same R (firstPass s ctx key index block) (firstPass s' ctx key index block) := by
  have hreference : s.references.contains (ctx.surfaceId, key) =
      s'.references.contains (ctx.surfaceId, key) := by
    rw [ExtTreeMap.contains_eq_isSome_getElem?, ExtTreeMap.contains_eq_isSome_getElem?,
      hR.lookup _ _ h.references]
  unfold firstPass
  simp only [hreference]
  split
  · exact ⟨h, rfl⟩
  · split
    · exact ⟨h.ensureTile index, rfl⟩
    · exact ⟨h.ensureTile index, rfl⟩

theorem same_takeJob (hR : Confined ctx.surfaceId R) (h : Beside R s s') (key : TileKey)
    (index : Nat) (pass : Pass) :
    Same R (takeJob s ctx key index pass) (takeJob s' ctx key index pass) := by
  unfold takeJob
  rw [h.grid]
  split
  · refine ⟨⟨rfl, hR.erase _ _ h.references key⟩, ?_⟩
    simp only [hR.lookup _ _ h.references key]
  · exact ⟨h, rfl⟩

theorem same_firstJob (hR : Confined ctx.surfaceId R) (h : Beside R s s') (key : TileKey)
    (index : Nat) (block : FirstBlock) :
    Same R
      (match firstPass s ctx key index block with
        | (s, .error e) => (s, .error e)
        | (s, .ok pass) => takeJob s ctx key index pass)
      (match firstPass s' ctx key index block with
        | (s, .error e) => (s, .error e)
        | (s, .ok pass) => takeJob s ctx key index pass) := by
  obtain ⟨hstore, hresult⟩ := same_firstPass hR h key index block
  generalize firstPass s ctx key index block = x at hstore hresult ⊢
  generalize firstPass s' ctx key index block = x' at hstore hresult ⊢
  obtain ⟨t, result⟩ := x
  obtain ⟨t', result'⟩ := x'
  cases hresult
  cases result with
  | error e => exact ⟨hstore, rfl⟩
  | ok pass => exact same_takeJob hR hstore key index pass

theorem same_prepare (hR : Confined ctx.surfaceId R) (h : Beside R s s') (tile : ProgressiveTile) :
    Same R (prepare s ctx tile) (prepare s' ctx tile) := by
  unfold prepare
  simp only [h.grid]
  cases s'.grid.tileIndex tile.key with
  | none => exact ⟨h, rfl⟩
  | some index =>
      cases tile with
      | simple t => exact same_firstJob hR h _ index _
      | first t => exact same_firstJob hR h _ index _
      | upgrade t =>
          have hensured := h.ensureTile index
          simp only [hensured.grid]
          split
          · exact ⟨hensured, rfl⟩
          · split
            · exact ⟨hensured, rfl⟩
            · exact same_takeJob hR hensured _ index _

theorem same_prepareRound (hR : Confined ctx.surfaceId R) (h : Beside R s s')
    (tiles : List ProgressiveTile) :
    Same R (prepareRound s ctx tiles) (prepareRound s' ctx tiles) := by
  induction tiles generalizing s s' with
  | nil => exact ⟨h, rfl⟩
  | cons tile tiles ih =>
      obtain ⟨hstore, hresult⟩ := same_prepare hR h tile
      unfold prepareRound
      generalize prepare s ctx tile = x at hstore hresult ⊢
      generalize prepare s' ctx tile = x' at hstore hresult ⊢
      obtain ⟨t, result⟩ := x
      obtain ⟨t', result'⟩ := x'
      cases hresult
      cases result with
      | error e => exact ⟨hstore, rfl⟩
      | ok job =>
          obtain ⟨hrest, hjobs⟩ := ih hstore
          exact ⟨hrest, by simp only [hjobs]⟩

theorem beside_returnJobs (hR : Confined ctx.surfaceId R) (jobs : List Job) (h : Beside R s s') :
    Beside R (jobs.foldl (returnJob ctx) s) (jobs.foldl (returnJob ctx) s') := by
  induction jobs generalizing s s' with
  | nil => exact h
  | cons job jobs ih =>
      refine ih ⟨by simp only [returnJob, h.grid], ?_⟩
      unfold returnJob
      cases job.reference with
      | none => exact h.references
      | some reference => exact hR.insert _ _ h.references job.key reference

variable (tr : Transforms)

theorem same_decodeRound (hR : Confined ctx.surfaceId R) (h : Beside R s s') (decoded : Decoded)
    (round : List ProgressiveTile) :
    Same R (decodeRound tr ctx s decoded round) (decodeRound tr ctx s' decoded round) := by
  obtain ⟨hstore, hresult⟩ := same_prepareRound hR h round
  unfold decodeRound
  generalize prepareRound s ctx round = x at hstore hresult ⊢
  generalize prepareRound s' ctx round = x' at hstore hresult ⊢
  obtain ⟨t, jobs, failure⟩ := x
  obtain ⟨t', jobs', failure'⟩ := x'
  cases hresult
  cases failure with
  | some e => exact ⟨beside_returnJobs hR jobs hstore, rfl⟩
  | none => exact ⟨beside_returnJobs hR _ hstore, rfl⟩

theorem same_decodeRounds (hR : Confined ctx.surfaceId R) (h : Beside R s s') (decoded : Decoded)
    (rounds : List (List ProgressiveTile)) :
    Same R (decodeRounds tr ctx s decoded rounds) (decodeRounds tr ctx s' decoded rounds) := by
  induction rounds generalizing s s' decoded with
  | nil => exact ⟨h, rfl⟩
  | cons round rounds ih =>
      obtain ⟨hstore, hresult⟩ := same_decodeRound tr hR h decoded round
      unfold decodeRounds
      generalize decodeRound tr ctx s decoded round = x at hstore hresult ⊢
      generalize decodeRound tr ctx s' decoded round = x' at hstore hresult ⊢
      obtain ⟨t, result⟩ := x
      obtain ⟨t', result'⟩ := x'
      cases hresult
      cases result with
      | error e => exact ⟨hstore, rfl⟩
      | ok decoded => exact ih hstore decoded

end Rounds

/-! ### Payloads -/

/-- The same payload state, with related references. -/
structure SamePlace (R : References → References → Prop) (st st' : PayloadState) : Prop where
  store : Beside R st.store st'.store
  frameTiles : st.frameTiles = st'.frameTiles
  out : st.out = st'.out
  work : st.work = st'.work
  inFrame : st.inFrame = st'.inFrame
  frameEnded : st.frameEnded = st'.frameEnded

section Payloads

variable {R : References → References → Prop} {st st' : PayloadState} {j : UInt16} (tr : Transforms)
  (width height : Nat) (flag : Bool)

theorem same_decodeRegion (hR : Confined j R) (h : SamePlace R st st') (region : ProgressiveRegion) :
    SamePlace R (decodeRegion tr j width height flag st region).1
        (decodeRegion tr j width height flag st' region).1 ∧
      (decodeRegion tr j width height flag st region).2 =
        (decodeRegion tr j width height flag st' region).2 := by
  let ctx : RegionCtx := ⟨j, flag, region⟩
  have hctx : Confined ctx.surfaceId R := hR
  have htiles : Same R (decodeRegionTiles tr st.store ctx) (decodeRegionTiles tr st'.store ctx) :=
    same_decodeRounds tr hctx h.store ∅ _
  obtain ⟨hstore, hresult⟩ := htiles
  unfold decodeRegion
  generalize decodeRegionTiles tr st.store ⟨j, flag, region⟩ = x at hstore hresult ⊢
  generalize decodeRegionTiles tr st'.store ⟨j, flag, region⟩ = x' at hstore hresult ⊢
  obtain ⟨t, result⟩ := x
  obtain ⟨t', result'⟩ := x'
  cases hresult
  cases result with
  | error e => exact ⟨⟨hstore, h.frameTiles, h.out, h.work, h.inFrame, h.frameEnded⟩, rfl⟩
  | ok regionTiles =>
      have hgrid : t.grid = t'.grid := hstore.grid
      simp only [h.frameTiles, h.out, h.work, hgrid]
      split
      · exact ⟨⟨hstore, rfl, rfl, rfl, h.inFrame, h.frameEnded⟩, rfl⟩
      · exact ⟨⟨hstore, rfl, rfl, rfl, h.inFrame, h.frameEnded⟩, rfl⟩

theorem same_decodeBlocks (hR : Confined j R) (h : SamePlace R st st')
    (blocks : List ProgressiveBlock) :
    SamePlace R (decodeBlocks tr j width height flag st blocks).1
        (decodeBlocks tr j width height flag st' blocks).1 ∧
      (decodeBlocks tr j width height flag st blocks).2 =
        (decodeBlocks tr j width height flag st' blocks).2 := by
  induction blocks generalizing st st' with
  | nil => exact ⟨h, rfl⟩
  | cons block blocks ih =>
      unfold decodeBlocks
      cases block with
      | frameBegin =>
          simp only [h.frameEnded]
          split
          · exact ih h
          · exact ih ⟨h.store, h.frameTiles, h.out, h.work, rfl, rfl⟩
      | frameEnd => exact ih ⟨h.store, h.frameTiles, h.out, h.work, rfl, rfl⟩
      | region region =>
          simp only [h.inFrame]
          split
          · obtain ⟨hplace, hresult⟩ := same_decodeRegion tr width height flag hR h region
            generalize decodeRegion tr j width height flag st region = x at hplace hresult ⊢
            generalize decodeRegion tr j width height flag st' region = x' at hplace hresult ⊢
            obtain ⟨t, result⟩ := x
            obtain ⟨t', result'⟩ := x'
            cases hresult
            cases result with
            | error e => exact ⟨hplace, rfl⟩
            | ok u => exact ih hplace
          · exact ih h
      | _ => exact ih h

end Payloads

/-! ### Codecs -/

/-- Two codecs with the same entries of a surface, in the same place of a frame. -/
structure Alike (id : UInt16) (codec codec' : ProgressiveCodec) : Prop where
  contexts : ∀ ctx : UInt32, codec.contexts[(id, ctx)]? = codec'.contexts[(id, ctx)]?
  references : SameReferences id codec.references codec'.references
  frameTiles : ∀ ctx : UInt32, codec.frameTiles[(id, ctx)]? = codec'.frameTiles[(id, ctx)]?
  frameActive : codec.frameActive = codec'.frameActive
  flag : codec.surfaceContextFlags[id]? = codec'.surfaceContextFlags[id]?

/-- Outside a frame nothing is kept of the tiles of one. -/
def Tidy (id : UInt16) (codec : ProgressiveCodec) : Prop :=
  codec.frameActive = false → ∀ ctx : UInt32, codec.frameTiles[(id, ctx)]? = none

section Codecs

variable {id j : UInt16} {codec codec' : ProgressiveCodec} (tr : Transforms)

theorem Alike.refl (id : UInt16) (codec : ProgressiveCodec) : Alike id codec codec :=
  ⟨fun _ => rfl, fun _ => rfl, fun _ => rfl, rfl, rfl⟩

theorem Alike.trans {codec'' : ProgressiveCodec} (h : Alike id codec codec')
    (h' : Alike id codec' codec'') : Alike id codec codec'' where
  contexts ctx := (h.contexts ctx).trans (h'.contexts ctx)
  references k := (h.references k).trans (h'.references k)
  frameTiles ctx := (h.frameTiles ctx).trans (h'.frameTiles ctx)
  frameActive := h.frameActive.trans h'.frameActive
  flag := h.flag.trans h'.flag

theorem Alike.noteContext (h : Alike id codec codec') (j : UInt16) (blocks : List ProgressiveBlock) :
    Alike id (codec.noteContext j blocks) (codec'.noteContext j blocks) := by
  refine ⟨h.contexts, h.references, h.frameTiles, h.frameActive, ?_⟩
  unfold ProgressiveCodec.noteContext
  cases signalledFlag blocks with
  | none => exact h.flag
  | some flag =>
      simp only [ExtTreeMap.getElem?_insert, h.flag]

theorem Alike.clearInactive (h : Alike id codec codec') :
    Alike id codec.clearInactive codec'.clearInactive := by
  unfold ProgressiveCodec.clearInactive
  rw [h.frameActive]
  split
  · exact h
  · exact ⟨h.contexts, h.references, fun _ => rfl, rfl, h.flag⟩

theorem alike_noteContext_other (hne : j ≠ id) (codec : ProgressiveCodec)
    (blocks : List ProgressiveBlock) : Alike id (codec.noteContext j blocks) codec := by
  refine ⟨fun _ => rfl, fun _ => rfl, fun _ => rfl, rfl, ?_⟩
  unfold ProgressiveCodec.noteContext
  cases signalledFlag blocks with
  | none => rfl
  | some flag => simp only [ExtTreeMap.getElem?_insert, LawfulEqCmp.compare_eq_iff_eq, if_neg hne]

theorem alike_clearInactive (h : Tidy id codec) : Alike id codec.clearInactive codec := by
  unfold ProgressiveCodec.clearInactive
  cases hactive : codec.frameActive with
  | true => exact .refl id codec
  | false =>
      refine ⟨fun _ => rfl, fun _ => rfl, fun ctx => ?_, hactive.symm, rfl⟩
      rw [h hactive ctx]
      exact ExtTreeMap.getElem?_empty

theorem Alike.gridFor_eq (h : Alike id codec codec') (ctx : UInt32) (width height : Nat)
    (flag : Bool) :
    codec.gridFor (id, ctx) width height flag = codec'.gridFor (id, ctx) width height flag := by
  unfold ProgressiveCodec.gridFor
  rw [h.contexts]

theorem Alike.contextFlag_eq (h : Alike id codec codec') (ctx : UInt32)
    (blocks : List ProgressiveBlock) :
    codec.contextFlag (id, ctx) blocks = codec'.contextFlag (id, ctx) blocks := by
  unfold ProgressiveCodec.contextFlag
  rw [h.contexts, h.flag]

theorem alike_decodePayload (h : Alike id codec codec') (ctx : UInt32) (surface : Size) (flag : Bool)
    (blocks : List ProgressiveBlock) :
    Alike id (codec.decodePayload tr (id, ctx) surface flag blocks).1
        (codec'.decodePayload tr (id, ctx) surface flag blocks).1 ∧
      (codec.decodePayload tr (id, ctx) surface flag blocks).2 =
        (codec'.decodePayload tr (id, ctx) surface flag blocks).2 := by
  unfold ProgressiveCodec.decodePayload
  rw [h.gridFor_eq]
  cases codec'.gridFor (id, ctx) surface.width surface.height flag with
  | none => exact ⟨h, rfl⟩
  | some g =>
      obtain ⟨grid, resized⟩ := g
      simp only [h.frameTiles]
      have hstart : SamePlace (SameReferences id)
          ⟨⟨grid, codec.references⟩, if resized then ∅ else (codec'.frameTiles[(id, ctx)]?).getD ∅, [],
            0, false, false⟩
          ⟨⟨grid, codec'.references⟩, if resized then ∅ else (codec'.frameTiles[(id, ctx)]?).getD ∅, [],
            0, false, false⟩ := ⟨⟨rfl, h.references⟩, rfl, rfl, rfl, rfl, rfl⟩
      obtain ⟨hplace, hresult⟩ := same_decodeBlocks tr surface.width surface.height flag
        (confined_same id) hstart blocks
      refine ⟨⟨fun ctx' => ?_, hplace.store.references, fun ctx' => ?_, h.frameActive, h.flag⟩, ?_⟩
      · simp only [ExtTreeMap.getElem?_insert, hplace.store.grid, h.contexts]
      · simp only [ExtTreeMap.getElem?_insert, hplace.frameTiles, h.frameTiles]
      · simp only [hresult, hplace.out]

theorem contextOrder_ne_eq (hne : j ≠ id) (ctx ctx' : UInt32) :
    ¬ contextOrder (j, ctx) (id, ctx') = .eq := by
  rw [LawfulEqCmp.compare_eq_iff_eq, Prod.mk.injEq]
  exact fun heq => hne heq.1

theorem alike_decodePayload_other (hne : j ≠ id) (codec : ProgressiveCodec) (ctx : UInt32)
    (surface : Size) (flag : Bool) (blocks : List ProgressiveBlock) :
    Alike id (codec.decodePayload tr (j, ctx) surface flag blocks).1 codec := by
  unfold ProgressiveCodec.decodePayload
  cases codec.gridFor (j, ctx) surface.width surface.height flag with
  | none => exact .refl id codec
  | some g =>
      obtain ⟨grid, resized⟩ := g
      have hstart : SamePlace (fun r r' => r = r' ∧ SameReferences id r codec.references)
          ⟨⟨grid, codec.references⟩, if resized then ∅ else (codec.frameTiles[(j, ctx)]?).getD ∅, [],
            0, false, false⟩
          ⟨⟨grid, codec.references⟩, if resized then ∅ else (codec.frameTiles[(j, ctx)]?).getD ∅, [],
            0, false, false⟩ := ⟨⟨rfl, rfl, fun _ => rfl⟩, rfl, rfl, rfl, rfl, rfl⟩
      obtain ⟨hplace, -⟩ := same_decodeBlocks tr surface.width surface.height flag
        (confined_other hne codec.references) hstart blocks
      refine ⟨fun ctx' => ?_, hplace.store.references.2, fun ctx' => ?_, rfl, rfl⟩
      · simp only [ExtTreeMap.getElem?_insert, if_neg (contextOrder_ne_eq hne ctx ctx')]
      · simp only [ExtTreeMap.getElem?_insert, if_neg (contextOrder_ne_eq hne ctx ctx')]

/-- **Locality.** A decode depends on the entries of its surface only. -/
theorem alike_decode (h : Alike id codec codec') (ctx : UInt32) (surface : Size) (data : Bytes) :
    Alike id (codec.decode tr id ctx surface data).1 (codec'.decode tr id ctx surface data).1 ∧
      (codec.decode tr id ctx surface data).2 = (codec'.decode tr id ctx surface data).2 := by
  unfold ProgressiveCodec.decode
  split
  · exact ⟨h, rfl⟩
  · cases tr.decodeProgressiveStream data with
    | error e => exact ⟨h, rfl⟩
    | ok blocks =>
        have hnoted := h.noteContext id blocks
        simp only [hnoted.contextFlag_eq]
        cases (codec'.noteContext id blocks).contextFlag (id, ctx) blocks with
        | none => exact ⟨hnoted, rfl⟩
        | some flag =>
            obtain ⟨halike, hresult⟩ := alike_decodePayload tr hnoted.clearInactive ctx surface flag
              blocks
            simp only
            generalize (codec.noteContext id blocks).clearInactive.decodePayload tr (id, ctx) surface
              flag blocks = x at halike hresult ⊢
            generalize (codec'.noteContext id blocks).clearInactive.decodePayload tr (id, ctx) surface
              flag blocks = x' at halike hresult ⊢
            obtain ⟨t, result⟩ := x
            obtain ⟨t', result'⟩ := x'
            cases hresult
            cases result with
            | error e => exact ⟨halike, rfl⟩
            | ok out => exact ⟨halike.clearInactive, rfl⟩

theorem Tidy.of_alike (h : Tidy id codec') (halike : Alike id codec codec') : Tidy id codec := by
  intro hactive ctx
  rw [halike.frameTiles]
  exact h (halike.frameActive ▸ hactive) ctx

/-- **Frame.** A decode for another surface leaves the entries of a surface alone. -/
theorem alike_decode_other (hne : j ≠ id) (h : Tidy id codec) (ctx : UInt32) (surface : Size)
    (data : Bytes) : Alike id (codec.decode tr j ctx surface data).1 codec := by
  unfold ProgressiveCodec.decode
  split
  · exact .refl id codec
  · cases tr.decodeProgressiveStream data with
    | error e => exact .refl id codec
    | ok blocks =>
        have hnoted := alike_noteContext_other hne codec blocks
        simp only
        cases (codec.noteContext j blocks).contextFlag (j, ctx) blocks with
        | none => exact hnoted
        | some flag =>
            have hpayload := (alike_decodePayload_other tr hne
              (codec.noteContext j blocks).clearInactive ctx surface flag blocks).trans
                ((alike_clearInactive (h.of_alike hnoted)).trans hnoted)
            simp only
            generalize (codec.noteContext j blocks).clearInactive.decodePayload tr (j, ctx) surface
              flag blocks = x at hpayload ⊢
            obtain ⟨t, result⟩ := x
            cases result with
            | error e => exact hpayload
            | ok out => exact (alike_clearInactive (h.of_alike hpayload)).trans hpayload

/-- After a decode that succeeds outside a frame nothing is kept of its tiles. -/
theorem tidy_decode {out : List BgraTile} {ctx : UInt32} {surface : Size} {data : Bytes}
    (h : (codec.decode tr j ctx surface data).2 = .ok out) :
    Tidy id (codec.decode tr j ctx surface data).1 := by
  have hcleared : ∀ codec : ProgressiveCodec, Tidy id codec.clearInactive := by
    intro codec hactive k
    unfold ProgressiveCodec.clearInactive at hactive ⊢
    cases hcodec : codec.frameActive with
    | true =>
        rw [hcodec] at hactive
        simp only [if_true] at hactive
        rw [hcodec] at hactive
        cases hactive
    | false => exact ExtTreeMap.getElem?_empty
  unfold ProgressiveCodec.decode at h ⊢
  split at h
  · cases h
  · next hdims =>
      rw [if_neg hdims]
      cases hblocks : tr.decodeProgressiveStream data with
      | error e =>
          rw [hblocks] at h
          cases h
      | ok blocks =>
          rw [hblocks] at h
          simp only at h ⊢
          cases hflag : (codec.noteContext j blocks).contextFlag (j, ctx) blocks with
          | none =>
              rw [hflag] at h
              cases h
          | some flag =>
              rw [hflag] at h
              simp only at h ⊢
              generalize (codec.noteContext j blocks).clearInactive.decodePayload tr (j, ctx) surface
                flag blocks = x at h ⊢
              obtain ⟨t, result⟩ := x
              cases result with
              | error e => cases h
              | ok out => exact hcleared t

end Codecs

end Drift.Codec
