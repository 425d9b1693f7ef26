import Drift.Codec.Proof.Tiles

/-!
# Rounds of tiles

The work of one tile block (`tileWork`), and that a round of `ProgressiveCodec` is a batch of it:
with `foldlM_batch_rounds`, a REGION is its tile blocks one after another
(`decodeRegionTiles_eq_foldlM`).
-/

namespace Drift.Codec

open Std Keyed Lockstep

/-! ### The work of a tile block -/

/-- A job without its place: the part it was taken from, the tile state, and the pass to do. -/
structure Task where
  part : Part
  state : TileState
  pass : Pass

def Task.job (task : Task) (key : TileKey) (index : Nat) : Job where
  key := key
  index := index
  state := task.state
  reference := task.part.reference
  pass := task.pass

def Task.decode (tr : Transforms) (useReduceExtrapolate : Bool) (task : Task) : Option TileState :=
  match task.pass with
  | .first data base prog quantIdx quality difference =>
    (TileState.decodeFirst tr data base prog quantIdx quality
      useReduceExtrapolate).toOption.bind fun state =>
        if difference then
          task.part.reference.map fun reference =>
            { state with
              coefficients := addReference state.coefficients reference
              isDifference := true }
        else some state
  | .upgrade srl raw prog quality => (task.state.decodeUpgrade tr srl raw prog quality).toOption

/-- The part with a new tile state and its coefficients as the reference. -/
def Part.retain (part : Part) (state : TileState) : Part :=
  { part with tile := some state, reference := some state.coefficients }

/-- The pass of a TILE_SIMPLE or TILE_FIRST, when its checks succeed. -/
def firstTask (ctx : RegionCtx) (part : Part) (block : FirstBlock) : Option (Part × Option Task) :=
  let difference := block.flags &&& tileFlagDifference != 0
  if difference && !part.reference.isSome then none
  else
    match ctx.region.quantVals[block.quantIdx.y.toNat]?,
      ctx.region.quantVals[block.quantIdx.cb.toNat]?,
      ctx.region.quantVals[block.quantIdx.cr.toNat]? with
    | some y, some cb, some cr =>
      (progQuants block.quality ctx.region.quantProgVals).toOption.map fun q =>
        ({ part with tile := none, reference := none },
          some ⟨part, part.tile.getD part.fresh,
            .first block.data ⟨y, cb, cr⟩ q.1 block.quantIdx q.2 difference⟩)
    | _, _, _ => none

def prepareTask (ctx : RegionCtx) (tile : ProgressiveTile) (part : Part) :
    Option (Part × Option Task) :=
  match tile with
  | .simple t => firstTask ctx part ⟨t.flags, t.quantIdx, t.data, none⟩
  | .first t => firstTask ctx part ⟨t.flags, t.quantIdx, t.data, some t.quality⟩
  | .upgrade t =>
    let state := part.tile.getD part.fresh
    if state.pass = 0 then some ({ part with tile := some state }, none)
    else
      (progressiveQuant t.quality ctx.region.quantProgVals).toOption.map fun pq =>
        ({ part with tile := none, reference := none },
          some ⟨part, state, .upgrade t.srlData t.rawData pq.components t.quality⟩)

def tileWork (tr : Transforms) (ctx : RegionCtx) : Work ProgressiveTile Part Task Bytes where
  prepare := prepareTask ctx
  finish task := (task.decode tr ctx.useReduceExtrapolate).map fun state =>
    (task.part.retain state, (tr.reconstructToRgba state).toList)

def decodedOutput : Output Decoded TileKey Bytes where
  emit decoded key px := decoded.insert key (swizzle px)
  emit_comm := by
    intro decoded j k p q hne
    refine ExtTreeMap.ext_getElem? fun i => ?_
    simp only [ExtTreeMap.getElem?_insert, LawfulEqCmp.compare_eq_iff_eq]
    by_cases hj : j = i
    · have hk : k ≠ i := fun hk => hne (hj.trans hk.symm)
      rw [if_neg hk, if_pos hj, if_pos hj]
    · rw [if_neg hj, if_neg hj]

/-! ### Preparing -/

section Prepare

variable (s : TileStore) (ctx : RegionCtx) {k : TileKey}

theorem setAt_get {grid : SurfaceTiles} (h : grid.InBounds k) :
    grid.setAt (grid.position k) (grid.get k) = grid := by
  have htiles : grid.tiles.setIfInBounds (grid.position k) (grid.get k) = grid.tiles := by
    refine Vector.ext fun i hi => ?_
    rw [Vector.getElem_setIfInBounds hi]
    split
    · next hi' =>
      subst hi'
      have hget := SurfaceTiles.getElem?_position h
      rw [Vector.getElem?_eq_getElem hi] at hget
      exact (Option.some.inj hget).symm
    · rfl
  exact congrArg (fun tiles => { grid with tiles := tiles }) htiles

theorem ensureTile_eq (h : s.grid.InBounds k) :
    s.ensureTile (s.grid.position k) =
      { s with
        grid := s.grid.setAt (s.grid.position k)
          (some ((s.grid.get k).getD s.grid.freshTile)) } := by
  simp only [TileStore.ensureTile, SurfaceTiles.getElem?_position h]
  cases htile : s.grid.get k with
  | none => rfl
  | some tile =>
      have hself := setAt_get h
      rw [htile] at hself
      simp only [Option.getD_some, hself]

variable {s} in
theorem takeJob_of_getElem? {index : Nat} {state : TileState}
    (h : s.grid.tiles[index]? = some (some state)) (pass : Pass) :
    takeJob s ctx k index pass =
      ({ grid := s.grid.setAt index none
         references := s.references.erase (ctx.surfaceId, k) },
        .ok (some
          { key := k
            index := index
            state := state
            reference := s.references[(ctx.surfaceId, k)]?
            pass := pass })) := by
  simp only [takeJob, h]

theorem takeJob_ensureTile (h : s.grid.InBounds k) (pass : Pass) :
    takeJob (s.ensureTile (s.grid.position k)) ctx k (s.grid.position k) pass =
      (s.setPart ctx.surfaceId k { s.part ctx.surfaceId k with tile := none, reference := none },
        .ok (some ((Task.mk (s.part ctx.surfaceId k)
          ((s.grid.get k).getD s.grid.freshTile) pass).job k (s.grid.position k)))) := by
  have hget : (s.grid.setAt (s.grid.position k)
      (some ((s.grid.get k).getD s.grid.freshTile))).tiles[s.grid.position k]? =
      some (some ((s.grid.get k).getD s.grid.freshTile)) :=
    Vector.getElem?_setIfInBounds_self_of_lt (SurfaceTiles.position_lt h)
  rw [ensureTile_eq s h, takeJob_of_getElem? ctx hget, SurfaceTiles.setAt_setAt]
  rfl

theorem committed_firstPass (h : s.grid.InBounds k) (block : FirstBlock) :
    committed (match firstPass s ctx k (s.grid.position k) block with
      | (s, .error e) => (s, .error e)
      | (s', .ok pass) => takeJob s' ctx k (s.grid.position k) pass) =
      (firstTask ctx (s.part ctx.surfaceId k) block).map fun r =>
        (s.setPart ctx.surfaceId k r.1, r.2.map fun task => task.job k (s.grid.position k)) := by
  have href : s.references.contains (ctx.surfaceId, k) =
      (s.part ctx.surfaceId k).reference.isSome := by
    rw [TileStore.part, ExtTreeMap.contains_eq_isSome_getElem?]
  unfold firstPass firstTask
  simp only [href]
  by_cases hmissing : (block.flags &&& tileFlagDifference != 0 &&
      !(s.part ctx.surfaceId k).reference.isSome) = true
  · simp only [if_pos hmissing]
    rfl
  · simp only [if_neg hmissing]
    cases ctx.region.quantVals[block.quantIdx.y.toNat]? with
    | none => rfl
    | some y =>
        cases ctx.region.quantVals[block.quantIdx.cb.toNat]? with
        | none => rfl
        | some cb =>
            cases ctx.region.quantVals[block.quantIdx.cr.toNat]? with
            | none => rfl
            | some cr =>
                cases progQuants block.quality ctx.region.quantProgVals with
                | error e => rfl
                | ok q =>
                    simp only [Except.map, takeJob_ensureTile s ctx h, committed_ok, toOption_ok,
                      Option.map_some]
                    rfl

/-- Preparing a tile block is the preparation of `tileWork` on the part under its key. -/
theorem committed_prepare (tr : Transforms) (tile : ProgressiveTile) :
    committed (prepare s ctx tile) =
      if s.grid.InBounds tile.key then
        ((tileWork tr ctx).prepare tile (s.part ctx.surfaceId tile.key)).map fun r =>
          (s.setPart ctx.surfaceId tile.key r.1,
            r.2.map fun task => task.job tile.key (s.grid.position tile.key))
      else none := by
  by_cases h : s.grid.InBounds tile.key
  · rw [if_pos h]
    simp only [prepare, SurfaceTiles.tileIndex_of_inBounds h]
    cases tile with
    | simple t => exact committed_firstPass s ctx h _
    | first t => exact committed_firstPass s ctx h _
    | upgrade t =>
        have hget : (s.ensureTile (s.grid.position (ProgressiveTile.upgrade t).key)).grid.get
            (ProgressiveTile.upgrade t).key =
            some ((s.grid.get (ProgressiveTile.upgrade t).key).getD s.grid.freshTile) := by
          rw [ensureTile_eq s h]
          exact SurfaceTiles.get_setAt_self h _
        simp only [hget, Option.all_some, tileWork, prepareTask]
        by_cases hpass : ((s.grid.get (ProgressiveTile.upgrade t).key).getD
            s.grid.freshTile).pass = 0
        · have hpart : ((s.part ctx.surfaceId (ProgressiveTile.upgrade t).key).tile.getD
              (s.part ctx.surfaceId (ProgressiveTile.upgrade t).key).fresh).pass = 0 := hpass
          simp only [hpass, hpart, decide_true, if_true, committed_ok, Option.map_some,
            Option.map_none, ensureTile_eq s h]
          simp only [TileStore.setPart, TileStore.part, setReference_self]
        · have hpart : ¬((s.part ctx.surfaceId (ProgressiveTile.upgrade t).key).tile.getD
              (s.part ctx.surfaceId (ProgressiveTile.upgrade t).key).fresh).pass = 0 := hpass
          simp only [hpass, hpart, decide_false, Bool.false_eq_true, if_false]
          cases progressiveQuant t.quality ctx.region.quantProgVals with
          | error e => rfl
          | ok pq =>
              simp only [takeJob_ensureTile s ctx h, committed_ok, toOption_ok, Option.map_some]
              rfl
  · rw [if_neg h]
    simp only [prepare, SurfaceTiles.tileIndex_of_not_inBounds h, committed_error]

end Prepare

/-! ### Rounds -/

section Rounds

variable (tr : Transforms) (ctx : RegionCtx)

/-- The jobs of a round, unless preparing it failed. -/
def preparedRound : TileStore × List Job × Option CodecError → Option (TileStore × List Job)
  | (s, jobs, none) => some (s, jobs)
  | (_, _, some _) => none

def placeTasks (position : TileKey → Nat) (tasks : List (TileKey × Task)) : List Job :=
  tasks.map fun t => t.2.job t.1 (position t.1)

theorem preparedRound_cons (s : TileStore) (tile : ProgressiveTile)
    (tiles : List ProgressiveTile) :
    preparedRound (prepareRound s ctx (tile :: tiles)) =
      (committed (prepare s ctx tile)).bind fun p =>
        (preparedRound (prepareRound p.1 ctx tiles)).map fun q => (q.1, p.2.toList ++ q.2) := by
  rw [prepareRound]
  rcases prepare s ctx tile with ⟨s', e | job⟩
  · rfl
  · rcases hround : prepareRound s' ctx tiles with ⟨s'', jobs, _ | e⟩
    · simp only [hround, committed_ok, Option.bind_some, preparedRound, Option.map_some]
    · simp only [hround, committed_ok, Option.bind_some, preparedRound, Option.map_none]

theorem preparedRound_prepareRound (s : TileStore) (tiles : List ProgressiveTile) :
    preparedRound (prepareRound s ctx tiles) =
      (prepareAll (tileStore ctx.surfaceId) (tileWork tr ctx) ProgressiveTile.key s tiles).map
        fun q => (q.1, placeTasks s.grid.position q.2) := by
  induction tiles generalizing s with
  | nil => rfl
  | cons tile tiles ih =>
      rw [preparedRound_cons, committed_prepare s ctx tr tile, prepareAll]
      by_cases hvalid : s.grid.InBounds tile.key
      · rw [if_pos hvalid, if_pos (c := (tileStore ctx.surfaceId).Valid s tile.key) hvalid,
          Option.bind_map, Option.map_bind]
        congr 1
        funext r
        -- Writing a part does not move the places of the tiles.
        have hplaces : (s.setPart ctx.surfaceId tile.key r.1).grid.position = s.grid.position := rfl
        simp only [Function.comp_apply, ih, hplaces, Option.map_map]
        congr 1
        funext q
        cases r.2 <;> rfl
      · rw [if_neg hvalid, if_neg (c := (tileStore ctx.surfaceId).Valid s tile.key) hvalid]
        rfl

/-- Running a job is the pass of its task, with the new coefficients as the reference. -/
theorem runJob_job (task : Task) (k : TileKey) (index : Nat) :
    match task.decode tr ctx.useReduceExtrapolate with
    | none => ∃ job e, runJob tr (task.job k index) ctx.useReduceExtrapolate = (job, .error e)
    | some state =>
      runJob tr (task.job k index) ctx.useReduceExtrapolate =
        ({ task.job k index with state := state, reference := some state.coefficients },
          .ok (k, renderBgra tr state)) := by
  obtain ⟨part, state, pass⟩ := task
  cases pass with
  | first data base prog quantIdx quality difference =>
      simp only [Task.decode, runJob, runPass, Task.job]
      cases hfirst : TileState.decodeFirst tr data base prog quantIdx quality
          ctx.useReduceExtrapolate with
      | error e => exact ⟨_, _, rfl⟩
      | ok state =>
          simp only [toOption_ok, Option.bind_some]
          cases difference with
          | false => rfl
          | true =>
              cases part.reference with
              | none => exact ⟨_, _, rfl⟩
              | some reference => rfl
  | upgrade srl raw prog quality =>
      simp only [Task.decode, runJob, runPass, Task.job]
      cases state.decodeUpgrade tr srl raw prog quality with
      | error e => exact ⟨_, _, rfl⟩
      | ok state => rfl

/-- Running and returning the jobs of a round finishes its tasks and puts their parts back. -/
theorem committed_returnJobs (tasks : List (TileKey × Task)) (s : TileStore) (decoded : Decoded) :
    let results := (placeTasks s.grid.position tasks).map fun job =>
      runJob tr job ctx.useReduceExtrapolate
    committed ((results.map Prod.fst).foldl (returnJob ctx) s,
        collectResults decoded (results.map Prod.snd)) =
      (finishAll (tileWork tr ctx) tasks).map fun rs =>
        (putBack (tileStore ctx.surfaceId) s rs, emitAll decodedOutput decoded rs) := by
  induction tasks generalizing s decoded with
  | nil => rfl
  | cons t tasks ih =>
      obtain ⟨k, task⟩ := t
      have hjob := runJob_job tr ctx task k (s.grid.position k)
      simp only [placeTasks, List.map_cons, finishAll, List.mapM_cons]
      cases hdecode : task.decode tr ctx.useReduceExtrapolate with
      | none =>
          rw [hdecode] at hjob
          obtain ⟨job, e, hjob⟩ := hjob
          simp [hjob, collectResults, tileWork, hdecode]
      | some state =>
          rw [hdecode] at hjob
          simp only at hjob
          have hreturn : returnJob ctx s
              { task.job k (s.grid.position k) with
                state := state
                reference := some state.coefficients } =
              s.setPart ctx.surfaceId k (task.part.retain state) := rfl
          simp only [hjob, collectResults, List.foldl_cons, hreturn]
          refine (ih (s.setPart ctx.surfaceId k (task.part.retain state))
            (decoded.insert k (renderBgra tr state))).trans ?_
          simp only [tileWork, hdecode, Option.map_some, Option.bind_eq_bind, Option.bind_some,
            finishAll]
          cases List.mapM (fun j : TileKey × Task =>
            Option.map (fun r : Part × Bytes => (j.1, r.1, r.2)) (Option.map (fun state =>
              (j.2.part.retain state, (tr.reconstructToRgba state).toList))
                (j.2.decode tr ctx.useReduceExtrapolate))) tasks with
          | none => rfl
          | some rs => rfl

theorem position_of_prepareAll {s : TileStore} {tiles : List ProgressiveTile}
    {q : TileStore × List (TileKey × Task)}
    (h : prepareAll (tileStore ctx.surfaceId) (tileWork tr ctx) ProgressiveTile.key s tiles =
      some q) : q.1.grid.position = s.grid.position := by
  induction tiles generalizing s q with
  | nil =>
      obtain rfl := Option.some.inj h
      rfl
  | cons tile tiles ih =>
      rw [prepareAll] at h
      split at h
      · obtain ⟨r, _, h⟩ := Option.bind_eq_some_iff.mp h
        obtain ⟨q', hq', rfl⟩ := Option.map_eq_some_iff.mp h
        exact (ih hq').trans rfl
      · cases h

theorem committed_decodeRound (s : TileStore) (decoded : Decoded) (round : List ProgressiveTile) :
    committed (decodeRound tr ctx s decoded round) =
      batch (tileStore ctx.surfaceId) (tileWork tr ctx) decodedOutput ProgressiveTile.key
        (s, decoded) round := by
  have hprepared := preparedRound_prepareRound tr ctx s round
  unfold batch decodeRound
  cases hall : prepareAll (tileStore ctx.surfaceId) (tileWork tr ctx) ProgressiveTile.key s
      round with
  | none =>
      rw [hall] at hprepared
      rcases hround : prepareRound s ctx round with ⟨s', jobs, _ | e⟩
      · rw [hround] at hprepared
        cases hprepared
      · rfl
  | some q =>
      rw [hall] at hprepared
      rcases hround : prepareRound s ctx round with ⟨s', jobs, _ | e⟩
      · rw [hround] at hprepared
        obtain ⟨rfl, rfl⟩ := Prod.mk.inj (Option.some.inj hprepared)
        rw [← position_of_prepareAll tr ctx hall]
        exact committed_returnJobs tr ctx q.2 q.1 decoded
      · rw [hround] at hprepared
        cases hprepared

theorem committed_decodeRounds (s : TileStore) (decoded : Decoded)
    (rounds : List (List ProgressiveTile)) :
    committed (decodeRounds tr ctx s decoded rounds) =
      rounds.foldlM (batch (tileStore ctx.surfaceId) (tileWork tr ctx) decodedOutput
        ProgressiveTile.key) (s, decoded) := by
  induction rounds generalizing s decoded with
  | nil => rfl
  | cons round rounds ih =>
      rw [List.foldlM_cons, ← committed_decodeRound, decodeRounds]
      rcases decodeRound tr ctx s decoded round with ⟨s', e | decoded'⟩
      · rfl
      · exact ih s' decoded'

/-- **REGIONs.** Decoding the tiles of a REGION in rounds is decoding them one after another. -/
theorem committed_decodeRegionTiles (s : TileStore) :
    committed (decodeRegionTiles tr s ctx) =
      ctx.region.tiles.foldlM (step (tileStore ctx.surfaceId) (tileWork tr ctx) decodedOutput
        ProgressiveTile.key) (s, ∅) := by
  rw [decodeRegionTiles, committed_decodeRounds, foldlM_batch_rounds]

end Rounds

end Drift.Codec
