import Drift.Codec.Proof.Tiles

/-!
# No tile is lost

The jobs of a round own the tiles and references they were prepared from (`Entrusted`), and whatever becomes
of them, putting them back leaves every tile and reference that was there (`Retains`). So does a whole call,
on every path (`keeps_decode`).
-/

namespace Drift.Codec

open Std

/-- Every tile and reference is still there, and what belongs to no named tile of the surface is as it was. -/
structure Retains (id : UInt16) (named : TileKey → Prop) (s s' : TileStore) : Prop where
  wide : s'.grid.tilesWide = s.grid.tilesWide
  high : s'.grid.tilesHigh = s.grid.tilesHigh
  tiles : ∀ k, (s.grid.get k).isSome = true → (s'.grid.get k).isSome = true
  references : ∀ k : ReferenceKey, s.references[k]?.isSome = true → s'.references[k]?.isSome = true
  sameTile : ∀ k, ¬ named k → s'.grid.get k = s.grid.get k
  sameReference : ∀ k : ReferenceKey, (k.1 = id → ¬ named k.2) → s'.references[k]? = s.references[k]?

/-- The job is about to add a reference that it does not have. -/
def Job.LostReference (job : Job) : Prop :=
  match job.pass with
  | .first _ _ _ _ _ difference => difference = true ∧ job.reference = none
  | .upgrade _ _ _ _ => False

/-- A job of a tile of the grid. -/
structure Job.Placed (grid : SurfaceTiles) (named : TileKey → Prop) (job : Job) : Prop where
  named : named job.key
  inBounds : grid.InBounds job.key
  index : job.index = grid.position job.key

/-- Some tiles and references have moved to jobs, and everything else is still there. -/
structure Entrusted (id : UInt16) (named : TileKey → Prop) (s : TileStore) (jobs : List Job)
    (s' : TileStore) : Prop where
  wide : s'.grid.tilesWide = s.grid.tilesWide
  high : s'.grid.tilesHigh = s.grid.tilesHigh
  tiles : ∀ k, (s.grid.get k).isSome = true →
    (s'.grid.get k).isSome = true ∨ ∃ job ∈ jobs, job.key = k
  references : ∀ k : ReferenceKey, s.references[k]?.isSome = true →
    s'.references[k]?.isSome = true ∨ ∃ job ∈ jobs, (id, job.key) = k ∧ job.reference.isSome = true
  sameTile : ∀ k, ¬ named k → s'.grid.get k = s.grid.get k
  sameReference : ∀ k : ReferenceKey, (k.1 = id → ¬ named k.2) → s'.references[k]? = s.references[k]?
  placed : ∀ job ∈ jobs, job.Placed s.grid named
  supplied : ∀ job ∈ jobs, ¬ job.LostReference

section Relations

variable {id : UInt16} {named named' : TileKey → Prop} {s s' s'' : TileStore} {jobs jobs' : List Job}

theorem Retains.refl (id : UInt16) (named : TileKey → Prop) (s : TileStore) : Retains id named s s :=
  ⟨rfl, rfl, fun _ h => h, fun _ h => h, fun _ _ => rfl, fun _ _ => rfl⟩

theorem Retains.trans (h : Retains id named s s') (h' : Retains id named s' s'') :
    Retains id named s s'' where
  wide := h'.wide.trans h.wide
  high := h'.high.trans h.high
  tiles k hk := h'.tiles k (h.tiles k hk)
  references k hk := h'.references k (h.references k hk)
  sameTile k hk := (h'.sameTile k hk).trans (h.sameTile k hk)
  sameReference k hk := (h'.sameReference k hk).trans (h.sameReference k hk)

theorem Retains.mono (h : Retains id named s s') (named' : TileKey → Prop)
    (hnamed : ∀ k, named k → named' k) :
    Retains id named' s s' where
  wide := h.wide
  high := h.high
  tiles := h.tiles
  references := h.references
  sameTile k hk := h.sameTile k fun hnamed' => hk (hnamed k hnamed')
  sameReference k hk := h.sameReference k fun hid hnamed' => hk hid (hnamed k.2 hnamed')

theorem inBounds_congr {grid grid' : SurfaceTiles} {k : TileKey} (hwide : grid'.tilesWide = grid.tilesWide)
    (hhigh : grid'.tilesHigh = grid.tilesHigh) : grid'.InBounds k ↔ grid.InBounds k := by
  unfold SurfaceTiles.InBounds
  rw [hwide, hhigh]

theorem position_congr {grid grid' : SurfaceTiles} {k : TileKey}
    (hwide : grid'.tilesWide = grid.tilesWide) : grid'.position k = grid.position k := by
  unfold SurfaceTiles.position
  rw [hwide]

theorem Job.Placed.congr {grid grid' : SurfaceTiles} {job : Job} (h : job.Placed grid' named)
    (hwide : grid'.tilesWide = grid.tilesWide) (hhigh : grid'.tilesHigh = grid.tilesHigh)
    (hnamed : ∀ k, named k → named' k) : job.Placed grid named' where
  named := hnamed _ h.named
  inBounds := (inBounds_congr hwide hhigh).mp h.inBounds
  index := h.index.trans (position_congr hwide)

theorem Entrusted.mono (h : Entrusted id named s jobs s') (named' : TileKey → Prop)
    (hnamed : ∀ k, named k → named' k) :
    Entrusted id named' s jobs s' where
  wide := h.wide
  high := h.high
  tiles := h.tiles
  references := h.references
  sameTile k hk := h.sameTile k fun hnamed' => hk (hnamed k hnamed')
  sameReference k hk := h.sameReference k fun hid hnamed' => hk hid (hnamed k.2 hnamed')
  placed job hjob := (h.placed job hjob).congr rfl rfl hnamed
  supplied := h.supplied

theorem Entrusted.append (h : Entrusted id named s jobs s') (h' : Entrusted id named s' jobs' s'') :
    Entrusted id named s (jobs ++ jobs') s'' where
  wide := h'.wide.trans h.wide
  high := h'.high.trans h.high
  tiles := by
    intro k hk
    rcases h.tiles k hk with hkept | ⟨job, hjob, hkey⟩
    · rcases h'.tiles k hkept with hkept' | ⟨job, hjob, hkey⟩
      · exact .inl hkept'
      · exact .inr ⟨job, List.mem_append_right jobs hjob, hkey⟩
    · exact .inr ⟨job, List.mem_append_left jobs' hjob, hkey⟩
  references := by
    intro k hk
    rcases h.references k hk with hkept | ⟨job, hjob, hkey⟩
    · rcases h'.references k hkept with hkept' | ⟨job, hjob, hkey⟩
      · exact .inl hkept'
      · exact .inr ⟨job, List.mem_append_right jobs hjob, hkey⟩
    · exact .inr ⟨job, List.mem_append_left jobs' hjob, hkey⟩
  sameTile k hk := (h'.sameTile k hk).trans (h.sameTile k hk)
  sameReference k hk := (h'.sameReference k hk).trans (h.sameReference k hk)
  placed := by
    intro job hjob
    rcases List.mem_append.mp hjob with hfirst | hlater
    · exact h.placed job hfirst
    · exact (h'.placed job hlater).congr h.wide h.high fun _ hk => hk
  supplied := by
    intro job hjob
    rcases List.mem_append.mp hjob with hfirst | hlater
    · exact h.supplied job hfirst
    · exact h'.supplied job hlater

theorem Retains.entrusted (h : Retains id named s s') : Entrusted id named s [] s' where
  wide := h.wide
  high := h.high
  tiles k hk := .inl (h.tiles k hk)
  references k hk := .inl (h.references k hk)
  sameTile := h.sameTile
  sameReference := h.sameReference
  placed _ hjob := (List.not_mem_nil hjob).elim
  supplied _ hjob := (List.not_mem_nil hjob).elim

end Relations

/-! ### Preparing -/

section Prepare

variable {s : TileStore} {ctx : RegionCtx} {key : TileKey} {index : Nat}

theorem get_setAt_other {grid : SurfaceTiles} {j k : TileKey} (hk : grid.InBounds k) (hne : j ≠ k)
    (tile : Option TileState) : (grid.setAt (grid.position k) tile).get j = grid.get j := by
  by_cases hj : grid.InBounds j
  · exact SurfaceTiles.get_setAt_of_ne hj hk hne tile
  · have hj' : ¬ (grid.setAt (grid.position k) tile).InBounds j := hj
    rw [SurfaceTiles.get, SurfaceTiles.get, SurfaceTiles.tileIndex_of_not_inBounds hj,
      SurfaceTiles.tileIndex_of_not_inBounds hj']
    rfl

theorem retains_setAt (id : UInt16) (hkey : s.grid.InBounds key) (tile : TileState) :
    Retains id (· = key) s { s with grid := s.grid.setAt (s.grid.position key) (some tile) } where
  wide := rfl
  high := rfl
  tiles := by
    intro k hk
    by_cases hne : k = key
    · rw [hne, SurfaceTiles.get_setAt_self hkey]
      rfl
    · rw [get_setAt_other hkey hne]
      exact hk
  references _ hk := hk
  sameTile _ hk := get_setAt_other hkey hk _
  sameReference _ _ := rfl

theorem retains_ensureTile (id : UInt16) (hkey : s.grid.InBounds key) :
    Retains id (· = key) s (s.ensureTile (s.grid.position key)) := by
  unfold TileStore.ensureTile
  split
  · exact retains_setAt id hkey _
  · exact .refl id _ s

theorem references_ensureTile (s : TileStore) (index : Nat) :
    (s.ensureTile index).references = s.references := by
  unfold TileStore.ensureTile
  split <;> rfl

theorem firstPass_spec (ctx : RegionCtx) (hkey : s.grid.InBounds key) (block : FirstBlock) :
    Retains ctx.surfaceId (· = key) s (firstPass s ctx key (s.grid.position key) block).1 ∧
      ∀ pass, (firstPass s ctx key (s.grid.position key) block).2 = .ok pass →
        (firstPass s ctx key (s.grid.position key) block).1 = s.ensureTile (s.grid.position key) ∧
        (s.references[(ctx.surfaceId, key)]? = none →
          ∀ job : Job, job.pass = pass → ¬ job.LostReference) := by
  unfold firstPass
  simp only
  by_cases hmissing : (block.flags &&& tileFlagDifference != 0 &&
      !s.references.contains (ctx.surfaceId, key)) = true
  · rw [if_pos hmissing]
    exact ⟨.refl _ _ s, fun _ hpass => nomatch hpass⟩
  · rw [if_neg hmissing]
    split
    · next y cb cr hy hcb hcr =>
        refine ⟨retains_ensureTile _ hkey, fun pass hpass => ⟨rfl, fun hnone job hjob => ?_⟩⟩
        simp only at hpass
        cases hquants : progQuants block.quality ctx.region.quantProgVals with
        | error e =>
            rw [hquants] at hpass
            cases hpass
        | ok q =>
            rw [hquants] at hpass
            obtain rfl := Except.ok.inj hpass
            rw [ExtTreeMap.contains_eq_isSome_getElem?, hnone] at hmissing
            unfold Job.LostReference
            rw [hjob]
            rintro ⟨hdifference, -⟩
            rw [hdifference] at hmissing
            exact hmissing rfl
    · exact ⟨retains_ensureTile _ hkey, fun _ hpass => nomatch hpass⟩

def jobsOf : Except CodecError (Option Job) → List Job
  | .error _ => []
  | .ok job => job.toList

theorem entrusted_takeJob (ctx : RegionCtx) (hkey : s.grid.InBounds key) (pass : Pass)
    (hsupplied : s.references[(ctx.surfaceId, key)]? = none →
      ∀ job : Job, job.pass = pass → ¬ job.LostReference) :
    Entrusted ctx.surfaceId (· = key) s (jobsOf (takeJob s ctx key (s.grid.position key) pass).2)
      (takeJob s ctx key (s.grid.position key) pass).1 := by
  unfold takeJob
  split
  · next state hstate =>
      refine ⟨rfl, rfl, ?_, ?_, ?_, ?_, ?_, ?_⟩
      · intro k hk
        by_cases hne : k = key
        · exact .inr ⟨_, List.mem_singleton_self _, hne.symm⟩
        · rw [get_setAt_other hkey hne]
          exact .inl hk
      · intro k hk
        by_cases hne : (ctx.surfaceId, key) = k
        · exact .inr ⟨_, List.mem_singleton_self _, hne, by rw [hne]; exact hk⟩
        · refine .inl ?_
          rw [ExtTreeMap.getElem?_erase, if_neg (by rwa [LawfulEqCmp.compare_eq_iff_eq])]
          exact hk
      · exact fun k hk => get_setAt_other hkey hk _
      · intro k hk
        have hne : (ctx.surfaceId, key) ≠ k := by
          rintro rfl
          exact hk rfl rfl
        rw [ExtTreeMap.getElem?_erase, if_neg (by rwa [LawfulEqCmp.compare_eq_iff_eq])]
      · intro job hjob
        obtain rfl := List.mem_singleton.mp hjob
        exact ⟨rfl, hkey, rfl⟩
      · intro job hjob
        obtain rfl := List.mem_singleton.mp hjob
        cases hreference : s.references[(ctx.surfaceId, key)]? with
        | none => exact hsupplied hreference _ rfl
        | some reference =>
            unfold Job.LostReference
            simp only
            cases pass with
            | first data base prog quantIdx quality difference => exact fun h => nomatch h.2
            | upgrade srl raw prog quality => exact not_false
  · exact (Retains.refl _ _ s).entrusted

theorem entrusted_firstPass (hkey : s.grid.InBounds key) (block : FirstBlock) :
    Entrusted ctx.surfaceId (· = key) s
      (jobsOf (match firstPass s ctx key (s.grid.position key) block with
        | (s, .error e) => (s, .error e)
        | (s', .ok pass) => takeJob s' ctx key (s.grid.position key) pass :
          TileStore × Except CodecError (Option Job)).2)
      (match firstPass s ctx key (s.grid.position key) block with
        | (s, .error e) => (s, .error e)
        | (s', .ok pass) => takeJob s' ctx key (s.grid.position key) pass :
          TileStore × Except CodecError (Option Job)).1 := by
  obtain ⟨hretains, hpass⟩ := firstPass_spec ctx hkey block
  cases hfirst : firstPass s ctx key (s.grid.position key) block with
  | mk s' result =>
      rw [hfirst] at hretains hpass
      cases result with
      | error e => exact hretains.entrusted
      | ok pass =>
          obtain ⟨hstore, hsupplied⟩ := hpass pass rfl
          have hkey' : s'.grid.InBounds key := (inBounds_congr hretains.wide hretains.high).mpr hkey
          have hreferences : s'.references = s.references := by
            simp only at hstore
            rw [hstore]
            exact references_ensureTile _ _
          rw [← hreferences] at hsupplied
          have htaken := entrusted_takeJob ctx hkey' pass hsupplied
          rw [position_congr hretains.wide] at htaken
          exact hretains.entrusted.append htaken

theorem entrusted_prepare (s : TileStore) (ctx : RegionCtx) (tile : ProgressiveTile) :
    Entrusted ctx.surfaceId (· = tile.key) s (jobsOf (prepare s ctx tile).2)
      (prepare s ctx tile).1 := by
  unfold prepare
  simp only
  by_cases hkey : s.grid.InBounds tile.key
  · rw [SurfaceTiles.tileIndex_of_inBounds hkey]
    cases tile with
    | simple t => exact entrusted_firstPass hkey _
    | first t => exact entrusted_firstPass hkey _
    | upgrade t =>
        have hretains := retains_ensureTile ctx.surfaceId hkey
        simp only
        split
        · exact hretains.entrusted
        · split
          · exact hretains.entrusted
          · next pq _ =>
              have hkey' := (inBounds_congr hretains.wide hretains.high).mpr hkey
              have htaken := entrusted_takeJob ctx hkey'
                (.upgrade t.srlData t.rawData pq.components t.quality)
                (fun _ job hjob => by unfold Job.LostReference; rw [hjob]; exact not_false)
              rw [position_congr hretains.wide] at htaken
              exact hretains.entrusted.append htaken
  · rw [SurfaceTiles.tileIndex_of_not_inBounds hkey]
    exact (Retains.refl _ _ s).entrusted

theorem entrusted_prepareRound (s : TileStore) (ctx : RegionCtx) (tiles : List ProgressiveTile) :
    Entrusted ctx.surfaceId (fun k => ∃ tile ∈ tiles, tile.key = k) s (prepareRound s ctx tiles).2.1
      (prepareRound s ctx tiles).1 := by
  induction tiles generalizing s with
  | nil => exact (Retains.refl _ _ s).entrusted
  | cons tile tiles ih =>
      have hfirst := (entrusted_prepare s ctx tile).mono
        (fun k => ∃ t ∈ tile :: tiles, t.key = k) fun k hk =>
          ⟨tile, List.mem_cons_self, hk.symm⟩
      unfold prepareRound
      cases hprepare : prepare s ctx tile with
      | mk s' result =>
          rw [hprepare] at hfirst
          cases result with
          | error e => exact hfirst
          | ok job =>
              refine hfirst.append ((ih s').mono _ fun k hk => ?_)
              obtain ⟨t, ht, hkey⟩ := hk
              exact ⟨t, List.mem_cons_of_mem tile ht, hkey⟩

end Prepare

/-! ### Running and returning -/

section Return

variable {s s' : TileStore} {ctx : RegionCtx} {named : TileKey → Prop}

theorem returnJob_spec (ctx : RegionCtx) {job : Job} (h : job.Placed s.grid named) :
    Retains ctx.surfaceId named s (returnJob ctx s job) ∧
      ((returnJob ctx s job).grid.get job.key).isSome = true ∧
      (job.reference.isSome = true →
        (returnJob ctx s job).references[(ctx.surfaceId, job.key)]?.isSome = true) := by
  have hindex := h.index
  have hreferences : ∀ k : ReferenceKey, (returnJob ctx s job).references[k]? =
      if (ctx.surfaceId, job.key) = k then job.reference <|> s.references[k]?
      else s.references[k]? := by
    intro k
    unfold returnJob
    cases hreference : job.reference with
    | none =>
        simp only
        split <;> rfl
    | some reference =>
        simp only [ExtTreeMap.getElem?_insert, LawfulEqCmp.compare_eq_iff_eq]
        rfl
  have hgrid : (returnJob ctx s job).grid = s.grid.setAt (s.grid.position job.key) job.state :=
    hindex ▸ rfl
  refine ⟨⟨by rw [hgrid]; rfl, by rw [hgrid]; rfl, ?_, ?_, ?_, ?_⟩, ?_, ?_⟩
  · intro k hk
    rw [hgrid]
    by_cases hne : k = job.key
    · rw [hne, SurfaceTiles.get_setAt_self h.inBounds]
      rfl
    · rw [get_setAt_other h.inBounds hne]
      exact hk
  · intro k hk
    rw [hreferences]
    split
    · cases job.reference with
      | none => exact hk
      | some reference => rfl
    · exact hk
  · intro k hk
    rw [hgrid]
    refine get_setAt_other h.inBounds ?_ _
    rintro rfl
    exact hk h.named
  · intro k hk
    rw [hreferences, if_neg]
    rintro rfl
    exact hk rfl h.named
  · rw [hgrid, SurfaceTiles.get_setAt_self h.inBounds]
    rfl
  · intro hsome
    rw [hreferences, if_pos rfl]
    obtain ⟨reference, hreference⟩ := Option.isSome_iff_exists.mp hsome
    rw [hreference]
    rfl

theorem returnJobs_spec (ctx : RegionCtx) (jobs : List Job) (h : ∀ job ∈ jobs, job.Placed s.grid named) :
    Retains ctx.surfaceId named s (jobs.foldl (returnJob ctx) s) ∧
      ∀ job ∈ jobs, ((jobs.foldl (returnJob ctx) s).grid.get job.key).isSome = true ∧
        (job.reference.isSome = true →
          (jobs.foldl (returnJob ctx) s).references[(ctx.surfaceId, job.key)]?.isSome = true) := by
  induction jobs generalizing s with
  | nil => exact ⟨.refl _ _ s, fun _ hjob => (List.not_mem_nil hjob).elim⟩
  | cons job jobs ih =>
      obtain ⟨hretains, htile, hreference⟩ := returnJob_spec ctx (h job List.mem_cons_self)
      obtain ⟨hrest, hback⟩ := ih (s := returnJob ctx s job) fun j hj =>
        (h j (List.mem_cons_of_mem job hj)).congr hretains.wide.symm hretains.high.symm fun _ hk => hk
      refine ⟨hretains.trans hrest, fun j hj => ?_⟩
      rcases List.mem_cons.mp hj with rfl | hj
      · exact ⟨hrest.tiles _ htile, fun hsome => hrest.references _ (hreference hsome)⟩
      · exact hback j hj

theorem Entrusted.retains {jobs jobs' : List Job} (h : Entrusted ctx.surfaceId named s jobs s')
    (hplaced : ∀ job ∈ jobs', job.Placed s'.grid named)
    (hback : ∀ job ∈ jobs, ∃ job' ∈ jobs', job'.key = job.key ∧
      (job.reference.isSome = true → job'.reference.isSome = true)) :
    Retains ctx.surfaceId named s (jobs'.foldl (returnJob ctx) s') := by
  obtain ⟨hretains, hreturned⟩ := returnJobs_spec ctx jobs' hplaced
  refine ⟨hretains.wide.trans h.wide, hretains.high.trans h.high, ?_, ?_, ?_, ?_⟩
  · intro k hk
    rcases h.tiles k hk with hkept | ⟨job, hjob, rfl⟩
    · exact hretains.tiles k hkept
    · obtain ⟨job', hjob', hkey, _⟩ := hback job hjob
      rw [← hkey]
      exact (hreturned job' hjob').1
  · intro k hk
    rcases h.references k hk with hkept | ⟨job, hjob, rfl, hsome⟩
    · exact hretains.references k hkept
    · obtain ⟨job', hjob', hkey, hreference⟩ := hback job hjob
      rw [← hkey]
      exact (hreturned job' hjob').2 (hreference hsome)
  · exact fun k hk => (hretains.sameTile k hk).trans (h.sameTile k hk)
  · exact fun k hk => (hretains.sameReference k hk).trans (h.sameReference k hk)

end Return

section Run

variable (tr : Transforms)

/-- Whether its pass fails or not, a job keeps its place, and its reference if it had one. -/
theorem runPass_spec (job : Job) (flag : Bool) :
    (runPass tr job flag).1.key = job.key ∧ (runPass tr job flag).1.index = job.index ∧
      (runPass tr job flag).1.reference = job.reference := by
  unfold runPass
  cases job.pass with
  | first data base prog quantIdx quality difference =>
      simp only
      split
      · exact ⟨rfl, rfl, rfl⟩
      · by_cases hdifference : difference = true
        · rw [if_pos hdifference]
          split <;> exact ⟨rfl, rfl, rfl⟩
        · rw [if_neg hdifference]
          exact ⟨rfl, rfl, rfl⟩
  | upgrade srl raw prog quality =>
      simp only
      split <;> exact ⟨rfl, rfl, rfl⟩

theorem runJob_spec (job : Job) (flag : Bool) :
    (runJob tr job flag).1.key = job.key ∧ (runJob tr job flag).1.index = job.index ∧
      (job.reference.isSome = true → (runJob tr job flag).1.reference.isSome = true) := by
  obtain ⟨hkey, hindex, hreference⟩ := runPass_spec tr job flag
  unfold runJob
  cases hpass : runPass tr job flag with
  | mk job' result =>
      rw [hpass] at hkey hindex hreference
      cases result with
      | error e => exact ⟨hkey, hindex, fun hsome => hreference ▸ hsome⟩
      | ok _ => exact ⟨hkey, hindex, fun _ => rfl⟩

variable (ctx : RegionCtx) (s : TileStore)

/-- A round, which may fail while it is prepared or while its jobs run. -/
theorem retains_decodeRound (decoded : Decoded) (round : List ProgressiveTile) :
    Retains ctx.surfaceId (fun k => ∃ tile ∈ round, tile.key = k) s
      (decodeRound tr ctx s decoded round).1 := by
  have hprepared := entrusted_prepareRound s ctx round
  unfold decodeRound
  cases hround : prepareRound s ctx round with
  | mk s' rest =>
      obtain ⟨jobs, failure⟩ := rest
      rw [hround] at hprepared
      have hplaced : ∀ job ∈ jobs, job.Placed s'.grid _ := fun job hjob =>
        (hprepared.placed job hjob).congr hprepared.wide.symm hprepared.high.symm fun _ hk => hk
      cases failure with
      | some e => exact hprepared.retains hplaced fun job hjob => ⟨job, hjob, rfl, id⟩
      | none =>
          apply hprepared.retains
          · intro job' hjob'
            rw [List.map_map] at hjob'
            obtain ⟨job, hjob, rfl⟩ := List.mem_map.mp hjob'
            obtain ⟨hkey, hindex, -⟩ := runJob_spec tr job ctx.useReduceExtrapolate
            obtain ⟨hnamed, hinBounds, hposition⟩ := hplaced job hjob
            rw [← hkey] at hnamed hinBounds hposition
            exact ⟨hnamed, hinBounds, hindex.trans hposition⟩
          · intro job hjob
            obtain ⟨hkey, -, hreference⟩ := runJob_spec tr job ctx.useReduceExtrapolate
            refine ⟨(runJob tr job ctx.useReduceExtrapolate).1, ?_, hkey, hreference⟩
            rw [List.map_map]
            exact List.mem_map_of_mem hjob

theorem retains_decodeRounds (decoded : Decoded) (rounds : List (List ProgressiveTile)) :
    Retains ctx.surfaceId (fun k => ∃ tile ∈ rounds.flatten, tile.key = k) s
      (decodeRounds tr ctx s decoded rounds).1 := by
  induction rounds generalizing s decoded with
  | nil => exact .refl _ _ s
  | cons round rounds ih =>
      have hround := (retains_decodeRound tr ctx s decoded round).mono
        (fun k => ∃ tile ∈ (round :: rounds).flatten, tile.key = k) fun k hk => by
          obtain ⟨tile, htile, hkey⟩ := hk
          exact ⟨tile, List.mem_append_left _ htile, hkey⟩
      unfold decodeRounds
      cases hdecode : decodeRound tr ctx s decoded round with
      | mk s' result =>
          rw [hdecode] at hround
          cases result with
          | error e => exact hround
          | ok decoded' =>
              refine hround.trans ((ih s' decoded').mono _ fun k hk => ?_)
              obtain ⟨tile, htile, hkey⟩ := hk
              exact ⟨tile, List.mem_append_right _ htile, hkey⟩

theorem retains_decodeRegionTiles :
    Retains ctx.surfaceId (fun k => ∃ tile ∈ ctx.region.tiles, tile.key = k) s
      (decodeRegionTiles tr s ctx).1 := by
  refine (retains_decodeRounds tr ctx s ∅ _).mono _ fun k hk => ?_
  obtain ⟨tile, htile, hkey⟩ := hk
  exact ⟨tile, Keyed.mem_of_mem_rounds htile, hkey⟩

end Run

/-! ### Whole calls -/

section Calls

variable (tr : Transforms)

def Names (blocks : List ProgressiveBlock) (k : TileKey) : Prop :=
  ∃ region, .region region ∈ blocks ∧ ∃ tile ∈ region.tiles, tile.key = k

theorem retains_decodeRegion (id : UInt16) (width height : Nat) (flag : Bool) (st : PayloadState)
    (region : ProgressiveRegion) :
    Retains id (fun k => ∃ tile ∈ region.tiles, tile.key = k) st.store
      (decodeRegion tr id width height flag st region).1.store := by
  have htiles := retains_decodeRegionTiles tr ⟨id, flag, region⟩ st.store
  unfold decodeRegion
  cases hdecode : decodeRegionTiles tr st.store ⟨id, flag, region⟩ with
  | mk store result =>
      rw [hdecode] at htiles
      cases result with
      | error e => exact htiles
      | ok regionTiles =>
          simp only
          split <;> exact htiles

theorem retains_decodeBlocks (id : UInt16) (width height : Nat) (flag : Bool) (st : PayloadState)
    (blocks : List ProgressiveBlock) :
    Retains id (Names blocks) st.store (decodeBlocks tr id width height flag st blocks).1.store := by
  induction blocks generalizing st with
  | nil => exact .refl _ _ st.store
  | cons block blocks ih =>
      have hlater : ∀ st' : PayloadState, st'.store = st.store →
          Retains id (Names (block :: blocks)) st.store
            (decodeBlocks tr id width height flag st' blocks).1.store := by
        intro st' hstore
        rw [← hstore]
        refine (ih st').mono _ fun k hk => ?_
        obtain ⟨region, hregion, hnames⟩ := hk
        exact ⟨region, List.mem_cons_of_mem block hregion, hnames⟩
      unfold decodeBlocks
      cases block with
      | frameBegin => exact hlater (if st.frameEnded then st else _) (by split <;> rfl)
      | frameEnd => exact hlater { st with inFrame := false, frameEnded := true } rfl
      | sync => exact hlater st rfl
      | context flag => exact hlater st rfl
      | region region =>
          simp only
          by_cases hinFrame : st.inFrame = true
          · rw [if_pos hinFrame]
            have hregion := (retains_decodeRegion tr id width height flag st region).mono
              (Names (.region region :: blocks)) fun k hk =>
                ⟨region, List.mem_cons_self, hk⟩
            cases hdecode : decodeRegion tr id width height flag st region with
            | mk st' result =>
                rw [hdecode] at hregion
                cases result with
                | error e => exact hregion
                | ok _ =>
                    refine hregion.trans ((ih st').mono _ fun k hk => ?_)
                    obtain ⟨region', hregion', hnames⟩ := hk
                    exact ⟨region', List.mem_cons_of_mem _ hregion', hnames⟩
          · rw [if_neg hinFrame]
            exact hlater st rfl

def NamedIn (data : Bytes) (k : TileKey) : Prop :=
  ∃ blocks, tr.decodeProgressiveStream data = .ok blocks ∧ Names blocks k

def Fits (codec : ProgressiveCodec) (key : ContextKey) (surface : Size) : Prop :=
  ∀ grid : SurfaceTiles, codec.contexts[key]? = some grid →
    grid.tilesWide = SurfaceTiles.tilesOver surface.width ∧
      grid.tilesHigh = SurfaceTiles.tilesOver surface.height

def KeepsTiles (changed : TileKey → Prop) (grid grid' : SurfaceTiles) : Prop :=
  ∀ k, ((grid.get k).isSome = true → (grid'.get k).isSome = true) ∧
    (¬ changed k → grid'.get k = grid.get k)

def KeepsReferences (changed : ReferenceKey → Prop) (references references' : References) : Prop :=
  ∀ k : ReferenceKey, (references[k]?.isSome = true → references'[k]?.isSome = true) ∧
    (¬ changed k → references'[k]? = references[k]?)

/-- What a call for a surface keeps of a codec. -/
structure Keeps (key : ContextKey) (named : TileKey → Prop) (codec codec' : ProgressiveCodec) :
    Prop where
  tiles : ∀ (j : ContextKey) (grid : SurfaceTiles), codec.contexts[j]? = some grid →
    ∃ grid', codec'.contexts[j]? = some grid' ∧ KeepsTiles (fun k => j = key ∧ named k) grid grid'
  references : KeepsReferences (fun k => k.1 = key.1 ∧ named k.2) codec.references codec'.references

theorem Keeps.of_eq {key : ContextKey} {named : TileKey → Prop} {codec codec' : ProgressiveCodec}
    (hcontexts : codec'.contexts = codec.contexts) (hreferences : codec'.references = codec.references) :
    Keeps key named codec codec' where
  tiles _ grid hgrid := ⟨grid, hcontexts ▸ hgrid, fun _ => ⟨id, fun _ => rfl⟩⟩
  references _ := ⟨fun hk => hreferences ▸ hk, fun _ => by rw [hreferences]⟩

/-- What the call has besides contexts and references does not matter. -/
theorem Keeps.congr {key : ContextKey} {named named' : TileKey → Prop}
    {codec codec' start final : ProgressiveCodec} (h : Keeps key named codec codec')
    (hnamed : ∀ k, named k → named' k)
    (hstart : codec.contexts = start.contexts ∧ codec.references = start.references)
    (hfinal : final.contexts = codec'.contexts ∧ final.references = codec'.references) :
    Keeps key named' start final where
  tiles := by
    intro j grid hgrid
    obtain ⟨grid', hgrid', hkeeps⟩ := h.tiles j grid (hstart.1 ▸ hgrid)
    refine ⟨grid', hfinal.1 ▸ hgrid', fun k => ⟨(hkeeps k).1, fun hk => (hkeeps k).2 ?_⟩⟩
    exact fun hchanged => hk ⟨hchanged.1, hnamed k hchanged.2⟩
  references := by
    rw [← hstart.2, hfinal.2]
    refine fun k => ⟨(h.references k).1, fun hk => (h.references k).2 ?_⟩
    exact fun hchanged => hk ⟨hchanged.1, hnamed k.2 hchanged.2⟩

theorem clearInactive_spec (codec : ProgressiveCodec) :
    codec.clearInactive.contexts = codec.contexts ∧
      codec.clearInactive.references = codec.references := by
  unfold ProgressiveCodec.clearInactive
  split <;> exact ⟨rfl, rfl⟩

theorem gridFor_of_fits {codec : ProgressiveCodec} {key : ContextKey} {surface : Size} {flag : Bool}
    (hfits : Fits codec key surface) {grid grid' : SurfaceTiles} {resized : Bool}
    (hgrid : codec.contexts[key]? = some grid)
    (h : codec.gridFor key surface.width surface.height flag = some (grid', resized)) :
    grid' = { grid with useReduceExtrapolate := flag } := by
  obtain ⟨hwide, hhigh⟩ := hfits grid hgrid
  obtain ⟨context, hcontext, h⟩ := Option.bind_eq_some_iff.mp h
  rw [hgrid, Option.orElse_eq_orElse, Option.orElse_eq_or, Option.some_or] at hcontext
  obtain rfl := Option.some.inj hcontext
  obtain ⟨fitted, hfitted, h⟩ := Option.map_eq_some_iff.mp h
  rw [hwide, hhigh, decide_eq_false (not_not.mpr rfl), decide_eq_false (not_not.mpr rfl),
    Bool.or_false, if_neg Bool.false_ne_true] at hfitted
  obtain rfl := Option.some.inj hfitted
  exact (Prod.mk.inj h).1.symm

theorem keeps_decodePayload (codec : ProgressiveCodec) (key : ContextKey) (surface : Size) (flag : Bool)
    (blocks : List ProgressiveBlock) (hfits : Fits codec key surface) :
    Keeps key (Names blocks) codec (codec.decodePayload tr key surface flag blocks).1 := by
  unfold ProgressiveCodec.decodePayload
  cases hgridFor : codec.gridFor key surface.width surface.height flag with
  | none => exact .of_eq rfl rfl
  | some fitted =>
      obtain ⟨fitted, resized⟩ := fitted
      have hretains := retains_decodeBlocks tr key.1 surface.width surface.height flag
        { store := ⟨fitted, codec.references⟩
          frameTiles := if resized then ∅ else (codec.frameTiles[key]?).getD ∅
          out := []
          work := 0
          inFrame := false
          frameEnded := false } blocks
      refine ⟨fun j grid hgrid => ?_, fun k => ⟨hretains.references k, fun hk => ?_⟩⟩
      · simp only [ExtTreeMap.getElem?_insert, LawfulEqCmp.compare_eq_iff_eq]
        by_cases hj : key = j
        · subst hj
          have hfitted := gridFor_of_fits hfits hgrid hgridFor
          have hget : ∀ k, fitted.get k = grid.get k := by
            intro k
            rw [hfitted]
            rfl
          rw [if_pos rfl]
          refine ⟨_, rfl, fun k => ⟨fun hk => hretains.tiles k ((hget k).symm ▸ hk), fun hk => ?_⟩⟩
          exact (hretains.sameTile k fun hnames => hk ⟨rfl, hnames⟩).trans (hget k)
        · rw [if_neg hj]
          exact ⟨grid, hgrid, fun _ => ⟨id, fun _ => rfl⟩⟩
      · exact hretains.sameReference k fun hid hnames => hk ⟨hid, hnames⟩

theorem runPass_ne_lost {job : Job} (h : ¬ job.LostReference) (flag : Bool) :
    (runPass tr job flag).2 ≠ .error (malformed "difference tile lost its reference") := by
  have hprefix : ∀ detail e : String, detail.toList.head? = some 'p' →
      malformed (detail ++ e) ≠ malformed "difference tile lost its reference" := by
    intro detail e hdetail heq
    have hlist := congrArg String.toList (CodecError.malformed.inj heq).2
    have hhead := congrArg List.head? hlist
    rw [String.toList_append, List.head?_append, hdetail] at hhead
    simp at hhead
  unfold Job.LostReference at h
  unfold runPass
  cases hpass : job.pass with
  | first data base prog quantIdx quality difference =>
      rw [hpass] at h
      simp only at h ⊢
      split
      · exact fun heq => hprefix _ _ (by decide) (Except.error.inj heq)
      · by_cases hdifference : difference = true
        · rw [if_pos hdifference]
          split
          · next hreference => exact absurd ⟨hdifference, hreference⟩ h
          · exact fun heq => nomatch heq
        · rw [if_neg hdifference]
          exact fun heq => nomatch heq
  | upgrade srl raw prog quality =>
      simp only
      split
      · exact fun heq => hprefix _ _ (by decide) (Except.error.inj heq)
      · exact fun heq => nomatch heq

/-- **Tiles are kept.** A call for a surface of the size of the context's grid, whether it fails or
not, loses no tile and no reference, and leaves alone those of tiles that its payload does not name;
no job of a round finds the reference of its difference tile missing. -/
theorem keeps_decode (codec : ProgressiveCodec) (surfaceId : UInt16) (codecContextId : UInt32)
    (surface : Size) (data : Bytes) (hfits : Fits codec (surfaceId, codecContextId) surface) :
    Keeps (surfaceId, codecContextId) (NamedIn tr data) codec
        (codec.decode tr surfaceId codecContextId surface data).1 ∧
      ∀ (s : TileStore) (ctx : RegionCtx) (round : List ProgressiveTile),
        ∀ job ∈ (prepareRound s ctx round).2.1,
          (runPass tr job ctx.useReduceExtrapolate).2 ≠
            .error (malformed "difference tile lost its reference") := by
  refine ⟨?_, fun s ctx round job hjob =>
    runPass_ne_lost tr ((entrusted_prepareRound s ctx round).supplied job hjob) _⟩
  unfold ProgressiveCodec.decode
  split
  · exact .of_eq rfl rfl
  cases hblocks : tr.decodeProgressiveStream data with
  | error e => exact .of_eq rfl rfl
  | ok blocks =>
      simp only
      cases (codec.noteContext surfaceId blocks).contextFlag (surfaceId, codecContextId) blocks with
      | none => exact .of_eq rfl rfl
      | some flag =>
          have hcleared := clearInactive_spec (codec.noteContext surfaceId blocks)
          have hkeeps := keeps_decodePayload tr (codec.noteContext surfaceId blocks).clearInactive
            (surfaceId, codecContextId) surface flag blocks fun grid hgrid =>
              hfits grid (hcleared.1 ▸ hgrid)
          have hnamed : ∀ k, Names blocks k → NamedIn tr data k := fun k hk => ⟨blocks, hblocks, hk⟩
          cases hpayload : (codec.noteContext surfaceId blocks).clearInactive.decodePayload tr
            (surfaceId, codecContextId) surface flag blocks with
          | mk codec' result =>
              rw [hpayload] at hkeeps
              simp only [hpayload]
              cases result with
              | error e => exact hkeeps.congr hnamed hcleared ⟨rfl, rfl⟩
              | ok out => exact hkeeps.congr hnamed hcleared (clearInactive_spec codec')

end Calls

/-- The job of the only tile fails. -/
theorem keeps_decode_failing :
    let tr : Transforms :=
      { decodeProgressiveStream := fun _ =>
          .ok [.context false, .frameBegin,
            .region
              { rects := []
                quantVals := [.uniform 6]
                quantProgVals := []
                tiles := [.simple ⟨.replicate 0, 0, 0, 0, .replicate []⟩] }]
        decodeFirstPassToDwtq := fun _ _ _ => .error "rlgr"
        decodeUpgradePass := fun _ _ _ _ _ _ _ => .error "srl"
        reconstructToRgba := fun _ => Vector.replicate 16384 0 }
    let grid : SurfaceTiles :=
      { tilesWide := 1
        tilesHigh := 1
        useReduceExtrapolate := false
        tiles := #v[some .new] }
    let contexts : ExtTreeMap ContextKey SurfaceTiles contextOrder := ∅
    let codec : ProgressiveCodec :=
      { ProgressiveCodec.new with contexts := contexts.insert (1, 7) grid }
    Keeps (1, 7) (NamedIn tr []) codec (codec.decode tr 1 7 ⟨64, 64⟩ []).1 :=
  (keeps_decode _ _ 1 7 ⟨64, 64⟩ [] fun grid hgrid => by
    rw [ExtTreeMap.getElem?_insert_self] at hgrid
    obtain rfl := Option.some.inj hgrid
    exact ⟨rfl, rfl⟩).1

end Drift.Codec
