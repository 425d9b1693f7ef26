import Drift.Codec.Progressive
import Drift.Codec.Reference
import Drift.Lib.Batch
import Drift.Lib.Lockstep

/-!
# The tiles of a REGION

Both decoders decode a tile by reading and writing the part of the grid and of the references under
its key (`tileStore`), and do the same work there (`tileWork`). `ProgressiveCodec` does it in
batches, `ProgressiveDecoder` block by block.
-/

namespace Drift.Codec

open Std Keyed Lockstep

/-! ### Positions -/

namespace SurfaceTiles

variable {grid : SurfaceTiles} {j k : TileKey}

theorem position_lt (h : grid.InBounds k) :
    grid.position k < grid.tilesWide * grid.tilesHigh := by
  obtain ⟨hx, hy⟩ := h
  calc
    grid.position k < k.2.toNat * grid.tilesWide + grid.tilesWide := Nat.add_lt_add_left hx _
    _ = (k.2.toNat + 1) * grid.tilesWide := by rw [Nat.succ_mul]
    _ ≤ grid.tilesHigh * grid.tilesWide := Nat.mul_le_mul_right _ hy
    _ = grid.tilesWide * grid.tilesHigh := Nat.mul_comm _ _

theorem position_inj (hj : grid.InBounds j) (hk : grid.InBounds k)
    (h : grid.position j = grid.position k) : j = k := by
  have hx := congrArg (· % grid.tilesWide) h
  have hy := congrArg (· / grid.tilesWide) h
  have hpos : 0 < grid.tilesWide := Nat.zero_lt_of_lt hj.1
  simp only [position, Nat.mul_add_mod_self_right, Nat.mod_eq_of_lt hj.1, Nat.mod_eq_of_lt hk.1,
    UInt16.toNat_inj] at hx
  simp only [position, Nat.mul_comm _ grid.tilesWide, Nat.mul_add_div hpos,
    Nat.div_eq_of_lt hj.1, Nat.div_eq_of_lt hk.1, Nat.add_zero, UInt16.toNat_inj] at hy
  exact Prod.ext hx hy

theorem tileIndex_of_inBounds (h : grid.InBounds k) :
    grid.tileIndex k = some (grid.position k) := if_pos h

theorem tileIndex_of_not_inBounds (h : ¬grid.InBounds k) : grid.tileIndex k = none := if_neg h

theorem getElem?_position (h : grid.InBounds k) :
    grid.tiles[grid.position k]? = some (grid.get k) := by
  have hlt := position_lt h
  rw [get, tileIndex_of_inBounds h, Option.bind_some, Vector.getElem?_eq_getElem hlt,
    Option.getD_some]

@[simp]
theorem setAt_setAt (index : Nat) (a b : Option TileState) :
    (grid.setAt index a).setAt index b = grid.setAt index b := by
  simp only [setAt, Vector.setIfInBounds_setIfInBounds]

theorem setAt_comm {m n : Nat} (a b : Option TileState) (h : m ≠ n) :
    (grid.setAt m a).setAt n b = (grid.setAt n b).setAt m a :=
  congrArg (fun tiles => { grid with tiles := tiles }) (Vector.setIfInBound_comm a b h)

theorem get_setAt_self (h : grid.InBounds k) (tile : Option TileState) :
    (grid.setAt (grid.position k) tile).get k = tile := by
  have hget : (grid.tiles.setIfInBounds (grid.position k) tile)[grid.position k]? = some tile :=
    Vector.getElem?_setIfInBounds_self_of_lt (position_lt h)
  have hbounds : (grid.setAt (grid.position k) tile).InBounds k := h
  have hsome := getElem?_position hbounds
  exact Option.some.inj (hsome.symm.trans hget)

theorem get_setAt_of_ne (hj : grid.InBounds j) (hk : grid.InBounds k) (hne : j ≠ k)
    (tile : Option TileState) : (grid.setAt (grid.position k) tile).get j = grid.get j := by
  have hposition : grid.position k ≠ grid.position j := fun h =>
    hne (position_inj hj hk h.symm)
  have hget : (grid.tiles.setIfInBounds (grid.position k) tile)[grid.position j]? =
      some (grid.get j) :=
    (Vector.getElem?_setIfInBounds_ne hposition).trans (getElem?_position hj)
  have hbounds : (grid.setAt (grid.position k) tile).InBounds j := hj
  have hsome := getElem?_position hbounds
  exact Option.some.inj (hsome.symm.trans hget)

end SurfaceTiles

/-! ### The store -/

/-- The part of the grid and the references under a key: its tile, the tile that a first use
creates, and its reference. -/
structure Part where
  fresh : TileState
  tile : Option TileState
  reference : Option (Components Coefficients)

def setReference (references : References) (key : ReferenceKey)
    (reference : Option (Components Coefficients)) : References :=
  match reference with
  | none => references.erase key
  | some coefficients => references.insert key coefficients

theorem getElem?_setReference (references : References) (j k : ReferenceKey)
    (reference : Option (Components Coefficients)) :
    (setReference references k reference)[j]? = if k = j then reference else references[j]? := by
  cases reference with
  | none => simp only [setReference, ExtTreeMap.getElem?_erase, LawfulEqCmp.compare_eq_iff_eq]
  | some c => simp only [setReference, ExtTreeMap.getElem?_insert, LawfulEqCmp.compare_eq_iff_eq]

theorem setReference_self (references : References) (k : ReferenceKey) :
    setReference references k references[k]? = references := by
  refine ExtTreeMap.ext_getElem? fun j => ?_
  rw [getElem?_setReference]
  split
  · next h => rw [h]
  · rfl

theorem setReference_setReference (references : References) (k : ReferenceKey)
    (a b : Option (Components Coefficients)) :
    setReference (setReference references k a) k b = setReference references k b := by
  refine ExtTreeMap.ext_getElem? fun j => ?_
  simp only [getElem?_setReference]
  split <;> rfl

theorem setReference_comm (references : References) {j k : ReferenceKey}
    (a b : Option (Components Coefficients)) (h : j ≠ k) :
    setReference (setReference references j a) k b =
      setReference (setReference references k b) j a := by
  refine ExtTreeMap.ext_getElem? fun i => ?_
  simp only [getElem?_setReference]
  by_cases hj : j = i
  · have hk : k ≠ i := fun hk => h (hj.trans hk.symm)
    rw [if_neg hk, if_pos hj, if_pos hj]
  · rw [if_neg hj, if_neg hj]

def TileStore.part (surfaceId : UInt16) (s : TileStore) (k : TileKey) : Part where
  fresh := s.grid.freshTile
  tile := s.grid.get k
  reference := s.references[(surfaceId, k)]?

def TileStore.setPart (surfaceId : UInt16) (s : TileStore) (k : TileKey) (p : Part) :
    TileStore where
  grid := s.grid.setAt (s.grid.position k) p.tile
  references := setReference s.references (surfaceId, k) p.reference

def tileStore (surfaceId : UInt16) : Store TileStore TileKey Part where
  get := TileStore.part surfaceId
  set := TileStore.setPart surfaceId
  Valid s k := s.grid.InBounds k
  valid_set _ _ _ _ := Iff.rfl
  get_set_of_ne := by
    intro s k p j hk hj hne
    have hkey : (surfaceId, k) ≠ (surfaceId, j) := fun h => hne (congrArg Prod.snd h).symm
    simp only [TileStore.part, TileStore.setPart, SurfaceTiles.get_setAt_of_ne hj hk hne,
      getElem?_setReference, if_neg hkey]
    rfl
  set_set := by
    intro s k p q
    simp only [TileStore.setPart, setReference_setReference]
    congr 1
    exact SurfaceTiles.setAt_setAt _ _ _
  set_comm := by
    intro s j k p q hj hk hne
    have hposition : s.grid.position j ≠ s.grid.position k := fun h =>
      hne (SurfaceTiles.position_inj hj hk h)
    have hkey : (surfaceId, j) ≠ (surfaceId, k) := fun h => hne (congrArg Prod.snd h)
    simp only [TileStore.setPart, setReference_comm _ _ _ hkey]
    congr 1
    exact SurfaceTiles.setAt_comm _ _ hposition

instance (surfaceId : UInt16) (s : TileStore) (k : TileKey) :
    Decidable ((tileStore surfaceId).Valid s k) :=
  inferInstanceAs (Decidable (s.grid.InBounds k))

end Drift.Codec
