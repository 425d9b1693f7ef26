import Drift.Core.Geometry
import Mathlib.Data.List.TakeDrop
import Mathlib.Data.List.TakeWhile

/-!
# Regions

A `Region` is a union of rectangles kept as bands: runs of rectangles with one top edge, sorted from
left to right. `unionRectangle` adds a rectangle and `intersectRectangle` cuts the region to one.
Whatever the region, the rectangles of an intersection lie in the rectangle it was cut to
(`within_intersectRectangle`).
-/

namespace Drift.Codec

/-- An inclusive rectangle with `u16` edges. -/
structure InclusiveRectangle where
  left : Nat
  top : Nat
  right : Nat
  bottom : Nat
  deriving DecidableEq

/-- A rectangle with `u16` edges, of which right and bottom are exclusive. -/
structure ExclusiveRectangle where
  left : Nat
  top : Nat
  right : Nat
  bottom : Nat
  deriving DecidableEq

namespace InclusiveRectangle

def empty : InclusiveRectangle := ⟨0, 0, 0, 0⟩

def unionAll (rectangles : List InclusiveRectangle) : InclusiveRectangle where
  left := (rectangles.map left).min?.getD 0
  top := (rectangles.map top).min?.getD 0
  right := (rectangles.map right).max?.getD 0
  bottom := (rectangles.map bottom).max?.getD 0

def intersect (a b : InclusiveRectangle) : Option InclusiveRectangle :=
  let result : InclusiveRectangle :=
    { left := max a.left b.left
      top := max a.top b.top
      right := min a.right b.right
      bottom := min a.bottom b.bottom }
  if result.left ≤ result.right ∧ result.top ≤ result.bottom then some result else none

def union (a b : InclusiveRectangle) : InclusiveRectangle where
  left := min a.left b.left
  top := min a.top b.top
  right := max a.right b.right
  bottom := max a.bottom b.bottom

end InclusiveRectangle

open InclusiveRectangle

/-- The run of rectangles at the front that share a top edge. -/
def getCurrentBand : List InclusiveRectangle → List InclusiveRectangle
  | [] => []
  | r :: rs => r :: rs.takeWhile (·.top = r.top)

theorem length_getCurrentBand_cons (r : InclusiveRectangle) (rs : List InclusiveRectangle) :
    0 < (getCurrentBand (r :: rs)).length :=
  Nat.succ_pos _

/-- The runs of rectangles with one top edge each, in order. -/
def splitBands (rectangles : List InclusiveRectangle) : List (List InclusiveRectangle) :=
  match rectangles with
  | [] => []
  | r :: rs =>
    getCurrentBand (r :: rs) ::
      splitBands ((r :: rs).drop (getCurrentBand (r :: rs)).length)
termination_by rectangles.length
decreasing_by
  have := length_getCurrentBand_cons r rs
  simp only [List.length_drop, List.length_cons]
  omega

def bandsInternalsEqual (first second : List InclusiveRectangle) : Bool :=
  first.length = second.length ∧
    (first.zip second).all fun p => p.1.left = p.2.left ∧ p.1.right = p.2.right

/-- Merges consecutive bands that touch and have the same items. The source keeps the position of
the current band in one list; here the bands before it are already split off. -/
def simplifyFrom (rectangles : List InclusiveRectangle) : List InclusiveRectangle :=
  match rectangles with
  | [] => []
  | r :: rs =>
    let current := getCurrentBand (r :: rs)
    match hrest : (r :: rs).drop current.length with
    | [] => r :: rs
    | next :: nexts =>
      let nextBand := getCurrentBand (next :: nexts)
      if r.bottom = next.top ∧ bandsInternalsEqual current nextBand then
        simplifyFrom (current.map (fun q => { q with bottom := next.bottom }) ++
          (next :: nexts).drop nextBand.length)
      else current ++ simplifyFrom (next :: nexts)
termination_by rectangles.length
decreasing_by
  · have hlength := congrArg List.length hrest
    have hcurrent := length_getCurrentBand_cons r rs
    have hnext := length_getCurrentBand_cons next nexts
    simp only [List.length_drop, List.length_cons, List.length_append, List.length_map,
      List.length_drop, List.length_cons, current] at hlength hcurrent hnext ⊢
    omega
  · have hlength := congrArg List.length hrest
    have hcurrent := length_getCurrentBand_cons r rs
    simp only [List.length_drop, List.length_cons, current] at hlength hcurrent ⊢
    omega

/-- A union of rectangles and the smallest rectangle around it. -/
structure Region where
  extents : InclusiveRectangle
  rectangles : List InclusiveRectangle
  deriving DecidableEq

def copyBand (band : List InclusiveRectangle) (bandTop bandBottom : Nat) :
    List InclusiveRectangle :=
  band.map fun r => { top := bandTop, bottom := bandBottom, left := r.left, right := r.right }

/-- Skips the items of a band that the rectangle covers; gives the right edge of the merged item
and the items after it. -/
def mergeRight (band : List InclusiveRectangle) (rectangle : InclusiveRectangle) :
    Nat × List InclusiveRectangle :=
  match band with
  | [] => (rectangle.right, [])
  | r :: rs =>
    if r.right ≥ rectangle.right then
      if r.left < rectangle.right then (r.right, rs) else (rectangle.right, r :: rs)
    else mergeRight rs rectangle

def copyBandWithUnion (band : List InclusiveRectangle) (bandTop bandBottom : Nat)
    (rectangle : InclusiveRectangle) : List InclusiveRectangle :=
  let before := band.takeWhile (·.right < rectangle.left)
  let overlapping := band.drop before.length
  let left := min ((overlapping.head?.map left).getD rectangle.left) rectangle.left
  let (right, after) := mergeRight overlapping rectangle
  copyBand before bandTop bandBottom ++
    [{ top := bandTop, bottom := bandBottom, left := left, right := right }] ++
    copyBand after bandTop bandBottom

def rectangleInBandItems (rectangle : InclusiveRectangle) : List InclusiveRectangle → Bool
  | [] => false
  | r :: rs =>
    if r.left ≤ rectangle.left then
      if rectangle.right ≤ r.right then true else rectangleInBandItems rectangle rs
    else false

/-- The rectangle lies in one item of a band, given the band's edges. -/
def rectangleInBand (band : List InclusiveRectangle) (bandTop bandBottom : Nat)
    (rectangle : InclusiveRectangle) : Bool :=
  if rectangle.top < bandTop ∨ bandBottom < rectangle.bottom then false
  else rectangleInBandItems rectangle band

def handleRectangleThatOverlapsBand (rectangle : InclusiveRectangle)
    (band : List InclusiveRectangle) (bandTop bandBottom : Nat) : List InclusiveRectangle :=
  (if bandTop < rectangle.top then copyBand band bandTop rectangle.top else []) ++
    copyBandWithUnion band (max rectangle.top bandTop) (min rectangle.bottom bandBottom)
      rectangle ++
    (if rectangle.bottom < bandBottom then copyBand band rectangle.bottom bandBottom else [])

def handleRectangleBetweenBands (rectangle : InclusiveRectangle)
    (bandBottom nextBandTop topInterBand : Nat) : List InclusiveRectangle :=
  if nextBandTop ≠ bandBottom ∧ bandBottom < rectangle.bottom ∧ rectangle.top < nextBandTop then
    [{ top := topInterBand
       bottom := min nextBandTop rectangle.bottom
       left := rectangle.left
       right := rectangle.right }]
  else []

/-- The loop of `unionRectangle` over the bands; a band is never empty. -/
def unionBands (rectangle : InclusiveRectangle) :
    List (List InclusiveRectangle) → List InclusiveRectangle
  | [] => []
  | band :: bands =>
    let bandTop := (band.head?.map top).getD 0
    let bandBottom := (band.head?.map bottom).getD 0
    let apart := bandBottom ≤ rectangle.top ∨ rectangle.bottom ≤ bandTop ∨
      rectangleInBand band bandTop bandBottom rectangle
    let topInterBand := if apart then rectangle.top else bandBottom
    (if apart then band
      else handleRectangleThatOverlapsBand rectangle band bandTop bandBottom) ++
      (match bands.head? with
        | none => []
        | some next =>
          handleRectangleBetweenBands rectangle bandBottom ((next.head?.map top).getD 0)
            topInterBand) ++
      unionBands rectangle bands

namespace Region

def new : Region := ⟨empty, []⟩

def fromRectangle (r : InclusiveRectangle) : Region := ⟨r, [r]⟩

def simplify (region : Region) : Region :=
  { region with rectangles := simplifyFrom region.rectangles }

def unionRectangle (region : Region) (rectangle : InclusiveRectangle) : Region :=
  if region.rectangles.isEmpty then fromRectangle rectangle
  else
    let higher :=
      if rectangle.top < region.extents.top then
        [{ rectangle with bottom := min region.extents.top rectangle.bottom }]
      else []
    let lower :=
      if region.extents.bottom < rectangle.bottom then
        [{ rectangle with top := max region.extents.bottom rectangle.top }]
      else []
    simplify
      { rectangles := higher ++ unionBands rectangle (splitBands region.rectangles) ++ lower
        extents := region.extents.union rectangle }

def intersectRectangle (region : Region) (rectangle : InclusiveRectangle) : Region :=
  match region.rectangles with
  | [] => new
  | [_] => ((region.extents.intersect rectangle).map fromRectangle).getD new
  | rectangles =>
    let cut := (rectangles.takeWhile (·.top ≤ rectangle.bottom)).filterMap (·.intersect rectangle)
    simplify { rectangles := cut, extents := unionAll cut }

end Region

/-! ### Intersections stay inside -/

/-- A rectangle with its edges in order, inside another. -/
structure InclusiveRectangle.Within (outer r : InclusiveRectangle) : Prop where
  left_le : outer.left ≤ r.left
  top_le : outer.top ≤ r.top
  left_le_right : r.left ≤ r.right
  top_le_bottom : r.top ≤ r.bottom
  right_le : r.right ≤ outer.right
  bottom_le : r.bottom ≤ outer.bottom

theorem within_of_intersect {a outer r : InclusiveRectangle} (h : a.intersect outer = some r) :
    outer.Within r := by
  unfold InclusiveRectangle.intersect at h
  simp only at h
  split at h
  · next hordered =>
    obtain rfl := Option.some.inj h
    refine ⟨?_, ?_, hordered.1, hordered.2, ?_, ?_⟩ <;> simp only <;> omega
  · cases h

theorem mem_of_mem_getCurrentBand {r : InclusiveRectangle} {rs : List InclusiveRectangle}
    (h : r ∈ getCurrentBand rs) : r ∈ rs := by
  cases rs with
  | nil => exact h
  | cons q qs =>
      rcases List.mem_cons.mp h with rfl | h
      · exact List.mem_cons_self
      · exact List.mem_cons_of_mem q ((List.takeWhile_subset _ h))

theorem top_eq_of_mem_getCurrentBand {r q : InclusiveRectangle} {qs : List InclusiveRectangle}
    (h : r ∈ getCurrentBand (q :: qs)) : r.top = q.top := by
  rcases List.mem_cons.mp h with rfl | h
  · rfl
  · simpa using List.mem_takeWhile_imp h

/-- Merging bands keeps every rectangle inside what all of them were inside of. -/
theorem within_simplifyFrom {outer : InclusiveRectangle} (rectangles : List InclusiveRectangle)
    (h : ∀ r ∈ rectangles, outer.Within r) :
    ∀ r ∈ simplifyFrom rectangles, outer.Within r := by
  induction rectangles using simplifyFrom.induct with
  | case1 => simp [simplifyFrom]
  | case2 r rs current hrest =>
      intro q hq
      rw [simplifyFrom] at hq
      split at hq
      · exact h q hq
      · next hne => exact absurd (hrest.symm.trans hne) (by simp)
  | case3 r rs current next nexts hrest nextBand hmerge ih =>
      intro q hq
      rw [simplifyFrom] at hq
      split at hq
      · exact h q hq
      · next next' nexts' hrest' =>
        obtain ⟨rfl, rfl⟩ := List.cons.inj (hrest.symm.trans hrest')
        rw [if_pos hmerge] at hq
        refine ih ?_ q hq
        have hnext : outer.Within next := h next (List.mem_of_mem_drop (hrest ▸ List.mem_cons_self))
        have hfirst := h r List.mem_cons_self
        intro p hp
        rcases List.mem_append.mp hp with hp | hp
        · obtain ⟨p, hmem, rfl⟩ := List.mem_map.mp hp
          have hp := h p (mem_of_mem_getCurrentBand hmem)
          have htop : p.top = r.top := top_eq_of_mem_getCurrentBand hmem
          -- The band below starts where this one ends, so its end is below this one's start.
          have hordered : p.top ≤ next.bottom := by
            have := hfirst.top_le_bottom
            have := hnext.top_le_bottom
            omega
          exact { hp with top_le_bottom := hordered, bottom_le := hnext.bottom_le }
        · exact h p (List.mem_of_mem_drop (hrest ▸ List.mem_of_mem_drop hp))
  | case4 r rs current next nexts hrest nextBand hmerge ih =>
      intro q hq
      rw [simplifyFrom] at hq
      split at hq
      · exact h q hq
      · next next' nexts' hrest' =>
        obtain ⟨rfl, rfl⟩ := List.cons.inj (hrest.symm.trans hrest')
        rw [if_neg hmerge] at hq
        rcases List.mem_append.mp hq with hq | hq
        · exact h q (mem_of_mem_getCurrentBand hq)
        · exact ih (fun p hp => h p (List.mem_of_mem_drop (hrest ▸ hp))) q hq

/-- **Intersections.** Cutting a region to a rectangle leaves rectangles inside it. -/
theorem within_intersectRectangle (region : Region) (rectangle : InclusiveRectangle) :
    ∀ r ∈ (region.intersectRectangle rectangle).rectangles, rectangle.Within r := by
  intro r hr
  unfold Region.intersectRectangle at hr
  split at hr
  · cases hr
  · cases hcut : region.extents.intersect rectangle with
    | none => simp [hcut, Region.new] at hr
    | some q =>
        obtain rfl : r = q := by simpa [hcut, Region.fromRectangle] using hr
        exact within_of_intersect hcut
  · refine within_simplifyFrom _ ?_ r hr
    intro q hq
    obtain ⟨p, _, hp⟩ := List.mem_filterMap.mp hq
    exact within_of_intersect hp

end Drift.Codec
