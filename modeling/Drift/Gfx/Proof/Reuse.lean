import Drift.Codec.Proof.Locality
import Drift.Gfx.Proof.Effects

/-!
# A surface id that is used again

A surface that is created decodes what names it as if the client had just started: nothing is left of an
earlier surface with its id, and what the server does to other surfaces goes unnoticed
(`reused_surface_decodes`).
-/

namespace Drift.Gfx

open Std Drift.Codec

/-- The surfaces that a PDU names, among those that are looked up. -/
def GfxPdu.surfaces : GfxPdu → List UInt16
  | .createSurface id _ _ _ => [id]
  | .deleteSurface id => [id]
  | .mapSurfaceToOutput id _ _ => [id]
  | .mapSurfaceToScaledOutput id _ _ => [id]
  | .solidFill f => [f.surfaceId]
  | .surfaceToSurface s => [s.sourceSurfaceId, s.destinationSurfaceId]
  | .surfaceToCache s => [s.surfaceId]
  | .cacheToSurface p => [p.surfaceId]
  | .deleteEncodingContext id _ => [id]
  | .wireToSurface1 w => [w.surfaceId]
  | .wireToSurface2 w => [w.surfaceId]
  | _ => []

/-- The brackets of a frame and the PDUs that name a surface. -/
def GfxPdu.concerns (id : UInt16) : GfxPdu → Bool
  | .startFrame => true
  | .endFrame _ => true
  | p => p.surfaces.contains id

def GfxPdu.isReset : GfxPdu → Bool
  | .resetGraphics _ _ => true
  | _ => false

section Clients

variable {Clear H264 Frame Caps : Type} (d : Decoders Clear H264 Frame Caps)
  {c f : GfxClient Clear H264 Caps} {id : UInt16}

def GfxClient.fresh (h264 : H264) (inFrame : Bool) : GfxClient Clear H264 Caps :=
  if inFrame then (GfxClient.new d h264).next d .startFrame else .new d h264

/-- The two clients have the same surface of an id, with the same state of its codec. -/
structure SameSurface (id : UInt16) (c f : GfxClient Clear H264 Caps) : Prop where
  surface : c.state.surfaces[id]? = f.state.surfaces[id]?
  progressive : Alike id c.progressive f.progressive
  tidy : Tidy id c.progressive

/-! ### Steps -/

theorem SameSurface.of_aside (h : SameSurface id c f) {stores stores' : Bool}
    {o o' : GfxClient.Outcome Clear H264 Frame Caps} (ho : Aside c stores o)
    (ho' : Aside f stores' o') : SameSurface id o.1 o'.1 where
  surface := by rw [ho.surfaces, ho'.surfaces]; exact h.surface
  progressive := by rw [ho.progressive, ho'.progressive]; exact h.progressive
  tidy := by rw [ho.progressive]; exact h.tidy

/-- What `deleteSurface` leaves of a surface is the same in every codec in the same place of a frame. -/
theorem alike_deleteSurface {codec codec' : ProgressiveCodec}
    (hactive : codec.frameActive = codec'.frameActive) :
    Alike id (codec.deleteSurface id) (codec'.deleteSurface id) := by
  refine ⟨fun ctx => ?_, fun k => ?_, fun ctx => ?_, hactive, ?_⟩ <;>
    simp [ProgressiveCodec.deleteSurface]

theorem tidy_deleteSurface (id : UInt16) (codec : ProgressiveCodec) :
    Tidy id (codec.deleteSurface id) := by
  intro _ ctx
  simp [ProgressiveCodec.deleteSurface]

theorem alike_deleteSurface_other {j : UInt16} (hne : j ≠ id) (codec : ProgressiveCodec) :
    Alike id (codec.deleteSurface j) codec := by
  have hkeep : ∀ {α : Type} (x : Option α), x.filter (fun _ => true) = x := by
    intro α x
    cases x <;> rfl
  refine ⟨fun ctx => ?_, fun k => ?_, fun ctx => ?_, rfl, ?_⟩
  · simp [ProgressiveCodec.deleteSurface, hne.symm, hkeep]
  · simp [ProgressiveCodec.deleteSurface, hne.symm, hkeep]
  · simp [ProgressiveCodec.deleteSurface, hne.symm, hkeep]
  · simp [ProgressiveCodec.deleteSurface, ExtTreeMap.getElem?_erase, hne]

theorem create_eq_ok {state state' : GfxState} {size : Size} {format : PixelFormat} :
    state.create id size format = .ok state' ↔
      ¬ (size.width = 0 ∨ size.height = 0) ∧ state.surfaces[id]? = none ∧
        state' = { state with surfaces := state.surfaces.insert id ⟨size, format⟩ } := by
  unfold GfxState.create
  rw [ExtTreeMap.contains_eq_isSome_getElem?]
  by_cases hempty : size.width = 0 ∨ size.height = 0
  · simp [hempty]
  · rw [if_neg hempty]
    cases state.surfaces[id]? with
    | none => simp [hempty, eq_comm]
    | some found => simp

/-- A client after a CreateSurface that it accepts. -/
def GfxClient.created (c : GfxClient Clear H264 Caps) (id : UInt16) (size : Size)
    (format : PixelFormat) : GfxClient Clear H264 Caps :=
  { c with
    state := { c.state with surfaces := c.state.surfaces.insert id ⟨size, format⟩ }
    progressive := c.progressive.deleteSurface id }

theorem next_createSurface (c : GfxClient Clear H264 Caps) (id width height : UInt16)
    (format : PixelFormat) :
    (c.Accepts d (.createSurface id width height format) ↔
        ¬ (width.toNat = 0 ∨ height.toNat = 0) ∧ c.state.surfaces[id]? = none) ∧
      c.next d (.createSurface id width height format) =
        if ¬ (width.toNat = 0 ∨ height.toNat = 0) ∧ c.state.surfaces[id]? = none then
          c.created id ⟨width.toNat, height.toNat⟩ format
        else c := by
  have hhandle : c.handlePdu d (.createSurface id width height format) =
      c.check (c.state.create id ⟨width.toNat, height.toNat⟩ format) fun state =>
        GfxClient.done
          { c with state := state, progressive := c.progressive.deleteSurface id }
          [.createSurface id ⟨width.toNat, height.toNat⟩] := rfl
  unfold GfxClient.Accepts GfxClient.next
  rw [hhandle]
  by_cases hfree : ¬ (width.toNat = 0 ∨ height.toNat = 0) ∧ c.state.surfaces[id]? = none
  · have hcreate : c.state.create id ⟨width.toNat, height.toNat⟩ format =
        .ok { c.state with surfaces := c.state.surfaces.insert id ⟨⟨width.toNat, height.toNat⟩, format⟩ } :=
      create_eq_ok.mpr ⟨hfree.1, hfree.2, rfl⟩
    rw [hcreate, if_pos hfree]
    exact ⟨iff_of_true rfl hfree, rfl⟩
  · cases hcreate : c.state.create id ⟨width.toNat, height.toNat⟩ format with
    | ok state =>
        obtain ⟨hsize, hnone, -⟩ := create_eq_ok.mp hcreate
        exact absurd ⟨hsize, hnone⟩ hfree
    | error e =>
        rw [if_neg hfree]
        exact ⟨iff_of_false nofun hfree, rfl⟩

theorem next_deleteSurface (c : GfxClient Clear H264 Caps) (id : UInt16) :
    (c.next d (.deleteSurface id)).state.surfaces = c.state.surfaces.erase id ∧
      (c.next d (.deleteSurface id)).progressive =
        if c.state.surfaces.contains id then c.progressive.deleteSurface id else c.progressive := by
  unfold GfxClient.next
  simp only [GfxClient.handlePdu, GfxState.delete]
  split
  · next hdelete =>
      obtain ⟨rfl, hcontains⟩ := Prod.mk.inj hdelete
      rw [hcontains]
      exact ⟨rfl, rfl⟩
  · next hdelete =>
      obtain ⟨rfl, hcontains⟩ := Prod.mk.inj hdelete
      rw [hcontains]
      exact ⟨rfl, rfl⟩

/-- Two clients in the same place of a frame have the same surface once they created it. -/
theorem sameSurface_created (hactive : c.progressive.frameActive = f.progressive.frameActive)
    (size : Size) (format : PixelFormat) :
    SameSurface id (c.created id size format) (f.created id size format) where
  surface := by simp [GfxClient.created]
  progressive := alike_deleteSurface hactive
  tidy := tidy_deleteSurface id c.progressive

/-- **Decodes.** A progressive payload for the surface has the same outcome. -/
theorem SameSurface.wireToSurface2 (h : SameSurface id c f) {w : WireToSurface2Pdu}
    (hw : w.surfaceId = id) :
    (c.handlePdu d (.wireToSurface2 w)).2 = (f.handlePdu d (.wireToSurface2 w)).2 ∧
      (c.Accepts d (.wireToSurface2 w) →
        SameSurface id (c.next d (.wireToSurface2 w)) (f.next d (.wireToSurface2 w))) := by
  have hhandle : ∀ g : GfxClient Clear H264 Caps, g.handlePdu d (.wireToSurface2 w) =
      g.wireToSurface2 d w := fun _ => rfl
  have hsurface : c.state.surface w.surfaceId = f.state.surface w.surfaceId := by
    unfold GfxState.surface
    rw [hw, h.surface]
  unfold GfxClient.Accepts GfxClient.next
  rw [hhandle, hhandle]
  unfold GfxClient.wireToSurface2
  rw [hsurface]
  cases f.state.surface w.surfaceId with
  | error e => exact ⟨rfl, nofun⟩
  | ok surface =>
      subst hw
      obtain ⟨halike, hresult⟩ := alike_decode d.progressive h.progressive w.codecContextId
        surface.size w.bitmapData
      have htidy : ∀ out, (c.progressive.decode d.progressive w.surfaceId w.codecContextId
          surface.size w.bitmapData).2 = .ok out → Tidy w.surfaceId (c.progressive.decode
            d.progressive w.surfaceId w.codecContextId surface.size w.bitmapData).1 :=
        fun out hout => tidy_decode d.progressive hout
      simp only [GfxClient.check]
      generalize c.progressive.decode d.progressive w.surfaceId w.codecContextId surface.size
        w.bitmapData = x at halike hresult htidy ⊢
      generalize f.progressive.decode d.progressive w.surfaceId w.codecContextId surface.size
        w.bitmapData = x' at halike hresult ⊢
      obtain ⟨t, result⟩ := x
      obtain ⟨t', result'⟩ := x'
      cases hresult
      cases result with
      | error e => exact ⟨rfl, nofun⟩
      | ok tiles => exact ⟨rfl, fun _ => ⟨h.surface, halike, htidy tiles rfl⟩⟩

/-- A frame bracket, or a PDU that names the surface, has the same effect on it. -/
theorem SameSurface.of_concerns (h : SameSurface id c f) {p : GfxPdu}
    (hconcerns : p.concerns id = true) (haccepts : c.Accepts d p) :
    SameSurface id (c.next d p) (f.next d p) := by
  by_cases haside : p.isAside = true
  · exact h.of_aside (aside_handlePdu d c haside) (aside_handlePdu d f haside)
  have hnamed : ∀ j, [j].contains id = true → j = id := fun j hj => by
    simpa [eq_comm] using hj
  cases p with
  | startFrame =>
      exact ⟨h.surface, ⟨h.progressive.contexts, h.progressive.references, fun _ => rfl, rfl,
        h.progressive.flag⟩, nofun⟩
  | endFrame frameId =>
      exact ⟨h.surface, ⟨h.progressive.contexts, h.progressive.references, fun _ => rfl, rfl,
        h.progressive.flag⟩, fun _ _ => ExtTreeMap.getElem?_empty⟩
  | createSurface j width height format =>
      obtain rfl := hnamed j hconcerns
      rw [(next_createSurface d c ..).2, (next_createSurface d f ..).2, h.surface]
      split
      · exact sameSurface_created h.progressive.frameActive _ _
      · exact h
  | deleteSurface j =>
      obtain rfl := hnamed j hconcerns
      obtain ⟨hsurfaces, hprogressive⟩ := next_deleteSurface d c j
      obtain ⟨hsurfaces', hprogressive'⟩ := next_deleteSurface d f j
      have hcontains : c.state.surfaces.contains j = f.state.surfaces.contains j := by
        rw [ExtTreeMap.contains_eq_isSome_getElem?, ExtTreeMap.contains_eq_isSome_getElem?, h.surface]
      refine ⟨?_, ?_, ?_⟩
      · rw [hsurfaces, hsurfaces', ExtTreeMap.getElem?_erase, ExtTreeMap.getElem?_erase, h.surface]
      · rw [hprogressive, hprogressive', hcontains]
        split
        · exact alike_deleteSurface h.progressive.frameActive
        · exact h.progressive
      · rw [hprogressive]
        split
        · exact tidy_deleteSurface j c.progressive
        · exact h.tidy
  | deleteEncodingContext j ctx =>
      obtain rfl := hnamed j hconcerns
      refine ⟨h.surface, ⟨fun ctx' => ?_, h.progressive.references, fun ctx' => ?_,
        h.progressive.frameActive, h.progressive.flag⟩, fun hactive ctx' => ?_⟩
      · simp only [GfxClient.next, GfxClient.handlePdu, GfxClient.done,
          ProgressiveCodec.deleteContext, ExtTreeMap.getElem?_erase, h.progressive.contexts]
      · simp only [GfxClient.next, GfxClient.handlePdu, GfxClient.done,
          ProgressiveCodec.deleteContext, ExtTreeMap.getElem?_erase, h.progressive.frameTiles]
      · simp only [GfxClient.next, GfxClient.handlePdu, GfxClient.done,
          ProgressiveCodec.deleteContext, ExtTreeMap.getElem?_erase]
        rw [h.tidy hactive ctx', ite_self]
  | wireToSurface2 w => exact (h.wireToSurface2 d (hnamed _ hconcerns)).2 haccepts
  | resetGraphics width height => cases hconcerns
  | _ => exact absurd rfl haside

theorem SameSurface.of_other (h : SameSurface id c f) {p : GfxPdu}
    (hconcerns : p.concerns id = false) (hreset : p.isReset = false) :
    SameSurface id (c.next d p) f := by
  have hother : ∀ j, [j].contains id = false → j ≠ id := fun j hj => by
    simpa [eq_comm] using hj
  by_cases haside : p.isAside = true
  · exact h.of_aside (aside_handlePdu d c haside)
      (show Aside f false (f.done [] : GfxClient.Outcome Clear H264 Frame Caps) from
        ⟨rfl, rfl, rfl, nofun⟩)
  have hof : ∀ c' : GfxClient Clear H264 Caps, c'.state.surfaces[id]? = c.state.surfaces[id]? →
      Alike id c'.progressive c.progressive → SameSurface id c' f := fun c' hsurface halike =>
    ⟨hsurface.trans h.surface, halike.trans h.progressive, h.tidy.of_alike halike⟩
  cases p with
  | startFrame => cases hconcerns
  | endFrame frameId => cases hconcerns
  | resetGraphics width height => cases hreset
  | createSurface j width height format =>
      have hne := hother j hconcerns
      rw [(next_createSurface d c ..).2]
      split
      · refine hof _ ?_ (alike_deleteSurface_other hne _)
        simp [GfxClient.created, ExtTreeMap.getElem?_insert, hne]
      · exact h
  | deleteSurface j =>
      have hne := hother j hconcerns
      obtain ⟨hsurfaces, hprogressive⟩ := next_deleteSurface d c j
      refine hof _ ?_ ?_
      · rw [hsurfaces]
        simp [ExtTreeMap.getElem?_erase, hne]
      · rw [hprogressive]
        split
        · exact alike_deleteSurface_other hne _
        · exact .refl id _
  | deleteEncodingContext j ctx =>
      have hne := hother j hconcerns
      refine hof _ rfl ⟨fun ctx' => ?_, fun _ => rfl, fun ctx' => ?_, rfl, rfl⟩
      · simp only [GfxClient.next, GfxClient.handlePdu, GfxClient.done,
          ProgressiveCodec.deleteContext, ExtTreeMap.getElem?_erase,
          if_neg (contextOrder_ne_eq hne ctx ctx')]
      · simp only [GfxClient.next, GfxClient.handlePdu, GfxClient.done,
          ProgressiveCodec.deleteContext, ExtTreeMap.getElem?_erase,
          if_neg (contextOrder_ne_eq hne ctx ctx')]
  | wireToSurface2 w =>
      have hne := hother w.surfaceId hconcerns
      unfold GfxClient.next GfxClient.handlePdu GfxClient.wireToSurface2
      simp only
      cases c.state.surface w.surfaceId with
      | error e => exact h
      | ok surface =>
          have halike := alike_decode_other d.progressive hne h.tidy w.codecContextId surface.size
            w.bitmapData
          simp only [GfxClient.check]
          generalize c.progressive.decode d.progressive w.surfaceId w.codecContextId surface.size
            w.bitmapData = x at halike ⊢
          obtain ⟨t, result⟩ := x
          cases result with
          | error e => exact hof _ rfl halike
          | ok tiles => exact hof _ rfl halike
  | _ => exact absurd rfl haside

/-! ### Runs -/

theorem acceptsAll_append {ps qs : List GfxPdu} :
    c.AcceptsAll d (ps ++ qs) ↔
      c.AcceptsAll d ps ∧ (ps.foldl (GfxClient.next d) c).AcceptsAll d qs := by
  induction ps generalizing c with
  | nil => simp [GfxClient.AcceptsAll]
  | cons p ps ih => simp [GfxClient.AcceptsAll, ih, and_assoc]

/-- A client whose session goes on, beside one that only sees what concerns the surface. -/
theorem SameSurface.foldl (h : SameSurface id c f) {qs : List GfxPdu} (hok : c.AcceptsAll d qs)
    (hreset : ∀ q ∈ qs, q.isReset = false) :
    SameSurface id (qs.foldl (GfxClient.next d) c)
      ((qs.filter (GfxPdu.concerns id)).foldl (GfxClient.next d) f) := by
  induction qs generalizing c f with
  | nil => exact h
  | cons q qs ih =>
      obtain ⟨haccepts, hrest⟩ := hok
      have hreset' : ∀ q ∈ qs, q.isReset = false := fun p hp => hreset p (List.mem_cons_of_mem _ hp)
      cases hconcerns : q.concerns id with
      | true =>
          rw [List.filter_cons_of_pos hconcerns]
          exact ih (h.of_concerns d hconcerns haccepts) hrest hreset'
      | false =>
          rw [List.filter_cons_of_neg (by rw [hconcerns]; exact Bool.false_ne_true)]
          exact ih (h.of_other d hconcerns (hreset q List.mem_cons_self)) hrest hreset'

end Clients

/-- A progressive payload for a created surface is decoded as on a fresh client that was in the same
place of a frame when the surface was created, and has since seen the frame brackets and the PDUs that
name the surface. -/
theorem reused_surface_decodes {Clear H264 Frame Caps : Type} {d : Decoders Clear H264 Frame Caps}
    {h264 : H264} {ps qs : List GfxPdu} {id width height : UInt16} {format : PixelFormat}
    (hok : (GfxClient.new d h264).AcceptsAll d (ps ++ .createSurface id width height format :: qs))
    (hreset : ∀ q ∈ qs, q.isReset = false) {w : WireToSurface2Pdu} (hw : w.surfaceId = id) :
    let before := ps.foldl (GfxClient.next d) (GfxClient.new d h264)
    let fresh := GfxClient.fresh d h264 before.progressive.frameActive
    let create := GfxPdu.createSurface id width height format
    (((create :: qs).foldl (GfxClient.next d) before).handlePdu d (.wireToSurface2 w)).2 =
      (((create :: qs.filter (GfxPdu.concerns id)).foldl (GfxClient.next d) fresh).handlePdu d
        (.wireToSurface2 w)).2 := by
  intro before fresh create
  obtain ⟨-, haccepts, hrest⟩ := (acceptsAll_append d).mp hok
  obtain ⟨hsize, hfree⟩ := (next_createSurface d before id width height format).1.mp haccepts
  have hfresh : fresh.state.surfaces[id]? = none := by
    simp only [fresh, GfxClient.fresh]
    split <;> exact ExtTreeMap.getElem?_empty
  have hactive : before.progressive.frameActive = fresh.progressive.frameActive := by
    simp only [fresh, GfxClient.fresh]
    cases before.progressive.frameActive <;> rfl
  have hcreated : SameSurface id (before.next d create) (fresh.next d create) := by
    rw [(next_createSurface d before ..).2, (next_createSurface d fresh ..).2, if_pos ⟨hsize, hfree⟩,
      if_pos ⟨hsize, hfresh⟩]
    exact sameSurface_created hactive _ _
  exact ((hcreated.foldl d hrest hreset).wireToSurface2 d hw).1

/-! ### A small sequence -/

/-- Decoders that understand a progressive stream without tiles. -/
def contextsOnly : Decoders Unit Unit Unit Unit := .refusing (.ok [.context true])

/-- The surface 1 is drawn on and deleted in a frame. -/
def drawnAndDeleted : List GfxPdu :=
  [.createSurface 1 64 64 .xRgb, .startFrame, .wireToSurface2 ⟨1, 0, []⟩, .deleteSurface 1]

def drawnElsewhere : List GfxPdu :=
  [.createSurface 2 64 64 .xRgb, .surfaceToSurface ⟨1, 2, ⟨0, 0, 8, 8⟩, [⟨0, 0⟩]⟩]

theorem reused_surface_decodes_drawnElsewhere :
    let before := drawnAndDeleted.foldl (GfxClient.next contextsOnly) (.new contextsOnly ())
    let create := GfxPdu.createSurface 1 64 64 .xRgb
    (((create :: drawnElsewhere).foldl (GfxClient.next contextsOnly) before).handlePdu contextsOnly
        (.wireToSurface2 ⟨1, 0, []⟩)).2 =
      (((create :: drawnElsewhere.filter (GfxPdu.concerns 1)).foldl (GfxClient.next contextsOnly)
        (.fresh contextsOnly () true)).handlePdu contextsOnly (.wireToSurface2 ⟨1, 0, []⟩)).2 := by
  have hok : (GfxClient.new contextsOnly ()).AcceptsAll contextsOnly
      (drawnAndDeleted ++ .createSurface 1 64 64 .xRgb :: drawnElsewhere) :=
    ⟨rfl, rfl, rfl, rfl, rfl, rfl, rfl, trivial⟩
  exact reused_surface_decodes hok (by simp [drawnElsewhere, GfxPdu.isReset]) rfl

end Drift.Gfx
