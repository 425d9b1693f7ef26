import Drift.Egfx.Proof.Caps
import Drift.Egfx.Session
import Drift.Gfx.Proof.Effects
import Drift.Gfx.Proof.Reuse

/-!
# The client has the surfaces of the server

The client that applies the PDUs of the server in turn has the surfaces that the server has, whatever the owner of
the server does and the client sends, and refuses no PDU but a picture whose data is no good.
-/

namespace Drift.Egfx

open Table
open Std (ExtTreeMap)

section Agreement

variable {Clear H264 Frame Caps : Type} (d : Gfx.Decoders Clear H264 Frame Caps)

/-! ### What the client makes of PDUs -/

/-- The client after PDUs, each applied whether the one before was accepted or not. -/
def applyAll (c : Gfx.GfxClient Clear H264 Caps) (pdus : List GfxPdu) : Gfx.GfxClient Clear H264 Caps :=
  pdus.foldl (fun c pdu => c.next d pdu.read) c

def GfxPdu.isPicture : GfxPdu → Bool
  | wireToSurface1 _ | wireToSurface2 _ => true
  | _ => false

def isUnknownSurface : Gfx.GfxError → Bool
  | .unknownSurface _ => true
  | _ => false

/-- The outcome does not blame an unknown surface. -/
def Knows (o : Gfx.GfxClient.Outcome Clear H264 Frame Caps) : Prop :=
  ∀ e, o.2.2 = .error e → isUnknownSurface e = false

/-- The client accepts the PDU, or it is a picture for a surface that it has. -/
def Served (c : Gfx.GfxClient Clear H264 Caps) (pdu : GfxPdu) : Prop :=
  c.Accepts d pdu.read ∨ pdu.isPicture = true ∧ Knows (c.handlePdu d pdu.read)

def AllServed : Gfx.GfxClient Clear H264 Caps → List GfxPdu → Prop
  | _, [] => True
  | c, pdu :: pdus => Served d c pdu ∧ AllServed (c.next d pdu.read) pdus

theorem applyAll_append (c : Gfx.GfxClient Clear H264 Caps) (pdus pdus' : List GfxPdu) :
    applyAll d c (pdus ++ pdus') = applyAll d (applyAll d c pdus) pdus' := List.foldl_append

theorem allServed_append {c : Gfx.GfxClient Clear H264 Caps} {pdus pdus' : List GfxPdu} :
    AllServed d c (pdus ++ pdus') ↔ AllServed d c pdus ∧ AllServed d (applyAll d c pdus) pdus' := by
  induction pdus generalizing c with
  | nil => exact ⟨fun h => ⟨trivial, h⟩, And.right⟩
  | cons pdu pdus ih =>
      change Served d c pdu ∧ AllServed d (c.next d pdu.read) (pdus ++ pdus') ↔ _
      rw [ih, ← and_assoc]
      rfl

/-! ### Pictures -/

theorem knows_fail (c : Gfx.GfxClient Clear H264 Caps) {e : Gfx.GfxError} (he : isUnknownSurface e = false) :
    Knows (c.fail e : Gfx.GfxClient.Outcome Clear H264 Frame Caps) := by
  intro e' h
  rw [← Except.error.inj h]
  exact he

theorem knows_check {α : Type} {c : Gfx.GfxClient Clear H264 Caps} {x : Except Gfx.GfxError α}
    {next : α → Gfx.GfxClient.Outcome Clear H264 Frame Caps} (hx : ∀ e, x = .error e → isUnknownSurface e = false)
    (hnext : ∀ a, Knows (next a)) : Knows (c.check x next) := by
  cases x with
  | ok a => exact hnext a
  | error e => exact knows_fail c (hx e rfl)

theorem knows_done (c : Gfx.GfxClient Clear H264 Caps) (calls : List (Gfx.SinkCall Frame)) :
    Knows (c.done calls) := by
  intro e h
  cases h

theorem known_mapError {α ε : Type} {x : Except ε α} {f : ε → Gfx.GfxError} (hf : ∀ e, isUnknownSurface (f e) = false)
    (e : Gfx.GfxError) (h : x.mapError f = .error e) : isUnknownSurface e = false := by
  cases x with
  | ok a => cases h
  | error e' =>
      rw [← Except.error.inj h]
      exact hf e'

theorem known_rect {r : Codec.ExclusiveRectangle} (e : Gfx.GfxError) (h : Gfx.rect r = .error e) :
    isUnknownSurface e = false := by
  unfold Gfx.rect at h
  rcases hrect : Rect.fromLtrb r.left r.top r.right r.bottom with _ | rect
  · rw [hrect] at h
    rw [← Except.error.inj h]
    rfl
  · rw [hrect] at h
    cases h

theorem known_ensureWithin {surface : UInt16} {bounds : Size} {r : Rect} {what : String} (e : Gfx.GfxError)
    (h : Gfx.ensureWithin surface bounds r what = .error e) : isUnknownSurface e = false := by
  unfold Gfx.ensureWithin at h
  by_cases hfits : r.fitsWithin bounds
  · rw [if_pos hfits] at h
    cases h
  · rw [if_neg hfits] at h
    rw [← Except.error.inj h]
    rfl

theorem known_clipAll {rectangles : List Codec.ExclusiveRectangle} {bounds : Size} (e : Gfx.GfxError)
    (h : Gfx.GfxClient.clipAll rectangles bounds = .error e) : isUnknownSurface e = false := by
  induction rectangles with
  | nil => cases h
  | cons r rectangles ih =>
      unfold Gfx.GfxClient.clipAll at h
      rcases hrect : Gfx.rect r with e' | rect
      · rw [hrect] at h
        rw [← Except.error.inj h]
        exact known_rect e' hrect
      · rw [hrect] at h
        rcases hrest : Gfx.GfxClient.clipAll rectangles bounds with e' | rects
        · rw [hrest] at h
          cases h
          exact ih hrest
        · rw [hrest] at h
          cases h

theorem knows_wireToSurface1 {c : Gfx.GfxClient Clear H264 Caps} {w : Gfx.WireToSurface1Pdu} {surface : Gfx.Surface}
    (hsurface : c.state.surface w.surfaceId = .ok surface) : Knows (c.wireToSurface1 d w) := by
  unfold Gfx.GfxClient.wireToSurface1
  rw [hsurface]
  apply knows_check known_rect
  intro dest
  cases w.codecId with
  | avc420 =>
      apply knows_check (known_mapError fun _ => rfl)
      intro stream
      apply knows_check known_clipAll
      intro regions
      apply knows_check (known_mapError fun _ => rfl)
      intro frame
      exact knows_done _ _
  | uncompressed =>
      apply knows_check known_ensureWithin
      intro _
      apply knows_check (known_mapError fun _ => rfl)
      intro tile
      exact knows_done c _
  | planar =>
      apply knows_check known_ensureWithin
      intro _
      apply knows_check (known_mapError fun _ => rfl)
      intro tile
      exact knows_done c _
  | clearCodec =>
      apply knows_check known_ensureWithin
      intro _
      apply knows_check (known_mapError fun _ => rfl)
      intro tile
      exact knows_done _ _
  | remoteFx => exact knows_fail c rfl
  | alpha => exact knows_fail c rfl
  | avc444 => exact knows_fail c rfl
  | avc444v2 => exact knows_fail c rfl

/-- A picture of RFX Progressive leaves the tables alone. -/
theorem wireToSurface2_spec {c : Gfx.GfxClient Clear H264 Caps} (w : Gfx.WireToSurface2Pdu) :
    (c.wireToSurface2 d w).1.state = c.state ∧
      ∀ surface, c.state.surface w.surfaceId = .ok surface → Knows (c.wireToSurface2 d w) := by
  unfold Gfx.GfxClient.wireToSurface2
  cases hsurface : c.state.surface w.surfaceId with
  | error e =>
      refine ⟨rfl, ?_⟩
      intro surface h
      cases h
  | ok surface =>
      rcases hdecode : c.progressive.decode d.progressive w.surfaceId w.codecContextId surface.size w.bitmapData
        with ⟨progressive, e | tiles⟩
      · simp only [Gfx.GfxClient.check, hdecode]
        exact ⟨rfl, fun _ _ => knows_fail _ rfl⟩
      · simp only [Gfx.GfxClient.check, hdecode]
        exact ⟨rfl, fun _ _ => knows_done _ _⟩

/-! ### Agreement -/

/-- The surface as the client keeps it. -/
def Surface.shape (surface : Surface) : Gfx.Surface :=
  ⟨⟨surface.width.toNat, surface.height.toNat⟩, surface.pixelFormat⟩

def Surfaces.view (s : Surfaces) (id : UInt16) : Option Gfx.Surface := (s.get id).map Surface.shape

/-- Before a ResetGraphics was sent the server has no surfaces, and the client may have old ones. -/
structure Agrees (s : GraphicsPipelineServer) (c : Gfx.GfxClient Clear H264 Caps) (created : Nat) : Prop where
  sent : s.resetGraphicsSent = true → ∀ id, c.state.surfaces[id]? = s.surfaces.view id
  unsent : s.resetGraphicsSent = false → ∀ id, s.surfaces.view id = none
  distinct : Distinct Surface.id s.surfaces.surfaces
  numbered : ∃ n ≤ created, s.surfaces.nextSurfaceId = .ofNat n ∧
    ∀ id, (s.surfaces.view id).isSome → id.toNat < n

/-- The server goes on with more PDUs, of which some leave the queue, and the client follows. -/
structure Follows (s s' : GraphicsPipelineServer) (left : List GfxPdu) (created : Nat) (pdus : List GfxPdu) :
    Prop where
  queue : left ++ s'.outputQueue = s.outputQueue ++ pdus
  agrees : ∀ (c : Gfx.GfxClient Clear H264 Caps) n, Agrees s c n → n + created ≤ 2 ^ 16 →
    AllServed d c pdus ∧ Agrees s' (applyAll d c pdus) (n + created)

variable {d} {s s' s'' : GraphicsPipelineServer}

theorem Follows.trans {left left' : List GfxPdu} {created created' : Nat} {pdus pdus' : List GfxPdu}
    (h : Follows d s s' left created pdus) (h' : Follows d s' s'' left' created' pdus') :
    Follows d s s'' (left ++ left') (created + created') (pdus ++ pdus') where
  queue := by rw [List.append_assoc, h'.queue, ← List.append_assoc, h.queue, List.append_assoc]
  agrees := by
    intro c n hc hn
    obtain ⟨hserved, hafter⟩ := h.agrees c n hc (by omega)
    obtain ⟨hserved', hafter'⟩ := h'.agrees _ _ hafter (by omega)
    rw [allServed_append, applyAll_append, ← Nat.add_assoc]
    exact ⟨⟨hserved, hserved'⟩, hafter'⟩

/-- The PDU leaves the surfaces of every client alone. -/
def Quiet (d : Gfx.Decoders Clear H264 Frame Caps) (pdu : GfxPdu) : Prop :=
  ∀ c : Gfx.GfxClient Clear H264 Caps, (c.next d pdu.read).state.surfaces = c.state.surfaces

theorem quiet_of_aside {pdu : GfxPdu} (h : pdu.read.isAside = true) : Quiet d pdu :=
  fun c => (Gfx.aside_handlePdu d c h).surfaces

theorem quiet_wireToSurface2 (w : WireToSurface2Pdu) : Quiet d (.wireToSurface2 w) :=
  fun _ => congrArg Gfx.GfxState.surfaces (wireToSurface2_spec d _).1

/-- Quiet PDUs that a client with these surfaces serves. -/
theorem served_quiet {pdus : List GfxPdu} {c : Gfx.GfxClient Clear H264 Caps} (hquiet : ∀ pdu ∈ pdus, Quiet d pdu)
    (hserved : ∀ pdu ∈ pdus, ∀ c' : Gfx.GfxClient Clear H264 Caps, c'.state.surfaces = c.state.surfaces →
      Served d c' pdu) :
    AllServed d c pdus ∧ (applyAll d c pdus).state.surfaces = c.state.surfaces := by
  induction pdus generalizing c with
  | nil => exact ⟨trivial, rfl⟩
  | cons pdu pdus ih =>
      have hsame := hquiet pdu List.mem_cons_self c
      have hrest := ih (c := c.next d pdu.read) (fun p hp => hquiet p (List.mem_cons_of_mem pdu hp))
        fun p hp c' hc' => hserved p (List.mem_cons_of_mem pdu hp) c' (hc'.trans hsame)
      exact ⟨⟨hserved pdu List.mem_cons_self c rfl, hrest.1⟩, hrest.2.trans hsame⟩

/-- The server has the same surfaces, and what it sends is quiet. -/
theorem follows_quiet {left pdus : List GfxPdu} (hqueue : left ++ s'.outputQueue = s.outputQueue ++ pdus)
    (hview : s'.surfaces.view = s.surfaces.view) (hdistinct : Distinct Surface.id s.surfaces.surfaces →
      Distinct Surface.id s'.surfaces.surfaces) (hnext : s'.surfaces.nextSurfaceId = s.surfaces.nextSurfaceId)
    (hsent : s'.resetGraphicsSent = s.resetGraphicsSent) (hquiet : ∀ pdu ∈ pdus, Quiet d pdu)
    (hserved : ∀ pdu ∈ pdus, ∀ (c : Gfx.GfxClient Clear H264 Caps) n, Agrees s c n → Served d c pdu) :
    Follows d s s' left 0 pdus where
  queue := hqueue
  agrees := by
    intro c n hc _
    have hkept : ∀ c' : Gfx.GfxClient Clear H264 Caps, c'.state.surfaces = c.state.surfaces → Agrees s c' n := by
      intro c' hsame
      refine ⟨?_, hc.unsent, hc.distinct, hc.numbered⟩
      intro hsent id
      rw [hsame]
      exact hc.sent hsent id
    obtain ⟨hall, hsame⟩ := served_quiet hquiet fun pdu hpdu c' hc' => hserved pdu hpdu c' n (hkept c' hc')
    obtain ⟨hafter, hunsent, hnodup, hnumbered⟩ := hkept _ hsame
    refine ⟨hall, ?_, ?_, hdistinct hnodup, ?_⟩
    · rw [hsent, hview]
      exact hafter
    · rw [hsent, hview]
      exact hunsent
    · rw [hnext, hview]
      exact hnumbered

theorem view_eq_none {s : Surfaces} {id : UInt16} : s.view id = none ↔ s.get id = none := Option.map_eq_none_iff

theorem view_insert (s : Surfaces) (surface : Surface) (id : UInt16) :
    (s.insert surface).view id = if surface.id = id then some surface.shape else s.view id := by
  unfold Surfaces.view Surfaces.get Surfaces.insert
  rw [lookup_put]
  by_cases hid : surface.id = id
  · rw [if_pos hid, if_pos hid]
    rfl
  · rw [if_neg hid, if_neg hid]

theorem view_remove {s : Surfaces} (h : Distinct Surface.id s.surfaces) (id id' : UInt16) :
    (s.remove id).view id' = if id = id' then none else s.view id' := by
  unfold Surfaces.view Surfaces.get Surfaces.remove
  rw [lookup_erase h]
  by_cases hid : id = id'
  · rw [if_pos hid, if_pos hid]
    rfl
  · rw [if_neg hid, if_neg hid]

/-- The client has a surface that the server has. -/
theorem Agrees.surface {c : Gfx.GfxClient Clear H264 Caps} {n : Nat} (h : Agrees s c n) {id : UInt16}
    {surface : Surface} (hsurface : s.surfaces.get id = some surface) : c.state.surface id = .ok surface.shape := by
  have hview : s.surfaces.view id = some surface.shape := congrArg (Option.map Surface.shape) hsurface
  cases hsent : s.resetGraphicsSent with
  | false =>
      rw [h.unsent hsent id] at hview
      cases hview
  | true =>
      unfold Gfx.GfxState.surface
      rw [h.sent hsent id, hview]

/-! ### The operations -/

/-- After a ResetGraphics neither has surfaces. -/
theorem follows_resetGraphics {width height : UInt32} {monitors : List Monitor}
    (hqueue : s'.outputQueue = s.outputQueue ++ [.resetGraphics ⟨width, height, monitors⟩])
    (hsurfaces : s'.surfaces = s.surfaces)
    (hempty : ∀ (c : Gfx.GfxClient Clear H264 Caps) n, Agrees s c n → ∀ id, s.surfaces.view id = none) :
    Follows d s s' [] 0 [.resetGraphics ⟨width, height, monitors⟩] where
  queue := hqueue
  agrees := by
    intro c n hc _
    have hnone := hempty c n hc
    refine ⟨⟨.inl rfl, trivial⟩, ?_, ?_, ?_, ?_⟩
    · intro _ id
      rw [hsurfaces, hnone]
      exact ExtTreeMap.getElem?_empty
    · intro _
      rw [hsurfaces]
      exact hnone
    · rw [hsurfaces]
      exact hc.distinct
    · rw [hsurfaces]
      exact hc.numbered

theorem follows_refl (s : GraphicsPipelineServer) : Follows d s s [] 0 [] where
  queue := (List.append_nil s.outputQueue).symm
  agrees := by
    intro c n hc _
    exact ⟨trivial, hc⟩

theorem follows_sendResetGraphics (s : GraphicsPipelineServer) (width height : UInt16) :
    ∃ pdus, Follows d s (s.sendResetGraphics width height) [] 0 pdus := by
  unfold GraphicsPipelineServer.sendResetGraphics
  cases hsent : s.resetGraphicsSent with
  | true => exact ⟨[], follows_refl s⟩
  | false => exact ⟨_, follows_resetGraphics rfl rfl fun c n hc => hc.unsent hsent⟩

theorem sent_sendResetGraphics (s : GraphicsPipelineServer) (width height : UInt16) :
    (s.sendResetGraphics width height).resetGraphicsSent = true := by
  unfold GraphicsPipelineServer.sendResetGraphics
  cases hsent : s.resetGraphicsSent with
  | true => exact hsent
  | false => rfl

theorem toNat_number {count : Nat} (h : count < 2 ^ 16) : (UInt16.ofNat count).toNat = count :=
  UInt16.toNat_ofNat_of_lt' h

theorem Agrees.next_free {c : Gfx.GfxClient Clear H264 Caps} {n : Nat} (hc : Agrees s c n) (hn : n + 1 ≤ 2 ^ 16) :
    s.surfaces.view s.surfaces.nextSurfaceId = none := by
  obtain ⟨count, hcount, hnext, hbelow⟩ := hc.numbered
  by_contra hused
  have hlt := hbelow s.surfaces.nextSurfaceId (Option.isSome_iff_ne_none.mpr hused)
  rw [hnext, toNat_number (by omega)] at hlt
  exact absurd hlt (Nat.lt_irrefl count)

/-- A new surface has a number that no other has, as long as the numbers last. -/
theorem follows_allocate (s : GraphicsPipelineServer) {width height : UInt16} (hsize : width ≠ 0 ∧ height ≠ 0)
    (pixelFormat : Gfx.PixelFormat) (hsent : s.resetGraphicsSent = true)
    (hsurfaces : s'.surfaces = s.surfaces.allocateId.2.insert
      ⟨s.surfaces.nextSurfaceId, width, height, pixelFormat, false, 0, 0⟩)
    (hqueue : s'.outputQueue = s.outputQueue ++
      [.createSurface ⟨s.surfaces.nextSurfaceId, width, height, pixelFormat⟩])
    (hsent' : s'.resetGraphicsSent = true) :
    Follows d s s' [] 1 [.createSurface ⟨s.surfaces.nextSurfaceId, width, height, pixelFormat⟩] where
  queue := hqueue
  agrees := by
    intro c n hc hn
    have hfree := hc.next_free hn
    have hpositive : ¬(width.toNat = 0 ∨ height.toNat = 0) := by
      rintro (hzero | hzero)
      · exact hsize.1 (UInt16.toNat_inj.mp hzero)
      · exact hsize.2 (UInt16.toNat_inj.mp hzero)
    have hclient : c.state.surfaces[s.surfaces.nextSurfaceId]? = none := (hc.sent hsent _).trans hfree
    obtain ⟨haccepts, hcreated⟩ :=
      Gfx.next_createSurface d c s.surfaces.nextSurfaceId width height pixelFormat
    rw [if_pos ⟨hpositive, hclient⟩] at hcreated
    have hafter : ∀ id, (s'.surfaces.view id) = if s.surfaces.nextSurfaceId = id then
        some ⟨⟨width.toNat, height.toNat⟩, pixelFormat⟩ else s.surfaces.view id := by
      intro id
      rw [hsurfaces, view_insert]
      rfl
    refine ⟨⟨.inl (haccepts.mpr ⟨hpositive, hclient⟩), trivial⟩, ?_, ?_, ?_, ?_⟩
    · intro _ id
      change (c.next d _).state.surfaces[id]? = _
      rw [GfxPdu.read, hcreated, hafter, ← hc.sent hsent id]
      unfold Gfx.GfxClient.created
      simp only [ExtTreeMap.getElem?_insert, Std.compare_eq_iff_eq]
    · rw [hsent']
      intro h
      cases h
    · rw [hsurfaces]
      exact hc.distinct.put _
    · obtain ⟨count, hcount, hnext, hbelow⟩ := hc.numbered
      refine ⟨count + 1, by omega, ?_, ?_⟩
      · rw [hsurfaces]
        change s.surfaces.nextSurfaceId + 1 = _
        rw [hnext, UInt16.ofNat_add]
        rfl
      · intro id hid
        rw [hafter] at hid
        by_cases heq : s.surfaces.nextSurfaceId = id
        · rw [← heq, hnext, toNat_number (by omega)]
          exact Nat.lt_succ_self count
        · rw [if_neg heq] at hid
          exact Nat.lt_succ_of_lt (hbelow id hid)

theorem follows_createSurface (s : GraphicsPipelineServer) {width height : UInt16} (hsize : width ≠ 0 ∧ height ≠ 0)
    (pixelFormat : Gfx.PixelFormat) :
    ∃ pdus, Follows d s (s.createSurfaceWithFormat width height pixelFormat).2 [] 1 pdus := by
  unfold GraphicsPipelineServer.createSurfaceWithFormat
  by_cases hopen : s.state ≠ .ready ∧ s.state ≠ .resizing
  · rw [if_pos hopen]
    refine ⟨[], (List.append_nil s.outputQueue).symm, ?_⟩
    intro c n hc _
    obtain ⟨count, hcount, hrest⟩ := hc.numbered
    exact ⟨trivial, hc.sent, hc.unsent, hc.distinct, count, Nat.le_succ_of_le hcount, hrest⟩
  · rw [if_neg hopen]
    obtain ⟨pdus, hreset⟩ := follows_sendResetGraphics (d := d) s width height
    have hsent := sent_sendResetGraphics s width height
    exact ⟨_, hreset.trans (follows_allocate _ hsize pixelFormat hsent rfl rfl (by exact hsent))⟩

theorem follows_deleteSurface (s : GraphicsPipelineServer) (id : UInt16) :
    ∃ pdus, Follows d s (s.deleteSurface id).2 [] 0 pdus := by
  unfold GraphicsPipelineServer.deleteSurface
  cases hget : s.surfaces.get id with
  | none => exact ⟨[], follows_refl s⟩
  | some surface =>
      refine ⟨[.deleteSurface ⟨id⟩], rfl, ?_⟩
      intro c n hc _
      have herased := (Gfx.next_deleteSurface d c id).1
      have hview := view_remove hc.distinct id
      have haccepts : c.Accepts d (.deleteSurface id) := by
        unfold Gfx.GfxClient.Accepts Gfx.GfxClient.handlePdu
        rcases hdelete : c.state.delete id with ⟨state, _ | _⟩ <;> simp only [hdelete] <;> rfl
      refine ⟨⟨.inl haccepts, trivial⟩, ?_, ?_, hc.distinct.erase id, ?_⟩
      · intro hsent id'
        change (c.next d (.deleteSurface id)).state.surfaces[id']? = (s.surfaces.remove id).view id'
        rw [herased, hview, ← hc.sent hsent id']
        simp only [ExtTreeMap.getElem?_erase, Std.compare_eq_iff_eq]
      · intro hsent id'
        change (s.surfaces.remove id).view id' = none
        rw [hview, hc.unsent hsent id', ite_self]
      · obtain ⟨count, hcount, hnext, hbelow⟩ := hc.numbered
        refine ⟨count, hcount, hnext, ?_⟩
        intro id' hsome
        change ((s.surfaces.remove id).view id').isSome at hsome
        rw [hview] at hsome
        by_cases hid : id = id'
        · rw [if_pos hid] at hsome
          cases hsome
        · rw [if_neg hid] at hsome
          exact hbelow id' hsome

theorem follows_mapSurfaceToOutput (s : GraphicsPipelineServer) (id : UInt16) (originX originY : UInt32) :
    ∃ pdus, Follows d s (s.mapSurfaceToOutput id originX originY).2 [] 0 pdus := by
  unfold GraphicsPipelineServer.mapSurfaceToOutput
  cases hget : s.surfaces.get id with
  | none => exact ⟨[], follows_refl s⟩
  | some surface =>
      have hid : surface.id = id := key_of_lookup hget
      refine ⟨[.mapSurfaceToOutput ⟨id, originX, originY⟩], follows_quiet rfl ?_ (fun h => h.put _) rfl rfl ?_ ?_⟩
      · funext id'
        refine (view_insert s.surfaces _ id').trans ?_
        by_cases heq : surface.id = id'
        · rw [if_pos heq, ← heq, hid]
          exact (congrArg (Option.map Surface.shape) hget).symm
        · rw [if_neg heq]
      · intro pdu hpdu
        rw [List.mem_singleton.mp hpdu]
        exact quiet_of_aside rfl
      · intro pdu hpdu c n hc
        rw [List.mem_singleton.mp hpdu]
        left
        unfold Gfx.GfxClient.Accepts GfxPdu.read Gfx.GfxClient.handlePdu
        simp only [hc.surface hget]
        rfl

/-- One row goes for each number, and so none is left. -/
theorem surfaces_deleteAll {rows : List Surface} {s : GraphicsPipelineServer} (h : s.surfaces.surfaces = rows) :
    ((rows.map Surface.id).foldl (fun s id => (s.deleteSurface id).2) s).surfaces.surfaces = [] := by
  induction rows generalizing s with
  | nil => exact h
  | cons row rows ih =>
      have hget : s.surfaces.get row.id = some row := by
        unfold Surfaces.get
        rw [h, lookup_cons, if_pos rfl]
      have hrest : (s.deleteSurface row.id).2.surfaces.surfaces = rows := by
        unfold GraphicsPipelineServer.deleteSurface
        rw [hget]
        change erase Surface.id s.surfaces.surfaces row.id = rows
        rw [h]
        exact List.eraseP_cons_of_pos (decide_eq_true rfl)
      exact ih hrest

theorem follows_deleteAll (ids : List UInt16) (s : GraphicsPipelineServer) :
    ∃ pdus, Follows d s (ids.foldl (fun s id => (s.deleteSurface id).2) s) [] 0 pdus := by
  induction ids generalizing s with
  | nil => exact ⟨[], follows_refl s⟩
  | cons id ids ih =>
      obtain ⟨pdus, hfirst⟩ := follows_deleteSurface (d := d) s id
      obtain ⟨pdus', hrest⟩ := ih (s.deleteSurface id).2
      exact ⟨pdus ++ pdus', hfirst.trans hrest⟩

/-- Nothing that the client knows of changes, and nothing is sent. -/
theorem follows_silent (hqueue : s'.outputQueue = s.outputQueue) (hsurfaces : s'.surfaces = s.surfaces)
    (hsent : s'.resetGraphicsSent = s.resetGraphicsSent) : Follows d s s' [] 0 [] := by
  refine follows_quiet ?_ ?_ ?_ ?_ hsent (List.forall_mem_nil _) (List.forall_mem_nil _)
  · rw [List.append_nil, List.nil_append, hqueue]
  · rw [hsurfaces]
  · rw [hsurfaces]
    exact id
  · rw [hsurfaces]

/-- One quiet PDU is sent. -/
theorem follows_push {pdu : GfxPdu} (hqueue : s'.outputQueue = s.outputQueue ++ [pdu])
    (hsurfaces : s'.surfaces = s.surfaces) (hsent : s'.resetGraphicsSent = s.resetGraphicsSent)
    (hquiet : pdu.read.isAside = true) (haccepts : ∀ c : Gfx.GfxClient Clear H264 Caps, c.Accepts d pdu.read) :
    Follows d s s' [] 0 [pdu] := by
  refine follows_quiet hqueue ?_ ?_ ?_ hsent ?_ ?_
  · rw [hsurfaces]
  · rw [hsurfaces]
    exact id
  · rw [hsurfaces]
  · intro pdu' hpdu
    rw [List.mem_singleton.mp hpdu]
    exact quiet_of_aside hquiet
  · intro pdu' hpdu c n hc
    rw [List.mem_singleton.mp hpdu]
    exact .inl (haccepts c)

theorem follows_resize (s : GraphicsPipelineServer) (width height : UInt16) (monitors : List Monitor) :
    ∃ pdus, Follows d s (s.resizeWithMonitors width height monitors) [] 0 pdus := by
  unfold GraphicsPipelineServer.resizeWithMonitors
  by_cases hready : s.state ≠ .ready
  · rw [if_pos hready]
    exact ⟨[], follows_refl s⟩
  rw [if_neg hready]
  by_cases hmany : monitors.length > 16
  · rw [if_pos hmany]
    exact ⟨[], follows_refl s⟩
  rw [if_neg hmany]
  let resizing : GraphicsPipelineServer := { s with state := .resizing, outputWidth := width, outputHeight := height }
  have hstart : Follows d s resizing [] 0 [] := follows_silent rfl rfl rfl
  obtain ⟨pdus, hdeleted⟩ := follows_deleteAll (d := d) (resizing.surfaces.surfaces.map Surface.id) resizing
  have hempty := surfaces_deleteAll (s := resizing) rfl
  refine ⟨_, (hstart.trans hdeleted).trans (follows_resetGraphics (by rfl) (by rfl) ?_)⟩
  intro c n _ id
  unfold Surfaces.view Surfaces.get
  rw [hempty]
  rfl

/-- Pictures for the surface. -/
def PicturesFor (id : UInt16) (pdus : List GfxPdu) : Prop :=
  ∀ pdu ∈ pdus, (∃ w : WireToSurface1Pdu, pdu = .wireToSurface1 w ∧ w.surfaceId = id) ∨
    ∃ w : WireToSurface2Pdu, pdu = .wireToSurface2 w ∧ w.surfaceId = id

theorem follows_sendFrame (s : GraphicsPipelineServer) (accepts : Bool) (id : UInt16) (fits : Surface → Bool)
    (timestampMs : UInt32) {pictures : Surface → List GfxPdu}
    (hpictures : ∀ surface, PicturesFor id (pictures surface)) :
    ∃ pdus, Follows d s (s.sendFrame accepts id fits timestampMs pictures).2 [] 0 pdus := by
  unfold GraphicsPipelineServer.sendFrame
  by_cases hblocked : s.state ≠ .ready ∨ !accepts ∨ s.frames.shouldBackpressure
  · rw [if_pos hblocked]
    exact ⟨[], follows_refl s⟩
  rw [if_neg hblocked]
  cases hget : s.surfaces.get id with
  | none => exact ⟨[], follows_refl s⟩
  | some surface =>
      by_cases hfits : !fits surface
      · simp only [if_pos hfits]
        exact ⟨[], follows_refl s⟩
      simp only [if_neg hfits]
      refine ⟨_, follows_quiet rfl rfl (fun h => h) rfl rfl ?_ ?_⟩
      · intro pdu hpdu
        rcases List.mem_append.mp hpdu with hbefore | hend
        · rcases List.mem_append.mp hbefore with hstart | hpicture
          · rw [List.mem_singleton.mp hstart]
            exact fun c => rfl
          · rcases hpictures surface pdu hpicture with ⟨w, rfl, -⟩ | ⟨w, rfl, -⟩
            · exact quiet_of_aside rfl
            · exact quiet_wireToSurface2 w
        · rw [List.mem_singleton.mp hend]
          exact fun c => rfl
      · intro pdu hpdu c n hc
        have hknown := hc.surface hget
        rcases List.mem_append.mp hpdu with hbefore | hend
        · rcases List.mem_append.mp hbefore with hstart | hpicture
          · rw [List.mem_singleton.mp hstart]
            exact .inl rfl
          · right
            rcases hpictures surface pdu hpicture with ⟨w, rfl, rfl⟩ | ⟨w, rfl, rfl⟩
            · exact ⟨rfl, knows_wireToSurface1 d hknown⟩
            · exact ⟨rfl, (wireToSurface2_spec d _).2 _ hknown⟩
        · rw [List.mem_singleton.mp hend]
          exact .inl rfl

theorem follows_restart (s : GraphicsPipelineServer) : Follows d s s.reinitialize [] 0 [] := by
  unfold GraphicsPipelineServer.reinitialize
  by_cases hready : s.state = .ready
  · rw [if_pos hready]
    refine ⟨(List.append_nil s.outputQueue).symm, ?_⟩
    intro c n hc _
    refine ⟨trivial, ?_, fun _ id => rfl, List.nodup_nil, 0, Nat.zero_le _, rfl, ?_⟩
    · intro h
      cases h
    · intro id hsome
      cases hsome
  · rw [if_neg hready]
    exact follows_refl s

/-- The client takes what the server makes of capabilities. -/
def TakesCaps (d : Gfx.Decoders Clear H264 Frame Caps) : Prop :=
  ∀ raw cap, raw.parsed = .ok (some cap) → ∃ caps, d.parsedCaps (GfxPdu.capsBytes raw) = .ok caps

theorem follows_handlePdu (hcaps : TakesCaps d) (h : Handler) (s : GraphicsPipelineServer) (pdu : GfxPdu) :
    ∃ pdus, Follows d s (s.handlePdu h pdu) [] 0 pdus := by
  cases pdu with
  | capabilitiesAdvertise pdu =>
      change ∃ pdus, Follows d s (s.handleCapabilitiesAdvertise h pdu) [] 0 pdus
      unfold GraphicsPipelineServer.handleCapabilitiesAdvertise
      cases pdu.sets.mapM RawCapabilitySet.parsed with
      | error e => exact ⟨[], follows_restart s⟩
      | ok parsed =>
          refine ⟨_, (follows_restart s).trans (follows_push (by rfl) (by rfl) (by rfl) (by rfl) ?_)⟩
          intro c
          obtain ⟨caps, hparsed⟩ := hcaps _ _ (parsed_toRaw
            (GraphicsPipelineServer.confirmedFor h (parsed.filterMap id)))
          unfold Gfx.GfxClient.Accepts GfxPdu.read Gfx.GfxClient.handlePdu
          simp only [hparsed]
          rfl
  | cacheImportOffer pdu =>
      exact ⟨[.cacheImportReply ⟨h.onCacheImportOffer pdu⟩], follows_push rfl rfl rfl rfl fun _ => rfl⟩
  | frameAcknowledge pdu => exact ⟨[], follows_silent rfl rfl rfl⟩
  | _ => exact ⟨[], follows_refl s⟩

/-! ### Runs -/

/-- On the wire, a PDU of the client is an input of the server, and what the server has queued leaves with it. -/
theorem GraphicsPipelineServer.process_encode (h : Handler) (s : GraphicsPipelineServer) {pdu : GfxPdu} {bytes : Bytes}
    (hpdu : pdu.WellFormed) (hbytes : pdu.encode = .ok bytes) (rest : Bytes) :
    s.process h (bytes ++ rest) = .ok (s.step h (.pdu pdu)).1.drainOutput := by
  have hdecode : GfxPdu.decode (bytes ++ rest) = .ok (pdu, rest) := (GfxPdu.takes_encode hpdu hbytes).run rest
  unfold GraphicsPipelineServer.process
  rw [hdecode]
  rfl

def ServerInput.isCreate : ServerInput → Bool
  | createSurface _ _ _ => true
  | _ => false

/-- A surface is not empty. -/
def ServerInput.Proper : ServerInput → Prop
  | createSurface width height _ => width ≠ 0 ∧ height ≠ 0
  | _ => True

theorem follows_drain (h : Handler) (s : GraphicsPipelineServer) :
    Follows d s (s.step h .drain).1 (s.step h .drain).2 0 [] := by
  unfold GraphicsPipelineServer.step GraphicsPipelineServer.drainOutput
  rcases GraphicsPipelineServer.wrapAll s.compressionMode s.outputQueue s.zgfxCompressor with _ | ⟨messages, c⟩
  · exact follows_refl s
  · exact follows_quiet rfl rfl (fun h => h) rfl rfl (List.forall_mem_nil _) (List.forall_mem_nil _)

theorem follows_step (hcaps : TakesCaps d) (h : Handler) (s : GraphicsPipelineServer) {input : ServerInput}
    (hproper : input.Proper) :
    ∃ pdus, Follows d s (s.step h input).1 (s.step h input).2 (if input.isCreate then 1 else 0) pdus := by
  have hone : ∀ (id : UInt16) {pdu : GfxPdu}, ((∃ w : WireToSurface1Pdu, pdu = .wireToSurface1 w ∧ w.surfaceId = id) ∨
      ∃ w : WireToSurface2Pdu, pdu = .wireToSurface2 w ∧ w.surfaceId = id) → PicturesFor id [pdu] := by
    intro id pdu hpdu pdu' hmem
    rw [List.mem_singleton.mp hmem]
    exact hpdu
  cases input with
  | setOutputDimensions width height => exact ⟨[], follows_silent rfl rfl rfl⟩
  | createSurface width height pixelFormat => exact follows_createSurface s hproper pixelFormat
  | deleteSurface id => exact follows_deleteSurface s id
  | mapSurfaceToOutput id originX originY => exact follows_mapSurfaceToOutput s id originX originY
  | resize width height monitors => exact follows_resize s width height monitors
  | setMaxFramesInFlight max => exact ⟨[], follows_silent rfl rfl rfl⟩
  | sendAvc420Frame id h264Data regions timestampMs =>
      exact follows_sendFrame s _ id _ timestampMs fun _ => hone id (.inl ⟨_, rfl, rfl⟩)
  | sendAvc444Frame id lumaData lumaRegions chromaData chromaRegions timestampMs =>
      change ∃ pdus, Follows d s
        (s.sendAvc444Frame id lumaData lumaRegions chromaData chromaRegions timestampMs).2 [] 0 pdus
      unfold GraphicsPipelineServer.sendAvc444Frame
      split
      · exact follows_sendFrame s _ id _ timestampMs fun _ => hone id (.inl ⟨_, rfl, rfl⟩)
      · exact follows_sendFrame s _ id _ timestampMs fun _ => hone id (.inl ⟨_, rfl, rfl⟩)
  | sendAvc444v2Frame id encoding stream1Data stream1Regions stream2Data stream2Regions timestampMs =>
      exact follows_sendFrame s _ id _ timestampMs fun _ => hone id (.inl ⟨_, rfl, rfl⟩)
  | sendPlanarFrame id planarData destWidth destHeight timestampMs =>
      exact follows_sendFrame s _ id _ timestampMs fun _ => hone id (.inl ⟨_, rfl, rfl⟩)
  | sendUncompressedFrame id bitmapData destWidth destHeight timestampMs =>
      exact follows_sendFrame s _ id _ timestampMs fun _ => hone id (.inl ⟨_, rfl, rfl⟩)
  | sendRemotefxProgressiveFrame id codecContextId progressiveData timestampMs =>
      exact follows_sendFrame s _ id _ timestampMs fun _ => hone id (.inr ⟨_, rfl, rfl⟩)
  | sendClearcodecFrame id destinationRectangle bitmapData timestampMs =>
      exact follows_sendFrame s _ id _ timestampMs fun _ => hone id (.inl ⟨_, rfl, rfl⟩)
  | sendMixedFrame id tiles timestampMs =>
      apply follows_sendFrame s _ id _ timestampMs
      intro surface pdu hpdu
      obtain ⟨tile, -, rfl⟩ := List.mem_map.mp hpdu
      cases tile with
      | clearCodec destination bitmapData => exact .inl ⟨_, rfl, rfl⟩
      | remoteFxProgressive codecContextId progressiveData => exact .inr ⟨_, rfl, rfl⟩
      | avc420 regions h264Data => exact .inl ⟨_, rfl, rfl⟩
  | pdu pdu => exact follows_handlePdu hcaps h s pdu
  | drain => exact ⟨[], follows_drain h s⟩

theorem follows_run (hcaps : TakesCaps d) (h : Handler) (s : GraphicsPipelineServer) {inputs : List ServerInput}
    (hproper : ∀ input ∈ inputs, input.Proper) :
    ∃ pdus, Follows d s (Transition.run (GraphicsPipelineServer.step h) s inputs).1
      (Transition.run (GraphicsPipelineServer.step h) s inputs).2 (inputs.countP ServerInput.isCreate) pdus := by
  induction inputs generalizing s with
  | nil => exact ⟨[], follows_refl s⟩
  | cons input inputs ih =>
      obtain ⟨pdus, hstep⟩ := follows_step hcaps h s (hproper input List.mem_cons_self)
      obtain ⟨pdus', hrest⟩ := ih (s.step h input).1 fun i hi => hproper i (List.mem_cons_of_mem input hi)
      rw [Transition.run_cons, List.countP_cons, Nat.add_comm]
      exact ⟨pdus ++ pdus', hstep.trans hrest⟩

end Agreement

section Runs

open GraphicsPipelineServer

/-- Whatever is done to the server, a client that applies all PDUs so far has its surfaces, and has served them. -/
theorem surfaces_agree {Clear H264 Frame Caps : Type} {d : Gfx.Decoders Clear H264 Frame Caps} (hcaps : TakesCaps d)
    (h264 : H264) (h : Handler) (mode : Zgfx.CompressionMode) {inputs : List ServerInput}
    (hproper : ∀ input ∈ inputs, input.Proper) (hcount : inputs.countP ServerInput.isCreate ≤ 2 ^ 16) :
    AllServed d (.new d h264) (queued h (.withCompression h mode) inputs) ∧
      (∀ id surface, (Transition.run (step h) (.withCompression h mode) inputs).1.surfaces.get id = some surface →
        (applyAll d (.new d h264) (queued h (.withCompression h mode) inputs)).state.surfaces[id]? =
          some surface.shape) ∧
      ((Transition.run (step h) (.withCompression h mode) inputs).1.resetGraphicsSent = true →
        ∀ id, (Transition.run (step h) (.withCompression h mode) inputs).1.surfaces.get id = none →
          (applyAll d (.new d h264) (queued h (.withCompression h mode) inputs)).state.surfaces[id]? = none) := by
  obtain ⟨pdus, hfollows⟩ := follows_run hcaps h (.withCompression h mode) hproper
  have hstart : Agrees (.withCompression h mode) (.new d h264 : Gfx.GfxClient Clear H264 Caps) 0 := by
    refine ⟨?_, fun _ _ => rfl, List.nodup_nil, 0, Nat.le_refl 0, rfl, ?_⟩
    · intro h
      cases h
    · intro id hsome
      cases hsome
  obtain ⟨hserved, hagrees⟩ := hfollows.agrees (.new d h264) 0 hstart (by omega)
  have hqueued : queued h (.withCompression h mode) inputs = pdus := hfollows.queue
  rw [hqueued]
  refine ⟨hserved, ?_, ?_⟩
  · intro id surface hget
    have hview := congrArg (Option.map Surface.shape) hget
    cases hsent : (Transition.run (step h) (.withCompression h mode) inputs).1.resetGraphicsSent with
    | true => exact (hagrees.sent hsent id).trans hview
    | false => exact absurd ((hagrees.unsent hsent id).symm.trans hview) (Option.some_ne_none _).symm
  · intro hsent id hget
    exact (hagrees.sent hsent id).trans (view_eq_none.mpr hget)

/-- A client that decodes nothing and accepts all capabilities. -/
def indifferent : Gfx.Decoders Unit Unit Unit Unit :=
  { Gfx.Decoders.refusing (.ok []) with parsedCaps := fun _ => .ok none }

/-- A surface is made and drawn on, and the client loses what it knew. -/
def testInputs : List ServerInput :=
  [.pdu capsAdvertisePdu, .createSurface 64 64 .xRgb, .sendPlanarFrame 0 [] 64 64 0, .pdu capsAdvertisePdu,
    .createSurface 32 16 .aRgb, .mapSurfaceToOutput 0 1 2]

theorem surfaces_agree_test :
    (applyAll indifferent (.new indifferent ()) (queued .default (.withCompression .default .never)
      testInputs)).state.surfaces[(0 : UInt16)]? = some ⟨⟨32, 16⟩, .aRgb⟩ :=
  (surfaces_agree (fun _ _ _ => ⟨none, rfl⟩) () .default .never (by
    intro input hinput
    simp only [testInputs, List.mem_cons, List.not_mem_nil, or_false] at hinput
    rcases hinput with rfl | rfl | rfl | rfl | rfl | rfl
    all_goals trivial) (by decide)).2.1 0 ⟨0, 32, 16, .aRgb, true, 1, 2⟩ rfl

end Runs

end Drift.Egfx
