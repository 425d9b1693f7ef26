import Drift.Clipboard.Proof.Permissions

/-!
# Announced formats and their data

The limit is checked on the contents when they are announced, and on their encoding when they are asked for.
Text and bitmaps grow on the way, so an announced format has its data exactly when what it grows to is
within the limit as well.
-/

namespace Drift.Clipboard

open ClipboardSync Offer

/-! ### Lengths -/

theorem checkSize_eq_ok_iff {size : Nat} : checkSize size = .ok () ↔ size ≤ maxClipboardBytes := by
  unfold checkSize
  split
  · next hlarge => exact ⟨fun h => (nomatch h), fun h => absurd hlarge (Nat.not_lt.mpr h)⟩
  · next hfits => exact ⟨fun _ => Nat.not_lt.mp hfits, fun _ => rfl⟩

theorem length_unitBytes (units : List UInt16) : (units.flatMap unitBytes).length = 2 * units.length := by
  induction units with
  | nil => rfl
  | cons unit units ih =>
      rw [List.flatMap_cons, List.length_append, ih, List.length_cons, unitBytes]
      simp only [List.length_cons, List.length_nil]
      omega

theorem length_encodeUtf16 (c : Char) : (Input.encodeUtf16 c).length = codeUnits c := by
  unfold Input.encodeUtf16 codeUnits
  simp only
  split <;> rfl

theorem length_lfToCrlf (prev : Char) (cs : List Char) :
    ((lfToCrlf prev cs).flatMap Input.encodeUtf16).length =
      (cs.map codeUnits).sum + ((prev :: cs).zip cs).countP needsReturn := by
  induction cs generalizing prev with
  | nil => rfl
  | cons c cs ih =>
      rw [lfToCrlf, List.map_cons, List.sum_cons, List.zip_cons_cons, List.countP_cons]
      split
      · next hreturn =>
          have hcr : codeUnits '\r' = 1 := rfl
          have hneeds : needsReturn (prev, c) = true := by simpa [needsReturn] using hreturn
          rw [List.flatMap_cons, List.flatMap_cons, List.length_append, List.length_append, ih,
            length_encodeUtf16, length_encodeUtf16, if_pos hneeds, hcr]
          omega
      · next hplain =>
          have hneeds : ¬ needsReturn (prev, c) = true := by simpa [needsReturn] using hplain
          rw [List.flatMap_cons, List.length_append, ih, length_encodeUtf16, if_neg hneeds]
          omega

theorem length_encodeUnicodeText (text : String) :
    (encodeUnicodeText text).length = textBytes text := by
  rw [encodeUnicodeText, List.length_append, length_unitBytes, length_lfToCrlf, textBytes]
  simp only [List.length_cons, List.length_nil]
  omega

theorem length_leBytes (width n : Nat) : (leBytes width n).length = width := by
  rw [leBytes, List.length_map, List.length_range]

/-! ### Images -/

theorem pngPassthrough_of_valid {png : Bytes} (hsize : png.length ≤ maxClipboardBytes)
    (hsignature : pngSignature.isPrefixOf png = true) : pngPassthrough png = .ok png := by
  unfold pngPassthrough
  rw [checkSize_eq_ok_iff.mpr hsize, hsignature]
  rfl

theorem length_flatMap_of_forall {α β : Type*} {f : α → List β} {n : Nat}
    (h : ∀ a, (f a).length = n) (as : List α) : (as.flatMap f).length = as.length * n := by
  induction as with
  | nil => simp
  | cons a as ih =>
      rw [List.flatMap_cons, List.length_append, h, ih, List.length_cons, Nat.succ_mul, Nat.add_comm]

theorem pngToDib_of_valid {images : ImageCodec} {png : Bytes} {rgba : RgbaImage}
    (hsize : png.length ≤ maxClipboardBytes) (hsignature : pngSignature.isPrefixOf png = true)
    (hload : images.loadPng png = .ok rgba) (hwidth : 0 < rgba.width) (hheight : 0 < rgba.height) :
    (rgba.width * rgba.height * 4 ≤ maxClipboardBytes →
      ∃ dib, pngToDib images png = .ok dib ∧ dib.length = bitmapBytes rgba) ∧
    (maxClipboardBytes < rgba.width * rgba.height * 4 → ∀ dib, pngToDib images png ≠ .ok dib) := by
  unfold pngToDib
  simp only [pngPassthrough_of_valid hsize hsignature, hload, bind, Except.bind]
  constructor
  · intro hpixels
    have hlimit : maxClipboardBytes < 2 ^ 31 := by decide
    have hcolumns : rgba.width ≤ rgba.width * rgba.height := Nat.le_mul_of_pos_right _ hheight
    have hrows : rgba.height ≤ rgba.width * rgba.height := Nat.le_mul_of_pos_left _ hwidth
    rw [checkSize_eq_ok_iff.mpr hpixels]
    simp only
    rw [if_neg (by omega)]
    refine ⟨_, rfl, ?_⟩
    have hrow : ∀ y, ((List.range rgba.width).flatMap fun x =>
        let p := rgba.pixel x y
        [p.b, p.g, p.r, p.a]).length = rgba.width * 4 := by
      intro y
      have hpixel : ∀ x, (let p := rgba.pixel x y; [p.b, p.g, p.r, p.a]).length = 4 := fun x => rfl
      rw [length_flatMap_of_forall hpixel, List.length_range]
    rw [List.length_append, length_flatMap_of_forall hrow, bitmapBytes]
    simp only [List.length_append, length_leBytes, List.length_range, List.length_reverse]
    rw [Nat.mul_comm rgba.width rgba.height, Nat.mul_assoc]
    rfl
  · intro hlarge dib
    cases hcheck : checkSize (rgba.width * rgba.height * 4) with
    | error e => exact fun h => nomatch h
    | ok u => exact absurd (checkSize_eq_ok_iff.mp hcheck) (Nat.not_le.mpr hlarge)

/-! ### Requests -/

theorem exists_sized_iff {data : Bytes} :
    (∃ out, ((checkSize data.length).bind fun _ => .ok data) = .ok out) ↔
      data.length ≤ maxClipboardBytes := by
  rw [← checkSize_eq_ok_iff]
  cases checkSize data.length with
  | error e => exact ⟨fun ⟨_, h⟩ => (nomatch h), fun h => (nomatch h)⟩
  | ok u => exact ⟨fun _ => rfl, fun _ => ⟨data, rfl⟩⟩

theorem mem_outboundFormats_iff {contents : ClipboardContents} {prefs : ClipboardPrefs} {id : Nat} :
    id ∈ (outboundFormats contents prefs).map ClipFormat.id ↔
      (id = cfUnicodeText ∧ FormatKind.unicodeText.allowedBy prefs = true ∧ contents.text.isSome) ∨
      ((id = localPngFormatId ∨ id = cfDib) ∧ FormatKind.png.allowedBy prefs = true ∧
        (findPng contents).isSome) ∨
      (id = cfTiff ∧ FormatKind.png.allowedBy prefs = true ∧ findPng contents = none ∧
        (findTiff contents).isSome) := by
  unfold outboundFormats
  rw [List.map_append, List.mem_append]
  refine or_congr ?_ ?_
  · split
    · next h =>
        rw [Bool.and_eq_true] at h
        simp [h, ClipFormat.standard]
    · next h =>
        rw [Bool.and_eq_true] at h
        simp only [List.map_nil, List.not_mem_nil, false_iff]
        exact fun hid => h hid.2
  · cases FormatKind.png.allowedBy prefs with
    | false => simp
    | true =>
        cases findPng contents with
        | some png => simp [ClipFormat.standard, ClipFormat.named]
        | none =>
            cases findTiff contents with
            | some tiff => simp [ClipFormat.standard]
            | none => simp

/-- The sizes that were checked when the contents were filtered. -/
def Sized (contents : ClipboardContents) : Prop := ∀ item ∈ contents.items, item.size ≤ maxClipboardBytes

theorem Sized.png {contents : ClipboardContents} (h : Sized contents) {png : Bytes}
    (hpng : findPng contents = some png) : png.length ≤ maxClipboardBytes := by
  obtain ⟨item, hitem, heq⟩ := List.exists_of_findSome?_eq_some hpng
  cases item with
  | png bytes =>
      obtain rfl := Option.some.inj heq
      exact h _ hitem
  | text t => exact nomatch heq
  | tiff bytes => exact nomatch heq

theorem Sized.tiff {contents : ClipboardContents} (h : Sized contents) {tiff : Bytes}
    (htiff : findTiff contents = some tiff) : tiff.length ≤ maxClipboardBytes := by
  obtain ⟨item, hitem, heq⟩ := List.exists_of_findSome?_eq_some htiff
  cases item with
  | tiff bytes =>
      obtain rfl := Option.some.inj heq
      exact h _ hitem
  | text t => exact nomatch heq
  | png bytes => exact nomatch heq

variable {images : ImageCodec} {contents : ClipboardContents} {prefs : ClipboardPrefs}

theorem encodeOutbound_of_error {id : Nat} (hid : id ∉ (outboundFormats contents prefs).map ClipFormat.id) :
    encodeOutbound images id contents prefs = .error (.unavailable id) := by
  have hany : ((outboundFormats contents prefs).any fun f => f.id = id) = false := by
    simpa using hid
  unfold encodeOutbound
  rw [hany]
  rfl

theorem encodeOutbound_iff_of_mem {id : Nat} (hsized : Sized contents) (hvalid : Valid images contents)
    (hid : id ∈ (outboundFormats contents prefs).map ClipFormat.id) :
    (∃ data, encodeOutbound images id contents prefs = .ok data) ↔ Fits images contents id := by
  have hany : ((outboundFormats contents prefs).any fun f => f.id = id) = true := by
    simpa using hid
  unfold encodeOutbound
  rw [hany]
  simp only [Bool.not_true, Bool.false_eq_true, if_false, pure, Except.pure, bind, Except.bind]
  rcases mem_outboundFormats_iff.mp hid with
    ⟨rfl, -, htext⟩ | ⟨rfl | rfl, -, hpng⟩ | ⟨rfl, -, -, htiff⟩
  · obtain ⟨text, htext⟩ := Option.isSome_iff_exists.mp htext
    have hfits : Fits images contents cfUnicodeText ↔
        (encodeUnicodeText text).length ≤ maxClipboardBytes := by
      rw [length_encodeUnicodeText]
      simp [Fits, htext, show cfUnicodeText ≠ cfDib by decide]
    rw [hfits, ← exists_sized_iff, htext]
    rfl
  · obtain ⟨png, hpng⟩ := Option.isSome_iff_exists.mp hpng
    have hfits : Fits images contents localPngFormatId := by
      exact ⟨fun h => absurd h (by decide), fun h => absurd h (by decide)⟩
    refine iff_of_true ?_ hfits
    rw [hpng]
    exact exists_sized_iff.mpr (hsized.png hpng)
  · obtain ⟨png, hpng⟩ := Option.isSome_iff_exists.mp hpng
    obtain ⟨hsignature, rgba, hload, hwidth, hheight⟩ := hvalid png hpng
    have hfits : Fits images contents cfDib ↔ bitmapBytes rgba ≤ maxClipboardBytes := by
      simp [Fits, hpng, hload, show cfDib ≠ cfUnicodeText by decide]
    obtain ⟨hmade, hrefused⟩ :=
      pngToDib_of_valid (hsized.png hpng) hsignature hload hwidth hheight
    rw [hfits, hpng]
    by_cases hpixels : rgba.width * rgba.height * 4 ≤ maxClipboardBytes
    · obtain ⟨dib, hdib, hlength⟩ := hmade hpixels
      rw [← hlength, ← exists_sized_iff]
      have hmap : (some png).mapM (pngToDib images) = .ok (some dib) := by
        simp [hdib, Functor.map, Except.map]
      rw [hmap]
      rfl
    · have hlarge := Nat.not_le.mp hpixels
      have hbitmap : ¬ bitmapBytes rgba ≤ maxClipboardBytes := by
        rw [bitmapBytes]
        omega
      refine iff_of_false ?_ hbitmap
      cases hdib : pngToDib images png with
      | ok dib => exact absurd hdib (hrefused hlarge dib)
      | error e =>
          have hmap : (some png).mapM (pngToDib images) = .error e := by
            simp [hdib, Functor.map, Except.map]
          rw [hmap]
          exact fun ⟨_, h⟩ => nomatch h
  · obtain ⟨tiff, htiff⟩ := Option.isSome_iff_exists.mp htiff
    have hfits : Fits images contents cfTiff := by
      exact ⟨fun h => absurd h (by decide), fun h => absurd h (by decide)⟩
    refine iff_of_true ?_ hfits
    rw [htiff]
    exact exists_sized_iff.mpr (hsized.tiff htiff)

/-! ### Announcements -/

theorem sized_filterLocal (contents : ClipboardContents) (prefs : ClipboardPrefs) :
    Sized (filterLocal contents prefs).1 := by
  intro item hitem
  simpa using (List.mem_filter.mp hitem).2

theorem eq_empty_of_outboundFormats {contents : ClipboardContents} {prefs : ClipboardPrefs}
    (h : outboundFormats (filterLocal contents prefs).1 prefs = []) :
    (filterLocal contents prefs).1 = .empty := by
  have hnone : ∀ id, id ∉ (outboundFormats (filterLocal contents prefs).1 prefs).map ClipFormat.id := by
    rw [h]
    exact fun _ => List.not_mem_nil
  have hitems : (filterLocal contents prefs).1.items = [] := by
    by_contra hne
    obtain ⟨item, hitem⟩ := List.exists_mem_of_ne_nil _ hne
    have hallowed : item.kind.allowedBy prefs = true :=
      (List.mem_filter.mp (List.mem_filter.mp hitem).1).2
    have hfound : ∀ {α : Type} (pick : ClipboardItem → Option α), (pick item).isSome →
        ((filterLocal contents prefs).1.items.findSome? pick).isSome := by
      intro α pick hpick
      exact List.findSome?_isSome_iff.mpr ⟨item, hitem, hpick⟩
    cases item with
    | text t => exact hnone _ (mem_outboundFormats_iff.mpr (.inl ⟨rfl, hallowed, hfound _ rfl⟩))
    | png bytes =>
        exact hnone _ (mem_outboundFormats_iff.mpr (.inr (.inl ⟨.inr rfl, hallowed, hfound _ rfl⟩)))
    | tiff bytes =>
        cases hpng : findPng (filterLocal contents prefs).1 with
        | none =>
            exact hnone _ (mem_outboundFormats_iff.mpr
              (.inr (.inr ⟨rfl, hallowed, hpng, hfound _ rfl⟩)))
        | some png =>
            exact hnone _ (mem_outboundFormats_iff.mpr
              (.inr (.inl ⟨.inr rfl, hallowed, by rw [hpng]; rfl⟩)))
  cases hkept : (filterLocal contents prefs).1 with
  | mk items => rw [ClipboardContents.empty, ← hitems, hkept]

namespace ClipboardSync

variable {s : ClipboardSync} {now : Instant}

/-- What a handler does to what is announced and served: nothing, or it sends the list of what is served
from then on. -/
inductive Announces (s : ClipboardSync) (r : Acting) : Prop where
  | silent (hlists : r.2.filterMap SyncAction.formatList? = [])
      (hsame : r.1.advertised = s.advertised)
  | list (hlists : r.2.filterMap SyncAction.formatList? = [outboundFormats r.1.advertised r.1.prefs])
      (hfrom : r.1.advertised = .empty ∨ r.1.advertised =
        (filterLocal ((r.1.local'.map (·.contents)).getD .empty) r.1.prefs).1)

theorem advertiseLocal_announces (s s' : ClipboardSync) (now : Instant) :
    Announces s' (s.advertiseLocal now) :=
  .list (formatLists_advertiseLocal s now) (.inr rfl)

theorem Fetches.announces {r : Acting} (h : Fetches s r) : Announces s r :=
  .silent h.silent (by rw [h.state])

theorem sendList_announces (s : ClipboardSync) {s' : ClipboardSync} (hempty : s'.advertised = .empty) :
    Announces s (s'.sendList [] now) := by
  refine .list ?_ (.inl hempty)
  have hnone : outboundFormats .empty s'.prefs = [] := by
    cases s'.prefs <;> rfl
  show [[]] = [outboundFormats s'.advertised s'.prefs]
  rw [hempty, hnone]

theorem LocalStep.announces {r : Acting} (hstep : LocalStep s now r) : Announces s r := by
  cases hstep with
  | keep s' hfetch hinflight hadvertised => exact .silent rfl hadvertised
  | clear s' hfetch hinflight hadvertised => exact sendList_announces s hadvertised
  | turnOff s' hfetch hinflight => exact sendList_announces s rfl
  | advertise s' hfetch hinflight => exact advertiseLocal_announces s' s now

theorem handle_announces (images : ImageCodec) (s : ClipboardSync) (now : Instant) (input : SyncInput) :
    Announces s (s.handle images now input) := by
  cases input with
  | remoteFormatList formats => exact (s.onRemoteList_fetches formats now).announces
  | remoteData data => exact (onRemoteData_fetches images s data now).announces
  | remoteDataRequest formatId => exact .silent rfl rfl
  | tick =>
      simp only [handle, onTick]
      split
      · exact .silent rfl rfl
      · exact .silent rfl rfl
  | _ => exact (handle_local images s now rfl).announces

theorem prefs_handle_of_not_ends (images : ImageCodec) {input : SyncInput} (h : ends s input = false) :
    (s.handle images now input).1.prefs = s.prefs := by
  rw [prefs_handle]
  cases input with
  | prefs prefs =>
      have hsame : prefs = s.prefs := by simpa [ends] using h
      exact hsame
  | _ => rfl

/-- What is served is what the last list was made from, and the list is of its formats while something is
announced. -/
structure Standing (s : ClipboardSync) (m : Offer) : Prop where
  contents : m.contents = s.advertised
  sized : Sized s.advertised
  last : m.announced ≠ [] → m.last = (outboundFormats s.advertised s.prefs).map ClipFormat.id

end ClipboardSync

namespace Offer

variable {m : Offer} {c : Clocked} {e : Timed}

theorem observe_step (images : ImageCodec) (m : Offer) (c : Clocked) (e : Timed) :
    observe m ⟨c, e, (c.step images e).2, (c.step images e).1⟩ =
      ((c.sync.handle images (c.now + e.elapsed) e.input).2.filterMap SyncAction.formatList?).foldl
        (announce (c.sync.handle images (c.now + e.elapsed) e.input).1)
        (if ends c.sync e.input then { m with announced := [] } else m) := by
  simp only [observe, Clocked.step, List.flatMap_singleton]

theorem standing_step (images : ImageCodec) (h : c.sync.Standing m) (e : Timed) :
    (c.step images e).1.sync.Standing (observe m ⟨c, e, (c.step images e).2, (c.step images e).1⟩) := by
  have hannounces := c.sync.handle_announces images (c.now + e.elapsed) e.input
  have hprefs : ends c.sync e.input = false →
      (c.sync.handle images (c.now + e.elapsed) e.input).1.prefs = c.sync.prefs :=
    prefs_handle_of_not_ends images
  rw [observe_step]
  show ((c.sync.handle images (c.now + e.elapsed) e.input).1).Standing _
  generalize c.sync.handle images (c.now + e.elapsed) e.input = r at hannounces hprefs ⊢
  cases hannounces with
  | silent hlists hsame =>
      rw [hlists, List.foldl_nil]
      cases hends : ends c.sync e.input with
      | true =>
          refine ⟨?_, by rw [hsame]; exact h.sized, fun hne => absurd rfl hne⟩
          rw [hsame]
          exact h.contents
      | false =>
          refine ⟨?_, by rw [hsame]; exact h.sized, ?_⟩
          · rw [hsame]
            exact h.contents
          · rw [hsame, hprefs hends]
            exact h.last
  | list hlists hfrom =>
      rw [hlists, List.foldl_cons, List.foldl_nil]
      refine ⟨?_, ?_, fun _ => rfl⟩
      · show (if (outboundFormats r.1.advertised r.1.prefs).isEmpty then _ else _) = _
        split
        · next hnone =>
            rcases hfrom with hempty | hkept
            · exact hempty.symm
            · rw [hkept] at hnone ⊢
              exact (eq_empty_of_outboundFormats (List.isEmpty_iff.mp hnone)).symm
        · next hsome =>
            rcases hfrom with hempty | hkept
            · rw [hempty] at hsome
              cases hp : r.1.prefs <;> exact absurd (by rw [hp]; rfl) hsome
            · exact hkept.symm
      · rcases hfrom with hempty | hkept
        · rw [hempty]
          exact fun _ hitem => nomatch hitem
        · rw [hkept]
          exact sized_filterLocal _ _

/-- A request is answered with data exactly when its format is on the last list and its encoding fits. -/
theorem served_iff {images : ImageCodec} (h : c.sync.Standing m) :
    Served images m ⟨c, e, (c.step images e).2, (c.step images e).1⟩ ↔ Within images m e.input := by
  refine forall_congr' fun id => imp_congr_right fun hinput => imp_congr_right fun hid =>
    imp_congr_right fun hvalid => ?_
  have hinput' : e.input = .remoteDataRequest id := hinput
  have hactions : (c.step images e).2.flatMap Call.actions =
      [.sendData id (encodeOutbound images id c.sync.advertised c.sync.prefs)] := by
    rw [Clocked.step, hinput']
    rfl
  rw [h.contents] at hvalid
  rw [hactions, h.last (List.ne_nil_of_mem hid), h.contents]
  by_cases hmem : id ∈ (outboundFormats c.sync.advertised c.sync.prefs).map ClipFormat.id
  · rw [← encodeOutbound_iff_of_mem h.sized hvalid hmem]
    simp [hmem]
  · refine iff_of_false ?_ fun hwithin => hmem hwithin.1
    rw [encodeOutbound_of_error hmem]
    rintro ⟨_, hdata⟩
    cases hdata

open Transition

/-- **What is announced is served**, exactly in the runs in which every request finds its format on the last
list and with an encoding within the limit: for a text its UTF-16 form with the carriage returns put in,
for a bitmap the pixels and the header. -/
theorem served_history_iff (images : ImageCodec) (prefs : ClipboardPrefs) (focused : Bool)
    (es : List Timed) :
    Holds observe (Served images) start
        (run (recorded (Clocked.step images)) (.start prefs focused) es).2 ↔
      Along (recorded (Clocked.step images)) observe (fun _ m e => Within images m e.input)
        (.start prefs focused) start es := by
  have hstart : (Clocked.start prefs focused).sync.Standing start :=
    ⟨rfl, fun _ hitem => (nomatch hitem), fun hne => absurd rfl hne⟩
  refine run_holds_iff (fun (c : Clocked) m => c.sync.Standing m) ?_ hstart es
  intro c m e h
  constructor
  · calc
      Holds observe (Served images) m (recorded (Clocked.step images) c e).2
      _ ↔ Served images m ⟨c, e, (c.step images e).2, (c.step images e).1⟩ := by simp [recorded]
      _ ↔ _ := served_iff h
  · exact fun _ => standing_step images h e

/-! ### A long text -/

def askedFor (text : String) : List Timed :=
  [⟨0, .initialFormatListRequested⟩, ⟨0, .localChanged 1 ⟨[.text text]⟩⟩,
    ⟨0, .remoteDataRequest cfUnicodeText⟩]

theorem not_served_of_long {text : String} (hsize : text.utf8ByteSize ≤ maxClipboardBytes)
    (hlong : maxClipboardBytes < textBytes text) :
    ¬ Holds observe (Served sampleImages) start
      (run (recorded (Clocked.step sampleImages)) (.start .text true) (askedFor text)).2 := by
  have hkept : (filterLocal ⟨[.text text]⟩ .text).1 = ⟨[.text text]⟩ := by
    simp [filterLocal, ClipboardItem.kind, ClipboardItem.size, FormatKind.allowedBy, FormatKind.isImage,
      hsize]
  have hlist : outboundFormats ⟨[.text text]⟩ .text = [.standard cfUnicodeText] := rfl
  let ready := ((Clocked.start .text true).step sampleImages ⟨0, .initialFormatListRequested⟩).1
  let copy : Timed := ⟨0, .localChanged 1 ⟨[.text text]⟩⟩
  let offer := observe start ⟨ready, copy, (ready.step sampleImages copy).2, (ready.step sampleImages copy).1⟩
  have hempty : Standing ready.sync start :=
    ⟨rfl, fun _ hitem => (by cases hitem), fun hne => absurd rfl hne⟩
  have hstanding : Standing (ready.step sampleImages copy).1.sync offer :=
    standing_step sampleImages hempty copy
  have hcontents : offer.contents = ⟨[.text text]⟩ := hstanding.contents.trans hkept
  have hannounced : cfUnicodeText ∈ offer.announced := by
    show cfUnicodeText ∈ (observe start _).announced
    rw [observe_step]
    have hlists : (ready.sync.handle sampleImages (ready.now + copy.elapsed) copy.input).2.filterMap
        SyncAction.formatList? = [[.standard cfUnicodeText]] := by
      rw [← hlist, ← hkept]
      exact formatLists_onLocalChange (s := ready.sync) (by decide) _ _
    rw [hlists]
    exact List.mem_singleton.mpr rfl
  rintro ⟨-, -, hserved, -⟩
  have hwithin := (served_iff hstanding).mp hserved cfUnicodeText rfl hannounced (by
    rw [hcontents]
    exact fun _ hpng => by cases hpng)
  exact absurd (hwithin.2.1 rfl text (by rw [hcontents]; rfl)) (Nat.not_le.mpr hlong)

def letters (n : Nat) : String := .ofList (.replicate n 'a')

theorem utf8ByteSize_letters (n : Nat) : (letters n).utf8ByteSize = n := by
  induction n with
  | zero => rfl
  | succ n ih =>
      have hcons : letters (n + 1) = .ofList ['a'] ++ letters n := by
        rw [letters, letters, ← String.ofList_append]
        rfl
      have hletter : (String.ofList ['a']).utf8ByteSize = 1 := by decide
      rw [hcons, String.utf8ByteSize_append, hletter, ih, Nat.add_comm]

theorem textBytes_letters (n : Nat) : textBytes (letters n) = 2 * (n + 1) := by
  have hreturns : ((Char.ofNat 0 :: List.replicate n 'a').zip (.replicate n 'a')).countP needsReturn = 0 := by
    refine List.countP_eq_zero.mpr fun pair hpair => ?_
    have hletter : pair.2 = 'a' := List.eq_of_mem_replicate (List.of_mem_zip hpair).2
    simp [needsReturn, hletter]
  have hunits : codeUnits 'a' = 1 := rfl
  rw [textBytes, letters, String.toList_ofList, hreturns, List.map_replicate, List.sum_replicate_nat,
    hunits, Nat.mul_one, Nat.add_zero]

/-- A text of 16 MiB is announced, and does not fit when it is asked for. -/
theorem not_served_letters :
    ¬ Holds observe (Served sampleImages) start
      (run (recorded (Clocked.step sampleImages)) (.start .text true) (askedFor (letters (2 ^ 24)))).2 := by
  apply not_served_of_long
  · rw [utf8ByteSize_letters]
    decide
  · rw [textBytes_letters]
    decide

end Offer

end Drift.Clipboard
