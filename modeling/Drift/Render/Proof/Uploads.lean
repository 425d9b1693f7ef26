import Drift.Render.Canvas

/-!
# Uploads

What the rows, pixels and textures hold that are made of the bytes of an upload, and that both
compositors accept the same uploads.
-/

namespace Drift.Render

/-! ### Rows and texels -/

theorem getElem?_flatMap_range {α : Type} {n rows : Nat} {f : Nat → List α}
    (hlength : ∀ y < rows, (f y).length = n) {y k : Nat} (hy : y < rows) (hk : k < n) :
    ((List.range rows).flatMap f)[y * n + k]? = (f y)[k]? := by
  induction rows with
  | zero => omega
  | succ rows ih =>
      have hstart : ((List.range rows).flatMap f).length = rows * n := by
        have hmap : (List.range rows).map (fun y => (f y).length) =
            (List.range rows).map fun _ => n :=
          List.map_congr_left fun y hy => hlength y (by simpa using Nat.lt_succ_of_lt (List.mem_range.mp hy))
        rw [List.length_flatMap, hmap]
        simp
      rw [List.range_succ, List.flatMap_append, List.flatMap_singleton]
      rcases Nat.lt_succ_iff_lt_or_eq.mp hy with hlt | rfl
      · have hle : y * n + k < rows * n := by
          calc
            y * n + k < y * n + n := Nat.add_lt_add_left hk _
            _ = (y + 1) * n := by ring
            _ ≤ rows * n := Nat.mul_le_mul_right _ hlt
        rw [List.getElem?_append_left (by rw [hstart]; exact hle)]
        exact ih (fun y hy => hlength y (Nat.lt_succ_of_lt hy)) hlt
      · rw [List.getElem?_append_right (by rw [hstart]; exact Nat.le_add_right _ _), hstart,
          Nat.add_sub_cancel_left]

section Pack

variable {row stride rows start : Nat} {data : Bytes}

theorem length_packRow (hrows : ∀ y < rows, start + y * stride + row ≤ data.length) {y : Nat}
    (hy : y < rows) : ((data.drop (start + y * stride)).take row).length = row := by
  have hle := hrows y hy
  rw [List.length_take, List.length_drop]
  omega

theorem getElem?_packRows (hrows : ∀ y < rows, start + y * stride + row ≤ data.length) {y k : Nat}
    (hy : y < rows) (hk : k < row) :
    (packRows row stride rows start data)[y * row + k]? = data[start + y * stride + k]? := by
  unfold packRows
  rw [getElem?_flatMap_range (fun y hy => length_packRow hrows hy) hy hk, List.getElem?_take_of_lt hk,
    List.getElem?_drop]

theorem length_packRows (hrows : ∀ y < rows, start + y * stride + row ≤ data.length) :
    (packRows row stride rows start data).length = rows * row := by
  have hmap : (List.range rows).map (fun y => ((data.drop (start + y * stride)).take row).length) =
      (List.range rows).map fun _ => row :=
    List.map_congr_left fun y hy => length_packRow hrows (List.mem_range.mp hy)
  rw [packRows, List.length_flatMap, hmap]
  simp

end Pack

theorem length_lt_of_short {data : Bytes}
    (hshort : ∀ b g r a rest, data = b :: g :: r :: a :: rest → False) : data.length < 4 := by
  rcases data with _ | ⟨b, _ | ⟨g, _ | ⟨r, _ | ⟨a, rest⟩⟩⟩⟩
  · simp
  · simp
  · simp
  · simp
  · exact absurd rfl (hshort b g r a rest)

/-- Induction over the pixels of an upload. -/
theorem pixels_induction {motive : Bytes → Prop}
    (pixel : ∀ b g r a rest, motive rest → motive (b :: g :: r :: a :: rest))
    (short : ∀ data : Bytes,
      (∀ b g r a rest, data = b :: g :: r :: a :: rest → False) → motive data)
    (data : Bytes) : motive data := by
  induction hlength : data.length using Nat.strong_induction_on generalizing data with
  | _ n ih =>
      by_cases hpixel : ∃ b g r a rest, data = b :: g :: r :: a :: rest
      · obtain ⟨b, g, r, a, rest, rfl⟩ := hpixel
        refine pixel b g r a rest (ih rest.length ?_ rest rfl)
        simp only [List.length_cons] at hlength
        omega
      · exact short data fun b g r a rest hdata => hpixel ⟨b, g, r, a, rest, hdata⟩

theorem getElem?_pixelsOf (data : Bytes) (i : Nat) : (pixelsOf data)[i]? = pixelAt data (4 * i) := by
  induction data using pixels_induction generalizing i with
  | pixel b g r a rest ih =>
      cases i with
      | zero => rfl
      | succ i =>
          rw [pixelsOf, List.getElem?_cons_succ, ih]
          unfold pixelAt
          have hshift : ∀ j, (b :: g :: r :: a :: rest)[4 * (i + 1) + j]? = rest[4 * i + j]? := by
            intro j
            rw [show 4 * (i + 1) + j = 4 * i + j + 1 + 1 + 1 + 1 by ring]
            simp
          have hfirst := hshift 0
          simp only [Nat.add_zero] at hfirst
          rw [hfirst, hshift 1, hshift 2, hshift 3]
  | short data hshort =>
      have hlength := length_lt_of_short hshort
      have hnone : data[4 * i + 3]? = none := List.getElem?_eq_none (by omega)
      rw [pixelsOf]
      · unfold pixelAt
        simp [hnone]
      · exact hshort

theorem length_pixelsOf (data : Bytes) : (pixelsOf data).length = data.length / 4 := by
  induction data using pixels_induction with
  | pixel b g r a rest ih =>
      rw [pixelsOf, List.length_cons, ih]
      simp only [List.length_cons]
      omega
  | short data hshort =>
      rw [pixelsOf]
      · exact (Nat.div_eq_of_lt (length_lt_of_short hshort)).symm
      · exact hshort

theorem pixelAt_packRows {row stride rows start : Nat} {data : Bytes}
    (hrows : ∀ y < rows, start + y * stride + row ≤ data.length) {x y : Nat} (hy : y < rows)
    (hx : x * 4 + 4 ≤ row) :
    pixelAt (packRows row stride rows start data) (y * row + x * 4) =
      pixelAt data (start + y * stride + x * 4) := by
  have hbyte : ∀ j < 4, (packRows row stride rows start data)[y * row + x * 4 + j]? =
      data[start + y * stride + x * 4 + j]? := by
    intro j hj
    rw [Nat.add_assoc, getElem?_packRows hrows hy (by omega), ← Nat.add_assoc]
  unfold pixelAt
  rw [hbyte 1 (by decide), hbyte 2 (by decide), hbyte 3 (by decide)]
  exact congrArg (· >>= _) (hbyte 0 (by decide))

/-! ### Accepted uploads -/

section Tile

variable {rect : Rect} {stride : Nat} {data : Bytes}

/-- What an upload has to meet. -/
structure Tileable (rect : Rect) (stride : Nat) (data : Bytes) : Prop where
  width_pos : 0 < rect.width
  height_pos : 0 < rect.height
  row_le : rect.width * 4 ≤ stride
  needed_le : stride * (rect.height - 1) + rect.width * 4 ≤ data.length
  needed_usize : stride * (rect.height - 1) + rect.width * 4 ≤ usizeMax

theorem validUpload_iff : Compositor.validUpload rect stride data = true ↔ Tileable rect stride data := by
  unfold Compositor.validUpload checkedMul checkedAdd Rect.isEmpty
  constructor
  · intro h
    by_cases hmul : stride * (rect.height - 1) ≤ usizeMax
    · by_cases hadd : stride * (rect.height - 1) + rect.width * 4 ≤ usizeMax
      · simp [hmul, hadd] at h
        exact ⟨by omega, by omega, by omega, by omega, hadd⟩
      · simp [hmul, hadd] at h
    · simp [hmul] at h
  · rintro ⟨hwidth, hheight, hrow, hneeded, husize⟩
    have hmul : stride * (rect.height - 1) ≤ usizeMax := by omega
    simp [hmul, husize]
    omega

theorem Tileable.rows (h : Tileable rect stride data) :
    ∀ y < rect.height, 0 + y * stride + rect.width * 4 ≤ data.length := by
  intro y hy
  have hle : y * stride ≤ stride * (rect.height - 1) := by
    rw [Nat.mul_comm stride]
    exact Nat.mul_le_mul_right _ (by omega)
  have hneeded := h.needed_le
  omega

/-- The image of an upload, pixel by pixel. -/
structure IsTile (rect : Rect) (stride : Nat) (data : Bytes) (tile : BgraImage) : Prop where
  width_eq : tile.width = rect.width
  height_eq : tile.height = rect.height
  pixel?_eq : ∀ x y, x < rect.width → y < rect.height →
    tile.pixel? x y = pixelAt data (y * stride + x * 4)

theorem bgraTile_of_tileable (h : Tileable rect stride data) :
    ∃ tile, bgraTile rect stride data = some tile ∧ IsTile rect stride data tile := by
  have hrows := h.rows
  have hpacked := length_packRows hrows
  have hlength : (pixelsOf (packRows (rect.width * 4) stride rect.height 0 data)).length =
      rect.width * rect.height := by
    rw [length_pixelsOf, hpacked]
    rw [show rect.height * (rect.width * 4) = rect.width * rect.height * 4 by ring]
    exact Nat.mul_div_cancel _ (by decide)
  obtain ⟨hwidth, hheight, hrow, hneeded, husize⟩ := h
  have hcapacity : rect.width * 4 * rect.height ≤ usizeMax := by
    calc
      rect.width * 4 * rect.height = rect.width * 4 * (rect.height - 1) + rect.width * 4 := by
          rw [← Nat.mul_succ, Nat.succ_eq_add_one, Nat.sub_add_cancel hheight]
      _ ≤ stride * (rect.height - 1) + rect.width * 4 :=
          Nat.add_le_add_right (Nat.mul_le_mul_right _ hrow) _
      _ ≤ usizeMax := husize
  have hempty : rect.isEmpty = false := by
    simp only [Rect.isEmpty, decide_eq_false_iff_not]
    omega
  refine ⟨⟨rect.width, rect.height, _, hlength⟩, ?_, rfl, rfl, ?_⟩
  · have hmul : stride * (rect.height - 1) ≤ usizeMax := by omega
    have hrow' : rect.width * 4 ≤ usizeMax := by omega
    simp [bgraTile, checkedMul, checkedAdd, hempty, hmul, hrow', husize, hcapacity,
      Nat.not_lt.mpr hrow, Nat.not_lt.mpr hneeded, Raster.ofList?, hlength]
  · intro x y hx hy
    rw [Raster.pixel?_of_lt hx hy, getElem?_pixelsOf]
    have hindex : 4 * (y * rect.width + x) = y * (rect.width * 4) + x * 4 := by ring
    rw [hindex, pixelAt_packRows hrows hy (by omega), Nat.zero_add]

theorem bgraTile_of_not_tileable (h : ¬ Tileable rect stride data) :
    bgraTile rect stride data = none := by
  by_contra hsome
  apply h
  unfold bgraTile checkedMul checkedAdd at hsome
  by_cases hrow : rect.width * 4 ≤ usizeMax
  · by_cases hmul : stride * (rect.height - 1) ≤ usizeMax
    · by_cases hadd : stride * (rect.height - 1) + rect.width * 4 ≤ usizeMax
      · by_cases hempty : rect.isEmpty = true ∨ stride < rect.width * 4
        · simp [hrow, hempty] at hsome
        · by_cases hlength : data.length < stride * (rect.height - 1) + rect.width * 4
          · simp [hrow, hmul, hadd, hempty, hlength] at hsome
          · simp only [Rect.isEmpty, decide_eq_true_eq] at hempty
            exact ⟨by omega, by omega, by omega, by omega, hadd⟩
      · simp [hrow, hmul, hadd] at hsome
    · simp [hrow, hmul] at hsome
  · simp [hrow] at hsome

end Tile

/-! ### Planes -/

theorem getElem?_pairsOf (data : Bytes) (i : Nat) :
    (Compositor.pairsOf data)[i]? = data[2 * i]?.bind fun u => data[2 * i + 1]?.map (u, ·) := by
  induction data using Compositor.pairsOf.induct generalizing i with
  | case1 u v rest ih =>
      cases i with
      | zero => rfl
      | succ i =>
          have hshift : ∀ j, (u :: v :: rest)[2 * (i + 1) + j]? = rest[2 * i + j]? := by
            intro j
            rw [show 2 * (i + 1) + j = 2 * i + j + 1 + 1 by ring]
            simp
          have hfirst := hshift 0
          simp only [Nat.add_zero] at hfirst
          rw [Compositor.pairsOf, List.getElem?_cons_succ, ih, hfirst, hshift 1]
  | case2 data hshort =>
      have hlength : data.length < 2 := by
        rcases data with _ | ⟨u, _ | ⟨v, rest⟩⟩
        · simp
        · simp
        · exact absurd rfl (hshort u v rest)
      have hnone : data[2 * i + 1]? = none := List.getElem?_eq_none (by omega)
      rw [Compositor.pairsOf]
      · rw [hnone]
        simp
      · exact hshort

theorem length_pairsOf (data : Bytes) : (Compositor.pairsOf data).length = data.length / 2 := by
  induction data using Compositor.pairsOf.induct with
  | case1 u v rest ih =>
      rw [Compositor.pairsOf, List.length_cons, ih]
      simp only [List.length_cons]
      omega
  | case2 data hshort =>
      rw [Compositor.pairsOf]
      · rcases data with _ | ⟨u, _ | ⟨v, rest⟩⟩
        · rfl
        · simp
        · exact absurd rfl (hshort u v rest)
      · exact hshort

namespace Nv12Planes

variable (p : Nv12Planes)

theorem length_chroma : (Compositor.pairsOf p.uv).length = p.size.width / 2 * ((p.size.height + 1) / 2) := by
  have heven := Nat.div_mul_cancel (Nat.dvd_of_mod_eq_zero p.width_even)
  rw [length_pairsOf, p.uv_length]
  calc
    p.size.width * ((p.size.height + 1) / 2) / 2 =
        p.size.width / 2 * 2 * ((p.size.height + 1) / 2) / 2 := by rw [heven]
    _ = p.size.width / 2 * ((p.size.height + 1) / 2) * 2 / 2 := by
        rw [Nat.mul_right_comm]
    _ = p.size.width / 2 * ((p.size.height + 1) / 2) := Nat.mul_div_cancel _ (by decide)

def textures : PlaneTextures where
  y := ⟨p.size.width, p.size.height, p.y, p.y_length⟩
  uv := ⟨p.size.width / 2, (p.size.height + 1) / 2, Compositor.pairsOf p.uv, p.length_chroma⟩

theorem colorAt_textures (nv12ToRgb : ToRgb) {x y : Nat} (hx : x < p.size.width)
    (hy : y < p.size.height) : p.textures.colorAt nv12ToRgb x y = p.colorAt nv12ToRgb x y := by
  have heven := Nat.div_mul_cancel (Nat.dvd_of_mod_eq_zero p.width_even)
  have hx' : x / 2 < p.size.width / 2 := by omega
  have hy' : y / 2 < (p.size.height + 1) / 2 := by omega
  have hluma : p.textures.y.pixel? x y = p.y[y * p.size.width + x]? := Raster.pixel?_of_lt hx hy
  have hindex : 2 * (y / 2 * (p.size.width / 2) + x / 2) = y / 2 * p.size.width + x / 2 * 2 := by
    calc
      2 * (y / 2 * (p.size.width / 2) + x / 2) =
          y / 2 * (p.size.width / 2 * 2) + x / 2 * 2 := by ring
      _ = y / 2 * p.size.width + x / 2 * 2 := by rw [heven]
  have hchroma : p.textures.uv.pixel? (x / 2) (y / 2) =
      p.uv[y / 2 * p.size.width + x / 2 * 2]?.bind fun u =>
        p.uv[y / 2 * p.size.width + x / 2 * 2 + 1]?.map (u, ·) := by
    have hpixel : p.textures.uv.pixel? (x / 2) (y / 2) =
        (Compositor.pairsOf p.uv)[y / 2 * (p.size.width / 2) + x / 2]? :=
      Raster.pixel?_of_lt hx' hy'
    rw [hpixel, getElem?_pairsOf, hindex]
  have hlast : y / 2 * p.size.width + x / 2 * 2 + 1 < p.uv.length := by
    rw [p.uv_length]
    calc
      y / 2 * p.size.width + x / 2 * 2 + 1 < y / 2 * p.size.width + p.size.width := by omega
      _ = p.size.width * (y / 2 + 1) := by ring
      _ ≤ p.size.width * ((p.size.height + 1) / 2) := Nat.mul_le_mul_left _ hy'
  unfold PlaneTextures.colorAt colorAt
  rw [hluma, hchroma, List.getElem?_eq_getElem hlast, List.getElem?_eq_getElem (Nat.lt_of_succ_lt hlast)]
  simp [List.getD, List.getElem?_eq_getElem hlast,
    List.getElem?_eq_getElem (Nat.lt_of_succ_lt hlast)]

end Nv12Planes

end Drift.Render
