import Drift.Video.AnnexB
import Mathlib.Data.List.Infix
import Mathlib.Tactic.Common

/-!
# Splitting and joining NAL units

A byte string is cut by its start codes into chunks without start codes, and a NAL unit is what is left of
a chunk without its trailing zeros. Start codes do not overlap, so the scan of `splitNals` finds exactly
these cuts.
-/

namespace Drift.Video

def startCode : Bytes := [0, 0, 1]

/-- What a NAL unit is in Annex B. -/
structure IsNal (nal : Bytes) : Prop where
  nonempty : nal ≠ []
  noStartCode : ¬ startCode <:+: nal
  noTrailingZero : nal.getLast? ≠ some 0

instance (nal : Bytes) : Decidable (IsNal nal) :=
  decidable_of_iff (nal ≠ [] ∧ ¬ startCode <:+: nal ∧ nal.getLast? ≠ some 0)
    ⟨fun ⟨h₁, h₂, h₃⟩ => ⟨h₁, h₂, h₃⟩, fun ⟨h₁, h₂, h₃⟩ => ⟨h₁, h₂, h₃⟩⟩

/-! ### The scan -/

theorem startsFrom_chunk (i : Nat) {chunk : Bytes} (h : ¬ startCode <:+: chunk) (rest : Bytes) :
    startsFrom i (chunk ++ (startCode ++ rest)) =
      (i + chunk.length + 3) :: startsFrom (i + chunk.length + 3) rest := by
  induction chunk generalizing i with
  | nil => simp [startCode, startsFrom]
  | cons a chunk ih =>
      have hnext := ih (i + 1) fun hin => h (List.infix_cons hin)
      have hlength : i + (a :: chunk).length + 3 = i + 1 + chunk.length + 3 := by
        rw [List.length_cons]
        omega
      rw [hlength, ← hnext]
      -- The three bytes at the head are no start code, whether or not they reach into the next one.
      match chunk, h with
      | [], _ => simp [startCode, startsFrom]
      | [b], _ => simp [startCode, startsFrom]
      | b :: c :: tail, h =>
          have hcode : ¬ (a = 0 ∧ b = 0 ∧ c = 1) := by
            rintro ⟨rfl, rfl, rfl⟩
            exact h ⟨[], tail, rfl⟩
          simp only [List.cons_append, startsFrom, if_neg hcode]

theorem startsFrom_last (i : Nat) {chunk : Bytes} (h : ¬ startCode <:+: chunk) :
    startsFrom i chunk = [] := by
  induction chunk generalizing i with
  | nil => rfl
  | cons a chunk ih =>
      have hnext := ih (i + 1) fun hin => h (List.infix_cons hin)
      match chunk, h with
      | [], _ => rfl
      | [b], _ => rfl
      | b :: c :: tail, h =>
          have hcode : ¬ (a = 0 ∧ b = 0 ∧ c = 1) := by
            rintro ⟨rfl, rfl, rfl⟩
            exact h ⟨[], tail, rfl⟩
          rw [startsFrom, if_neg hcode, hnext]

/-! ### Chunks -/

def joined (chunks : List Bytes) : Bytes := chunks.flatMap (startCode ++ ·)

theorem joined_cons (chunk : Bytes) (chunks : List Bytes) :
    joined (chunk :: chunks) = startCode ++ (chunk ++ joined chunks) := by
  simp [joined]

def trimmed (chunk : Bytes) : Bytes := chunk.rdropWhile (· = 0)

theorem stop_eq (i : Nat) {chunk : Bytes} (h : ¬ startCode <:+: chunk) (chunks : List Bytes) :
    (startsFrom i (chunk ++ joined chunks)).head?.elim (i + (chunk ++ joined chunks).length) (· - 3) =
      i + chunk.length := by
  cases chunks with
  | nil => simp [joined, startsFrom_last i h]
  | cons next chunks =>
      rw [joined_cons, startsFrom_chunk i h]
      simp

theorem nalsAt_joined (before : Bytes) {chunk : Bytes} {chunks : List Bytes}
    (hchunk : ¬ startCode <:+: chunk) (hchunks : ∀ c ∈ chunks, ¬ startCode <:+: c) :
    nalsAt (before ++ (chunk ++ joined chunks))
        (startsFrom before.length (chunk ++ joined chunks)) =
      (chunks.map trimmed).filter (!·.isEmpty) := by
  induction chunks generalizing before chunk with
  | nil => simp [joined, startsFrom_last _ hchunk, nalsAt]
  | cons next chunks ih =>
      have hnext := hchunks next List.mem_cons_self
      have hscan : startsFrom before.length (chunk ++ joined (next :: chunks)) =
          (before ++ chunk ++ startCode).length ::
            startsFrom (before ++ chunk ++ startCode).length (next ++ joined chunks) := by
        have hlength : (before ++ chunk ++ startCode).length = before.length + chunk.length + 3 := by
          rw [List.length_append, List.length_append]
          rfl
        rw [joined_cons, startsFrom_chunk _ hchunk, hlength]
      have hdata : before ++ (chunk ++ joined (next :: chunks)) =
          before ++ chunk ++ startCode ++ (next ++ joined chunks) := by
        simp [joined_cons]
      have hrest := ih (before ++ chunk ++ startCode) hnext fun c hc => hchunks c (List.mem_cons_of_mem _ hc)
      rw [hscan, hdata]
      set front := before ++ chunk ++ startCode
      have hstop := stop_eq front.length hnext chunks
      rw [← List.length_append] at hstop
      have hslice : ((front ++ (next ++ joined chunks)).take
          (max (front.length + next.length) front.length)).drop front.length = next := by
        rw [max_eq_left (Nat.le_add_right _ _), List.take_length_add_append, List.drop_left,
          List.take_left]
      rw [nalsAt, hstop, hslice, hrest, List.map_cons, List.filter_cons]
      change (if (trimmed next).isEmpty = true then _ else trimmed next :: _) = _
      cases (trimmed next).isEmpty <;> rfl

theorem splitNals_joined {chunk : Bytes} {chunks : List Bytes} (hchunk : ¬ startCode <:+: chunk)
    (hchunks : ∀ c ∈ chunks, ¬ startCode <:+: c) :
    splitNals (chunk ++ joined chunks) = (chunks.map trimmed).filter (!·.isEmpty) :=
  nalsAt_joined [] hchunk hchunks

theorem exists_chunks (data : Bytes) : ∃ (chunk : Bytes) (chunks : List Bytes),
    data = chunk ++ joined chunks ∧ ¬ startCode <:+: chunk ∧ ∀ c ∈ chunks, ¬ startCode <:+: c := by
  induction data with
  | nil => exact ⟨[], [], rfl, by decide, nofun⟩
  | cons a data ih =>
      obtain ⟨chunk, chunks, rfl, hchunk, hchunks⟩ := ih
      by_cases hcode : startCode <:+: a :: chunk
      · -- It begins with a start code, since the rest of the chunk has none.
        rcases List.infix_cons_iff.mp hcode with ⟨rest, hrest⟩ | hin
        · refine ⟨[], rest :: chunks, ?_, by decide, ?_⟩
          · rw [List.nil_append, joined_cons, ← List.append_assoc, hrest, List.cons_append]
          · intro c hc
            rcases List.mem_cons.mp hc with rfl | hc
            · have hsuffix : c <:+: chunk := by
                simp only [startCode, List.cons_append, List.nil_append, List.cons.injEq] at hrest
                exact ⟨[0, 1], [], by simp [← hrest.2]⟩
              exact fun hin => hchunk (hin.trans hsuffix)
            · exact hchunks c hc
        · exact absurd hin hchunk
      · exact ⟨a :: chunk, chunks, rfl, hcode, hchunks⟩

/-! ### Trailing zeros -/

theorem isNal_trimmed {chunk : Bytes} (h : ¬ startCode <:+: chunk) (hne : trimmed chunk ≠ []) :
    IsNal (trimmed chunk) where
  nonempty := hne
  noStartCode hin := h (hin.trans (List.rdropWhile_prefix _ _).isInfix)
  noTrailingZero hlast := by
    have hnot := List.rdropWhile_last_not (· = (0 : UInt8)) chunk hne
    rw [List.getLast?_eq_some_getLast hne] at hlast
    exact hnot (by simpa [trimmed] using hlast)

theorem isNal_of_mem_splitNals {data nal : Bytes} (h : nal ∈ splitNals data) : IsNal nal := by
  obtain ⟨chunk, chunks, rfl, hchunk, hchunks⟩ := exists_chunks data
  rw [splitNals_joined hchunk hchunks] at h
  obtain ⟨hmem, hne⟩ := List.mem_filter.mp h
  obtain ⟨c, hc, rfl⟩ := List.mem_map.mp hmem
  exact isNal_trimmed (hchunks c hc) (by simpa using hne)

theorem trimmed_append_zeros {nal : Bytes} (h : IsNal nal) (n : Nat) :
    trimmed (nal ++ List.replicate n 0) = nal := by
  induction n with
  | zero =>
      rw [List.replicate_zero, List.append_nil]
      refine List.rdropWhile_eq_self_iff.mpr fun hne hzero => h.noTrailingZero ?_
      rw [List.getLast?_eq_some_getLast hne]
      exact congrArg some (by simpa using hzero)
  | succ n ih =>
      rw [List.replicate_succ', ← List.append_assoc]
      exact (List.rdropWhile_concat_pos _ _ _ (by simp)).trans ih

theorem noStartCode_append_zeros {bytes : Bytes} (h : ¬ startCode <:+: bytes) (n : Nat) :
    ¬ startCode <:+: bytes ++ List.replicate n 0 := by
  induction n with
  | zero => simpa using h
  | succ n ih =>
      rw [List.replicate_succ', ← List.append_assoc]
      intro hin
      rcases List.infix_concat_iff.mp hin with hsuffix | hin
      · have hlast := hsuffix.getLast (by decide)
        simp [startCode] at hlast
      · exact ih hin

/-! ### Framed NAL units -/

/-- A NAL unit behind a start code of three or four bytes, and zero bytes after it. -/
structure Framed where
  four : Bool
  nal : Bytes
  zeros : Nat

def Framed.bytes (f : Framed) : Bytes :=
  (if f.four then [0, 0, 0, 1] else [0, 0, 1]) ++ f.nal ++ List.replicate f.zeros 0

/-- The first byte of a long start code belongs to the zeros before it. -/
theorem flatMap_bytes {framed : List Framed} (h : ∀ f ∈ framed, IsNal f.nal) :
    ∃ (zeros : Nat) (chunks : List Bytes),
      framed.flatMap Framed.bytes = List.replicate zeros 0 ++ joined chunks ∧
        (∀ c ∈ chunks, ¬ startCode <:+: c) ∧ chunks.map trimmed = framed.map Framed.nal := by
  induction framed with
  | nil => exact ⟨0, [], rfl, nofun, rfl⟩
  | cons f framed ih =>
      obtain ⟨zeros, chunks, hbytes, hfree, htrimmed⟩ := ih fun g hg => h g (List.mem_cons_of_mem _ hg)
      have hf := h f List.mem_cons_self
      refine ⟨if f.four then 1 else 0, (f.nal ++ List.replicate (f.zeros + zeros) 0) :: chunks,
        ?_, ?_, ?_⟩
      · have hzeros : List.replicate f.zeros (0 : UInt8) ++ (List.replicate zeros 0 ++ joined chunks) =
            List.replicate (f.zeros + zeros) 0 ++ joined chunks := by
          rw [← List.append_assoc, List.replicate_append_replicate]
        rw [List.flatMap_cons, hbytes, joined_cons]
        cases hfour : f.four <;> simp [Framed.bytes, startCode, hfour, hzeros]
      · intro c hc
        rcases List.mem_cons.mp hc with rfl | hc
        · exact noStartCode_append_zeros hf.noStartCode _
        · exact hfree c hc
      · rw [List.map_cons, List.map_cons, trimmed_append_zeros hf, htrimmed]

theorem splitNals_framed {framed : List Framed} (h : ∀ f ∈ framed, IsNal f.nal) :
    splitNals (framed.flatMap Framed.bytes) = framed.map Framed.nal := by
  obtain ⟨zeros, chunks, hbytes, hfree, htrimmed⟩ := flatMap_bytes h
  have hzeros : ¬ startCode <:+: List.replicate zeros 0 :=
    @noStartCode_append_zeros [] (by decide) zeros
  rw [hbytes, splitNals_joined hzeros hfree, htrimmed]
  refine List.filter_eq_self.mpr fun nal hnal => ?_
  obtain ⟨f, hf, rfl⟩ := List.mem_map.mp hnal
  simpa using (h f hf).nonempty

/-! ### AVCC -/

theorem ofBeBytes_append_singleton (bytes : Bytes) (b : UInt8) :
    ofBeBytes (bytes ++ [b]) = ofBeBytes bytes * 2 ^ 8 + b.toNat := by
  rw [ofBeBytes, List.foldl_append, List.foldl_cons, List.foldl_nil,
    ← Nat.shiftLeft_add_eq_or_of_lt b.toNat_lt, Nat.shiftLeft_eq]
  rfl

theorem ofBeBytes_toBeBytes {n : Nat} (h : n < 2 ^ 32) : ofBeBytes (toBeBytes n) = n := by
  have hbytes : toBeBytes n =
      [] ++ [(n >>> 24).toUInt8] ++ [(n >>> 16).toUInt8] ++ [(n >>> 8).toUInt8] ++ [n.toUInt8] := rfl
  have hzero : ofBeBytes [] = 0 := rfl
  simp only [hbytes, ofBeBytes_append_singleton, hzero, Nat.shiftRight_eq_div_pow, Nat.toUInt8,
    UInt8.toNat_ofNat']
  omega

def lengthPrefixed (nal : Bytes) : Bytes := toBeBytes nal.length ++ nal

theorem avccNalsFrom_flatMap {nals : List Bytes} (h : ∀ nal ∈ nals, nal.length < 2 ^ 32)
    (offset : Nat) {fuel : Nat} (hfuel : (nals.flatMap lengthPrefixed).length ≤ fuel) :
    avccNalsFrom 4 offset (nals.flatMap lengthPrefixed) fuel = .ok nals := by
  induction nals generalizing offset fuel with
  | nil => cases fuel <;> rfl
  | cons nal nals ih =>
      have hlength := ofBeBytes_toBeBytes (h nal List.mem_cons_self)
      have hfour : (toBeBytes nal.length).length = 4 := rfl
      rw [List.flatMap_cons, lengthPrefixed, List.append_assoc] at hfuel ⊢
      obtain ⟨fuel, rfl⟩ : ∃ n, fuel = n + 1 := by
        refine Nat.exists_eq_succ_of_ne_zero ?_
        rw [List.length_append, hfour] at hfuel
        omega
      have hrest := ih (fun n hn => h n (List.mem_cons_of_mem _ hn)) (offset + 4 + nal.length)
        (show _ ≤ fuel by simp only [List.length_append, hfour] at hfuel; omega)
      rw [avccNalsFrom, if_neg (by simp [toBeBytes]), if_neg (by simp [hfour])]
      simp only [List.take_left' hfour, List.drop_left' hfour, hlength, List.take_left, List.drop_left,
        hrest]
      rw [if_neg (by simp)]
      rfl

theorem avccNals_flatMap {nals : List Bytes} (h : ∀ nal ∈ nals, nal.length < 2 ^ 32) :
    avccNals (nals.flatMap lengthPrefixed) 4 = .ok nals :=
  avccNalsFrom_flatMap h 0 le_rfl

/-! ### Access units -/

/-- Where an access unit keeps a NAL unit. -/
inductive Place where
  | sps
  | pps
  | dropped
  | data
  deriving DecidableEq

def place (nal : Bytes) : Place :=
  if nalUnitType nal = some NalType.aud then .dropped
  else if nalUnitType nal = some NalType.sps then .sps
  else if nalUnitType nal = some NalType.pps then .pps
  else .data

def placed (p : Place) (nals : List Bytes) : List Bytes := nals.filter (place · = p)

namespace AccessUnit

def extended (au : AccessUnit) (nals : List Bytes) : AccessUnit where
  sps := au.sps ++ placed .sps nals
  pps := au.pps ++ placed .pps nals
  avcc := au.avcc ++ (placed .data nals).flatMap lengthPrefixed
  isIdr := au.isIdr || nals.any (nalUnitType · = some NalType.idr)

theorem extended_extended (au : AccessUnit) (nals nals' : List Bytes) :
    (au.extended nals).extended nals' = au.extended (nals ++ nals') := by
  simp [extended, placed, Bool.or_assoc]

theorem push_eq (au : AccessUnit) {nal : Bytes} (h : nal.length < 2 ^ 32) :
    au.push nal = .ok (au.extended [nal]) := by
  unfold push
  simp only [extended, placed, place]
  by_cases haud : nalUnitType nal = some NalType.aud
  · simp [haud, NalType.aud, NalType.idr]
  · by_cases hsps : nalUnitType nal = some NalType.sps
    · simp [hsps, NalType.sps, NalType.aud, NalType.idr]
    · by_cases hpps : nalUnitType nal = some NalType.pps
      · simp [hpps, NalType.pps, NalType.sps, NalType.aud, NalType.idr]
      · have hbound : nal.length < 4294967296 := h
        simp [haud, hsps, hpps, hbound, lengthPrefixed]

theorem foldlM_push (au : AccessUnit) {nals : List Bytes} (h : ∀ nal ∈ nals, nal.length < 2 ^ 32) :
    nals.foldlM push au = .ok (au.extended nals) := by
  induction nals generalizing au with
  | nil => simp [extended, placed, pure, Except.pure]
  | cons nal nals ih =>
      rw [List.foldlM_cons, push_eq au (h nal List.mem_cons_self)]
      refine (ih (au.extended [nal]) fun n hn => h n (List.mem_cons_of_mem _ hn)).trans ?_
      rw [extended_extended, List.singleton_append]

end AccessUnit

/-- **Streams are cut where they were joined.** NAL units behind start codes are split again, and the NAL
units of any byte string are each in one place of its access unit, those of the sample surviving the way
through AVCC and back. -/
theorem annexB_cut :
    (∀ framed : List Framed, (∀ f ∈ framed, IsNal f.nal) →
      splitNals (framed.flatMap Framed.bytes) = framed.map Framed.nal) ∧
    ∀ data : Bytes, splitNals data ≠ [] → (∀ nal ∈ splitNals data, nal.length < 2 ^ 32) →
      ∃ au, AccessUnit.fromAnnexB data = .ok au ∧
        au.sps = placed .sps (splitNals data) ∧ au.pps = placed .pps (splitNals data) ∧
        avccNals au.avcc 4 = .ok (placed .data (splitNals data)) ∧
        (avccToAnnexB au.avcc 4).map splitNals = .ok (placed .data (splitNals data)) := by
  refine ⟨fun framed h => splitNals_framed h, fun data hne hlength => ?_⟩
  have hau : AccessUnit.fromAnnexB data = .ok (AccessUnit.default.extended (splitNals data)) := by
    unfold AccessUnit.fromAnnexB
    simp only
    rw [if_neg (by simpa using hne)]
    exact AccessUnit.foldlM_push _ hlength
  have hmem : ∀ nal ∈ placed .data (splitNals data), nal ∈ splitNals data :=
    fun nal hnal => List.mem_of_mem_filter hnal
  have hnals : avccNals ((placed .data (splitNals data)).flatMap lengthPrefixed) 4 =
      .ok (placed .data (splitNals data)) :=
    avccNals_flatMap fun nal hnal => hlength nal (hmem nal hnal)
  refine ⟨_, hau, rfl, rfl, hnals, ?_⟩
  have hback := @splitNals_framed ((placed .data (splitNals data)).map (Framed.mk true · 0)) <| by
    intro f hf
    obtain ⟨nal, hnal, rfl⟩ := List.mem_map.mp hf
    exact isNal_of_mem_splitNals (hmem nal hnal)
  have hbytes : ((placed .data (splitNals data)).map (Framed.mk true · 0)).flatMap Framed.bytes =
      (placed .data (splitNals data)).flatMap ([0, 0, 0, 1] ++ ·) := by
    simp [List.flatMap_map, Framed.bytes]
  rw [hbytes, List.map_map] at hback
  have hmap : (avccToAnnexB (AccessUnit.default.extended (splitNals data)).avcc 4).map splitNals =
      .ok (splitNals ((placed .data (splitNals data)).flatMap ([0, 0, 0, 1] ++ ·))) :=
    congrArg (fun nals => Except.map splitNals (Except.map _ nals)) hnals
  rw [hmap, hback]
  exact congrArg _ (List.map_id _)

/-- A delimiter, the parameter sets and a slice, with start codes of both lengths and stray zeros. -/
def sampleUnits : List Framed :=
  [⟨true, [0x09, 0x30], 0⟩, ⟨false, [0x67, 0x64, 0x00, 0x28], 2⟩, ⟨true, [0x68, 0xEE], 0⟩,
    ⟨false, [0x65, 0x00, 0x00, 0x03, 0x01], 1⟩]

theorem annexB_cut_sample :
    splitNals (sampleUnits.flatMap Framed.bytes) = sampleUnits.map Framed.nal ∧
      ∃ au, AccessUnit.fromAnnexB (sampleUnits.flatMap Framed.bytes) = .ok au ∧
        avccNals au.avcc 4 = .ok [[0x65, 0x00, 0x00, 0x03, 0x01]] := by
  have hsplit := annexB_cut.1 sampleUnits (by decide)
  obtain ⟨au, hau, -, -, hnals, -⟩ := annexB_cut.2 (sampleUnits.flatMap Framed.bytes)
    (by rw [hsplit]; decide) (by rw [hsplit]; decide)
  rw [hsplit] at hnals
  exact ⟨hsplit, au, hau, hnals⟩

end Drift.Video
