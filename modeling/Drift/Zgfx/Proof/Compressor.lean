import Drift.Zgfx.Proof.Tokens

/-!
# The compressor finds what is there

The positions of the table stand for the bytes they are filed under, whatever is added, dropped or thinned
out. A match found through it is a stretch of the window, so that the tokens of the compressor add the
input to the history.
-/

namespace Drift.Zgfx

open BitWriter (Written)

/-! ### The table -/

/-- At each position of an entry its three bytes stand. -/
def Indexes (history : Bytes) (table : List MatchEntry) : Prop :=
  ∀ e ∈ table, ∀ pos ∈ e.positions,
    pos + minMatchLength ≤ history.length ∧ threeBytesAt history pos = e.threeBytes

theorem threeBytesAt_append {history : Bytes} {pos : Nat} (h : pos + minMatchLength ≤ history.length)
    (bytes : Bytes) : threeBytesAt (history ++ bytes) pos = threeBytesAt history pos := by
  unfold minMatchLength at h
  unfold threeBytesAt
  rw [List.drop_append_of_le_length (by omega), List.take_append_of_le_length (by rw [List.length_drop]; omega)]

theorem threeBytesAt_drop (history : Bytes) (dropped pos : Nat) :
    threeBytesAt (history.drop dropped) pos = threeBytesAt history (dropped + pos) := by
  unfold threeBytesAt
  rw [List.drop_drop]

theorem Indexes.append {history : Bytes} {table : List MatchEntry} (h : Indexes history table)
    (bytes : Bytes) : Indexes (history ++ bytes) table := by
  intro e he pos hpos
  obtain ⟨hle, hbytes⟩ := h e he pos hpos
  refine ⟨?_, (threeBytesAt_append hle bytes).trans hbytes⟩
  rw [List.length_append]
  omega

/-- Entries may lose positions. -/
theorem Indexes.thin {history : Bytes} {table thinned : List MatchEntry} (h : Indexes history table)
    (hthin : ∀ e ∈ thinned, ∃ f ∈ table, e.threeBytes = f.threeBytes ∧ e.positions ⊆ f.positions) :
    Indexes history thinned := by
  intro e he pos hpos
  obtain ⟨f, hf, hbytes, hsub⟩ := hthin e he
  rw [hbytes]
  exact h f hf pos (hsub hpos)

theorem Indexes.update {history : Bytes} {table : List MatchEntry} (h : Indexes history table) {pos : Nat}
    (hpos : pos + minMatchLength ≤ history.length) {f : List Nat → List Nat}
    (hf : ∀ positions, f positions ⊆ pos :: positions) :
    Indexes history (updateEntry table (threeBytesAt history pos) f) := by
  intro e he
  rcases Table.mem_put he with rfl | hmem
  · intro q hq
    rcases List.mem_cons.mp (hf _ hq) with rfl | hold
    · exact ⟨hpos, rfl⟩
    · cases hlookup : Table.lookup MatchEntry.threeBytes table (threeBytesAt history pos) with
      | none =>
          rw [hlookup] at hold
          exact absurd hold List.not_mem_nil
      | some entry =>
          rw [hlookup] at hold
          have hkey := Table.key_of_lookup hlookup
          obtain ⟨hle, hbytes⟩ := h entry (Table.mem_of_lookup hlookup) q hold
          exact ⟨hle, hbytes.trans hkey⟩
  · exact h e hmem

namespace Compressor

theorem pushPosition_subset (pos : Nat) (positions : List Nat) :
    pushPosition pos positions ⊆ pos :: positions := by
  unfold pushPosition
  intro q hq
  by_cases hroom : positions.length < maxPositionsPerPrefix
  · rw [if_pos hroom] at hq
    rcases List.mem_append.mp hq with hold | hnew
    · exact List.mem_cons_of_mem _ hold
    · exact List.mem_cons.mpr (.inl (List.mem_singleton.mp hnew))
  · rw [if_neg hroom] at hq
    rcases List.mem_append.mp hq with hold | hnew
    · exact List.mem_cons_of_mem _ (List.mem_of_mem_drop hold)
    · exact List.mem_cons.mpr (.inl (List.mem_singleton.mp hnew))

/-- A position of the new bytes has three of them. -/
theorem of_mem_indexed {length step i : Nat} (hstep : 0 < step) (h : i ∈ indexed length step) :
    i + minMatchLength ≤ length := by
  obtain ⟨k, hk, rfl⟩ := List.mem_map.mp h
  have hlt := List.mem_range.mp hk
  have hmul : (k + 1) * step ≤ length - (minMatchLength - 1) + (step - 1) :=
    (Nat.le_div_iff_mul_le hstep).mp hlt
  rw [Nat.succ_mul] at hmul
  unfold minMatchLength at hmul ⊢
  omega

theorem indexes_retainUsed {history : Bytes} {table : List MatchEntry} (h : Indexes history table) :
    Indexes history (retainUsed table) :=
  h.thin fun e he => ⟨e, List.mem_of_mem_filter he, rfl, List.Subset.refl _⟩

theorem history_evict (c : Compressor) (overflow : Nat) :
    (c.evict overflow).history = c.history.drop overflow := rfl

theorem indexes_evict {c : Compressor} (h : Indexes c.history c.matchTable) (overflow : Nat) :
    Indexes (c.evict overflow).history (c.evict overflow).matchTable := by
  apply indexes_retainUsed
  intro e he pos hpos
  obtain ⟨f, hf, rfl⟩ := List.mem_map.mp he
  obtain ⟨q, hq, rfl⟩ := List.mem_map.mp hpos
  have hkept : overflow ≤ q := by simpa using (List.mem_filter.mp hq).2
  obtain ⟨hle, hbytes⟩ := h f hf q (List.mem_of_mem_filter hq)
  refine ⟨?_, ?_⟩
  · change q - overflow + minMatchLength ≤ (c.history.drop overflow).length
    rw [List.length_drop]
    omega
  · change threeBytesAt (c.history.drop overflow) (q - overflow) = f.threeBytes
    rw [threeBytesAt_drop, Nat.add_sub_cancel' hkept, hbytes]

theorem indexes_halveEntries {history : Bytes} {table : List MatchEntry} (h : Indexes history table) :
    Indexes history (halveEntries table) := by
  apply indexes_retainUsed
  apply h.thin
  intro e he
  obtain ⟨f, hf, rfl⟩ := List.mem_map.mp he
  refine ⟨f, hf, ?_⟩
  by_cases hmany : f.positions.length > maxPositionsPerPrefix / 2
  · rw [if_pos hmany]
    exact ⟨rfl, List.drop_subset _ _⟩
  · rw [if_neg hmany]
    exact ⟨rfl, List.Subset.refl _⟩

theorem indexes_compactHashTable {history : Bytes} {table : List MatchEntry} (h : Indexes history table) :
    Indexes history (compactHashTable table) := by
  have hhalved := indexes_halveEntries h
  unfold compactHashTable
  simp only
  by_cases hfew : (halveEntries table).length ≤ compactTargetEntries
  · rwa [if_pos hfew]
  · rw [if_neg hfew]
    exact hhalved.thin fun e he => ⟨e, List.mem_of_mem_filter he, rfl, List.Subset.refl _⟩

theorem indexes_indexBoundary {history : Bytes} {table : List MatchEntry} (h : Indexes history table)
    (basePos length offset : Nat) : Indexes history (indexBoundary history basePos length table offset) := by
  unfold indexBoundary
  by_cases hspans : basePos ≥ offset ∧ length + offset > 2
  · rw [if_pos hspans]
    simp only
    by_cases hroom : basePos - offset + minMatchLength ≤ history.length
    · rw [if_pos hroom]
      apply h.update hroom
      intro positions q hq
      by_cases hlast : positions.getLast? ≠ some (basePos - offset)
      · rw [if_pos hlast] at hq
        rcases List.mem_append.mp hq with hold | hnew
        · by_cases hfull : positions.length ≥ maxPositionsPerPrefix
          · rw [if_pos hfull] at hold
            exact List.mem_cons_of_mem _ (List.mem_of_mem_drop hold)
          · rw [if_neg hfull] at hold
            exact List.mem_cons_of_mem _ hold
        · exact List.mem_cons.mpr (.inl (List.mem_singleton.mp hnew))
      · rw [if_neg hlast] at hq
        exact List.mem_cons_of_mem _ hq
    · rwa [if_neg hroom]
  · rwa [if_neg hspans]

theorem indexes_foldl_indexAt {history : Bytes} {table : List MatchEntry} (h : Indexes history table)
    {basePos : Nat} {places : List Nat}
    (hplaces : ∀ i ∈ places, basePos + i + minMatchLength ≤ history.length) :
    Indexes history (places.foldl (fun table i => indexAt history table (basePos + i)) table) := by
  induction places generalizing table with
  | nil => exact h
  | cons i places ih =>
      apply ih
      · exact h.update (hplaces i List.mem_cons_self) (pushPosition_subset _)
      · exact fun j hj => hplaces j (List.mem_cons_of_mem i hj)

/-! ### Adding to the history -/

theorem indexes_makeRoom {c : Compressor} (h : Indexes c.history c.matchTable) (length : Nat) :
    Indexes (c.makeRoom length).history (c.makeRoom length).matchTable := by
  unfold makeRoom
  by_cases hfull : c.history.length + length > historySize
  · rw [if_pos hfull]
    exact indexes_evict h _
  · rwa [if_neg hfull]

theorem history_makeRoom (c : Compressor) {bytes : Bytes} (h : bytes.length ≤ historySize) :
    (c.makeRoom bytes.length).history ++ bytes = Lz77.window historySize (c.history ++ bytes) := by
  rw [Lz77.window_append_of_ge _ h]
  unfold makeRoom
  by_cases hfull : c.history.length + bytes.length > historySize
  · rw [if_pos hfull, Lz77.window_eq_drop (k := c.history.length + bytes.length - historySize) (by omega),
      history_evict]
  · have hfits : c.history.length ≤ historySize - bytes.length := Nat.le_sub_of_add_le (Nat.not_lt.mp hfull)
    rw [if_neg hfull, Lz77.window_of_le hfits]

theorem history_addToHistory (c : Compressor) {bytes : Bytes} (h : bytes.length ≤ historySize) :
    (c.addToHistory bytes).history = Lz77.window historySize (c.history ++ bytes) := c.history_makeRoom h

theorem stepSize_pos (length : Nat) : 0 < if length > 256 then 4 else 1 := by
  by_cases hlarge : length > 256
  · rw [if_pos hlarge]
    decide
  · rw [if_neg hlarge]
    decide

theorem indexes_indexNew {c : Compressor} (h : Indexes c.history c.matchTable) (bytes : Bytes) :
    Indexes (c.history ++ bytes) (c.indexNew bytes) := by
  refine indexes_foldl_indexAt (h.append bytes) fun i hi => ?_
  have hlt := of_mem_indexed (stepSize_pos bytes.length) hi
  rw [List.length_append]
  omega

theorem indexes_thinOut {history : Bytes} {table : List MatchEntry} (h : Indexes history table) :
    Indexes history (thinOut table) := by
  unfold thinOut
  by_cases hlarge : table.length > maxHashTableEntries
  · rw [if_pos hlarge]
    exact indexes_compactHashTable h
  · rwa [if_neg hlarge]

theorem indexes_addToHistory {c : Compressor} (h : Indexes c.history c.matchTable) (bytes : Bytes) :
    Indexes (c.addToHistory bytes).history (c.addToHistory bytes).matchTable := by
  apply indexes_indexBoundary
  apply indexes_indexBoundary
  apply indexes_thinOut
  exact indexes_indexNew (indexes_makeRoom h bytes.length) bytes

/-! ### Matches -/

/-- The bytes of the match stand in the window as far back as it says. -/
structure Found (history input : Bytes) (pos maxMatchLen searchLimit : Nat) (m : Match) : Prop where
  positive : 0 < m.distance
  near : m.distance ≤ searchLimit
  back : m.distance ≤ history.length
  least : minMatchLength ≤ m.length
  most : m.length ≤ maxMatchLen
  same : (input.drop pos).take m.length <+: Lz77.window m.distance history

/-- The bytes that agree so far, in the window and in the input. -/
def Agree (history input : Bytes) (histPos pos matchLen : Nat) : Prop :=
  histPos + matchLen ≤ history.length ∧
    (history.drop histPos).take matchLen = (input.drop pos).take matchLen

theorem extendMatch_spec {history input : Bytes} {histPos pos maxMatchLen : Nat} (fuel : Nat)
    {matchLen : Nat} (hagree : Agree history input histPos pos matchLen) (hmax : matchLen ≤ maxMatchLen) :
    Agree history input histPos pos (extendMatch history input histPos pos maxMatchLen fuel matchLen) ∧
      matchLen ≤ extendMatch history input histPos pos maxMatchLen fuel matchLen ∧
      extendMatch history input histPos pos maxMatchLen fuel matchLen ≤ maxMatchLen := by
  induction fuel generalizing matchLen with
  | zero => exact ⟨hagree, Nat.le_refl _, hmax⟩
  | succ fuel ih =>
      unfold extendMatch
      by_cases hnext : matchLen < maxMatchLen ∧ histPos + matchLen < history.length ∧
          history[histPos + matchLen]? = input[pos + matchLen]?
      · obtain ⟨hlt, hinside, hbyte⟩ := hnext
        have hlonger : Agree history input histPos pos (matchLen + 1) := by
          refine ⟨hinside, ?_⟩
          rw [List.take_add_one, List.take_add_one, hagree.2, List.getElem?_drop, List.getElem?_drop, hbyte]
        obtain ⟨hresult, hle, hmost⟩ := ih hlonger hlt
        rw [if_pos ⟨hlt, hinside, hbyte⟩]
        exact ⟨hresult, by omega, hmost⟩
      · rw [if_neg hnext]
        exact ⟨hagree, Nat.le_refl _, hmax⟩

theorem bestOf_found {history input : Bytes} {pos maxMatchLen searchLimit : Nat}
    (hmin : minMatchLength ≤ maxMatchLen) {candidates : List Nat} {best : Option Match}
    (hcandidates : ∀ histPos ∈ candidates, Agree history input histPos pos minMatchLength)
    (hbest : ∀ m ∈ best, Found history input pos maxMatchLen searchLimit m) :
    ∀ m ∈ bestOf history input pos maxMatchLen searchLimit candidates best,
      Found history input pos maxMatchLen searchLimit m := by
  induction candidates generalizing best with
  | nil => exact hbest
  | cons histPos candidates ih =>
      have hrest := fun q hq => hcandidates q (List.mem_cons_of_mem histPos hq)
      have hhere := hcandidates histPos List.mem_cons_self
      unfold bestOf
      simp only
      by_cases hfar : history.length - histPos > searchLimit
      · rw [if_pos hfar]
        exact ih hrest hbest
      · rw [if_neg hfar]
        obtain ⟨hagree, hleast, hmost⟩ := extendMatch_spec maxMatchLen hhere hmin
        generalize extendMatch history input histPos pos maxMatchLen maxMatchLen minMatchLength = matchLen
          at hagree hleast hmost ⊢
        have hfound : Found history input pos maxMatchLen searchLimit
            ⟨history.length - histPos, matchLen⟩ := by
          have hinside := hagree.1
          unfold minMatchLength at hleast
          refine ⟨?_, Nat.le_of_not_lt hfar, Nat.sub_le _ _, hleast, hmost, ?_⟩
          · change 0 < history.length - histPos
            omega
          · change (input.drop pos).take matchLen <+: Lz77.window (history.length - histPos) history
            rw [← hagree.2, Lz77.window_eq_drop (k := histPos) (by omega)]
            exact List.take_prefix _ _
        have hbetter : ∀ m ∈ (if best.all (matchLen > ·.length) then
            some (Match.mk (history.length - histPos) matchLen) else best),
              Found history input pos maxMatchLen searchLimit m := by
          by_cases hall : best.all (matchLen > ·.length)
          · rw [if_pos hall]
            intro m hm
            rw [← Option.mem_some.mp hm]
            exact hfound
          · rw [if_neg hall]
            exact hbest
        by_cases hgood : matchLen ≥ 32
        · rw [if_pos hgood]
          exact hbetter
        · rw [if_neg hgood]
          exact ih hrest hbetter

theorem findBestMatch_found {c : Compressor} (h : Indexes c.history c.matchTable) {input : Bytes} {pos : Nat}
    {m : Match} (hm : c.findBestMatch input pos = some m) :
    Found c.history input pos (min (input.length - pos) maxMatchLength)
      (min c.history.length maxMatchDistance) m := by
  unfold findBestMatch at hm
  simp only at hm
  by_cases hnone : input.length - pos < minMatchLength ∨ c.history = []
  · rw [if_pos hnone] at hm
    cases hm
  · rw [if_neg hnone] at hm
    cases hlookup : Table.lookup MatchEntry.threeBytes c.matchTable (threeBytesAt input pos) with
    | none =>
        rw [hlookup] at hm
        cases hm
    | some entry =>
        rw [hlookup] at hm
        refine bestOf_found ?_ ?_ (by simp) m hm
        · have hmany := fun hlt => hnone (.inl hlt)
          refine Nat.le_min.mpr ⟨Nat.le_of_not_lt hmany, by decide⟩
        · intro histPos hpos
          have hmem := List.mem_reverse.mp (List.mem_of_mem_take hpos)
          obtain ⟨hle, hbytes⟩ := h entry (Table.mem_of_lookup hlookup) histPos hmem
          exact ⟨hle, hbytes.trans (Table.key_of_lookup hlookup)⟩

/-! ### The loop -/

/-- The compressor has indexed the last bytes of what was sent. -/
structure InStep (c : Compressor) (sent : Bytes) : Prop where
  history : c.history = Lz77.window historySize sent
  indexes : Indexes c.history c.matchTable

/-- The tokens can be written, and they add the bytes to what was sent. -/
structure Codes (sent bytes : Bytes) (tokens : List (Lz77.Token UInt8)) : Prop where
  valid : Lz77.Valid maxMatchDistance sent tokens
  sized : ∀ token ∈ tokens, Sized token
  adds : Lz77.expand sent tokens = sent ++ bytes

theorem inStep_new : InStep new [] where
  history := rfl
  indexes := fun _ he => absurd he List.not_mem_nil

theorem InStep.addToHistory {c : Compressor} {sent : Bytes} (h : InStep c sent) {bytes : Bytes}
    (hbytes : bytes.length ≤ historySize) : InStep (c.addToHistory bytes) (sent ++ bytes) where
  history := by rw [history_addToHistory c hbytes, h.history, Lz77.window_append_window]
  indexes := indexes_addToHistory h.indexes bytes

theorem codes_nil (sent : Bytes) : Codes sent [] [] where
  valid := trivial
  sized := fun _ h => absurd h List.not_mem_nil
  adds := (List.append_nil sent).symm

theorem Codes.cons {sent bytes : Bytes} {token : Lz77.Token UInt8} {tokens : List (Lz77.Token UInt8)}
    (hreach : Lz77.Reaches maxMatchDistance sent token) (hsized : Sized token)
    (h : Codes (sent ++ Lz77.added sent token) bytes tokens) :
    Codes sent (Lz77.added sent token ++ bytes) (token :: tokens) where
  valid := .cons hreach h.valid
  sized := List.forall_mem_cons.mpr ⟨hsized, h.sized⟩
  adds := by rw [Lz77.expand_cons, Lz77.step_eq_append hreach, h.adds, List.append_assoc]

/-- A match becomes a token that adds the bytes that it stands for. -/
theorem Found.token {c : Compressor} {sent input : Bytes} {pos : Nat} {m : Match} (hstep : InStep c sent)
    (h : Found c.history input pos (min (input.length - pos) maxMatchLength)
      (min c.history.length maxMatchDistance) m) :
    Lz77.Reaches maxMatchDistance sent (.copy m.distance m.length) ∧ Sized (.copy m.distance m.length) ∧
      Lz77.added sent (.copy m.distance m.length) = (input.drop pos).take m.length := by
  have hnear : m.distance ≤ maxMatchDistance := Nat.le_trans h.near (Nat.min_le_right _ _)
  have hwindow : m.distance ≤ historySize := Nat.le_trans hnear (by decide)
  have hback : m.distance ≤ sent.length := by
    have hle := h.back
    rw [hstep.history, Lz77.length_window] at hle
    exact Nat.le_trans hle (Nat.min_le_right _ _)
  have hlength : ((input.drop pos).take m.length).length = m.length := by
    have hmost := Nat.le_trans h.most (Nat.min_le_left _ _)
    rw [List.length_take, List.length_drop]
    omega
  refine ⟨⟨h.positive, hnear, hback⟩, ⟨h.least, Nat.le_trans h.most (Nat.min_le_right _ _)⟩, ?_⟩
  have hsame := h.same
  rw [hstep.history, Lz77.window_window hwindow] at hsame
  have hadded := Lz77.added_of_found hsame
  rwa [hlength] at hadded

/-- A property of compressors in step that adding to the history keeps. -/
structure Kept (P : Compressor → Bytes → Prop) : Prop where
  inStep : ∀ {c sent}, P c sent → InStep c sent
  add : ∀ {c sent} {bytes : Bytes}, P c sent → bytes.length ≤ historySize → P (c.addToHistory bytes) (sent ++ bytes)

theorem kept_inStep : Kept InStep where
  inStep h := h
  add h hbytes := h.addToHistory hbytes

theorem compressFrom_spec {P : Compressor → Bytes → Prop} (hkept : Kept P) {input : Bytes} {fuel pos : Nat}
    {c : Compressor} {w : BitWriter} {bs : List Bool} {sent : Bytes} (hc : P c sent) (hw : Written w bs)
    (hfuel : input.length ≤ pos + fuel) :
    ∃ tokens, Codes sent (input.drop pos) tokens ∧
      Written (compressFrom input fuel c w pos).2 (bs ++ tokens.flatMap tokenBits) ∧
      P (compressFrom input fuel c w pos).1 (sent ++ input.drop pos) := by
  induction fuel generalizing pos c w bs sent with
  | zero =>
      rw [Nat.add_zero] at hfuel
      rw [List.drop_eq_nil_of_le hfuel, List.append_nil]
      exact ⟨[], codes_nil sent, by rwa [List.flatMap_nil, List.append_nil], hc⟩
  | succ fuel ih =>
      unfold compressFrom
      by_cases hmore : pos < input.length
      · rw [if_pos hmore]
        cases hbest : (c.findBestMatch input pos).filter (·.length ≥ minMatchLength) with
        | some m =>
            obtain ⟨hfind, hleast⟩ := Option.filter_eq_some_iff.mp hbest
            have hfound := findBestMatch_found (hkept.inStep hc).indexes hfind
            obtain ⟨hreach, hsized, hadded⟩ := hfound.token (hkept.inStep hc)
            have hlength : ((input.drop pos).take m.length).length ≤ historySize :=
              Nat.le_trans (List.length_take_le _ _) (Nat.le_trans hsized.2 (by decide))
            have hpositive : 3 ≤ m.length := hsized.1
            obtain ⟨tokens, hcodes, hwritten, hc'⟩ := @ih (pos + m.length) _ _ _ _
              (hkept.add hc hlength) (written_encodeMatch hw m.distance m.length) (by omega)
            have hsplit : input.drop pos = (input.drop pos).take m.length ++ input.drop (pos + m.length) := by
              rw [← List.drop_drop, List.take_append_drop]
            refine ⟨.copy m.distance m.length :: tokens, ?_, ?_, ?_⟩
            · rw [hsplit, ← hadded]
              rw [← hadded] at hcodes
              exact hcodes.cons hreach hsized
            · rw [List.flatMap_cons, ← List.append_assoc]
              exact hwritten
            · rw [List.append_assoc, ← hsplit] at hc'
              exact hc'
        | none =>
            have hlength : [input.getD pos 0].length ≤ historySize := by
              rw [List.length_singleton]
              decide
            obtain ⟨tokens, hcodes, hwritten, hc'⟩ := @ih (pos + 1) _ _ _ _ (hkept.add hc hlength)
              (written_encodeLiteral hw (input.getD pos 0)) (by omega)
            have hsplit : input.drop pos = [input.getD pos 0] ++ input.drop (pos + 1) := by
              rw [List.drop_eq_getElem_cons hmore, List.getD_eq_getElem?_getD,
                List.getElem?_eq_getElem hmore]
              rfl
            refine ⟨.literal (input.getD pos 0) :: tokens, ?_, ?_, ?_⟩
            · rw [hsplit]
              exact @Codes.cons _ _ (.literal (input.getD pos 0)) _ trivial trivial hcodes
            · rw [List.flatMap_cons, ← List.append_assoc]
              exact hwritten
            · rw [List.append_assoc, ← hsplit] at hc'
              exact hc'
      · rw [if_neg hmore, List.drop_eq_nil_of_le (Nat.le_of_not_lt hmore), List.append_nil]
        exact ⟨[], codes_nil sent, by rwa [List.flatMap_nil, List.append_nil], hc⟩

/-- The compressor writes tokens that add the input to what was sent, and keeps what adding keeps. -/
theorem compress_spec {P : Compressor → Bytes → Prop} (hkept : Kept P) {c : Compressor} {sent : Bytes}
    (h : P c sent) (input : Bytes) :
    ∃ tokens w, Codes sent input tokens ∧ Written w (tokens.flatMap tokenBits) ∧
      (c.compress input).2 = w.finish ∧ P (c.compress input).1 (sent ++ input) := by
  have hfuel : input.length ≤ 0 + input.length := by omega
  obtain ⟨tokens, hcodes, hwritten, hafter⟩ := compressFrom_spec hkept h BitWriter.written_new hfuel
  rw [List.drop_zero] at hcodes hafter
  exact ⟨tokens, _, hcodes, hwritten, rfl, hafter⟩

end Compressor

end Drift.Zgfx
