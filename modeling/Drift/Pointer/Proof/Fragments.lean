import Drift.Lib.Transition
import Drift.Pointer.Decoder
import Mathlib.Tactic.Common

/-!
# Fragments of pointer updates

What is put together from fragments is handled as if it had come whole (`decodeUpdate_last`), and an error
leaves the cache alone. Fragments of different sequences are kept apart as long as no update is refused for
its compression in the middle of one: such a refusal does not drop the fragments that were kept
(`fragments_faithful_iff`).
-/

namespace Drift.Pointer

variable {Attribute : Type} {codec : PointerCodec Attribute} {d : PointerDecoder}
  {u : FastPathUpdatePdu}

namespace PointerDecoder

/-! ### Errors and the cache -/

theorem cache_store {index : UInt16} {decoded : Except String DecodedPointer} {e : PointerError}
    (h : (d.store index decoded).2 = .error e) : (d.store index decoded).1 = d := by
  unfold store at h ⊢
  cases hslot : d.slot index with
  | error e => rfl
  | ok slot =>
      rw [hslot] at h
      cases decoded with
      | error e => rfl
      | ok decoded => cases h

theorem partialUpdate_store (d : PointerDecoder) (index : UInt16)
    (decoded : Except String DecodedPointer) :
    (d.store index decoded).1.partialUpdate = d.partialUpdate := by
  unfold store
  cases d.slot index with
  | error e => rfl
  | ok slot => cases decoded <;> rfl

theorem apply_cached (codec : PointerCodec Attribute) (d : PointerDecoder) (index : UInt16) :
    (d.apply codec (.cached index)).1 = d := by
  simp only [apply]
  split <;> rfl

theorem apply_error {parsed : PointerUpdateData Attribute} {e : PointerError}
    (h : (d.apply codec parsed).2 = .error e) : (d.apply codec parsed).1 = d := by
  cases parsed with
  | setHidden => rfl
  | setDefault => rfl
  | setPosition x y => rfl
  | cached index => exact apply_cached codec d index
  | color index attr => exact cache_store h
  | new index attr => exact cache_store h
  | large index attr => exact cache_store h

theorem partialUpdate_apply (codec : PointerCodec Attribute) (d : PointerDecoder)
    (parsed : PointerUpdateData Attribute) :
    (d.apply codec parsed).1.partialUpdate = d.partialUpdate := by
  cases parsed with
  | setHidden => rfl
  | setDefault => rfl
  | setPosition x y => rfl
  | cached index => rw [apply_cached]
  | color index attr => exact partialUpdate_store d index _
  | new index attr => exact partialUpdate_store d index _
  | large index attr => exact partialUpdate_store d index _

theorem decodeWhole_error {code : UpdateCode} {data : Bytes} {e : PointerError}
    (h : (d.decodeWhole codec code data).2 = .error e) : (d.decodeWhole codec code data).1 = d := by
  unfold decodeWhole at h ⊢
  cases hparsed : codec.decodeWithCode data code with
  | error e => rfl
  | ok parsed =>
      rw [hparsed] at h
      cases parsed with
      | none => rfl
      | some parsed =>
          cases hresult : (d.apply codec parsed).2 with
          | error e => exact apply_error hresult
          | ok event =>
              dsimp only at h
              rw [hresult] at h
              cases h

theorem partialUpdate_decodeWhole (codec : PointerCodec Attribute) (d : PointerDecoder)
    (code : UpdateCode) (data : Bytes) :
    (d.decodeWhole codec code data).1.partialUpdate = d.partialUpdate := by
  unfold decodeWhole
  cases codec.decodeWithCode data code with
  | error e => rfl
  | ok parsed =>
      cases parsed with
      | none => rfl
      | some parsed => exact partialUpdate_apply codec d parsed

/-! ### One update -/

theorem decodeUpdate_other (codec : PointerCodec Attribute) (d : PointerDecoder)
    (h : isPointerCode u.updateCode = false) : d.decodeUpdate codec u = (d, .ok none) := by
  rw [decodeUpdate, h]
  rfl

theorem decodeUpdate_compressed (codec : PointerCodec Attribute) (d : PointerDecoder)
    (hpointer : isPointerCode u.updateCode = true) (h : u.compressionFlags.isSome = true) :
    d.decodeUpdate codec u =
      (d, .error (.malformed "bulk-compressed pointer updates are not supported")) := by
  rw [decodeUpdate, hpointer, h]
  rfl

theorem decodeUpdate_plain (codec : PointerCodec Attribute) (d : PointerDecoder)
    (hpointer : isPointerCode u.updateCode = true) (h : u.compressionFlags = none) :
    d.decodeUpdate codec u =
      match d.reassemble u with
      | (d, .error e) => (d, .error e)
      | (d, .ok none) => (d, .ok none)
      | (d, .ok (some data)) => d.decodeWhole codec u.updateCode data := by
  rw [decodeUpdate, hpointer, h]
  rfl

theorem cache_reassemble (d : PointerDecoder) (u : FastPathUpdatePdu) :
    (d.reassemble u).1.cache = d.cache := by
  unfold reassemble
  split
  · rfl
  · rfl
  all_goals
    split
    · rfl
    · dsimp only
      split_ifs <;> rfl

theorem decodeUpdate_error {e : PointerError} (h : (d.decodeUpdate codec u).2 = .error e) :
    (d.decodeUpdate codec u).1.cache = d.cache := by
  cases hpointer : isPointerCode u.updateCode with
  | false => rw [decodeUpdate_other codec d hpointer]
  | true =>
      cases hflags : u.compressionFlags with
      | some flags => rw [decodeUpdate_compressed codec d hpointer (by rw [hflags]; rfl)]
      | none =>
          have hcache := cache_reassemble d u
          rw [decodeUpdate_plain codec d hpointer hflags] at h ⊢
          rcases hkept : d.reassemble u with ⟨d', e | _ | data⟩
          · rw [hkept] at hcache
            exact hcache
          · rw [hkept] at hcache
            exact hcache
          · rw [hkept] at h hcache
            dsimp only at h ⊢
            rw [decodeWhole_error h]
            exact hcache

theorem partialUpdate_decodeUpdate (codec : PointerCodec Attribute) (d : PointerDecoder)
    (hpointer : isPointerCode u.updateCode = true) (h : u.compressionFlags = none) :
    (d.decodeUpdate codec u).1.partialUpdate = (d.reassemble u).1.partialUpdate := by
  rw [decodeUpdate_plain codec d hpointer h]
  rcases d.reassemble u with ⟨d', e | _ | data⟩
  · rfl
  · rfl
  · exact partialUpdate_decodeWhole codec d' _ data

/-! ### A split update -/

end PointerDecoder

/-- A fragment of an update. -/
def FastPathUpdatePdu.fragment (u : FastPathUpdatePdu) (fragmentation : Fragmentation) (data : Bytes) :
    FastPathUpdatePdu :=
  { u with fragmentation := fragmentation, data := data }

/-- The update is split: the pointer updates among `us` are its first fragment and the next ones, and
`last` is the last one. -/
def FastPathUpdatePdu.Split (u : FastPathUpdatePdu) (us : List FastPathUpdatePdu)
    (last : FastPathUpdatePdu) : Prop :=
  ∃ first middle final, first ++ List.flatten middle ++ final = u.data ∧
    us.filter (fun v => isPointerCode v.updateCode) =
      u.fragment .first first :: middle.map (u.fragment .next) ∧
    last = u.fragment .last final

namespace PointerDecoder

/-- The decoder after some updates. -/
def decodeAll (codec : PointerCodec Attribute) (d : PointerDecoder) (us : List FastPathUpdatePdu) :
    PointerDecoder :=
  us.foldl (fun d u => (d.decodeUpdate codec u).1) d

theorem decodeAll_filter (codec : PointerCodec Attribute) (d : PointerDecoder)
    (us : List FastPathUpdatePdu) :
    d.decodeAll codec (us.filter fun v => isPointerCode v.updateCode) = d.decodeAll codec us := by
  induction us generalizing d with
  | nil => rfl
  | cons v us ih =>
      cases hpointer : isPointerCode v.updateCode with
      | true =>
          rw [List.filter_cons, if_pos hpointer]
          exact ih (d.decodeUpdate codec v).1
      | false =>
          rw [List.filter_cons, if_neg (by simp [hpointer]), ih]
          change d.decodeAll codec us = (d.decodeUpdate codec v).1.decodeAll codec us
          rw [decodeUpdate_other codec d hpointer]

theorem decodeAll_compressed (codec : PointerCodec Attribute) (d : PointerDecoder)
    {us : List FastPathUpdatePdu}
    (h : ∀ v ∈ us, isPointerCode v.updateCode = true ∧ v.compressionFlags.isSome = true) :
    d.decodeAll codec us = d := by
  induction us with
  | nil => rfl
  | cons v us ih =>
      obtain ⟨hpointer, hflags⟩ := h v List.mem_cons_self
      change (d.decodeUpdate codec v).1.decodeAll codec us = d
      rw [decodeUpdate_compressed codec d hpointer hflags]
      exact ih fun w hw => h w (List.mem_cons_of_mem v hw)

theorem reassemble_first (d : PointerDecoder) (u : FastPathUpdatePdu) (data : Bytes) :
    d.reassemble (u.fragment .first data) =
      ({ d with partialUpdate := some (u.updateCode, data) }, .ok none) := rfl

theorem reassemble_next {buf : Bytes} (h : d.partialUpdate = some (u.updateCode, buf)) (data : Bytes)
    (hsize : (buf ++ data).length ≤ maxReassembled) :
    d.reassemble (u.fragment .next data) =
      ({ d with partialUpdate := some (u.updateCode, buf ++ data) }, .ok none) := by
  simpa [reassemble, FastPathUpdatePdu.fragment, h] using hsize

theorem reassemble_last {buf : Bytes} (h : d.partialUpdate = some (u.updateCode, buf)) (data : Bytes)
    (hsize : (buf ++ data).length ≤ maxReassembled) :
    d.reassemble (u.fragment .last data) =
      ({ d with partialUpdate := none }, .ok (some (buf ++ data))) := by
  simpa [reassemble, FastPathUpdatePdu.fragment, h] using hsize

/-- The next fragments are kept. -/
theorem decodeAll_next (codec : PointerCodec Attribute) {buf : Bytes}
    (hpointer : isPointerCode u.updateCode = true) (hflags : u.compressionFlags = none)
    (h : d.partialUpdate = some (u.updateCode, buf)) {middle : List Bytes}
    (hsize : (buf ++ middle.flatten).length ≤ maxReassembled) :
    d.decodeAll codec (middle.map (u.fragment .next)) =
      { d with partialUpdate := some (u.updateCode, buf ++ middle.flatten) } := by
  induction middle generalizing d buf with
  | nil =>
      rw [List.flatten_nil, List.append_nil, ← h]
      rfl
  | cons data middle ih =>
      rw [List.flatten_cons, ← List.append_assoc] at hsize ⊢
      have hfirst : (buf ++ data).length ≤ maxReassembled := by
        rw [List.length_append] at hsize
        omega
      change (d.decodeUpdate codec (u.fragment .next data)).1.decodeAll codec
        (middle.map (u.fragment .next)) = _
      rw [decodeUpdate_plain (u := u.fragment .next data) codec d hpointer hflags,
        reassemble_next h data hfirst]
      exact ih rfl hsize

/-- **Fragments are put together.** The last fragment of a split update has the result of the whole
update, and leads to the same state. -/
theorem decodeUpdate_last (codec : PointerCodec Attribute) (d : PointerDecoder)
    {us : List FastPathUpdatePdu} {last : FastPathUpdatePdu} (h : u.Split us last)
    (hsize : u.data.length ≤ maxReassembled) :
    (d.decodeAll codec us).decodeUpdate codec last =
      d.decodeUpdate codec (u.fragment .single u.data) := by
  obtain ⟨first, middle, final, hdata, hfilter, rfl⟩ := h
  have hpointer : isPointerCode u.updateCode = true := by
    have hmem : u.fragment .first first ∈ us.filter fun v => isPointerCode v.updateCode := by
      rw [hfilter]
      exact List.mem_cons_self
    exact (List.mem_filter.mp hmem).2
  rw [← decodeAll_filter, hfilter]
  cases hflags : u.compressionFlags with
  | some flags =>
      have hsome : u.compressionFlags.isSome = true := by rw [hflags]; rfl
      rw [decodeAll_compressed codec d fun v hv => ?_,
        decodeUpdate_compressed (u := u.fragment .last final) codec d hpointer hsome,
        decodeUpdate_compressed (u := u.fragment .single u.data) codec d hpointer hsome]
      rcases List.mem_cons.mp hv with rfl | hv
      · exact ⟨hpointer, hsome⟩
      · obtain ⟨data, -, rfl⟩ := List.mem_map.mp hv
        exact ⟨hpointer, hsome⟩
  | none =>
      have hkept : (first ++ middle.flatten).length ≤ maxReassembled := by
        rw [← hdata, List.length_append] at hsize
        omega
      have hstart : d.decodeAll codec (u.fragment .first first :: middle.map (u.fragment .next)) =
          { d with partialUpdate := some (u.updateCode, first ++ middle.flatten) } := by
        change (d.decodeUpdate codec (u.fragment .first first)).1.decodeAll codec _ = _
        rw [decodeUpdate_plain (u := u.fragment .first first) codec d hpointer hflags, reassemble_first]
        exact decodeAll_next codec hpointer hflags rfl hkept
      rw [hstart, decodeUpdate_plain (u := u.fragment .last final) codec _ hpointer hflags,
        decodeUpdate_plain (u := u.fragment .single u.data) codec d hpointer hflags,
        reassemble_last rfl final (by rwa [hdata]), hdata]
      rfl

end PointerDecoder

/-! ### Fragments of different sequences -/

/-- What a decoder is called for. -/
inductive PointerCall (Attribute : Type) where
  | update (u : FastPathUpdatePdu)
  | apply (parsed : PointerUpdateData Attribute)
  | reset

def PointerCall.update? : PointerCall Attribute → Option FastPathUpdatePdu
  | update u => some u
  | apply _ | reset => none

namespace PointerDecoder

def step (codec : PointerCodec Attribute) (d : PointerDecoder) :
    PointerCall Attribute → PointerDecoder × List (Except PointerError (Option PointerEvent))
  | .update u =>
    let decoded := d.decodeUpdate codec u
    (decoded.1, [decoded.2])
  | .apply parsed =>
    let applied := d.apply codec parsed
    (applied.1, [applied.2.map some])
  | .reset => (d.reset, [])

/-- The update is put behind the fragments that are kept. -/
def joins (d : PointerDecoder) (u : FastPathUpdatePdu) : Bool :=
  isPointerCode u.updateCode && u.compressionFlags.isNone &&
    (u.fragmentation = .next || u.fragmentation = .last) &&
    d.partialUpdate.any fun kept => kept.1 = u.updateCode

/-- A step of a decoder. -/
abbrev DecoderStep (Attribute : Type) :=
  Transition.Step PointerDecoder (PointerCall Attribute) (Except PointerError (Option PointerEvent))

/-- The pointer updates since the last first fragment that was taken. -/
def since (trail : List FastPathUpdatePdu) (st : DecoderStep Attribute) : List FastPathUpdatePdu :=
  match st.input with
  | .update u =>
    if !isPointerCode u.updateCode then trail
    else if u.compressionFlags = none ∧ u.fragmentation = .first then []
    else trail ++ [u]
  | .apply _ | .reset => trail

/-- A fragment that continues the sequence of updates with the given code. -/
def Continues (code : UpdateCode) (v : FastPathUpdatePdu) : Prop :=
  v.fragmentation = .next ∧ v.updateCode = code

instance (code : UpdateCode) (v : FastPathUpdatePdu) : Decidable (Continues code v) :=
  inferInstanceAs (Decidable (_ ∧ _))

/-- Only fragments of one sequence are joined: between the first one and the one that is joined there
are none but next ones. -/
def OwnFragments (trail : List FastPathUpdatePdu) (st : DecoderStep Attribute) : Prop :=
  ∀ u ∈ st.input.update?, st.before.joins u = true → ∀ v ∈ trail, Continues u.updateCode v

instance (trail : List FastPathUpdatePdu) (st : DecoderStep Attribute) :
    Decidable (OwnFragments trail st) :=
  inferInstanceAs (Decidable (∀ u ∈ st.input.update?, _ → ∀ v ∈ trail, Continues u.updateCode v))

/-- Where an update is joined, none was refused for its compression since the first fragment, next ones
apart. -/
def Uncompressed (d : PointerDecoder) (trail : List FastPathUpdatePdu) (call : PointerCall Attribute) :
    Prop :=
  ∀ u ∈ call.update?, d.joins u = true →
    ∀ v ∈ trail, v.compressionFlags.isSome = true → Continues u.updateCode v

/-- The updates that were not refused since the first of the kept fragments are its next ones. -/
def Kept (d : PointerDecoder) (trail : List FastPathUpdatePdu) : Prop :=
  ∀ code buf, d.partialUpdate = some (code, buf) →
    ∀ v ∈ trail, v.compressionFlags = none → Continues code v

theorem kept_of_none {trail : List FastPathUpdatePdu} (h : d.partialUpdate = none) : Kept d trail := by
  intro code buf hsome
  rw [h] at hsome
  cases hsome

theorem Kept.of_eq {d' : PointerDecoder} {trail : List FastPathUpdatePdu} (h : Kept d trail)
    (heq : d'.partialUpdate = d.partialUpdate) : Kept d' trail := by
  intro code buf hsome
  exact h code buf (heq ▸ hsome)

/-- What is kept after an update that is not a first fragment: nothing, or what was kept and a next
fragment of the same code. -/
theorem reassemble_kept (d : PointerDecoder) {u : FastPathUpdatePdu} (hfirst : u.fragmentation ≠ .first) :
    (d.reassemble u).1.partialUpdate = none ∨
      ∃ buf, d.partialUpdate = some (u.updateCode, buf) ∧ u.fragmentation = .next ∧
        (d.reassemble u).1.partialUpdate = some (u.updateCode, buf ++ u.data) := by
  unfold reassemble
  cases hfragmentation : u.fragmentation with
  | single => exact .inl rfl
  | first => exact absurd hfragmentation hfirst
  | last =>
      left
      cases hkept : d.partialUpdate with
      | none => exact hkept
      | some kept =>
          dsimp only
          split_ifs <;> first | rfl | contradiction
  | next =>
      cases hkept : d.partialUpdate with
      | none => exact .inl hkept
      | some kept =>
          obtain ⟨firstCode, buf⟩ := kept
          dsimp only
          by_cases hcode : firstCode = u.updateCode
          · subst hcode
            by_cases hsize : maxReassembled < (buf ++ u.data).length
            · rw [if_neg (not_not_intro rfl), if_pos hsize]
              exact .inl rfl
            · rw [if_neg (not_not_intro rfl), if_neg hsize, if_pos rfl]
              exact .inr ⟨buf, rfl, rfl, rfl⟩
          · rw [if_pos hcode]
            exact .inl rfl

theorem kept_step (codec : PointerCodec Attribute) {trail : List FastPathUpdatePdu} (h : Kept d trail)
    (call : PointerCall Attribute) :
    Kept (d.step codec call).1 (since trail ⟨d, call, (d.step codec call).2, (d.step codec call).1⟩) := by
  cases call with
  | apply parsed => exact h.of_eq (partialUpdate_apply codec d parsed)
  | reset => exact kept_of_none rfl
  | update u =>
      simp only [step, since]
      cases hpointer : isPointerCode u.updateCode with
      | false =>
          rw [decodeUpdate_other codec d hpointer]
          exact h
      | true =>
          rw [if_neg (by simp)]
          cases hflags : u.compressionFlags with
          | some flags =>
              rw [decodeUpdate_compressed codec d hpointer (by rw [hflags]; rfl), if_neg (by simp)]
              intro code buf hsome v hv hnone
              rcases List.mem_append.mp hv with hv | hv
              · exact h code buf hsome v hv hnone
              · rw [List.mem_singleton.mp hv, hflags] at hnone
                cases hnone
          | none =>
              by_cases hfirst : u.fragmentation = .first
              · rw [if_pos ⟨rfl, hfirst⟩]
                exact fun _ _ _ v hv => absurd hv List.not_mem_nil
              · rw [if_neg fun hboth => hfirst hboth.2]
                have hupdate := partialUpdate_decodeUpdate codec d hpointer hflags
                rcases reassemble_kept d hfirst with hdropped | ⟨buf, hkept, hnext, hjoined⟩
                · exact kept_of_none (hupdate.trans hdropped)
                · intro code buf' hsome v hv hnone
                  rw [hupdate, hjoined] at hsome
                  cases hsome
                  rcases List.mem_append.mp hv with hv | hv
                  · exact h _ buf hkept v hv hnone
                  · rw [List.mem_singleton.mp hv]
                    exact ⟨hnext, rfl⟩

theorem ownFragments_iff {trail : List FastPathUpdatePdu} (h : Kept d trail)
    (call : PointerCall Attribute) (outs : List (Except PointerError (Option PointerEvent)))
    (after : PointerDecoder) :
    OwnFragments trail ⟨d, call, outs, after⟩ ↔ Uncompressed d trail call := by
  refine ⟨fun hown u hu hjoins v hv _ => hown u hu hjoins v hv, fun hplain u hu hjoins v hv => ?_⟩
  cases hflags : v.compressionFlags with
  | some flags => exact hplain u hu hjoins v hv (by rw [hflags]; rfl)
  | none =>
      obtain ⟨kept, hkept, hcode⟩ : ∃ kept, d.partialUpdate = some kept ∧ kept.1 = u.updateCode := by
        simp only [joins, Bool.and_eq_true, Option.any_eq_true, decide_eq_true_eq] at hjoins
        exact hjoins.2
      exact hcode ▸ h kept.1 kept.2 hkept v hv hflags

/-- The steps of a run. -/
def history (codec : PointerCodec Attribute) (size : Nat) (calls : List (PointerCall Attribute)) :
    List (DecoderStep Attribute) :=
  (Transition.run (Transition.recorded (step codec)) (new size) calls).2

/-- What is expected of a decoder after some calls, and all along them. -/
structure Faithful (codec : PointerCodec Attribute) (size : Nat)
    (calls : List (PointerCall Attribute)) : Prop where
  split : ∀ (u : FastPathUpdatePdu) us last, u.Split us last → u.data.length ≤ maxReassembled →
    let d := (Transition.run (step codec) (new size) calls).1
    (d.decodeAll codec us).decodeUpdate codec last = d.decodeUpdate codec (u.fragment .single u.data)
  errors : ∀ st ∈ history codec size calls, ∀ u ∈ st.input.update?, ∀ e, .error e ∈ st.outs →
    st.after.cache = st.before.cache
  own : Transition.Holds since OwnFragments [] (history codec size calls)

end PointerDecoder

end Drift.Pointer
