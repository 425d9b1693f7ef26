import Drift.Clipboard.Formats
import Mathlib.Tactic.Common

/-!
# Text through the clipboard channel

Decoding undoes every stage of the encoding of a text: the code units, the surrogate pairs, and the carriage
returns that were put in. What is left of the stages is the end at the first NUL and the line ends.
-/

namespace Drift.Clipboard

def nul : Char := Char.ofNat 0

/-! ### Code units -/

theorem unitsOfBytes_unitBytes (unit : UInt16) (bytes : Bytes) :
    unitsOfBytes (unitBytes unit ++ bytes) = unit :: unitsOfBytes bytes := by
  have hunit : unit.toUInt8.toUInt16 ||| ((unit >>> 8).toUInt8.toUInt16 <<< 8) = unit := by
    apply UInt16.toBitVec_inj.mp
    apply BitVec.eq_of_getLsbD_eq
    intro i hi
    simp only [UInt16.toBitVec_or, UInt16.toBitVec_shiftLeft, UInt8.toBitVec_toUInt16,
      UInt16.toBitVec_toUInt8, UInt16.toBitVec_shiftRight]
    by_cases hlow : i < 8
    · simp [BitVec.getLsbD_setWidth, hlow, hi]
    · have hindex : 8 + (i - 8) = i := by omega
      have hhigh : i - 8 < 8 := by omega
      simp [BitVec.getLsbD_setWidth, hlow, hi, hindex, hhigh]
  rw [unitBytes, List.cons_append, List.cons_append, List.nil_append, unitsOfBytes, hunit]

theorem unitsOfBytes_flatMap (units : List UInt16) (bytes : Bytes) :
    unitsOfBytes (units.flatMap unitBytes ++ bytes) = units ++ unitsOfBytes bytes := by
  induction units with
  | nil => rfl
  | cons unit units ih =>
      rw [List.flatMap_cons, List.append_assoc, unitsOfBytes_unitBytes, ih, List.cons_append]

/-! ### Characters -/

theorem decodeUtf16_bmp {unit : UInt16} (h : unit.toNat < 0xD800 ∨ 0xE000 ≤ unit.toNat)
    (units : List UInt16) :
    decodeUtf16 (unit :: units) = Char.ofNat unit.toNat :: decodeUtf16 units := by
  rw [decodeUtf16.eq_def]
  exact if_pos h

theorem decodeUtf16_pair {high low : UInt16} (hhigh : 0xD800 ≤ high.toNat ∧ high.toNat < 0xDC00)
    (hlow : 0xDC00 ≤ low.toNat ∧ low.toNat < 0xE000) (units : List UInt16) :
    decodeUtf16 (high :: low :: units) =
      Char.ofNat (0x10000 + (high.toNat - 0xD800) * 0x400 + (low.toNat - 0xDC00)) ::
        decodeUtf16 units := by
  rw [decodeUtf16.eq_def]
  simp only
  rw [if_neg (by omega), if_pos ⟨hhigh.2, hlow⟩]

theorem decodeUtf16_encodeUtf16 (c : Char) (units : List UInt16) :
    decodeUtf16 (Input.encodeUtf16 c ++ units) = c :: decodeUtf16 units := by
  have hchar : Char.ofNat c.toNat = c := Char.ofNat_toNat c
  have hvalid : c.toNat < 0xD800 ∨ 0xDFFF < c.toNat ∧ c.toNat < 0x110000 := c.valid
  unfold Input.encodeUtf16
  simp only
  by_cases hbmp : c.toNat < 0x10000
  · have hunit : c.toNat.toUInt16.toNat = c.toNat := by
      rw [Nat.toUInt16, UInt16.toNat_ofNat']
      exact Nat.mod_eq_of_lt hbmp
    rw [if_pos hbmp, List.singleton_append, decodeUtf16_bmp (by rw [hunit]; omega), hunit, hchar]
  · have hhigh : (0xD800 + (c.toNat - 0x10000) / 0x400).toUInt16.toNat =
        0xD800 + (c.toNat - 0x10000) / 0x400 := by
      rw [Nat.toUInt16, UInt16.toNat_ofNat']
      exact Nat.mod_eq_of_lt (by omega)
    have hlow : (0xDC00 + (c.toNat - 0x10000) % 0x400).toUInt16.toNat =
        0xDC00 + (c.toNat - 0x10000) % 0x400 := by
      rw [Nat.toUInt16, UInt16.toNat_ofNat']
      exact Nat.mod_eq_of_lt (by omega)
    have hsum : 0x10000 + (0xD800 + (c.toNat - 0x10000) / 0x400 - 0xD800) * 0x400 +
        (0xDC00 + (c.toNat - 0x10000) % 0x400 - 0xDC00) = c.toNat := by
      omega
    rw [if_neg hbmp, List.cons_append, List.singleton_append,
      decodeUtf16_pair (by rw [hhigh]; omega) (by rw [hlow]; omega), hhigh, hlow, hsum, hchar]

theorem decodeUtf16_flatMap (cs : List Char) : decodeUtf16 (cs.flatMap Input.encodeUtf16) = cs := by
  induction cs with
  | nil => rfl
  | cons c cs ih => rw [List.flatMap_cons, decodeUtf16_encodeUtf16, ih]

theorem encodeUtf16_ne_zero {c : Char} (hc : c ≠ nul) : ∀ unit ∈ Input.encodeUtf16 c, unit ≠ 0 := by
  have hne : c.toNat ≠ 0 := by
    intro hzero
    refine hc ?_
    rw [← Char.ofNat_toNat c, hzero]
    rfl
  have hvalid : c.toNat < 0xD800 ∨ 0xDFFF < c.toNat ∧ c.toNat < 0x110000 := c.valid
  have hunit : ∀ n : Nat, n ≠ 0 → n < 2 ^ 16 → n.toUInt16 ≠ 0 := by
    intro n hn hlt hzero
    have htoNat := congrArg UInt16.toNat hzero
    rw [Nat.toUInt16, UInt16.toNat_ofNat', Nat.mod_eq_of_lt hlt] at htoNat
    exact hn htoNat
  unfold Input.encodeUtf16
  simp only
  by_cases hbmp : c.toNat < 0x10000
  · rw [if_pos hbmp]
    simpa using hunit c.toNat hne hbmp
  · rw [if_neg hbmp]
    intro unit hmem
    rcases List.mem_pair.mp hmem with rfl | rfl
    · exact hunit _ (by omega) (by omega)
    · exact hunit _ (by omega) (by omega)

theorem takeWhile_units (cs : List Char) :
    (cs.flatMap Input.encodeUtf16 ++ [0]).takeWhile (· ≠ 0) =
      (cs.takeWhile (· ≠ nul)).flatMap Input.encodeUtf16 := by
  induction cs with
  | nil => rfl
  | cons c cs ih =>
      by_cases hc : c = nul
      · subst hc
        rfl
      · have hunits := encodeUtf16_ne_zero hc
        rw [List.flatMap_cons, List.append_assoc, List.takeWhile_append_of_pos (by simpa using hunits),
          ih, List.takeWhile_cons_of_pos (by simpa using hc), List.flatMap_cons]

/-! ### Line ends -/

/-- A NUL ends the text before or after its carriage returns are put in. -/
theorem takeWhile_lfToCrlf (prev : Char) (cs : List Char) :
    (lfToCrlf prev cs).takeWhile (· ≠ nul) = lfToCrlf prev (cs.takeWhile (· ≠ nul)) := by
  induction cs generalizing prev with
  | nil => rfl
  | cons c cs ih =>
      by_cases hnul : c = nul
      · subst hnul
        have hcons : lfToCrlf prev (nul :: cs) = nul :: lfToCrlf nul cs := by
          rw [lfToCrlf, if_neg fun h => absurd h.1 (by decide)]
        rw [hcons, List.takeWhile_cons_of_neg (by simp), List.takeWhile_cons_of_neg (by simp)]
        rfl
      · rw [List.takeWhile_cons_of_pos (by simpa using hnul), lfToCrlf, lfToCrlf]
        split
        · rw [List.takeWhile_cons_of_pos (by decide), List.takeWhile_cons_of_pos (by simpa using hnul), ih]
        · rw [List.takeWhile_cons_of_pos (by simpa using hnul), ih]

theorem crlfToLf_cons {c : Char} (h : c ≠ '\r') (cs : List Char) :
    crlfToLf (c :: cs) = c :: crlfToLf cs := by
  rw [crlfToLf]
  rintro tail rfl
  exact absurd rfl h

theorem crlfToLf_cr {c : Char} (h : c ≠ '\n') (cs : List Char) :
    crlfToLf ('\r' :: c :: cs) = '\r' :: crlfToLf (c :: cs) := by
  rw [crlfToLf]
  intro tail _ heq
  exact h (List.cons.inj heq).1

/-- The carriage returns that were put in go away again; the state of the conversion is whether a carriage
return came just before. -/
theorem crlfToLf_lfToCrlf (cs : List Char) :
    (∀ prev, prev ≠ '\r' → crlfToLf (lfToCrlf prev cs) = crlfToLf cs) ∧
      crlfToLf ('\r' :: lfToCrlf '\r' cs) = crlfToLf ('\r' :: cs) := by
  induction cs with
  | nil => exact ⟨fun _ _ => rfl, rfl⟩
  | cons c cs ih =>
      obtain ⟨hother, hcr⟩ := ih
      by_cases hlf : c = '\n'
      · subst hlf
        have hrest : crlfToLf (lfToCrlf '\n' cs) = crlfToLf cs := hother '\n' (by decide)
        constructor
        · intro prev hprev
          rw [lfToCrlf, if_pos ⟨rfl, hprev⟩, crlfToLf, hrest, crlfToLf_cons (by decide)]
        · rw [lfToCrlf, if_neg (by simp), crlfToLf, hrest, crlfToLf]
      · have hkept : ∀ prev, lfToCrlf prev (c :: cs) = c :: lfToCrlf c cs := by
          intro prev
          rw [lfToCrlf, if_neg fun h => hlf h.1]
        by_cases hret : c = '\r'
        · subst hret
          refine ⟨fun prev _ => by rw [hkept, hcr], ?_⟩
          rw [hkept, crlfToLf_cr (by decide), hcr, crlfToLf_cr (by decide)]
        · have hrest := hother c hret
          refine ⟨fun prev _ => by rw [hkept, crlfToLf_cons hret, hrest, crlfToLf_cons hret], ?_⟩
          rw [hkept, crlfToLf_cr hlf, crlfToLf_cons hret, hrest, crlfToLf_cr hlf, crlfToLf_cons hret]

theorem intercalate_cons (sep : List Char) (c : Char) (piece : List Char) (pieces : List (List Char)) :
    sep.intercalate ((c :: piece) :: pieces) = c :: sep.intercalate (piece :: pieces) := by
  cases pieces with
  | nil => simp
  | cons next pieces => simp [List.intercalate_cons_cons]

theorem crlfToLf_pieces (cs : List Char) : ∃ (piece : List Char) (pieces : List (List Char)),
    (∀ p ∈ piece :: pieces, ¬ ['\r', '\n'] <:+: p) ∧
      cs = ['\r', '\n'].intercalate (piece :: pieces) ∧
      crlfToLf cs = ['\n'].intercalate (piece :: pieces) := by
  fun_induction crlfToLf cs with
  | case1 cs ih =>
      obtain ⟨piece, pieces, hfree, hcs, hlf⟩ := ih
      refine ⟨[], piece :: pieces, ?_, ?_, ?_⟩
      · intro p hp
        rcases List.mem_cons.mp hp with rfl | hp
        · decide
        · exact hfree p hp
      · rw [List.intercalate_cons_cons, ← hcs]
        rfl
      · rw [List.intercalate_cons_cons, ← hlf]
        rfl
  | case2 c cs hnot ih =>
      obtain ⟨piece, pieces, hfree, hcs, hlf⟩ := ih
      refine ⟨c :: piece, pieces, ?_, ?_, ?_⟩
      · intro p hp
        rcases List.mem_cons.mp hp with rfl | hp
        · intro hin
          rcases List.infix_cons_iff.mp hin with ⟨tail, htail⟩ | hin
          · -- The text would go on with a line feed after this carriage return.
            obtain ⟨rfl, rfl⟩ := List.cons.inj htail
            exact hnot _ rfl (hcs.trans (intercalate_cons _ _ _ _))
          · exact hfree piece List.mem_cons_self hin
        · exact hfree p (List.mem_cons_of_mem _ hp)
      · rw [intercalate_cons, ← hcs]
      · rw [intercalate_cons, ← hlf]
  | case3 => exact ⟨[], [], by simp, rfl, rfl⟩

/-- **Text survives the clipboard channel.** What comes back of a text is its part before the first NUL, with
a line feed in place of every CRLF and nothing else changed. -/
theorem text_returns (text : String) : ∃ (piece : List Char) (pieces : List (List Char)),
    (∀ p ∈ piece :: pieces, ¬ ['\r', '\n'] <:+: p) ∧
      text.toList.takeWhile (· ≠ nul) = ['\r', '\n'].intercalate (piece :: pieces) ∧
      (decodeUnicodeText (encodeUnicodeText text)).toList = ['\n'].intercalate (piece :: pieces) := by
  obtain ⟨piece, pieces, hfree, hcs, hlf⟩ := crlfToLf_pieces (text.toList.takeWhile (· ≠ nul))
  refine ⟨piece, pieces, hfree, hcs, ?_⟩
  have hunits : unitsOfBytes (encodeUnicodeText text) =
      (lfToCrlf nul text.toList).flatMap Input.encodeUtf16 ++ [0] :=
    unitsOfBytes_flatMap _ _
  rw [← hlf, decodeUnicodeText, String.toList_ofList, hunits, takeWhile_units, decodeUtf16_flatMap,
    takeWhile_lfToCrlf]
  exact (crlfToLf_lfToCrlf _).1 nul (by decide)

end Drift.Clipboard
