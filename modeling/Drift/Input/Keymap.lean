import Drift.Input.Event

/-!
# Virtual key codes and scancodes

macOS reports positional virtual key codes (`kVK_*`); the wire carries set-1 scancodes, possibly
with the `0xE0` prefix. `scancodeFor` is the fixed table between them, with the two ISO positions
and the Command keys decided first.
-/

namespace Drift.Input

/-! ### Virtual key codes -/

namespace kvk

abbrev ansiA : UInt16 := 0x00
abbrev ansiS : UInt16 := 0x01
abbrev ansiD : UInt16 := 0x02
abbrev ansiF : UInt16 := 0x03
abbrev ansiH : UInt16 := 0x04
abbrev ansiG : UInt16 := 0x05
abbrev ansiZ : UInt16 := 0x06
abbrev ansiX : UInt16 := 0x07
abbrev ansiC : UInt16 := 0x08
abbrev ansiV : UInt16 := 0x09
abbrev ansiB : UInt16 := 0x0B
abbrev ansiQ : UInt16 := 0x0C
abbrev ansiW : UInt16 := 0x0D
abbrev ansiE : UInt16 := 0x0E
abbrev ansiR : UInt16 := 0x0F
abbrev ansiY : UInt16 := 0x10
abbrev ansiT : UInt16 := 0x11
abbrev ansi1 : UInt16 := 0x12
abbrev ansi2 : UInt16 := 0x13
abbrev ansi3 : UInt16 := 0x14
abbrev ansi4 : UInt16 := 0x15
abbrev ansi6 : UInt16 := 0x16
abbrev ansi5 : UInt16 := 0x17
abbrev ansiEqual : UInt16 := 0x18
abbrev ansi9 : UInt16 := 0x19
abbrev ansi7 : UInt16 := 0x1A
abbrev ansiMinus : UInt16 := 0x1B
abbrev ansi8 : UInt16 := 0x1C
abbrev ansi0 : UInt16 := 0x1D
abbrev ansiRightBracket : UInt16 := 0x1E
abbrev ansiO : UInt16 := 0x1F
abbrev ansiU : UInt16 := 0x20
abbrev ansiLeftBracket : UInt16 := 0x21
abbrev ansiI : UInt16 := 0x22
abbrev ansiP : UInt16 := 0x23
abbrev ansiL : UInt16 := 0x25
abbrev ansiJ : UInt16 := 0x26
abbrev ansiQuote : UInt16 := 0x27
abbrev ansiK : UInt16 := 0x28
abbrev ansiSemicolon : UInt16 := 0x29
abbrev ansiBackslash : UInt16 := 0x2A
abbrev ansiComma : UInt16 := 0x2B
abbrev ansiSlash : UInt16 := 0x2C
abbrev ansiN : UInt16 := 0x2D
abbrev ansiM : UInt16 := 0x2E
abbrev ansiPeriod : UInt16 := 0x2F
abbrev ansiGrave : UInt16 := 0x32
abbrev ansiKeypadDecimal : UInt16 := 0x41
abbrev ansiKeypadMultiply : UInt16 := 0x43
abbrev ansiKeypadPlus : UInt16 := 0x45
abbrev ansiKeypadDivide : UInt16 := 0x4B
abbrev ansiKeypadEnter : UInt16 := 0x4C
abbrev ansiKeypadMinus : UInt16 := 0x4E
abbrev ansiKeypadEquals : UInt16 := 0x51
abbrev ansiKeypad0 : UInt16 := 0x52
abbrev ansiKeypad1 : UInt16 := 0x53
abbrev ansiKeypad2 : UInt16 := 0x54
abbrev ansiKeypad3 : UInt16 := 0x55
abbrev ansiKeypad4 : UInt16 := 0x56
abbrev ansiKeypad5 : UInt16 := 0x57
abbrev ansiKeypad6 : UInt16 := 0x58
abbrev ansiKeypad7 : UInt16 := 0x59
abbrev ansiKeypad8 : UInt16 := 0x5B
abbrev ansiKeypad9 : UInt16 := 0x5C
abbrev returnKey : UInt16 := 0x24
abbrev tab : UInt16 := 0x30
abbrev space : UInt16 := 0x31
abbrev delete : UInt16 := 0x33
abbrev escape : UInt16 := 0x35
abbrev rightCommand : UInt16 := 0x36
abbrev command : UInt16 := 0x37
abbrev shift : UInt16 := 0x38
abbrev capsLock : UInt16 := 0x39
abbrev option : UInt16 := 0x3A
abbrev control : UInt16 := 0x3B
abbrev rightShift : UInt16 := 0x3C
abbrev rightOption : UInt16 := 0x3D
abbrev rightControl : UInt16 := 0x3E
abbrev function : UInt16 := 0x3F
abbrev f17 : UInt16 := 0x40
abbrev volumeUp : UInt16 := 0x48
abbrev volumeDown : UInt16 := 0x49
abbrev mute : UInt16 := 0x4A
abbrev f18 : UInt16 := 0x4F
abbrev f19 : UInt16 := 0x50
abbrev f20 : UInt16 := 0x5A
abbrev f5 : UInt16 := 0x60
abbrev f6 : UInt16 := 0x61
abbrev f7 : UInt16 := 0x62
abbrev f3 : UInt16 := 0x63
abbrev f8 : UInt16 := 0x64
abbrev f9 : UInt16 := 0x65
abbrev f11 : UInt16 := 0x67
abbrev f13 : UInt16 := 0x69
abbrev f16 : UInt16 := 0x6A
abbrev f14 : UInt16 := 0x6B
abbrev f10 : UInt16 := 0x6D
abbrev contextualMenu : UInt16 := 0x6E
abbrev f12 : UInt16 := 0x6F
abbrev f15 : UInt16 := 0x71
abbrev help : UInt16 := 0x72
abbrev home : UInt16 := 0x73
abbrev pageUp : UInt16 := 0x74
abbrev forwardDelete : UInt16 := 0x75
abbrev f4 : UInt16 := 0x76
abbrev endKey : UInt16 := 0x77
abbrev f2 : UInt16 := 0x78
abbrev pageDown : UInt16 := 0x79
abbrev f1 : UInt16 := 0x7A
abbrev leftArrow : UInt16 := 0x7B
abbrev rightArrow : UInt16 := 0x7C
abbrev downArrow : UInt16 := 0x7D
abbrev upArrow : UInt16 := 0x7E
abbrev isoSection : UInt16 := 0x0A
abbrev jisYen : UInt16 := 0x5D
abbrev jisUnderscore : UInt16 := 0x5E
abbrev jisKeypadComma : UInt16 := 0x5F
abbrev jisEisu : UInt16 := 0x66
abbrev jisKana : UInt16 := 0x68

end kvk

/-- Physical keyboard type. -/
inductive KeyboardType where
  | ansi
  | iso
  | jis
  deriving DecidableEq

open kvk in
/-- The part of the table that depends on neither the keyboard type nor the preferences, in the
order of the source. Keypad Clear and `fn` have no entry. -/
def baseScancodes : List (UInt16 × Scancode) :=
  [(ansiA, Scancode.new 0x1E), (ansiS, Scancode.new 0x1F), (ansiD, Scancode.new 0x20),
   (ansiF, Scancode.new 0x21), (ansiH, Scancode.new 0x23), (ansiG, Scancode.new 0x22),
   (ansiZ, Scancode.new 0x2C), (ansiX, Scancode.new 0x2D), (ansiC, Scancode.new 0x2E),
   (ansiV, Scancode.new 0x2F), (ansiB, Scancode.new 0x30), (ansiQ, Scancode.new 0x10),
   (ansiW, Scancode.new 0x11), (ansiE, Scancode.new 0x12), (ansiR, Scancode.new 0x13),
   (ansiY, Scancode.new 0x15), (ansiT, Scancode.new 0x14), (ansi1, Scancode.new 0x02),
   (ansi2, Scancode.new 0x03), (ansi3, Scancode.new 0x04), (ansi4, Scancode.new 0x05),
   (ansi6, Scancode.new 0x07), (ansi5, Scancode.new 0x06), (ansiEqual, Scancode.new 0x0D),
   (ansi9, Scancode.new 0x0A), (ansi7, Scancode.new 0x08), (ansiMinus, Scancode.new 0x0C),
   (ansi8, Scancode.new 0x09), (ansi0, Scancode.new 0x0B), (ansiRightBracket, Scancode.new 0x1B),
   (ansiO, Scancode.new 0x18), (ansiU, Scancode.new 0x16), (ansiLeftBracket, Scancode.new 0x1A),
   (ansiI, Scancode.new 0x17), (ansiP, Scancode.new 0x19), (ansiL, Scancode.new 0x26),
   (ansiJ, Scancode.new 0x24), (ansiQuote, Scancode.new 0x28), (ansiK, Scancode.new 0x25),
   (ansiSemicolon, Scancode.new 0x27), (ansiBackslash, Scancode.new 0x2B),
   (ansiComma, Scancode.new 0x33), (ansiSlash, Scancode.new 0x35), (ansiN, Scancode.new 0x31),
   (ansiM, Scancode.new 0x32), (ansiPeriod, Scancode.new 0x34), (ansiGrave, Scancode.new 0x29),
   (ansiKeypadDecimal, Scancode.new 0x53), (ansiKeypadMultiply, Scancode.new 0x37),
   (ansiKeypadPlus, Scancode.new 0x4E), (ansiKeypadDivide, Scancode.ext 0x35),
   (ansiKeypadEnter, Scancode.ext 0x1C), (ansiKeypadMinus, Scancode.new 0x4A),
   (ansiKeypadEquals, Scancode.new 0x59), (ansiKeypad0, Scancode.new 0x52),
   (ansiKeypad1, Scancode.new 0x4F), (ansiKeypad2, Scancode.new 0x50),
   (ansiKeypad3, Scancode.new 0x51), (ansiKeypad4, Scancode.new 0x4B),
   (ansiKeypad5, Scancode.new 0x4C), (ansiKeypad6, Scancode.new 0x4D),
   (ansiKeypad7, Scancode.new 0x47), (ansiKeypad8, Scancode.new 0x48),
   (ansiKeypad9, Scancode.new 0x49), (returnKey, Scancode.new 0x1C), (tab, Scancode.new 0x0F),
   (space, Scancode.new 0x39), (delete, Scancode.new 0x0E), (escape, Scancode.new 0x01),
   (shift, Scancode.new 0x2A), (capsLock, Scancode.new 0x3A), (option, Scancode.new 0x38),
   (control, Scancode.new 0x1D), (rightShift, Scancode.new 0x36),
   (rightOption, Scancode.ext 0x38), (rightControl, Scancode.ext 0x1D), (f1, Scancode.new 0x3B),
   (f2, Scancode.new 0x3C), (f3, Scancode.new 0x3D), (f4, Scancode.new 0x3E),
   (f5, Scancode.new 0x3F), (f6, Scancode.new 0x40), (f7, Scancode.new 0x41),
   (f8, Scancode.new 0x42), (f9, Scancode.new 0x43), (f10, Scancode.new 0x44),
   (f11, Scancode.new 0x57), (f12, Scancode.new 0x58), (f13, Scancode.new 0x64),
   (f14, Scancode.new 0x65), (f15, Scancode.new 0x66), (f16, Scancode.new 0x67),
   (f17, Scancode.new 0x68), (f18, Scancode.new 0x69), (f19, Scancode.new 0x6A),
   (f20, Scancode.new 0x6B), (volumeUp, Scancode.ext 0x30), (volumeDown, Scancode.ext 0x2E),
   (mute, Scancode.ext 0x20), (contextualMenu, Scancode.ext 0x5D), (help, Scancode.ext 0x52),
   (home, Scancode.ext 0x47), (pageUp, Scancode.ext 0x49), (forwardDelete, Scancode.ext 0x53),
   (endKey, Scancode.ext 0x4F), (pageDown, Scancode.ext 0x51), (leftArrow, Scancode.ext 0x4B),
   (rightArrow, Scancode.ext 0x4D), (downArrow, Scancode.ext 0x50), (upArrow, Scancode.ext 0x48),
   (isoSection, Scancode.new 0x56), (jisYen, Scancode.new 0x7D),
   (jisUnderscore, Scancode.new 0x73), (jisKeypadComma, Scancode.new 0x7E),
   (jisEisu, Scancode.new 0x71), (jisKana, Scancode.new 0x72)]

/-- The keyboard-type-independent part of the mapping (ANSI positions). -/
def baseScancode (code : UInt16) : Option Scancode := baseScancodes.lookup code

/-- Maps a `kVK_*` code to its set-1 scancode. An ISO keyboard reports the key left of `1` and the
key right of left Shift swapped, and the Command keys follow the preference. -/
def scancodeFor (code : UInt16) (keyboard : KeyboardType) (cmdAs : CmdAs) : Option Scancode :=
  if code = kvk.isoSection ∧ keyboard = .iso then some (.new 0x29)
  else if code = kvk.ansiGrave ∧ keyboard = .iso then some (.new 0x56)
  else if code = kvk.command then
    match cmdAs with
    | .super => some (.ext 0x5B)
    | .ctrl => some (.new 0x1D)
  else if code = kvk.rightCommand then
    match cmdAs with
    | .super => some (.ext 0x5C)
    | .ctrl => some (.ext 0x1D)
  else baseScancode code

/-- The keys that arrive through `flagsChanged:`. -/
def isModifier (code : UInt16) : Bool :=
  code ∈ [kvk.shift, kvk.rightShift, kvk.control, kvk.rightControl, kvk.option, kvk.rightOption,
    kvk.command, kvk.rightCommand, kvk.capsLock, kvk.function]

/-- The keys whose job is to produce text; every other key always goes as a scancode. -/
def isTextKey (code : UInt16) : Bool :=
  if code ≤ kvk.ansiPeriod then code ≠ kvk.returnKey
  else
    code ∈ [kvk.space, kvk.ansiGrave, kvk.ansiKeypadDecimal, kvk.ansiKeypadMultiply,
      kvk.ansiKeypadPlus, kvk.ansiKeypadDivide, kvk.ansiKeypadMinus] ∨
    (kvk.ansiKeypadEquals ≤ code ∧ code ≤ kvk.ansiKeypad7) ∨
    code ∈ [kvk.ansiKeypad8, kvk.ansiKeypad9, kvk.jisYen, kvk.jisUnderscore, kvk.jisKeypadComma]

/-! ### Range of the table -/

private theorem baseScancodes_lt : ∀ entry ∈ baseScancodes, entry.1 < 128 := by
  decide

theorem lt_of_scancodeFor {code : UInt16} {keyboard : KeyboardType} {cmdAs : CmdAs}
    (h : scancodeFor code keyboard cmdAs ≠ none) : code < 128 := by
  unfold scancodeFor at h
  split at h
  · next hcode => rw [hcode.1]; decide
  split at h
  · next hcode => rw [hcode.1]; decide
  split at h
  · next hcode => rw [hcode]; decide
  split at h
  · next hcode => rw [hcode]; decide
  obtain ⟨sc, hsc⟩ := Option.ne_none_iff_exists'.mp h
  obtain ⟨l₁, l₂, hsplit, _⟩ := List.lookup_eq_some_iff.mp hsc
  exact baseScancodes_lt (code, sc) (by simp [hsplit])

end Drift.Input
