import Drift.Input.Modifiers

/-!
# Typing with the local layout

With the local layout in force, keys that produce text are handed to the text input system and come
back as text; the text goes out as one press and release for every UTF-16 code unit.
-/

namespace Drift.Input

/-- Where a `keyDown:` goes. -/
inductive KeyRoute where
  | scancode
  | text
  deriving DecidableEq

/-- Routes one `keyDown:`; `composing` says that an input method composition is in progress. -/
def routeKeyDown (prefs : KeyboardPrefs) (code : UInt16) (flags : ModifierFlags)
    (composing : Bool) : KeyRoute :=
  if !prefs.typeWithMacLayout || flags.command || flags.control then .scancode
  else if composing || isTextKey code then .text
  else .scancode

/-- `char::is_control`: the general category Cc. -/
def isControl (c : Char) : Bool := c.toNat ≤ 0x1F ∨ (0x7F ≤ c.toNat ∧ c.toNat ≤ 0x9F)

/-- The UTF-16 code units of a character: one, or a surrogate pair outside the BMP. -/
def encodeUtf16 (c : Char) : List UInt16 :=
  let code := c.toNat
  if code < 0x10000 then [code.toUInt16]
  else
    let offset := code - 0x10000
    [(0xD800 + offset / 0x400).toUInt16, (0xDC00 + offset % 0x400).toUInt16]

/-- The characters of a committed text that are sent: control characters and the AppKit
function-key range are dropped. -/
def sentChars (text : String) : List Char :=
  text.toList.filter fun c => !isControl c && !(0xF700 ≤ c.toNat && c.toNat ≤ 0xF8FF)

def textToEvents (text : String) : List InputEvent :=
  (sentChars text).flatMap fun c =>
    (encodeUtf16 c).flatMap fun unit => [.unicode unit true, .unicode unit false]

theorem eq_unicode_of_mem_textToEvents {text : String} {e : InputEvent}
    (h : e ∈ textToEvents text) : ∃ ch down, e = .unicode ch down := by
  obtain ⟨c, _, hc⟩ := List.mem_flatMap.mp h
  obtain ⟨unit, _, hunit⟩ := List.mem_flatMap.mp hc
  rcases List.mem_pair.mp hunit with rfl | rfl
  · exact ⟨unit, true, rfl⟩
  · exact ⟨unit, false, rfl⟩

end Drift.Input
