import Drift.Input.Keymap
import Mathlib.Data.Fintype.Basic

/-!
# Modifier flags

`flagsChanged:` gives the new flags word and the key code that changed. `heldModifiers` computes
the set of modifier keys held from it: the device-independent bit of a class decides whether the
class is held at all, the device-dependent bits which side, and a word without device bits is
resolved by the changed key, then by the keys held before, then to the left side.
-/

namespace Drift.Input

/-- Raw `NSEventModifierFlags`. -/
structure ModifierFlags where
  bits : UInt64
  deriving DecidableEq

namespace ModifierFlags

abbrev capsLockMask : UInt64 := 0x10000
abbrev shiftMask : UInt64 := 0x20000
abbrev controlMask : UInt64 := 0x40000
abbrev optionMask : UInt64 := 0x80000
abbrev commandMask : UInt64 := 0x100000

abbrev deviceLeftControl : UInt64 := 0x0001
abbrev deviceLeftShift : UInt64 := 0x0002
abbrev deviceRightShift : UInt64 := 0x0004
abbrev deviceLeftCommand : UInt64 := 0x0008
abbrev deviceRightCommand : UInt64 := 0x0010
abbrev deviceLeftOption : UInt64 := 0x0020
abbrev deviceRightOption : UInt64 := 0x0040
abbrev deviceRightControl : UInt64 := 0x2000

def contains (flags : ModifierFlags) (mask : UInt64) : Bool := flags.bits &&& mask = mask

def capsLock (flags : ModifierFlags) : Bool := flags.contains capsLockMask

def command (flags : ModifierFlags) : Bool := flags.contains commandMask

def control (flags : ModifierFlags) : Bool := flags.contains controlMask

def shift (flags : ModifierFlags) : Bool := flags.contains shiftMask

def option (flags : ModifierFlags) : Bool := flags.contains optionMask

end ModifierFlags

/-- One side-specific modifier key. -/
inductive ModifierKey where
  | leftShift
  | rightShift
  | leftControl
  | rightControl
  | leftOption
  | rightOption
  | leftCommand
  | rightCommand
  deriving DecidableEq

namespace ModifierKey

/-- All modifier keys, in the order their transitions are emitted. -/
def all : List ModifierKey :=
  [leftShift, rightShift, leftControl, rightControl, leftOption, rightOption, leftCommand,
    rightCommand]

def kvk : ModifierKey → UInt16
  | leftShift => Input.kvk.shift
  | rightShift => Input.kvk.rightShift
  | leftControl => Input.kvk.control
  | rightControl => Input.kvk.rightControl
  | leftOption => Input.kvk.option
  | rightOption => Input.kvk.rightOption
  | leftCommand => Input.kvk.command
  | rightCommand => Input.kvk.rightCommand

/-- The modifier key of a `kVK_*` code, if it is one. -/
def fromKvk (code : UInt16) : Option ModifierKey := all.find? fun m => m.kvk = code

def isCommand : ModifierKey → Bool
  | leftCommand => true
  | rightCommand => true
  | _ => false

@[simp]
theorem mem_all (key : ModifierKey) : key ∈ all := by
  cases key <;> decide

theorem all_nodup : all.Nodup := by decide

instance : Fintype ModifierKey := ⟨⟨all, all_nodup⟩, mem_all⟩

/-- Every modifier key has a scancode, whatever the keyboard and the preferences. -/
theorem exists_scancodeFor (key : ModifierKey) (keyboard : KeyboardType) (cmdAs : CmdAs) :
    ∃ sc, scancodeFor key.kvk keyboard cmdAs = some sc := by
  refine Option.isSome_iff_exists.mp ?_
  cases key <;> cases keyboard <;> cases cmdAs <;> decide

end ModifierKey

/-- A set of held modifier keys; the source keeps it as eight bits. -/
abbrev ModifierSet := Finset ModifierKey

namespace ModifierSet

/-- The held keys in the order of `ModifierKey.all`. -/
def iter (held : ModifierSet) : List ModifierKey := ModifierKey.all.filter (· ∈ held)

@[simp]
theorem mem_iter {held : ModifierSet} {key : ModifierKey} : key ∈ held.iter ↔ key ∈ held := by
  simp [iter]

theorem iter_nodup (held : ModifierSet) : held.iter.Nodup := ModifierKey.all_nodup.filter _

end ModifierSet

/-- A modifier class: its device-independent bit and the key and device bit of each side. -/
structure ModifierClass where
  classBit : UInt64
  left : ModifierKey
  leftBit : UInt64
  right : ModifierKey
  rightBit : UInt64

open ModifierFlags in
def modifierClasses : List ModifierClass :=
  [⟨shiftMask, .leftShift, deviceLeftShift, .rightShift, deviceRightShift⟩,
   ⟨controlMask, .leftControl, deviceLeftControl, .rightControl, deviceRightControl⟩,
   ⟨optionMask, .leftOption, deviceLeftOption, .rightOption, deviceRightOption⟩,
   ⟨commandMask, .leftCommand, deviceLeftCommand, .rightCommand, deviceRightCommand⟩]

/-- One class of `heldModifiers`: the keys of the class that are held, added to `held`. -/
def ModifierClass.addHeld (cls : ModifierClass) (flags : ModifierFlags)
    (changed : Option ModifierKey) (previous held : ModifierSet) : ModifierSet :=
  if !flags.contains cls.classBit then held
  else
    let l := flags.contains cls.leftBit
    let r := flags.contains cls.rightBit
    if l || r then
      let held := if l then insert cls.left held else held
      if r then insert cls.right held else held
    else
      match changed.filter fun k => k = cls.left ∨ k = cls.right with
      | some key => insert key held
      | none =>
        if cls.left ∈ previous ∨ cls.right ∈ previous then
          let held := if cls.left ∈ previous then insert cls.left held else held
          if cls.right ∈ previous then insert cls.right held else held
        else insert cls.left held

/-- The modifier keys held according to one flags word. -/
def heldModifiers (flags : ModifierFlags) (changedKvk : Option UInt16) (previous : ModifierSet) :
    ModifierSet :=
  let changed := changedKvk.bind ModifierKey.fromKvk
  modifierClasses.foldl (fun held cls => cls.addHeld flags changed previous held) ∅

/-- The flags carry the bit of no modifier class. -/
def ModifierFlags.NoClass (flags : ModifierFlags) : Prop :=
  flags.shift = false ∧ flags.control = false ∧ flags.option = false ∧ flags.command = false

/-- Without a class bit nothing is held, whatever the device bits say. -/
theorem heldModifiers_of_noClass {flags : ModifierFlags} (hflags : flags.NoClass)
    (changedKvk : Option UInt16) (previous : ModifierSet) :
    heldModifiers flags changedKvk previous = ∅ := by
  obtain ⟨hshift, hcontrol, hoption, hcommand⟩ := hflags
  simp only [ModifierFlags.shift, ModifierFlags.control, ModifierFlags.option,
    ModifierFlags.command] at hshift hcontrol hoption hcommand
  simp [heldModifiers, modifierClasses, ModifierClass.addHeld, hshift, hcontrol, hoption, hcommand]

end Drift.Input
