import Drift.Core.Wire

/-!
# Readers of PDUs

What the decoders of PDUs share: a reader takes bytes from the front of a buffer, and says which field it does
not accept.
-/

namespace Drift

namespace Pdu

/-- The errors of the decoders, without the names of the decoders. -/
inductive DecodeError where
  | notEnoughBytes (received expected : Nat)
  | invalidField (field reason : String)
  | unsupportedValue (name value : String)
  deriving DecidableEq

/-- The errors of the encoders. -/
inductive EncodeError where
  | invalidField (field reason : String)
  deriving DecidableEq

theorem bind_eq_ok {α β : Type} {x : Except EncodeError α} {f : α → Except EncodeError β} {b : β}
    (h : (x >>= f) = .ok b) : ∃ a, x = .ok a ∧ f a = .ok b := by
  cases x with
  | error e => cases h
  | ok a => exact ⟨a, rfl, h⟩

end Pdu

abbrev Reader := StateT Bytes (Except Pdu.DecodeError)

namespace Reader

def source : Prefix.Source Bytes UInt8 where
  ahead bytes := bytes
  skip bytes n := bytes.drop n
  skip_zero _ := rfl
  skip_skip _ _ _ := List.drop_drop
  ahead_skip _ _ := rfl

def fail {α : Type} (e : Pdu.DecodeError) : Reader α := fun _ => .error e

def ensureSize (expected : Nat) : Reader Unit := fun c =>
  if expected ≤ c.length then .ok ((), c) else .error (.notEnoughBytes c.length expected)

/-- The next `n` bytes; that there are as many was ensured. -/
def readSlice (n : Nat) : Reader Bytes := fun c => .ok (c.take n, c.drop n)

def readU8 : Reader UInt8 := do return (← readSlice 1).headD 0

def readU16 : Reader Nat := do return ofLeBytes (← readSlice 2)

def readU32 : Reader Nat := do return ofLeBytes (← readSlice 4)

/-- What is left, which is taken. -/
def readRemaining : Reader Bytes := fun c => .ok (c, [])

/-- What is left, which stays. -/
def remaining : Reader Bytes := fun c => .ok (c, c)

/-- The reader takes just these bytes, wherever they stand, and returns `a`. -/
abbrev Takes {α : Type} (p : Reader α) (used : Bytes) (a : α) : Prop := Prefix.Reads source p used a

section Takes

variable {α β : Type} {p : Reader α} {f : α → Reader β} {used : Bytes} {a : α} {b : β}

theorem Takes.run (h : Takes p used a) (rest : Bytes) : p (used ++ rest) = .ok (a, rest) := by
  have htaken := h (used ++ rest) rest rfl
  change p (used ++ rest) = .ok (a, (used ++ rest).drop used.length) at htaken
  rwa [List.drop_left] at htaken

theorem Takes.run_all (h : Takes p used a) : p used = .ok (a, []) := by
  have htaken := h.run []
  rwa [List.append_nil] at htaken

/-- The size that is ensured is that of the bytes, or less. -/
theorem Takes.ensured {expected : Nat} (h : Takes p used a) (hsize : expected ≤ used.length) :
    Takes (do ensureSize expected; p) used a := by
  intro c rest hc
  have hlong : expected ≤ c.length := by
    change c = used ++ rest at hc
    rw [hc, List.length_append]
    omega
  have hensured : ensureSize expected c = .ok ((), c) := if_pos hlong
  rw [Prefix.bind_of_ok hensured]
  exact h c rest hc

theorem takes_readSlice {taken : Bytes} {n : Nat} (h : taken.length = n) : Takes (readSlice n) taken taken := by
  intro c rest hc
  change c = taken ++ rest at hc
  subst h hc
  change Except.ok ((taken ++ rest).take taken.length, (taken ++ rest).drop taken.length) = _
  rw [List.take_left]
  rfl

theorem takes_readU8 (byte : UInt8) : Takes readU8 [byte] byte :=
  (takes_readSlice (List.length_singleton : [byte].length = 1)).bind_nil (Prefix.Reads.pure byte)

theorem takes_readU16 {value : Nat} (h : value < 2 ^ 16) : Takes readU16 (toLeBytes 2 value) value := by
  have hvalue : ofLeBytes (toLeBytes 2 value) = value := ofLeBytes_toLeBytes h
  have htaken : Takes readU16 (toLeBytes 2 value) (ofLeBytes (toLeBytes 2 value)) :=
    (takes_readSlice (length_toLeBytes 2 value)).bind_nil (Prefix.Reads.pure _)
  rwa [hvalue] at htaken

theorem takes_readU32 {value : Nat} (h : value < 2 ^ 32) : Takes readU32 (toLeBytes 4 value) value := by
  have hvalue : ofLeBytes (toLeBytes 4 value) = value := ofLeBytes_toLeBytes h
  have htaken : Takes readU32 (toLeBytes 4 value) (ofLeBytes (toLeBytes 4 value)) :=
    (takes_readSlice (length_toLeBytes 4 value)).bind_nil (Prefix.Reads.pure _)
  rwa [hvalue] at htaken

theorem takes_then (h : Takes p used a) (f : α → Reader β) (rest : Bytes) : (p >>= f) (used ++ rest) = f a rest :=
  Prefix.bind_of_ok (h.run rest)

theorem takes_lift {x : Except Pdu.DecodeError α} (h : x = .ok a) :
    Takes (StateT.lift x) [] a := by
  subst h
  exact Prefix.Reads.pure a

/-! Parts that were written one after the other. -/

theorem takes_field {parts : List Bytes} (h : Takes p used a) (hf : Takes (f a) parts.flatten b) :
    Takes (p >>= f) (used :: parts).flatten b := by
  rw [List.flatten_cons]
  exact h.bind hf

theorem takes_done (b : β) : Takes (pure b) ([] : List Bytes).flatten b := Prefix.Reads.pure b

end Takes

theorem ensureSize_then {β : Type} {expected : Nat} {c : Bytes} (h : expected ≤ c.length) (f : Unit → Reader β) :
    (ensureSize expected >>= f) c = f () c := Prefix.bind_of_ok (if_pos h)

theorem remaining_then {β : Type} (c : Bytes) (f : Bytes → Reader β) : (remaining >>= f) c = f c c := rfl

end Reader

end Drift
