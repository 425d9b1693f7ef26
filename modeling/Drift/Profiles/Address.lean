import Mathlib.Algebra.Ring.Nat
import Mathlib.Data.List.DropRight

/-!
# Hosts

What a host may be: an IPv4 or IPv6 address in the notation of `std::net`, of which only the validity
matters, or a host name of RFC 1123.
-/

namespace Drift.Profiles

/-- `char::is_whitespace`: the Unicode property White_Space. -/
def isWhitespace (c : Char) : Bool :=
  let n := c.toNat
  (0x9 ≤ n ∧ n ≤ 0xD) ∨ (0x2000 ≤ n ∧ n ≤ 0x200A) ∨
    n ∈ [0x20, 0x85, 0xA0, 0x1680, 0x2028, 0x2029, 0x202F, 0x205F, 0x3000]

/-- `str::trim`. -/
def trim (text : List Char) : List Char := (text.dropWhile isWhitespace).rdropWhile isWhitespace

/-- `str::len`: the length in UTF-8 bytes. -/
def byteLength (text : List Char) : Nat := (text.map Char.utf8Size).sum

def isAsciiDigit (c : Char) : Bool := '0' ≤ c ∧ c ≤ '9'

def isAsciiAlphanumeric (c : Char) : Bool :=
  isAsciiDigit c || ('a' ≤ c ∧ c ≤ 'z') || ('A' ≤ c ∧ c ≤ 'Z')

/-- `char::to_digit`, for a radix up to sixteen. -/
def toDigit (radix : Nat) (c : Char) : Option Nat :=
  let digit :=
    if isAsciiDigit c then some (c.toNat - '0'.toNat)
    else if 'a' ≤ c ∧ c ≤ 'f' then some (c.toNat - 'a'.toNat + 10)
    else if 'A' ≤ c ∧ c ≤ 'F' then some (c.toNat - 'A'.toNat + 10)
    else none
  digit.filter (· < radix)

/-! ### Addresses

The readers give what is left of the text. -/

/-- The separator before all items but the first. -/
def readSeparator (separator : Char) (index : Nat) (text : List Char) : Option (List Char) :=
  if index = 0 then some text
  else
    match text with
    | [] => none
    | c :: rest => if c = separator then some rest else none

/-- A number of at most `maxDigits` digits up to `max`. -/
def readNumber (radix maxDigits max : Nat) (allowZeroPrefix : Bool) (text : List Char) :
    Option (List Char) :=
  let digits := text.takeWhile fun c => (toDigit radix c).isSome
  let value := digits.foldl (fun n c => n * radix + (toDigit radix c).getD 0) 0
  if digits.length > maxDigits ∨ digits.isEmpty ∨ max < value then none
  else if !allowZeroPrefix && text.head? = some '0' && 1 < digits.length then none
  else some (text.drop digits.length)

def readIpv4 (text : List Char) : Option (List Char) :=
  (List.range 4).foldlM (fun rest i =>
    (readSeparator '.' i rest).bind (readNumber 10 3 0xFF false)) text

/-- Up to `limit` groups from the `index`-th, with the number of groups read and whether an IPv4 address
ended them. -/
def readGroups (index : Nat) : Nat → List Char → Nat × Bool × List Char
  | 0, text => (index, false, text)
  | left + 1, text =>
    -- An embedded address takes the place of two groups.
    let embedded := if left = 0 then none else (readSeparator ':' index text).bind readIpv4
    match embedded with
    | some rest => (index + 2, true, rest)
    | none =>
      match (readSeparator ':' index text).bind (readNumber 16 4 0xFFFF true) with
      | some rest => readGroups (index + 1) left rest
      | none => (index, false, text)

def isIpv4 (text : List Char) : Bool :=
  text.length ≤ 15 && (readIpv4 text).any List.isEmpty

def isIpv6 (text : List Char) : Bool :=
  let (headSize, headIpv4, rest) := readGroups 0 8 text
  if headSize = 8 then rest.isEmpty
  else if headIpv4 then false
  else
    match rest with
    | ':' :: ':' :: rest => (readGroups 0 (8 - (headSize + 1)) rest).2.2.isEmpty
    | _ => false

/-! ### Names -/

def maxHostLen : Nat := 253

def isBracketedV6 (text : List Char) : Bool :=
  match text with
  | '[' :: rest => rest.getLast? = some ']' && isIpv6 rest.dropLast
  | _ => false

/-- A host name of dot-separated labels, with one trailing dot allowed, and not purely numeric. -/
def isDnsName (text : List Char) : Bool :=
  let text := if text.getLast? = some '.' then text.dropLast else text
  if text.isEmpty || maxHostLen < byteLength text then false
  else
    (text.splitOn '.').all (fun label =>
      !label.isEmpty && byteLength label ≤ 63 && label.head? ≠ some '-' &&
        label.getLast? ≠ some '-' && label.all fun c => isAsciiAlphanumeric c || c = '-') &&
      !text.all fun c => isAsciiDigit c || c = '.'

/-- `str::rsplit_once`: the text before and after the last separator. -/
def rsplitOnce (separator : Char) (text : List Char) : Option (List Char × List Char) :=
  if separator ∈ text then
    let after := text.rtakeWhile (· ≠ separator)
    some (text.take (text.length - after.length - 1), after)
  else none

example : isIpv6 "fe80::1".toList ∧ isIpv6 "::ffff:10.0.0.1".toList ∧ isIpv4 "192.168.1.20".toList ∧
    ¬ isIpv4 "192.168.01.20".toList ∧ ¬ isIpv6 "fe80::1%en0".toList := by
  decide

end Drift.Profiles
