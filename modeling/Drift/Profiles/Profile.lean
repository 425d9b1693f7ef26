import Drift.App.View
import Drift.Clipboard.Formats
import Drift.Profiles.Address

/-!
# Profiles

A saved connection, what makes it valid, the text form of its certificate pin, and the roles of its
passwords, which are not part of it.
-/

namespace Drift.Profiles

open App (Uuid)
open Clipboard (ClipboardPrefs)
open Input (KeyboardPrefs isControl)
open Rdp (ConnectMode DisplayPrefs)

/-! ### Fingerprints -/

abbrev CertFingerprint := Vector UInt8 32

def hexDigit (n : Nat) : Char := Char.ofNat (if n < 10 then '0'.toNat + n else 'a'.toNat + (n - 10))

namespace CertFingerprint

/-- `Display`: lowercase hex pairs separated by colons. -/
def display (fingerprint : CertFingerprint) : List Char :=
  [':'].intercalate (fingerprint.toList.map fun b =>
    [hexDigit (b.toNat / 16), hexDigit (b.toNat % 16)])

/-- One part of the text form, two hex digits of either case. -/
def parsePart : List Char → Option UInt8
  | [high, low] => do
    let h ← toDigit 16 high
    let l ← toDigit 16 low
    return (h * 16 + l).toUInt8
  | _ => none

/-- `FromStr`: exactly 32 parts, with spaces around them. -/
def parse (text : List Char) : Option CertFingerprint :=
  (((trim text).splitOn ':').mapM parsePart).bind fun bytes =>
    if h : bytes.length = 32 then some ⟨bytes.toArray, by simpa using h⟩ else none

end CertFingerprint

theorem trim_eq_self {text : List Char} (h : ∀ c ∈ text, isWhitespace c = false) :
    trim text = text := by
  have hfront : text.dropWhile isWhitespace = text := by
    cases text with
    | nil => rfl
    | cons c rest => rw [List.dropWhile_cons_of_neg (by simp [h c List.mem_cons_self])]
  unfold trim
  rw [hfront, List.rdropWhile_eq_self_iff]
  exact fun hne => by simp [h _ (List.getLast_mem hne)]

theorem mem_intercalate {c : Char} {parts : List (List Char)} (h : c ∈ [':'].intercalate parts) :
    c = ':' ∨ ∃ part ∈ parts, c ∈ part := by
  induction parts with
  | nil => simp [List.intercalate] at h
  | cons part parts ih =>
      cases parts with
      | nil => exact .inr ⟨part, List.mem_cons_self, by simpa [List.intercalate] using h⟩
      | cons next parts =>
          have hmem : c ∈ part ∨ c = ':' ∨ c ∈ [':'].intercalate (next :: parts) := by
            simpa [List.intercalate] using h
          rcases hmem with hpart | hcolon | hrest
          · exact .inr ⟨part, List.mem_cons_self, hpart⟩
          · exact .inl hcolon
          · rcases ih hrest with hcolon | ⟨other, hother, hc⟩
            · exact .inl hcolon
            · exact .inr ⟨other, List.mem_cons_of_mem part hother, hc⟩

theorem toDigit_hexDigit {n : Nat} (h : n < 16) : toDigit 16 (hexDigit n) = some n ∧
    hexDigit n ≠ ':' ∧ isWhitespace (hexDigit n) = false := by
  have hall : ∀ m : Fin 16, toDigit 16 (hexDigit m) = some m.val ∧ hexDigit m ≠ ':' ∧
      isWhitespace (hexDigit m) = false := by decide
  exact hall ⟨n, h⟩

theorem parsePart_hex (b : UInt8) :
    CertFingerprint.parsePart [hexDigit (b.toNat / 16), hexDigit (b.toNat % 16)] = some b := by
  have hlt : b.toNat < 256 := b.toNat_lt
  have hhigh : b.toNat / 16 < 16 := by omega
  have hlow : b.toNat % 16 < 16 := Nat.mod_lt _ (by omega)
  simp only [CertFingerprint.parsePart, (toDigit_hexDigit hhigh).1, (toDigit_hexDigit hlow).1,
    Option.bind_eq_bind, Option.bind_some, Option.pure_def]
  have hvalue : b.toNat / 16 * 16 + b.toNat % 16 = b.toNat := Nat.div_add_mod' ..
  rw [hvalue]
  simp

theorem parse_display (fingerprint : CertFingerprint) :
    CertFingerprint.parse fingerprint.display = some fingerprint := by
  have hpart : ∀ b : UInt8, ∀ c ∈ [hexDigit (b.toNat / 16), hexDigit (b.toNat % 16)],
      c ≠ ':' ∧ isWhitespace c = false := by
    intro b c hc
    have hlt : b.toNat < 256 := b.toNat_lt
    have hhigh : b.toNat / 16 < 16 := by omega
    have hlow : b.toNat % 16 < 16 := Nat.mod_lt _ (by omega)
    rcases List.mem_pair.mp hc with rfl | rfl
    · exact (toDigit_hexDigit hhigh).2
    · exact (toDigit_hexDigit hlow).2
  have htrim : trim fingerprint.display = fingerprint.display := by
    refine trim_eq_self fun c hc => ?_
    rcases mem_intercalate hc with rfl | ⟨part, hmem, hc⟩
    · decide
    · obtain ⟨b, -, rfl⟩ := List.mem_map.mp hmem
      exact (hpart b c hc).2
  have hsplit : fingerprint.display.splitOn ':' = fingerprint.toList.map fun b =>
      [hexDigit (b.toNat / 16), hexDigit (b.toNat % 16)] := by
    refine List.splitOn_intercalate ':' (fun part hmem hc => ?_) ?_
    · obtain ⟨b, -, rfl⟩ := List.mem_map.mp hmem
      exact (hpart b _ hc).1 rfl
    · intro hnil
      have hlength := congrArg List.length hnil
      simp at hlength
  unfold CertFingerprint.parse
  rw [htrim, hsplit]
  have hbytes : ∀ bytes : List UInt8, (bytes.map fun b =>
      [hexDigit (b.toNat / 16), hexDigit (b.toNat % 16)]).mapM CertFingerprint.parsePart =
        some bytes := by
    intro bytes
    induction bytes with
    | nil => rfl
    | cons b bytes ih =>
        rw [List.map_cons, List.mapM_cons, parsePart_hex, ih]
        rfl
  rw [hbytes, Option.bind_some, dif_pos (by simp)]
  refine congrArg some (Vector.toArray_inj.mp ?_)
  exact Array.toArray_toList

/-! ### Profiles -/

structure ConnectionProfile where
  id : Uuid
  name : String
  host : String
  port : UInt16
  mode : ConnectMode
  rdpUsername : String
  linuxUsername : Option String
  certPin : Option CertFingerprint
  keyboard : KeyboardPrefs
  display : DisplayPrefs
  clipboard : ClipboardPrefs
  deriving DecidableEq

def maxNameChars : Nat := 64

def maxUsernameChars : Nat := 256

inductive ProfileField where
  | name
  | host
  | port
  | rdpUsername
  | linuxUsername
  deriving DecidableEq

inductive ProfileProblem where
  | empty
  | tooLong
  | surroundingWhitespace
  | invalidCharacters
  | invalidHost
  | portInHost
  | schemeInHost
  | invalidPort
  | notApplicable
  deriving DecidableEq

structure ProfileIssue where
  field : ProfileField
  problem : ProfileProblem
  message : String
  deriving DecidableEq

def fieldLabel : ProfileField → String
  | .name => "Name"
  | .host => "Host"
  | .port => "Port"
  | .rdpUsername => "RDP user name"
  | .linuxUsername => "Linux user name"

def maxLength : ProfileField → Nat
  | .name => maxNameChars
  | .host => maxHostLen
  | _ => maxUsernameChars

def issueMessage (field : ProfileField) (problem : ProfileProblem) : String :=
  let label := fieldLabel field
  match problem with
  | .empty => label ++ " is required."
  | .tooLong => label ++ " must be at most " ++ toString (maxLength field) ++ " characters."
  | .surroundingWhitespace => label ++ " must not start or end with a space."
  | .invalidCharacters => label ++ " contains characters that are not allowed."
  | .invalidHost => "Enter a host name (gnome.local) or an IP address (192.168.1.20 or fe80::1)."
  | .portInHost => "Put the port number in the Port field, not in the host."
  | .schemeInHost => "Enter just the host name, without rdp:// or another prefix."
  | .invalidPort => "Port must be between 1 and 65535."
  | .notApplicable => label ++ " only applies to Remote Login profiles."

def ProfileIssue.new (field : ProfileField) (problem : ProfileProblem) : ProfileIssue where
  field := field
  problem := problem
  message := issueMessage field problem

/-- Required text without surrounding space or control characters. -/
def checkText (value : String) (maxChars : Nat) : Option ProfileProblem :=
  let text := value.toList
  if (trim text).isEmpty then some .empty
  else if maxChars < text.length then some .tooLong
  else if text.any isControl then some .invalidCharacters
  else if trim text ≠ text then some .surroundingWhitespace
  else none

def checkHost (host : String) : Option ProfileProblem :=
  let text := host.toList
  if (trim text).isEmpty then some .empty
  else if trim text ≠ text then some .surroundingWhitespace
  else if maxHostLen < byteLength text then some .tooLong
  else if text.tails.any ("://".toList.isPrefixOf ·) then some .schemeInHost
  else if isIpv4 text || isIpv6 text then none
  else if (rsplitOnce ':' text).any fun (name, port) =>
      !port.isEmpty && port.all isAsciiDigit &&
        (isDnsName name || isIpv4 name || isBracketedV6 name) then
    some .portInHost
  else if isDnsName text then none
  else some .invalidHost

def checkLinuxUsername (mode : ConnectMode) (user : Option String) : Option ProfileProblem :=
  user.bind fun user =>
    if mode ≠ .remoteLogin then some .notApplicable
    else
      match checkText user maxUsernameChars with
      | some problem => some problem
      | none =>
        let bad := fun c => isWhitespace c || c = ':' || c = '/' || c = ','
        if user.toList.any bad || user.toList.head? = some '-' then some .invalidCharacters else none

/-- Every problem of a profile, in field order. -/
def validate (profile : ConnectionProfile) : Except (List ProfileIssue) Unit :=
  let checks : List (ProfileField × Option ProfileProblem) :=
    [(.name, checkText profile.name maxNameChars),
      (.host, checkHost profile.host),
      (.port, if profile.port = 0 then some .invalidPort else none),
      (.rdpUsername, checkText profile.rdpUsername maxUsernameChars),
      (.linuxUsername, checkLinuxUsername profile.mode profile.linuxUsername)]
  let issues := checks.filterMap fun (field, problem) => problem.map (ProfileIssue.new field)
  if issues.isEmpty then .ok () else .error issues

/-! ### Passwords -/

inductive SecretRole where
  | rdpSystem
  | rdpUser
  | linuxLogin
  deriving DecidableEq

/-- The role that holds the RDP password of a mode. -/
def SecretRole.rdpFor : ConnectMode → SecretRole
  | .remoteLogin => .rdpSystem
  | .headless | .desktopSharing => .rdpUser

end Drift.Profiles
