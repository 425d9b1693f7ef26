import Drift.Profiles.Store
import Drift.Lib.Transition

/-!
# The profile service

The saved profiles in memory and in `profiles.toml`, and their passwords in the secret store. A call works
on a copy of the store, which takes the place of the store once the file is written. The file is replaced
by renaming a temporary one, so a step that fails leaves it as it was. The secret store never fails here.
-/

namespace Drift.Profiles

open App (Uuid)
open Rdp (ConnectMode)

/-- What the profile calls fail with. -/
inductive CommandError where
  | invalid (issues : List ProfileIssue)
  | notFound
  | storage (message : String)
  deriving DecidableEq

def hyphenated (id : Uuid) : String :=
  let hex := id.toHex.toList
  String.ofList (['-'].intercalate
    [hex.take 8, (hex.drop 8).take 4, (hex.drop 12).take 4, (hex.drop 16).take 4, hex.drop 20])

def StoreError.toCommand : StoreError → CommandError
  | .invalid issues => .invalid issues
  | .notFound _ => .notFound
  | .parse detail => .storage ("profiles file is not valid: " ++ detail)
  | .unsupportedVersion found =>
    .storage ("profiles file version " ++ toString found ++ " is newer than supported version " ++
      toString storeVersion)
  | .duplicateId id =>
    .storage ("profiles file contains the id " ++ hyphenated id ++ " more than once")
  | .serialize detail => .storage ("could not serialize profiles: " ++ detail)

/-! ### The file -/

/-- The step of a write that fails, with the text of the error. -/
inductive WriteFailure where
  | createDir (e : String)
  | write (e : String)
  | rename (e : String)

/-- `profiles.toml` in a directory, with its text if it exists. -/
structure ProfileFile where
  dir : String
  text : Option String

namespace ProfileFile

def path (file : ProfileFile) : String := file.dir ++ "/profiles.toml"

def load (toml : Toml) (file : ProfileFile) : Except CommandError ProfileStore :=
  match file.text with
  | none => .ok .new
  | some text => (ProfileStore.fromToml toml text).mapError StoreError.toCommand

def save (toml : Toml) (failure : Option WriteFailure) (file : ProfileFile) (store : ProfileStore) :
    Except CommandError ProfileFile :=
  match store.toToml toml with
  | .error e => .error e.toCommand
  | .ok text =>
    match failure with
    | some (.createDir e) => .error (.storage ("creating " ++ file.dir ++ ": " ++ e))
    | some (.write e) => .error (.storage ("writing " ++ file.path ++ ".tmp: " ++ e))
    | some (.rename e) => .error (.storage ("replacing " ++ file.path ++ ": " ++ e))
    | none => .ok { file with text := some text }

end ProfileFile

/-! ### Passwords -/

abbrev SecretStore := Uuid → SecretRole → Option String

namespace SecretStore

def set (secrets : SecretStore) (id : Uuid) (role : SecretRole) (secret : String) : SecretStore :=
  Function.update secrets id (Function.update (secrets id) role (some secret))

def delete (secrets : SecretStore) (id : Uuid) (role : SecretRole) : SecretStore :=
  Function.update secrets id (Function.update (secrets id) role none)

end SecretStore

inductive LinuxPasswordUpdate where
  | keep
  | store (password : String)
  | forget
  deriving DecidableEq

/-- The password changes that come with a profile; an empty password means unchanged. -/
structure SecretsUpdate where
  rdpPassword : Option String
  linuxPassword : LinuxPasswordUpdate
  deriving DecidableEq

/-- The new RDP password, or the stored one under the role of the mode. -/
def applyRdpPassword (secrets : SecretStore) (id : Uuid) (role : SecretRole)
    (oldRole : Option SecretRole) (password : Option String) : SecretStore :=
  match password.filter (· ≠ "") with
  | some pw => secrets.set id role pw
  | none =>
    match oldRole.filter (· ≠ role) with
    | none => secrets
    | some old =>
      match secrets id old with
      | none => secrets
      | some pw => secrets.set id role pw

/-- The password under the role of another mode goes away. -/
def deleteOldRole (secrets : SecretStore) (id : Uuid) (role : SecretRole)
    (oldRole : Option SecretRole) : SecretStore :=
  match oldRole.filter (· ≠ role) with
  | some old => secrets.delete id old
  | none => secrets

def applyLinuxPassword (secrets : SecretStore) (id : Uuid) (mode : ConnectMode)
    (update : LinuxPasswordUpdate) : SecretStore :=
  if mode ≠ .remoteLogin then secrets.delete id .linuxLogin
  else
    match update with
    | .keep => secrets
    | .store pw => if pw = "" then secrets else secrets.set id .linuxLogin pw
    | .forget => secrets.delete id .linuxLogin

def applySecrets (secrets : SecretStore) (profile : ConnectionProfile)
    (previous : Option ConnectionProfile) (update : SecretsUpdate) : SecretStore :=
  let id := profile.id
  let role := SecretRole.rdpFor profile.mode
  let oldRole := previous.map fun p => SecretRole.rdpFor p.mode
  let secrets := applyRdpPassword secrets id role oldRole update.rdpPassword
  let secrets := deleteOldRole secrets id role oldRole
  applyLinuxPassword secrets id profile.mode update.linuxPassword

/-! ### The service -/

/-- A profile and which passwords are stored for it. -/
structure ProfileEntry where
  profile : ConnectionProfile
  hasRdpPassword : Bool
  hasLinuxPassword : Bool

structure ProfileService where
  file : ProfileFile
  secrets : SecretStore
  store : ProfileStore

namespace ProfileService

def «open» (toml : Toml) (file : ProfileFile) (secrets : SecretStore) :
    Except CommandError ProfileService :=
  (file.load toml).map fun store => ⟨file, secrets, store⟩

/-- The service of a directory without a file, with no passwords. -/
def empty (dir : String) : ProfileService := ⟨⟨dir, none⟩, fun _ _ => none, .new⟩

theorem open_missing (toml : Toml) (dir : String) :
    «open» toml ⟨dir, none⟩ (fun _ _ => none) = .ok (empty dir) := rfl

def entry (s : ProfileService) (profile : ConnectionProfile) : ProfileEntry where
  profile := profile
  hasRdpPassword := (s.secrets profile.id (SecretRole.rdpFor profile.mode)).isSome
  hasLinuxPassword :=
    profile.mode = .remoteLogin && (s.secrets profile.id .linuxLogin).isSome

def list (lowercase : String → String) (s : ProfileService) : List ProfileEntry :=
  (s.store.sorted lowercase).map s.entry

def get (s : ProfileService) (id : Uuid) : Except CommandError ProfileEntry :=
  match s.store.get id with
  | none => .error .notFound
  | some p => .ok (s.entry p)

variable (toml : Toml) (failure : Option WriteFailure)

/-- The service with a store that was written. -/
def replace (s : ProfileService) (next : Except StoreError ProfileStore) :
    Except CommandError ProfileService :=
  match next with
  | .error e => .error e.toCommand
  | .ok next => (s.file.save toml failure next).map fun file => { s with file := file, store := next }

variable {toml failure} in
theorem replace_eq_ok {s saved : ProfileService} {next : Except StoreError ProfileStore} :
    s.replace toml failure next = .ok saved ↔
      failure = none ∧ ∃ store text, next = .ok store ∧ store.toToml toml = .ok text ∧
        saved = { s with file := { s.file with text := some text }, store := store } := by
  unfold replace
  cases next with
  | error e => simp
  | ok store =>
      simp only [ProfileFile.save]
      cases htext : store.toToml toml with
      | error e => simp [Except.map, htext]
      | ok text =>
          cases failure with
          | some f => cases f <;> simp [Except.map]
          | none => simp [Except.map, htext, eq_comm]

/-- Validates and saves a profile and applies the password changes. -/
def save (s : ProfileService) (profile : ConnectionProfile) (update : SecretsUpdate) :
    ProfileService × Except CommandError ProfileEntry :=
  match s.replace toml failure ((s.store.upsert profile).map Prod.fst) with
  | .error e => (s, .error e)
  | .ok saved =>
    let saved :=
      { saved with
        secrets := applySecrets saved.secrets profile (s.store.get profile.id) update }
    (saved, .ok (saved.entry profile))

/-- Deletes a profile and all its passwords. -/
def delete (s : ProfileService) (id : Uuid) : ProfileService × Except CommandError Unit :=
  match s.replace toml failure (s.store.remove id) with
  | .error e => (s, .error e)
  | .ok saved =>
    ({ saved with
        secrets := [SecretRole.rdpSystem, .rdpUser, .linuxLogin].foldl
          (fun secrets role => secrets.delete id role) saved.secrets }, .ok ())

/-- Copies a profile with its passwords and without its pin, under a new id. -/
def duplicate (s : ProfileService) (id fresh : Uuid) :
    ProfileService × Except CommandError ProfileEntry :=
  match s.store.get id with
  | none => (s, .error .notFound)
  | some p =>
    let copy : ConnectionProfile :=
      { p with
        id := fresh
        name := String.ofList (trim p.name.toList) ++ " copy"
        certPin := none }
    let linux := if p.mode = .remoteLogin then s.secrets id .linuxLogin else none
    s.save toml failure copy
      ⟨s.secrets id (SecretRole.rdpFor p.mode), linux.elim .keep .store⟩

def setPin (s : ProfileService) (id : Uuid) (pin : Option CertFingerprint) :
    ProfileService × Except CommandError Unit :=
  match s.replace toml failure (s.store.setPin id pin) with
  | .error e => (s, .error e)
  | .ok saved => (saved, .ok ())

/-- The calls that change profiles; a copy gets the id `fresh`. -/
inductive Call where
  | save (profile : ConnectionProfile) (update : SecretsUpdate)
  | delete (id : Uuid)
  | duplicate (id fresh : Uuid)
  | setPin (id : Uuid) (pin : Option CertFingerprint)

def failed {α : Type} : Except CommandError α → Option CommandError
  | .error e => some e
  | .ok _ => none

/-- The service after a call, and the error if it failed. -/
def call (s : ProfileService) : Call → ProfileService × Option CommandError
  | .save profile update =>
    let r := s.save toml failure profile update
    (r.1, failed r.2)
  | .delete id =>
    let r := s.delete toml failure id
    (r.1, failed r.2)
  | .duplicate id fresh =>
    let r := s.duplicate toml failure id fresh
    (r.1, failed r.2)
  | .setPin id pin =>
    let r := s.setPin toml failure id pin
    (r.1, failed r.2)

/-- A call, with the failure of its write if there is one. -/
def step (s : ProfileService) (i : Option WriteFailure × Call) :
    ProfileService × List (Option CommandError) :=
  let r := s.call toml i.1 i.2
  (r.1, [r.2])

end ProfileService

end Drift.Profiles
