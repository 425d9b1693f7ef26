import Drift.Lib.Table
import Drift.Profiles.Profile

/-!
# The profile store

All saved profiles in insertion order, and the document they are written to. The TOML library that turns a
document into text and back is a parameter; the text form of a fingerprint is the program's own.
-/

namespace Drift.Profiles

open App (Uuid)
open Clipboard (ClipboardPrefs)
open Input (KeyboardPrefs)
open Rdp (ConnectMode DisplayPrefs)

def storeVersion : UInt32 := 1

inductive StoreError where
  | parse (detail : String)
  | unsupportedVersion (found : UInt32)
  | duplicateId (id : Uuid)
  | serialize (detail : String)
  | invalid (issues : List ProfileIssue)
  | notFound (id : Uuid)
  deriving DecidableEq

/-- A profile in the document, with its pin as text. -/
structure ProfileRecord where
  id : Uuid
  name : String
  host : String
  port : UInt16
  mode : ConnectMode
  rdpUsername : String
  linuxUsername : Option String
  certPin : Option String
  keyboard : KeyboardPrefs
  display : DisplayPrefs
  clipboard : ClipboardPrefs
  deriving DecidableEq

structure Document where
  version : UInt32
  profiles : List ProfileRecord
  deriving DecidableEq

/-- The TOML library at the type of the document. -/
structure Toml where
  toString : Document → Except String String
  fromStr : String → Except String Document

/-- What is written is not blank and is read back. -/
def Toml.Faithful (toml : Toml) : Prop :=
  ∀ doc text, toml.toString doc = .ok text →
    (trim text.toList).isEmpty = false ∧ toml.fromStr text = .ok doc

def ConnectionProfile.toRecord (p : ConnectionProfile) : ProfileRecord where
  id := p.id
  name := p.name
  host := p.host
  port := p.port
  mode := p.mode
  rdpUsername := p.rdpUsername
  linuxUsername := p.linuxUsername
  certPin := p.certPin.map fun pin => String.ofList pin.display
  keyboard := p.keyboard
  display := p.display
  clipboard := p.clipboard

/-- The profile of a record, unless its pin is not a fingerprint. -/
def ProfileRecord.toProfile (r : ProfileRecord) : Option ConnectionProfile :=
  let profile (pin : Option CertFingerprint) : ConnectionProfile :=
    { id := r.id
      name := r.name
      host := r.host
      port := r.port
      mode := r.mode
      rdpUsername := r.rdpUsername
      linuxUsername := r.linuxUsername
      certPin := pin
      keyboard := r.keyboard
      display := r.display
      clipboard := r.clipboard }
  match r.certPin with
  | none => some (profile none)
  | some text => (CertFingerprint.parse text.toList).map fun pin => profile (some pin)

/-- A record keeps the whole profile, the pin as its text form. -/
theorem toProfile_toRecord (p : ConnectionProfile) : p.toRecord.toProfile = some p := by
  cases hpin : p.certPin with
  | none =>
      simp only [ConnectionProfile.toRecord, ProfileRecord.toProfile, hpin, Option.map_none]
      rw [← hpin]
  | some pin =>
      simp only [ConnectionProfile.toRecord, ProfileRecord.toProfile, hpin, Option.map_some,
        String.toList_ofList, parse_display]
      rw [← hpin]

structure ProfileStore where
  profiles : List ConnectionProfile
  deriving DecidableEq

namespace ProfileStore

def new : ProfileStore := ⟨[]⟩

/-- Reads `profiles.toml`; blank text is an empty store. -/
def fromToml (toml : Toml) (s : String) : Except StoreError ProfileStore :=
  if (trim s.toList).isEmpty then .ok new
  else
    match toml.fromStr s with
    | .error e => .error (.parse e)
    | .ok doc =>
      match doc.profiles.mapM ProfileRecord.toProfile with
      | none =>
        -- The library adds where in the text the pin is.
        .error (.parse "invalid certificate fingerprint: expected 32 colon-separated hex bytes")
      | some profiles =>
        if doc.version > storeVersion then .error (.unsupportedVersion doc.version)
        else
          match Table.repeated ConnectionProfile.id [] profiles with
          | some id => .error (.duplicateId id)
          | none => .ok ⟨profiles⟩

def toToml (toml : Toml) (store : ProfileStore) : Except StoreError String :=
  (toml.toString ⟨storeVersion, store.profiles.map (·.toRecord)⟩).mapError .serialize

def sorted (lowercase : String → String) (store : ProfileStore) : List ConnectionProfile :=
  store.profiles.mergeSort fun a b =>
    lowercase a.name < lowercase b.name ∨ lowercase a.name = lowercase b.name ∧ a.id ≤ b.id

def get (store : ProfileStore) (id : Uuid) : Option ConnectionProfile :=
  Table.lookup ConnectionProfile.id store.profiles id

/-- The store with `profile` in the place of the one with its id, or at the end. -/
def put (store : ProfileStore) (profile : ConnectionProfile) : ProfileStore :=
  ⟨Table.put ConnectionProfile.id profile store.profiles⟩

/-- Validates a profile and inserts it; says whether it replaced one. -/
def upsert (store : ProfileStore) (profile : ConnectionProfile) :
    Except StoreError (ProfileStore × Bool) :=
  match validate profile with
  | .error issues => .error (.invalid issues)
  | .ok () => .ok (store.put profile, (store.get profile.id).isSome)

def remove (store : ProfileStore) (id : Uuid) : Except StoreError ProfileStore :=
  if (store.get id).isSome then .ok ⟨Table.erase ConnectionProfile.id store.profiles id⟩
  else .error (.notFound id)

def setPin (store : ProfileStore) (id : Uuid) (pin : Option CertFingerprint) :
    Except StoreError ProfileStore :=
  match store.get id with
  | none => .error (.notFound id)
  | some p => .ok (store.put { p with certPin := pin })

@[simp]
theorem get_new (id : Uuid) : new.get id = none := rfl

theorem get_put (store : ProfileStore) (profile : ConnectionProfile) (id : Uuid) :
    (store.put profile).get id = if profile.id = id then some profile else store.get id :=
  Table.lookup_put ..

theorem id_of_get {store : ProfileStore} {id : Uuid} {p : ConnectionProfile}
    (h : store.get id = some p) : p.id = id := Table.key_of_lookup h

theorem upsert_eq_ok {store next : ProfileStore} {profile : ConnectionProfile} :
    (store.upsert profile).map Prod.fst = .ok next ↔
      validate profile = .ok () ∧ next = store.put profile := by
  unfold upsert
  cases hvalid : validate profile with
  | error issues => simp [Except.map]
  | ok u => simp [Except.map, eq_comm]

def Distinct (store : ProfileStore) : Prop := Table.Distinct ConnectionProfile.id store.profiles

theorem fromToml_of_toToml {toml : Toml} (htoml : toml.Faithful) {store : ProfileStore}
    (hstore : store.Distinct) {text : String} (h : store.toToml toml = .ok text) :
    fromToml toml text = .ok store := by
  have hwritten : toml.toString ⟨storeVersion, store.profiles.map (·.toRecord)⟩ = .ok text := by
    unfold toToml at h
    cases hdoc : toml.toString ⟨storeVersion, store.profiles.map (·.toRecord)⟩ with
    | error e => simp [hdoc, Except.mapError] at h
    | ok written => simpa [hdoc, Except.mapError] using h
  obtain ⟨hblank, hread⟩ := htoml _ _ hwritten
  have hprofiles : (store.profiles.map (·.toRecord)).mapM ProfileRecord.toProfile =
      some store.profiles := by
    induction store.profiles with
    | nil => rfl
    | cons p ps ih =>
        rw [List.map_cons, List.mapM_cons, toProfile_toRecord, ih]
        rfl
  have hunique : Table.repeated ConnectionProfile.id [] store.profiles = none :=
    Table.repeated_eq_none.mpr ⟨hstore, fun _ _ => List.not_mem_nil⟩
  unfold fromToml
  simp only [hblank, hread, hprofiles, hunique]
  simp

end ProfileStore

end Drift.Profiles
