import Drift.Profiles.Service

/-!
# Edited profiles

The windows load profiles, keep copies of them while they are edited, and save the edited copies. In the
meantime sessions store certificate pins, and the user forgets them.
-/

namespace Drift.Profiles

open App (Uuid)
open ProfileService (failed)

variable (toml : Toml) (failure : Option WriteFailure)

/-- A session has pinned a certificate; an error is only logged. -/
def certificatePinned (s : ProfileService) (profile : Uuid) (fingerprint : CertFingerprint) :
    ProfileService × Option CommandError :=
  let r := s.setPin toml failure profile (some fingerprint)
  (r.1, failed r.2)

/-- Clears the pin of a profile after a change of its certificate. -/
def forgetCertificate (s : ProfileService) (id : Uuid) :
    ProfileService × Except CommandError ProfileEntry :=
  let r := s.setPin toml failure id none
  match r.2 with
  | .error e => (r.1, .error e)
  | .ok () => (r.1, r.1.get id)

/-- The service, and the profiles that were loaded from it so far. -/
structure Editing where
  service : ProfileService
  loaded : List ConnectionProfile

namespace Editing

/-- `save n edited` saves an edited copy of the profile that was loaded as the `n`-th. The writes may
fail. -/
inductive Act where
  | list
  | get (id : Uuid)
  | save (n : Nat) (edited : ConnectionProfile) (update : SecretsUpdate)
      (failure : Option WriteFailure)
  | certificatePinned (profile : Uuid) (fingerprint : CertFingerprint)
      (failure : Option WriteFailure)
  | forgetCertificate (id : Uuid) (failure : Option WriteFailure)

/-- An edit changes neither the id of the loaded profile nor its pin. -/
def edit (copy edited : ConnectionProfile) : ConnectionProfile :=
  { edited with id := copy.id, certPin := copy.certPin }

/-- A pin that a profile is given, or `none` if its pin is forgotten. -/
abbrev Given := Uuid × Option CertFingerprint

/-- The outputs are the pins given by the operations that succeed. -/
def step (lowercase : String → String) (w : Editing) : Act → Editing × List Given
  | .list =>
    ({ w with loaded := w.loaded ++ (w.service.list lowercase).map (·.profile) }, [])
  | .get id =>
    match w.service.get id with
    | .error _ => (w, [])
    | .ok entry => ({ w with loaded := w.loaded ++ [entry.profile] }, [])
  | .save n edited update failure =>
    match w.loaded[n]? with
    | none => (w, [])
    | some copy =>
      ({ w with service := (w.service.save toml failure (edit copy edited) update).1 }, [])
  | .certificatePinned profile fingerprint failure =>
    let r := Profiles.certificatePinned toml failure w.service profile fingerprint
    match r.2 with
    | none => ({ w with service := r.1 }, [(profile, some fingerprint)])
    | some _ => ({ w with service := r.1 }, [])
  | .forgetCertificate id failure =>
    let r := Profiles.forgetCertificate toml failure w.service id
    match r.2 with
    | .ok _ => ({ w with service := r.1 }, [(id, none)])
    | .error _ => ({ w with service := r.1 }, [])

end Editing

end Drift.Profiles
