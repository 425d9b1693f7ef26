import Drift.Profiles.Service

/-!
# The file, the memory and the passwords

A call either leaves the service as it was, or replaces the store by one that is in the file too
(`call_cases`). The passwords of a profile only change with the profile, and only under roles that its
mode uses.
-/

namespace Drift.Profiles

open App (Uuid)
open Rdp (ConnectMode)

def SecretRole.UsedBy (role : SecretRole) (mode : ConnectMode) : Prop :=
  role = rdpFor mode ∨ mode = .remoteLogin ∧ role = .linuxLogin

/-! ### Passwords of one profile -/

namespace SecretStore

@[simp]
theorem set_self (secrets : SecretStore) (id : Uuid) (role : SecretRole) (pw : String)
    (other : SecretRole) :
    secrets.set id role pw id other = if other = role then some pw else secrets id other := by
  simp [set, Function.update_apply]

@[simp]
theorem delete_self (secrets : SecretStore) (id : Uuid) (role other : SecretRole) :
    secrets.delete id role id other = if other = role then none else secrets id other := by
  simp [delete, Function.update_apply]

theorem set_other (secrets : SecretStore) {id other : Uuid} (h : other ≠ id) (role : SecretRole)
    (pw : String) : secrets.set id role pw other = secrets other :=
  Function.update_of_ne h _ _

theorem delete_other (secrets : SecretStore) {id other : Uuid} (h : other ≠ id)
    (role : SecretRole) : secrets.delete id role other = secrets other :=
  Function.update_of_ne h _ _

end SecretStore

theorem applyRdpPassword_other (secrets : SecretStore) {id other : Uuid} (h : other ≠ id)
    (role : SecretRole) (oldRole : Option SecretRole) (password : Option String) :
    applyRdpPassword secrets id role oldRole password other = secrets other := by
  unfold applyRdpPassword
  cases password.filter (· ≠ "") with
  | some pw => exact secrets.set_other h role pw
  | none =>
      cases oldRole.filter (· ≠ role) with
      | none => rfl
      | some old =>
          simp only
          cases secrets id old with
          | none => rfl
          | some pw => exact secrets.set_other h role pw

theorem deleteOldRole_other (secrets : SecretStore) {id other : Uuid} (h : other ≠ id)
    (role : SecretRole) (oldRole : Option SecretRole) :
    deleteOldRole secrets id role oldRole other = secrets other := by
  unfold deleteOldRole
  cases oldRole.filter (· ≠ role) with
  | none => rfl
  | some old => exact secrets.delete_other h old

theorem applyLinuxPassword_other (secrets : SecretStore) {id other : Uuid} (h : other ≠ id)
    (mode : ConnectMode) (update : LinuxPasswordUpdate) :
    applyLinuxPassword secrets id mode update other = secrets other := by
  unfold applyLinuxPassword
  by_cases hmode : mode = .remoteLogin
  · rw [if_neg (not_not_intro hmode)]
    cases update with
    | keep => rfl
    | forget => exact secrets.delete_other h _
    | store pw =>
        by_cases hpw : pw = ""
        · simp only [if_pos hpw]
        · simp only [if_neg hpw, secrets.set_other h]
  · rw [if_pos hmode]
    exact secrets.delete_other h _

theorem applySecrets_other (secrets : SecretStore) (profile : ConnectionProfile)
    (previous : Option ConnectionProfile) (update : SecretsUpdate) {id : Uuid}
    (h : id ≠ profile.id) : applySecrets secrets profile previous update id = secrets id := by
  unfold applySecrets
  rw [applyLinuxPassword_other _ h, deleteOldRole_other _ h, applyRdpPassword_other _ h]

theorem rdpFor_ne_linuxLogin (mode : ConnectMode) : SecretRole.rdpFor mode ≠ .linuxLogin := by
  cases mode <;> decide

theorem applyRdpPassword_role {secrets : SecretStore} {id : Uuid} {role other : SecretRole}
    (h : other ≠ role) (oldRole : Option SecretRole) (password : Option String) :
    applyRdpPassword secrets id role oldRole password id other = secrets id other := by
  unfold applyRdpPassword
  cases password.filter (· ≠ "") with
  | some pw => simp [h]
  | none =>
      cases oldRole.filter (· ≠ role) with
      | none => rfl
      | some old =>
          simp only
          cases secrets id old with
          | none => rfl
          | some pw => simp [h]

theorem deleteOldRole_self (secrets : SecretStore) (id : Uuid) (role : SecretRole)
    (oldRole : Option SecretRole) (other : SecretRole) :
    deleteOldRole secrets id role oldRole id other =
      if oldRole = some other ∧ other ≠ role then none else secrets id other := by
  unfold deleteOldRole
  cases oldRole with
  | none => simp
  | some old =>
      by_cases hold : old = role
      · subst hold
        by_cases hother : old = other <;> simp [Option.filter_some, hother]
      · by_cases hother : other = old
        · subst hother
          simp [Option.filter_some, hold]
        · simp [Option.filter_some, hold, hother, Ne.symm hother]

theorem applyLinuxPassword_role {secrets : SecretStore} {id : Uuid} {role : SecretRole}
    (h : role ≠ .linuxLogin) (mode : ConnectMode) (update : LinuxPasswordUpdate) :
    applyLinuxPassword secrets id mode update id role = secrets id role := by
  unfold applyLinuxPassword
  by_cases hmode : mode = .remoteLogin
  · rw [if_neg (not_not_intro hmode)]
    cases update with
    | keep => rfl
    | forget => simp [h]
    | store pw => by_cases hpw : pw = "" <;> simp [hpw, h]
  · rw [if_pos hmode]
    simp [h]

/-- After a save the profile has no password that its mode does not use, if before it had none that the
previous mode did not use. -/
theorem usedBy_of_applySecrets {secrets : SecretStore} {profile : ConnectionProfile}
    {previous : Option ConnectionProfile} {update : SecretsUpdate} {role : SecretRole}
    (howned : ∀ role, secrets profile.id role ≠ none →
      ∃ p, previous = some p ∧ role.UsedBy p.mode)
    (h : applySecrets secrets profile previous update profile.id role ≠ none) :
    role.UsedBy profile.mode := by
  by_cases hrole : role = SecretRole.rdpFor profile.mode
  · exact .inl hrole
  by_cases hlinux : role = .linuxLogin
  · by_cases hmode : profile.mode = .remoteLogin
    · exact .inr ⟨hmode, hlinux⟩
    · unfold applySecrets applyLinuxPassword at h
      simp [hmode, hlinux] at h
  · unfold applySecrets at h
    rw [applyLinuxPassword_role hlinux, deleteOldRole_self, applyRdpPassword_role hrole] at h
    by_cases hold : previous.map (fun p => SecretRole.rdpFor p.mode) = some role ∧
        role ≠ SecretRole.rdpFor profile.mode
    · exact absurd (if_pos hold) h
    · rw [if_neg hold] at h
      obtain ⟨p, hp, hused⟩ := howned role h
      have hprevious : role = SecretRole.rdpFor p.mode :=
        hused.resolve_right fun hlogin => hlinux hlogin.2
      exact absurd ⟨by rw [hp, hprevious]; rfl, hrole⟩ hold

/-- Without a new password the RDP password stays, under the role of the new mode. -/
theorem applySecrets_keeps {secrets : SecretStore} {profile p : ConnectionProfile}
    {update : SecretsUpdate}
    (howned : ∀ role, secrets profile.id role ≠ none → role.UsedBy p.mode)
    (h : update.rdpPassword.filter (· ≠ "") = none) :
    applySecrets secrets profile (some p) update profile.id (SecretRole.rdpFor profile.mode) =
      secrets profile.id (SecretRole.rdpFor p.mode) := by
  unfold applySecrets
  rw [applyLinuxPassword_role (rdpFor_ne_linuxLogin _), deleteOldRole_self,
    if_neg fun hsame => hsame.2 rfl]
  unfold applyRdpPassword
  rw [h]
  by_cases hrole : SecretRole.rdpFor p.mode = SecretRole.rdpFor profile.mode
  · simp [Option.filter_some, hrole]
  · -- The other role held no password that could be left under it.
    have hnone : secrets profile.id (SecretRole.rdpFor profile.mode) = none := by
      by_contra hsome
      rcases howned _ hsome with hsame | hlogin
      · exact hrole hsame.symm
      · exact rdpFor_ne_linuxLogin _ hlogin.2
    cases hpw : secrets profile.id (SecretRole.rdpFor p.mode) with
    | none => simpa [Option.filter_some, hrole, hpw] using hnone
    | some pw => simp [Option.filter_some, hrole, hpw]

/-! ### One call -/

namespace ProfileService

variable {toml : Toml} (failure : Option WriteFailure)

/-- A store that is not written leaves an error, and one that is written can be read back. -/
theorem replace_cases (htoml : toml.Faithful) (s : ProfileService)
    {next : Except StoreError ProfileStore} (hnext : ∀ store, next = .ok store → store.Distinct) :
    (∃ e, s.replace toml failure next = .error e) ∨
      ∃ store file, next = .ok store ∧ file.load toml = .ok store ∧
        s.replace toml failure next = .ok { s with file := file, store := store } := by
  cases hreplace : s.replace toml failure next with
  | error e => exact .inl ⟨e, rfl⟩
  | ok saved =>
      obtain ⟨-, store, text, hstore, htext, rfl⟩ := replace_eq_ok.mp hreplace
      have hread : ProfileStore.fromToml toml text = .ok store :=
        ProfileStore.fromToml_of_toToml htoml (hnext store hstore) htext
      refine .inr ⟨store, { s.file with text := some text }, hstore, ?_, rfl⟩
      simp only [ProfileFile.load, hread]
      rfl

/-- What a call that succeeds does to the profiles and the passwords. -/
inductive Edit (store : ProfileStore) (secrets : SecretStore) : ProfileStore → SecretStore → Prop
  | save (profile : ConnectionProfile) (update : SecretsUpdate) :
      Edit store secrets (store.put profile)
        (applySecrets secrets profile (store.get profile.id) update)
  | delete (id : Uuid) :
      Edit store secrets ⟨Table.erase ConnectionProfile.id store.profiles id⟩
        ([SecretRole.rdpSystem, .rdpUser, .linuxLogin].foldl
          (fun secrets role => secrets.delete id role) secrets)
  | setPin {id : Uuid} {p : ConnectionProfile} (pin : Option CertFingerprint)
      (h : store.get id = some p) : Edit store secrets (store.put { p with certPin := pin }) secrets

theorem save_cases (htoml : toml.Faithful) {s : ProfileService} (hs : s.store.Distinct)
    (profile : ConnectionProfile) (update : SecretsUpdate) :
    (∃ e, s.save toml failure profile update = (s, .error e)) ∨
      ∃ file entry, file.load toml = .ok (s.store.put profile) ∧
        s.save toml failure profile update =
          (⟨file, applySecrets s.secrets profile (s.store.get profile.id) update,
            s.store.put profile⟩, .ok entry) := by
  have hdistinct : ∀ store, (s.store.upsert profile).map Prod.fst = .ok store →
      store.Distinct := by
    intro store h
    rw [(ProfileStore.upsert_eq_ok.mp h).2]
    exact Table.Distinct.put hs profile
  unfold save
  rcases replace_cases failure htoml s hdistinct with
    ⟨e, he⟩ | ⟨store, file, hnext, hload, hok⟩
  · rw [he]
    exact .inl ⟨e, rfl⟩
  · obtain ⟨-, rfl⟩ := ProfileStore.upsert_eq_ok.mp hnext
    rw [hok]
    exact .inr ⟨file, _, hload, rfl⟩

theorem save_of_valid {s : ProfileService} {profile : ConnectionProfile} {text : String}
    (hvalid : validate profile = .ok ())
    (htext : toml.toString ⟨storeVersion, (s.store.put profile).profiles.map (·.toRecord)⟩ =
      .ok text) (update : SecretsUpdate) :
    (s.save toml none profile update).1 =
        ⟨{ s.file with text := some text },
          applySecrets s.secrets profile (s.store.get profile.id) update, s.store.put profile⟩ ∧
      failed (s.save toml none profile update).2 = none := by
  have hwrite : (s.store.put profile).toToml toml = .ok text := by
    unfold ProfileStore.toToml
    rw [htext]
    rfl
  have hupsert : (s.store.upsert profile).map Prod.fst = .ok (s.store.put profile) :=
    ProfileStore.upsert_eq_ok.mpr ⟨hvalid, rfl⟩
  unfold save
  rw [replace_eq_ok.mpr ⟨rfl, _, text, hupsert, hwrite, rfl⟩]
  exact ⟨rfl, rfl⟩

/-- A result that leaves the service as it was, or edits it and writes the file. -/
def Effect (toml : Toml) (s : ProfileService) {α : Type}
    (r : ProfileService × Except CommandError α) : Prop :=
  (∃ e, r = (s, .error e)) ∨
    ∃ file store secrets a, Edit s.store s.secrets store secrets ∧ file.load toml = .ok store ∧
      r = (⟨file, secrets, store⟩, .ok a)

theorem save_effect (htoml : toml.Faithful) {s : ProfileService} (hs : s.store.Distinct)
    (profile : ConnectionProfile) (update : SecretsUpdate) :
    Effect toml s (s.save toml failure profile update) := by
  rcases save_cases failure htoml hs profile update with h | ⟨file, entry, hload, h⟩
  · exact .inl h
  · exact .inr ⟨file, _, _, entry, Edit.save profile update, hload, h⟩

theorem duplicate_effect (htoml : toml.Faithful) {s : ProfileService} (hs : s.store.Distinct)
    (id fresh : Uuid) : Effect toml s (s.duplicate toml failure id fresh) := by
  unfold duplicate
  cases s.store.get id with
  | none => exact .inl ⟨.notFound, rfl⟩
  | some p => exact save_effect failure htoml hs _ _

theorem delete_effect (htoml : toml.Faithful) {s : ProfileService} (hs : s.store.Distinct)
    (id : Uuid) : Effect toml s (s.delete toml failure id) := by
  have hremove : ∀ store, s.store.remove id = .ok store →
      store = ⟨Table.erase ConnectionProfile.id s.store.profiles id⟩ := by
    intro store h
    unfold ProfileStore.remove at h
    by_cases hp : (s.store.get id).isSome
    · simpa [hp, eq_comm] using h
    · simp [hp] at h
  have hdistinct : ∀ store, s.store.remove id = .ok store → store.Distinct := by
    intro store h
    rw [hremove store h]
    exact Table.Distinct.erase hs id
  unfold delete
  rcases replace_cases failure htoml s hdistinct with
    ⟨e, he⟩ | ⟨store, file, hnext, hload, hok⟩
  · rw [he]
    exact .inl ⟨e, rfl⟩
  · have hstore := hremove store hnext
    subst hstore
    rw [hok]
    exact .inr ⟨file, _, _, (), Edit.delete id, hload, rfl⟩

theorem setPin_effect (htoml : toml.Faithful) {s : ProfileService} (hs : s.store.Distinct)
    (id : Uuid) (pin : Option CertFingerprint) :
    Effect toml s (s.setPin toml failure id pin) := by
  unfold setPin ProfileStore.setPin
  cases hp : s.store.get id with
  | none => exact .inl ⟨.notFound, rfl⟩
  | some p =>
      have hdistinct : ∀ store, Except.ok (s.store.put { p with certPin := pin }) =
          (.ok store : Except StoreError ProfileStore) → store.Distinct := by
        intro store h
        cases h
        exact Table.Distinct.put hs _
      rcases replace_cases failure htoml s hdistinct with
        ⟨e, he⟩ | ⟨store, file, hnext, hload, hok⟩
      · simp only [he]
        exact .inl ⟨e, rfl⟩
      · cases hnext
        simp only [hok]
        exact .inr ⟨file, _, _, (), Edit.setPin pin hp, hload, rfl⟩

/-- A call leaves the service as it was, or it edits it and writes the file. -/
theorem call_cases (htoml : toml.Faithful) {s : ProfileService} (hs : s.store.Distinct) (c : Call) :
    (∃ e, s.call toml failure c = (s, some e)) ∨
      ∃ file store secrets, Edit s.store s.secrets store secrets ∧ file.load toml = .ok store ∧
        s.call toml failure c = (⟨file, secrets, store⟩, none) := by
  have heffect : ∀ {α : Type} {r : ProfileService × Except CommandError α}, Effect toml s r →
      (∃ e, (r.1, failed r.2) = (s, some e)) ∨
        ∃ file store secrets, Edit s.store s.secrets store secrets ∧ file.load toml = .ok store ∧
          (r.1, failed r.2) = (⟨file, secrets, store⟩, none) := by
    rintro α r (⟨e, rfl⟩ | ⟨file, store, secrets, a, hedit, hload, rfl⟩)
    · exact .inl ⟨e, rfl⟩
    · exact .inr ⟨file, store, secrets, hedit, hload, rfl⟩
  cases c with
  | save profile update => exact heffect (save_effect failure htoml hs profile update)
  | duplicate id fresh => exact heffect (duplicate_effect failure htoml hs id fresh)
  | delete id => exact heffect (delete_effect failure htoml hs id)
  | setPin id pin => exact heffect (setPin_effect failure htoml hs id pin)

/-! ### Runs -/

/-- The file holds the profiles, and every password belongs to one of them. -/
structure Consistent (toml : Toml) (s : ProfileService) : Prop where
  load_eq : s.file.load toml = .ok s.store
  distinct : s.store.Distinct
  owned : ∀ id role, s.secrets id role ≠ none →
    ∃ p, s.store.get id = some p ∧ role.UsedBy p.mode

theorem consistent_empty (toml : Toml) (dir : String) : Consistent toml (empty dir) where
  load_eq := rfl
  distinct := List.nodup_nil
  owned _ _ h := absurd rfl h

theorem Edit.distinct {store store' : ProfileStore} {secrets secrets' : SecretStore}
    (h : Edit store secrets store' secrets') (hstore : store.Distinct) : store'.Distinct := by
  cases h with
  | save profile update => exact Table.Distinct.put hstore profile
  | delete id => exact Table.Distinct.erase hstore id
  | setPin pin hp => exact Table.Distinct.put hstore _

theorem Edit.owned {store store' : ProfileStore} {secrets secrets' : SecretStore}
    (h : Edit store secrets store' secrets') (hstore : store.Distinct)
    (howned : ∀ id role, secrets id role ≠ none →
      ∃ p, store.get id = some p ∧ role.UsedBy p.mode) :
    ∀ id role, secrets' id role ≠ none → ∃ p, store'.get id = some p ∧ role.UsedBy p.mode := by
  intro id role hrole
  cases h with
  | save profile update =>
      rw [ProfileStore.get_put]
      by_cases hid : profile.id = id
      · subst hid
        exact ⟨profile, if_pos rfl, usedBy_of_applySecrets (howned profile.id) hrole⟩
      · rw [applySecrets_other _ _ _ _ (Ne.symm hid)] at hrole
        obtain ⟨p, hp, hused⟩ := howned id role hrole
        exact ⟨p, by rw [if_neg hid, hp], hused⟩
  | delete gone =>
      simp only [List.foldl_cons, List.foldl_nil] at hrole
      by_cases hid : id = gone
      · subst hid
        cases role <;> simp at hrole
      · rw [SecretStore.delete_other _ hid, SecretStore.delete_other _ hid,
          SecretStore.delete_other _ hid] at hrole
        obtain ⟨p, hp, hused⟩ := howned id role hrole
        exact ⟨p, by
          unfold ProfileStore.get
          rw [Table.lookup_erase hstore, if_neg (Ne.symm hid)]
          exact hp, hused⟩
  | @setPin pinned p pin hp =>
      obtain ⟨q, hq, hused⟩ := howned id role hrole
      rw [ProfileStore.get_put]
      by_cases hid : p.id = id
      · have hsame : q = p := by
          rw [← hid, ProfileStore.id_of_get hp, hp] at hq
          exact (Option.some.inj hq).symm
        rw [hsame] at hused
        exact ⟨_, if_pos hid, hused⟩
      · exact ⟨q, by rw [if_neg hid, hq], hused⟩

theorem Consistent.call (htoml : toml.Faithful) {s : ProfileService} (h : Consistent toml s)
    (c : Call) : Consistent toml (s.call toml failure c).1 := by
  rcases call_cases failure htoml h.distinct c with
    ⟨e, he⟩ | ⟨file, store, secrets, hedit, hload, hok⟩
  · rw [he]
    exact h
  · rw [hok]
    exact ⟨hload, hedit.distinct h.distinct, hedit.owned h.distinct h.owned⟩

theorem consistent_run {toml : Toml} (htoml : toml.Faithful) (dir : String)
    (calls : List (Option WriteFailure × Call)) :
    Consistent toml (Transition.run (step toml) (empty dir) calls).1 :=
  Transition.run_invariant (Consistent toml) (fun _ i h => h.call i.1 htoml i.2)
    (consistent_empty toml dir) calls

/-- A service that is opened on what another one left after any calls has what that one had. -/
theorem open_left {toml : Toml} (htoml : toml.Faithful) {dir : String} {s : ProfileService}
    (hopen : «open» toml ⟨dir, none⟩ (fun _ _ => none) = .ok s)
    (calls : List (Option WriteFailure × Call)) :
    let left := (Transition.run (step toml) s calls).1
    «open» toml left.file left.secrets = .ok left := by
  intro left
  rw [open_missing] at hopen
  obtain rfl := Except.ok.inj hopen
  unfold «open»
  rw [(consistent_run htoml dir calls).load_eq]
  rfl

/-- After any calls the file holds the profiles and the passwords belong to them, a call that fails
changes nothing, and a saved profile keeps its RDP password unless it gets a new one. -/
theorem calls_consistent {toml : Toml} (htoml : toml.Faithful) (dir : String)
    (calls : List (Option WriteFailure × Call)) (failure : Option WriteFailure) (c : Call) :
    let s := (Transition.run (step toml) (empty dir) calls).1
    let after := s.call toml failure c
    s.file.load toml = .ok s.store ∧
      (∀ id role, s.secrets id role ≠ none →
        ∃ p, s.store.get id = some p ∧ role.UsedBy p.mode) ∧
      (after.2 ≠ none → after.1 = s) ∧
      ∀ profile update p, c = .save profile update → after.2 = none →
        s.store.get profile.id = some p → update.rdpPassword.filter (· ≠ "") = none →
        after.1.secrets profile.id (SecretRole.rdpFor profile.mode) =
          s.secrets profile.id (SecretRole.rdpFor p.mode) := by
  intro s after
  have hs : Consistent toml s := consistent_run htoml dir calls
  refine ⟨hs.load_eq, hs.owned, fun hfailed => ?_, ?_⟩
  · rcases call_cases failure htoml hs.distinct c with
      ⟨e, he⟩ | ⟨file, store, secrets, hedit, hload, hok⟩
    · exact congrArg Prod.fst he
    · exact absurd (congrArg Prod.snd hok) hfailed
  · rintro profile update p rfl hok hp hkept
    rcases save_cases failure htoml hs.distinct profile update with
      ⟨e, he⟩ | ⟨file, entry, hload, hsaved⟩
    · have hnone : failed (s.save toml failure profile update).2 = none := hok
      rw [he] at hnone
      exact absurd hnone (by simp [failed])
    · have hsecrets : after.1.secrets = applySecrets s.secrets profile (some p) update := by
        change (s.save toml failure profile update).1.secrets = _
        rw [hsaved, hp]
      rw [hsecrets]
      refine applySecrets_keeps (fun role hrole => ?_) hkept
      obtain ⟨q, hq, hused⟩ := hs.owned profile.id role hrole
      rw [hp] at hq
      rwa [Option.some.inj hq]

end ProfileService

/-! ### A profile in the file -/

theorem trim_ne_nil {c : Char} {text : List Char} (h : isWhitespace c = false) :
    (trim (c :: text)).isEmpty = false := by
  unfold trim
  rw [List.dropWhile_cons_of_neg (by simp [h])]
  cases hrest : List.rdropWhile isWhitespace (c :: text) with
  | nil =>
      rw [List.rdropWhile_eq_nil_iff] at hrest
      simp [h] at hrest
  | cons d rest => rfl

/-- The library at some documents, each with its text. -/
def Toml.ofTable (rows : List (Document × String)) : Toml where
  toString doc := ((Table.lookup Prod.fst rows doc).map Prod.snd).elim (.error "") .ok
  fromStr text := ((Table.lookup Prod.snd rows text).map Prod.fst).elim (.error "") .ok

theorem Toml.ofTable_faithful {rows : List (Document × String)} (h : Table.Distinct Prod.snd rows)
    (hblank : ∀ row ∈ rows, (trim row.2.toList).isEmpty = false) : (ofTable rows).Faithful := by
  intro doc text hwritten
  unfold ofTable at hwritten
  cases hrow : Table.lookup Prod.fst rows doc with
  | none => simp [hrow] at hwritten
  | some row =>
      obtain ⟨found, written⟩ := row
      have hdoc : found = doc := Table.key_of_lookup hrow
      have htext : written = text := by simpa [hrow] using hwritten
      subst hdoc htext
      have hmem := Table.mem_of_lookup hrow
      have hread : Table.lookup Prod.snd rows written = some (found, written) :=
        Table.lookup_of_mem h hmem
      exact ⟨hblank (found, written) hmem, by simp [ofTable, hread]⟩

theorem Toml.ofTable_toString {rows : List (Document × String)} (h : Table.Distinct Prod.fst rows)
    {doc : Document} {text : String} (hrow : (doc, text) ∈ rows) :
    (ofTable rows).toString doc = .ok text := by
  have hfound : Table.lookup Prod.fst rows doc = some (doc, text) := Table.lookup_of_mem h hrow
  simp [ofTable, hfound]

def homelabProfile (mode : ConnectMode) (pin : Option CertFingerprint) : ConnectionProfile where
  id := 1
  name := "Homelab"
  host := "gnome.local"
  port := 3389
  mode := mode
  rdpUsername := "gnome"
  linuxUsername := none
  certPin := pin
  keyboard := ⟨.super, false⟩
  display := ⟨true, true⟩
  clipboard := .textAndImages

def homelabHead : String :=
  "version = 1\n" ++ "\n[[profiles]]\nid = \"00000000-0000-0000-0000-000000000001\"\n" ++
    "name = \"Homelab\"\nhost = \"gnome.local\"\nport = 3389\nmode = \""

def homelabTail : String :=
  "clipboard = \"text-and-images\"\n\n[profiles.keyboard]\ncmd_as = \"super\"\n" ++
    "type_with_mac_layout = false\n\n[profiles.display]\nadaptive = true\nretina = true\n"

/-- The text of the profile, from the text of its mode and the line of its pin. -/
def homelabText (mode pinLine : String) : String :=
  homelabHead ++ mode ++ "\"\nrdp_username = \"gnome\"\n" ++ pinLine ++ homelabTail

theorem homelabText_ne_blank (mode pinLine : String) :
    (trim (homelabText mode pinLine).toList).isEmpty = false := by
  have hversion : "version = 1\n".toList = 'v' :: "ersion = 1\n".toList := by decide
  simp only [homelabText, homelabHead, String.toList_append, hversion, List.cons_append]
  exact trim_ne_nil (by decide)

def homelabToml : Toml := .ofTable
  [(⟨storeVersion, [(homelabProfile .remoteLogin none).toRecord]⟩, homelabText "remote-login" ""),
    (⟨storeVersion, [(homelabProfile .headless none).toRecord]⟩, homelabText "headless" "")]

theorem homelabText_injective (pinLine : String) : Function.Injective (homelabText · pinLine) := by
  intro mode mode' h
  simpa only [homelabText, String.append_left_inj, String.append_right_inj] using h

theorem homelabToml_faithful : homelabToml.Faithful := by
  refine Toml.ofTable_faithful ?_ ?_
  · have hmode : homelabText "remote-login" "" ≠ homelabText "headless" "" :=
      (homelabText_injective "").ne (by decide)
    simpa only [Table.Distinct, List.map_cons, List.map_nil, List.nodup_cons, List.mem_singleton,
      List.not_mem_nil, not_false_eq_true, List.nodup_nil, and_true] using hmode
  · intro row hrow
    rcases List.mem_pair.mp hrow with rfl | rfl
    · exact homelabText_ne_blank "remote-login" ""
    · exact homelabText_ne_blank "headless" ""

theorem homelabToml_toString {mode : ConnectMode} {text : String}
    (h : (mode, text) ∈ [(ConnectMode.remoteLogin, "remote-login"), (.headless, "headless")]) :
    homelabToml.toString ⟨storeVersion, [(homelabProfile mode none).toRecord]⟩ =
      .ok (homelabText text "") := by
  refine Toml.ofTable_toString ?_ ?_
  · simp [Table.Distinct, ConnectionProfile.toRecord, homelabProfile]
  · rcases List.mem_pair.mp h with heq | heq <;> cases heq <;> simp

namespace ProfileService

theorem homelab_valid (mode : ConnectMode) : validate (homelabProfile mode none) = .ok () := by
  cases mode <;> decide +kernel

/-- A Remote Login profile that is saved with a password and then made a headless one. -/
theorem calls_consistent_headless :
    ((Transition.run (step homelabToml) (empty "drift")
      [(none, .save (homelabProfile .remoteLogin none) ⟨some "secret", .store "login"⟩)]).1.call
        homelabToml none (.save (homelabProfile .headless none) ⟨none, .keep⟩)).1.secrets 1 .rdpUser =
      some "secret" := by
  have hkept := (calls_consistent homelabToml_faithful "drift"
    [(none, .save (homelabProfile .remoteLogin none) ⟨some "secret", .store "login"⟩)] none
    (.save (homelabProfile .headless none) ⟨none, .keep⟩)).2.2.2
      (homelabProfile .headless none) ⟨none, .keep⟩ (homelabProfile .remoteLogin none) rfl
  have hrun : (Transition.run (step homelabToml) (empty "drift")
      [(none, .save (homelabProfile .remoteLogin none) ⟨some "secret", .store "login"⟩)]).1 =
      ((empty "drift").save homelabToml none (homelabProfile .remoteLogin none)
        ⟨some "secret", .store "login"⟩).1 := rfl
  rw [(save_of_valid (s := empty "drift") (homelab_valid .remoteLogin)
    (homelabToml_toString List.mem_cons_self) ⟨some "secret", .store "login"⟩).1] at hrun
  generalize (Transition.run (step homelabToml) (empty "drift")
    [(none, .save (homelabProfile .remoteLogin none) ⟨some "secret", .store "login"⟩)]).1 = s
    at hkept hrun ⊢
  have hput : (s.store.put (homelabProfile .headless none)).profiles.map (·.toRecord) =
      [(homelabProfile .headless none).toRecord] := by
    simp [hrun, empty, ProfileStore.put, ProfileStore.new, Table.put, homelabProfile]
  have htext := homelabToml_toString (List.mem_cons_of_mem _ List.mem_cons_self)
  rw [← hput] at htext
  have hsaved := (save_of_valid (s := s) (homelab_valid .headless) htext ⟨none, .keep⟩).2
  refine (hkept hsaved ?_ rfl).trans ?_ <;> rw [hrun] <;> rfl

end ProfileService

end Drift.Profiles
