import Drift.Profiles.Editing
import Drift.Profiles.Proof.Consistency

/-!
# Pins and edited profiles

A save puts the pin of the loaded copy in the place of the stored one. The stored pins are those that the
last operation on each profile gave exactly as long as every save that goes through carries the pin that
is stored at that moment.
-/

namespace Drift.Profiles

open App (Uuid)

namespace Editing

def note (given : Uuid → Option CertFingerprint) (g : Given) : Uuid → Option CertFingerprint :=
  Function.update given g.1 g.2

def storedPins (store : ProfileStore) (id : Uuid) : Option CertFingerprint :=
  (store.get id).bind (·.certPin)

/-- The stored pin of every profile is the one it was given last. -/
def PinsGiven (given : Uuid → Option CertFingerprint) (store : ProfileStore) : Prop :=
  ∀ id p, store.get id = some p → p.certPin = given id

/-- A profile that can be saved: it is valid, the document can be written, and so can the file. -/
def Saves (toml : Toml) (failure : Option WriteFailure) (store : ProfileStore)
    (profile : ConnectionProfile) : Prop :=
  validate profile = .ok () ∧ failure = none ∧ ∃ text, (store.put profile).toToml toml = .ok text

/-- A save that goes through is one of a copy with the stored pin. -/
def CarriesStoredPin (toml : Toml) (w : Editing) : Act → Prop
  | .save n edited _ failure => ∀ copy, w.loaded[n]? = some copy →
      Saves toml failure w.service.store (edit copy edited) →
        copy.certPin = storedPins w.service.store copy.id
  | _ => True

variable (toml : Toml) (lowercase : String → String)

theorem save_store (s : ProfileService) (profile : ConnectionProfile) (update : SecretsUpdate)
    (failure : Option WriteFailure) :
    Saves toml failure s.store profile ∧
        (s.save toml failure profile update).1.store = s.store.put profile ∨
      ¬ Saves toml failure s.store profile ∧ (s.save toml failure profile update).1 = s := by
  unfold ProfileService.save
  cases hreplace : s.replace toml failure ((s.store.upsert profile).map Prod.fst) with
  | error e =>
      refine .inr ⟨?_, rfl⟩
      rintro ⟨hvalid, hfailure, text, htext⟩
      have hok := ProfileService.replace_eq_ok (s := s) |>.mpr ⟨hfailure, _, text,
        ProfileStore.upsert_eq_ok.mpr ⟨hvalid, rfl⟩, htext, rfl⟩
      rw [hreplace] at hok
      cases hok
  | ok saved =>
      obtain ⟨hfailure, store, text, hupsert, htext, rfl⟩ :=
        ProfileService.replace_eq_ok.mp hreplace
      obtain ⟨hvalid, rfl⟩ := ProfileStore.upsert_eq_ok.mp hupsert
      exact .inl ⟨⟨hvalid, hfailure, text, htext⟩, rfl⟩

theorem setPin_store (s : ProfileService) (failure : Option WriteFailure) (id : Uuid)
    (pin : Option CertFingerprint) :
    (∃ e, s.setPin toml failure id pin = (s, .error e)) ∨
      ∃ p saved, s.store.get id = some p ∧ s.setPin toml failure id pin = (saved, .ok ()) ∧
        saved.store = s.store.put { p with certPin := pin } := by
  unfold ProfileService.setPin
  cases hreplace : s.replace toml failure (s.store.setPin id pin) with
  | error e => exact .inl ⟨e, rfl⟩
  | ok saved =>
      obtain ⟨-, store, text, hset, -, rfl⟩ := ProfileService.replace_eq_ok.mp hreplace
      unfold ProfileStore.setPin at hset
      cases hp : s.store.get id with
      | none => simp [hp] at hset
      | some p =>
          simp only [hp, Except.ok.injEq] at hset
          exact .inr ⟨p, _, rfl, rfl, hset.symm⟩

/-! ### One step -/

/-- Every loaded profile still exists, and the stored pins are those given last. -/
structure Current (w : Editing) (given : Uuid → Option CertFingerprint) : Prop where
  exists_of_loaded : ∀ copy ∈ w.loaded, ∃ p, w.service.store.get copy.id = some p
  pinsGiven : PinsGiven given w.service.store

theorem storedPins_eq {given : Uuid → Option CertFingerprint} {store : ProfileStore}
    (h : PinsGiven given store) {id : Uuid} {p : ConnectionProfile} (hp : store.get id = some p) :
    storedPins store id = given id := by
  unfold storedPins
  rw [hp]
  exact h id p hp

theorem exists_of_mem {store : ProfileStore} {p : ConnectionProfile} (h : p ∈ store.profiles) :
    ∃ q, store.get p.id = some q := by
  cases hget : store.get p.id with
  | some q => exact ⟨q, rfl⟩
  | none => exact absurd (List.mem_map_of_mem h) (Table.lookup_eq_none.mp hget)

theorem Current.put {w : Editing} {given : Uuid → Option CertFingerprint} (h : Current w given)
    {service : ProfileService} {profile : ConnectionProfile}
    (hstore : service.store = w.service.store.put profile) (pin : Option CertFingerprint)
    (hpin : profile.certPin = pin) :
    Current { w with service := service } (note given (profile.id, pin)) where
  exists_of_loaded copy hcopy := by
    obtain ⟨p, hp⟩ := h.exists_of_loaded copy hcopy
    simp only [hstore, ProfileStore.get_put]
    by_cases hid : profile.id = copy.id
    · exact ⟨profile, if_pos hid⟩
    · exact ⟨p, by rw [if_neg hid, hp]⟩
  pinsGiven id p hp := by
    simp only [hstore, ProfileStore.get_put] at hp
    unfold note
    by_cases hid : profile.id = id
    · rw [if_pos hid, Option.some.injEq] at hp
      subst hid hp
      rw [Function.update_self]
      exact hpin
    · rw [if_neg hid] at hp
      rw [Function.update_of_ne (Ne.symm hid)]
      exact h.pinsGiven id p hp

theorem Current.setPin {w : Editing} {given : Uuid → Option CertFingerprint} (h : Current w given)
    {service : ProfileService} {id : Uuid} {p : ConnectionProfile} {pin : Option CertFingerprint}
    (hp : w.service.store.get id = some p)
    (hstore : service.store = w.service.store.put { p with certPin := pin }) :
    Current { w with service := service } (note given (id, pin)) := by
  have hid : p.id = id := ProfileStore.id_of_get hp
  rw [← hid]
  exact h.put hstore pin rfl

/-- The record of a step: the pins it gave, and the state after it. -/
abbrev Record := Transition.Step Editing Act Given

def noteAll (given : Uuid → Option CertFingerprint) (r : Record) : Uuid → Option CertFingerprint :=
  r.outs.foldl note given

/-- After the step the stored pins are those given last. -/
def KeepsPins (given : Uuid → Option CertFingerprint) (r : Record) : Prop :=
  PinsGiven (noteAll given r) r.after.service.store

variable {lowercase} in
theorem mem_list {s : ProfileService} {p : ConnectionProfile}
    (h : p ∈ (s.list lowercase).map (·.profile)) : p ∈ s.store.profiles := by
  obtain ⟨entry, hentry, rfl⟩ := List.mem_map.mp h
  obtain ⟨q, hq, rfl⟩ := List.mem_map.mp hentry
  exact List.mem_mergeSort.mp hq

theorem Current.unchanged {w : Editing} {given : Uuid → Option CertFingerprint}
    (h : Current w given) {w' : Editing} (hservice : w'.service = w.service)
    (hloaded : ∀ copy ∈ w'.loaded, copy ∈ w.loaded ∨ copy ∈ w.service.store.profiles) :
    Current w' given where
  exists_of_loaded copy hcopy := by
    rw [hservice]
    exact (hloaded copy hcopy).elim (h.exists_of_loaded copy) exists_of_mem
  pinsGiven := by
    rw [hservice]
    exact h.pinsGiven

/-- A save of a loaded copy keeps the pins exactly if it carries the stored one or does not go
through. -/
theorem current_save {w : Editing} {given : Uuid → Option CertFingerprint} (h : Current w given)
    (n : Nat) (edited : ConnectionProfile) (update : SecretsUpdate)
    (failure : Option WriteFailure) :
    let act := Act.save n edited update failure
    let after := (step toml lowercase w act).1
    (PinsGiven given after.service.store ↔ CarriesStoredPin toml w act) ∧
      (CarriesStoredPin toml w act → Current after given) := by
  intro act after
  cases hcopy : w.loaded[n]? with
  | none =>
      have hafter : after = w := by simp only [after, act, step, hcopy]
      have hcarries : CarriesStoredPin toml w act := by
        intro copy hsome
        rw [hcopy] at hsome
        cases hsome
      rw [hafter]
      exact ⟨iff_of_true h.pinsGiven hcarries, fun _ => h⟩
  | some copy =>
      have hafter : after = { w with
          service := (w.service.save toml failure (edit copy edited) update).1 } := by
        simp only [after, act, step, hcopy]
      obtain ⟨p, hp⟩ := h.exists_of_loaded copy (List.mem_of_getElem? hcopy)
      have hstored : storedPins w.service.store copy.id = given copy.id :=
        storedPins_eq h.pinsGiven hp
      have hcarries : CarriesStoredPin toml w act ↔
          (Saves toml failure w.service.store (edit copy edited) →
            copy.certPin = given copy.id) := by
        rw [← hstored]
        refine ⟨fun hall => hall copy hcopy, fun hsaves other hother => ?_⟩
        rw [hcopy] at hother
        cases hother
        exact hsaves
      rw [hcarries]
      rcases save_store toml w.service (edit copy edited) update failure with
        ⟨hsaves, hstore⟩ | ⟨hnot, hsame⟩
      · have hcurrent : copy.certPin = given copy.id → Current after given := by
          intro hpin
          have hput := h.put hstore copy.certPin rfl
          have hnote : note given ((edit copy edited).id, copy.certPin) = given := by
            rw [hpin]
            exact Function.update_eq_self copy.id given
          rw [hnote] at hput
          rw [hafter]
          exact hput
        refine ⟨⟨fun hgiven _ => ?_, fun hpin => (hcurrent (hpin hsaves)).pinsGiven⟩,
          fun hpin => hcurrent (hpin hsaves)⟩
        refine hgiven copy.id (edit copy edited) ?_
        rw [hafter]
        simp only [hstore, ProfileStore.get_put]
        exact if_pos rfl
      · have hcurrent : Current after given := by
          rw [hafter]
          exact h.unchanged hsame fun _ hmem => .inl hmem
        exact ⟨iff_of_true hcurrent.pinsGiven fun hsaves => absurd hsaves hnot, fun _ => hcurrent⟩

theorem current_step {w : Editing} {given : Uuid → Option CertFingerprint} (h : Current w given)
    (act : Act) :
    let r := step toml lowercase w act
    (PinsGiven (r.2.foldl note given) r.1.service.store ↔ CarriesStoredPin toml w act) ∧
      (CarriesStoredPin toml w act → Current r.1 (r.2.foldl note given)) := by
  have hkept : ∀ {r : Editing × List Given}, Current r.1 (r.2.foldl note given) →
      CarriesStoredPin toml w act →
      (PinsGiven (r.2.foldl note given) r.1.service.store ↔ CarriesStoredPin toml w act) ∧
        (CarriesStoredPin toml w act → Current r.1 (r.2.foldl note given)) :=
    fun hcurrent hcarries => ⟨iff_of_true hcurrent.pinsGiven hcarries, fun _ => hcurrent⟩
  intro r
  cases act with
  | list =>
      refine hkept (h.unchanged rfl fun copy hcopy => ?_) trivial
      exact (List.mem_append.mp hcopy).imp_right mem_list
  | get id =>
      refine hkept ?_ trivial
      simp only [r, step, ProfileService.get]
      cases hp : w.service.store.get id with
      | none => exact h
      | some p =>
          refine h.unchanged rfl fun copy hcopy => (List.mem_append.mp hcopy).imp_right fun hmem => ?_
          rw [List.mem_singleton.mp hmem]
          exact Table.mem_of_lookup hp
  | save n edited update failure =>
      have houts : r.2 = [] := by
        simp only [r, step]
        cases w.loaded[n]? <;> rfl
      rw [houts]
      exact current_save toml lowercase h n edited update failure
  | certificatePinned profile fingerprint failure =>
      refine hkept ?_ trivial
      simp only [r, step, certificatePinned]
      rcases setPin_store toml w.service failure profile (some fingerprint) with
        ⟨e, he⟩ | ⟨p, saved, hp, hok, hstore⟩
      · simp only [he]
        exact h
      · simp only [hok]
        exact h.setPin hp hstore
  | forgetCertificate id failure =>
      refine hkept ?_ trivial
      simp only [r, step, forgetCertificate]
      rcases setPin_store toml w.service failure id none with
        ⟨e, he⟩ | ⟨p, saved, hp, hok, hstore⟩
      · simp only [he]
        exact h
      · have hget : saved.get id = .ok (saved.entry { p with certPin := none }) := by
          have hsaved : saved.store.get id = some { p with certPin := none } := by
            rw [hstore, ProfileStore.get_put]
            exact if_pos (ProfileStore.id_of_get hp)
          unfold ProfileService.get
          rw [hsaved]
        simp only [hok, hget]
        exact h.setPin hp hstore

/-! ### Runs -/

/-- After every step of a run the stored pin of each profile is the one it was given last, exactly if every
save that goes through is one of a copy with the pin that is stored at that moment. -/
theorem pins_given_iff (toml : Toml) (lowercase : String → String) (s : ProfileService)
    (acts : List Act) :
    Transition.Holds noteAll KeepsPins (storedPins s.store)
        (Transition.run (Transition.recorded (step toml lowercase)) ⟨s, []⟩ acts).2 ↔
      Transition.Along (Transition.recorded (step toml lowercase)) noteAll
        (fun w _ act => CarriesStoredPin toml w act) ⟨s, []⟩ (storedPins s.store) acts := by
  refine Transition.run_holds_iff Current (fun w given act h => ?_) ?_ acts
  · obtain ⟨hiff, hcurrent⟩ := current_step toml lowercase h act
    refine ⟨?_, hcurrent⟩
    simpa [Transition.recorded, KeepsPins, noteAll] using hiff
  · refine ⟨fun copy hcopy => absurd hcopy List.not_mem_nil, fun id p hp => ?_⟩
    unfold storedPins
    rw [hp]
    rfl

/-! ### A pin that is lost -/

def newPin : CertFingerprint := .replicate 32 0xab

def pinnedToml : Toml := .ofTable
  [(⟨storeVersion, [(homelabProfile .headless none).toRecord]⟩, homelabText "headless" ""),
    (⟨storeVersion, [(homelabProfile .headless (some newPin)).toRecord]⟩,
      homelabText "headless" ("cert_pin = \"" ++ String.ofList newPin.display ++ "\"\n"))]

def homelabService (pin : Option CertFingerprint) (text : String) : ProfileService :=
  ⟨⟨"drift", some text⟩, fun _ _ => none, ⟨[homelabProfile .headless pin]⟩⟩

theorem pinnedToml_toString :
    pinnedToml.toString ⟨storeVersion, [(homelabProfile .headless none).toRecord]⟩ =
        .ok (homelabText "headless" "") ∧
      pinnedToml.toString ⟨storeVersion, [(homelabProfile .headless (some newPin)).toRecord]⟩ =
        .ok (homelabText "headless" ("cert_pin = \"" ++ String.ofList newPin.display ++ "\"\n")) := by
  have hdistinct : Table.Distinct Prod.fst
      [(Document.mk storeVersion [(homelabProfile .headless none).toRecord], homelabText "headless" ""),
        (⟨storeVersion, [(homelabProfile .headless (some newPin)).toRecord]⟩, homelabText "headless"
          ("cert_pin = \"" ++ String.ofList newPin.display ++ "\"\n"))] := by
    simp [Table.Distinct, ConnectionProfile.toRecord, homelabProfile]
  exact ⟨Toml.ofTable_toString hdistinct List.mem_cons_self,
    Toml.ofTable_toString hdistinct (List.mem_cons_of_mem _ List.mem_cons_self)⟩

/-- A profile is opened in the form, its first session pins the certificate, and the form is saved. -/
theorem pin_lost : ¬ Transition.Holds noteAll KeepsPins
    (storedPins ⟨[homelabProfile .headless none]⟩)
    (Transition.run (Transition.recorded (step pinnedToml String.toLower))
      ⟨homelabService none (homelabText "headless" ""), []⟩
      [.get 1, .certificatePinned 1 newPin none,
        .save 0 (homelabProfile .headless none) ⟨none, .keep⟩ none]).2 := by
  intro h
  obtain ⟨hplain, hpinned⟩ := pinnedToml_toString
  have hload : step pinnedToml String.toLower
      ⟨homelabService none (homelabText "headless" ""), []⟩ (.get 1) =
        (⟨homelabService none (homelabText "headless" ""), [homelabProfile .headless none]⟩, []) := rfl
  generalize homelabText "headless" ("cert_pin = \"" ++ String.ofList newPin.display ++ "\"\n") =
    text at hpinned
  have hpin : step pinnedToml String.toLower
      ⟨homelabService none (homelabText "headless" ""), [homelabProfile .headless none]⟩
      (.certificatePinned 1 newPin none) =
        (⟨homelabService (some newPin) text, [homelabProfile .headless none]⟩, [(1, some newPin)]) := by
    have hwrite : (homelabService none (homelabText "headless" "")).replace pinnedToml none
        ((homelabService none (homelabText "headless" "")).store.setPin 1 (some newPin)) =
          .ok (homelabService (some newPin) text) := by
      refine ProfileService.replace_eq_ok.mpr
        ⟨rfl, ⟨[homelabProfile .headless (some newPin)]⟩, text, rfl, ?_, rfl⟩
      unfold ProfileStore.toToml
      exact congrArg (Except.mapError StoreError.serialize) hpinned
    simp only [step, certificatePinned, ProfileService.setPin, hwrite]
    rfl
  have hsave : (step pinnedToml String.toLower
      ⟨homelabService (some newPin) text, [homelabProfile .headless none]⟩
      (.save 0 (homelabProfile .headless none) ⟨none, .keep⟩ none)).1.service.store =
        ⟨[homelabProfile .headless none]⟩ := by
    have hsaved := (ProfileService.save_of_valid (s := homelabService (some newPin) text)
      (ProfileService.homelab_valid .headless) hplain ⟨none, .keep⟩).1
    exact congrArg ProfileService.store hsaved
  have houts : (step pinnedToml String.toLower
      ⟨homelabService (some newPin) text, [homelabProfile .headless none]⟩
      (.save 0 (homelabProfile .headless none) ⟨none, .keep⟩ none)).2 = [] := rfl
  simp only [Transition.run_cons, Transition.run_nil, Transition.recorded, hload, hpin, houts,
    List.cons_append, List.nil_append, Transition.holds_cons, KeepsPins, noteAll, hsave,
    List.foldl_nil, List.foldl_cons] at h
  have hlost := h.2.2.1 1 (homelabProfile .headless none) rfl
  simp [note, homelabProfile] at hlost

end Editing

end Drift.Profiles
