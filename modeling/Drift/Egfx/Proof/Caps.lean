import Drift.Egfx.Proof.Pdu
import Drift.Egfx.Server

/-!
# The capabilities that are confirmed

The server confirms a version that the client offered, the highest of those that both know, and promises nothing
that the client did not offer in it. What it confirms is read back as it was meant.
-/

namespace Drift.Egfx

open Pdu Reader CapabilityFlags

/-! ### Flags -/

theorem hasFlag_of_and {a b flag : UInt32} (h : hasFlag (a &&& b) flag = true) : hasFlag a flag = true := by
  have hflag : a &&& b &&& flag = flag := of_decide_eq_true h
  apply decide_eq_true
  calc a &&& flag = a &&& (a &&& b &&& flag) := by rw [hflag]
    _ = a &&& b &&& flag := by rw [← UInt32.and_assoc, ← UInt32.and_assoc, UInt32.and_self]
    _ = flag := hflag

/-- A mask that has the flag does not take it away. -/
theorem hasFlag_and {a b flag : UInt32} (h : b &&& flag = flag) : hasFlag (a &&& b) flag = hasFlag a flag := by
  unfold hasFlag
  rw [UInt32.and_assoc, h]

theorem or_and_absorb (a b : UInt32) : (a ||| b) &&& b = b := by
  apply UInt32.toBitVec_inj.mp
  ext i
  simp only [UInt32.toBitVec_and, UInt32.toBitVec_or, BitVec.getElem_and, BitVec.getElem_or]
  grind

namespace CapabilitySet

theorem keepDisabled_eq (cf sf : UInt32) : keepDisabled cf sf = cf &&& (sf ||| avcDisabled) :=
  (UInt32.toBitVec_inj.mp BitVec.and_or_distrib_left).symm

theorem hasFlag_of_keepDisabled {cf sf flag : UInt32} (h : hasFlag (keepDisabled cf sf) flag = true) :
    hasFlag cf flag = true := by
  rw [keepDisabled_eq] at h
  exact hasFlag_of_and h

theorem keepDisabled_disabled (cf sf : UInt32) :
    hasFlag (keepDisabled cf sf) avcDisabled = hasFlag cf avcDisabled := by
  rw [keepDisabled_eq]
  exact hasFlag_and (or_and_absorb sf avcDisabled)

theorem removeThinClient_disabled (flags : UInt32) :
    hasFlag (removeThinClient flags) avcDisabled = hasFlag flags avcDisabled := by
  unfold removeThinClient
  by_cases hdisabled : hasFlag flags avcDisabled
  · rw [if_pos hdisabled]
    exact hasFlag_and (by decide)
  · rw [if_neg hdisabled]

theorem hasFlag_of_removeThinClient {flags flag : UInt32} (h : hasFlag (removeThinClient flags) flag = true) :
    hasFlag flags flag = true := by
  unfold removeThinClient at h
  by_cases hdisabled : hasFlag flags avcDisabled
  · rw [if_pos hdisabled] at h
    exact hasFlag_of_and h
  · rw [if_neg hdisabled] at h
    exact h

theorem removeThinClient_exclusive (flags : UInt32) :
    ¬(hasFlag (removeThinClient flags) avcDisabled ∧ hasFlag (removeThinClient flags) avcThinClient) := by
  rintro ⟨hdisabled, hthin⟩
  rw [removeThinClient_disabled] at hdisabled
  unfold removeThinClient at hthin
  rw [if_pos hdisabled] at hthin
  have hflag : flags &&& ~~~avcThinClient &&& avcThinClient = avcThinClient := of_decide_eq_true hthin
  rw [UInt32.and_assoc, UInt32.not_and_self, UInt32.and_zero] at hflag
  exact absurd hflag (by decide)

end CapabilitySet

/-! ### What is confirmed of a set -/

/-- Nothing is used that was not offered. -/
structure CodecCapabilities.Within (used offered : CodecCapabilities) : Prop where
  avc420 : used.avc420 = true → offered.avc420 = true
  avc444 : used.avc444 = true → offered.avc444 = true
  smallCache : used.smallCache = true → offered.smallCache = true
  thinClient : used.thinClient = true → offered.thinClient = true

/-- AVC is not both disabled and wanted for a thin client. -/
def CapabilitySet.Exclusive : CapabilitySet → Prop
  | v10_3 flags | v10_4 flags | v10_5 flags | v10_6 flags | v10_6Err flags | v10_7 flags =>
    ¬(hasFlag flags avcDisabled ∧ hasFlag flags avcThinClient)
  | _ => True

/-- The answer to a set of the client. -/
structure Confirms (offered confirmed : CapabilitySet) : Prop where
  version : confirmed.version = offered.version
  within : (CodecCapabilities.fromCapabilitySet confirmed).Within (.fromCapabilitySet offered)

theorem Confirms.refl (cap : CapabilitySet) : Confirms cap cap := ⟨rfl, ⟨id, id, id, id⟩⟩

theorem Confirms.trans {a b c : CapabilitySet} (h : Confirms a b) (h' : Confirms b c) : Confirms a c where
  version := h'.version.trans h.version
  within := ⟨h.within.avc420 ∘ h'.within.avc420, h.within.avc444 ∘ h'.within.avc444,
    h.within.smallCache ∘ h'.within.smallCache, h.within.thinClient ∘ h'.within.thinClient⟩

namespace CapabilitySet

/-- The codecs of flags that come with the same AVC and nothing more. -/
theorem within_flags {cf f : UInt32} (hdisabled : hasFlag f avcDisabled = hasFlag cf avcDisabled)
    (hflags : ∀ flag, hasFlag f flag = true → hasFlag cf flag = true) :
    (∀ flag, (hasFlag f flag) = true → hasFlag cf flag = true) ∧
      ((!hasFlag f avcDisabled) = true → (!hasFlag cf avcDisabled) = true) := by
  rw [hdisabled]
  exact ⟨hflags, id⟩

theorem confirms_intersectFlags {client server : CapabilitySet} (h : client.version = server.version) :
    Confirms client (intersectFlags client server) := by
  have hand : ∀ {cf sf : UInt32} (flag : UInt32), hasFlag (cf &&& sf) flag = true → hasFlag cf flag = true :=
    fun _ => hasFlag_of_and
  have hkeep := fun cf sf => within_flags (keepDisabled_disabled cf sf) fun _ => hasFlag_of_keepDisabled
  cases client with
  | v8 cf => cases server <;> first | (cases h; done) | exact ⟨rfl, id, id, hand _, hand _⟩
  | v8_1 cf => cases server <;> first | (cases h; done) | exact ⟨rfl, hand _, id, hand _, hand _⟩
  | v10_1 => cases server <;> first | (cases h; done) | exact .refl _
  | v10_3 cf =>
      cases server <;> first | (cases h; done) | exact ⟨rfl, (hkeep _ _).2, (hkeep _ _).2, id, (hkeep _ _).1 _⟩
  | v10 cf | v10_2 cf =>
      cases server <;> first | (cases h; done) | exact ⟨rfl, (hkeep _ _).2, (hkeep _ _).2, (hkeep _ _).1 _, id⟩
  | v10_4 cf | v10_5 cf | v10_6 cf | v10_6Err cf | v10_7 cf =>
      cases server <;> first
        | (cases h; done)
        | exact ⟨rfl, (hkeep _ _).2, (hkeep _ _).2, (hkeep _ _).1 _, (hkeep _ _).1 _⟩

theorem confirms_sanitize (cap : CapabilitySet) : Confirms cap cap.sanitizeCapabilitiesForConfirm := by
  have hthin := fun flags => within_flags (removeThinClient_disabled flags) fun _ => hasFlag_of_removeThinClient
  cases cap with
  | v10_3 flags => exact ⟨rfl, (hthin _).2, (hthin _).2, id, (hthin _).1 _⟩
  | v10_4 flags | v10_5 flags | v10_6 flags | v10_6Err flags | v10_7 flags =>
      exact ⟨rfl, (hthin _).2, (hthin _).2, (hthin _).1 _, (hthin _).1 _⟩
  | _ => exact .refl _

theorem exclusive_sanitize (cap : CapabilitySet) : cap.sanitizeCapabilitiesForConfirm.Exclusive := by
  cases cap with
  | v10_3 flags | v10_4 flags | v10_5 flags | v10_6 flags | v10_6Err flags | v10_7 flags =>
      exact removeThinClient_exclusive flags
  | _ => trivial

theorem capabilityPriority_eq {a b : CapabilitySet} (h : a.version = b.version) :
    a.capabilityPriority = b.capabilityPriority := by
  cases a <;> cases b <;> first | rfl | cases h

/-! ### The choice -/

theorem mem_byPriority {caps : List CapabilitySet} {cap : CapabilitySet} : cap ∈ byPriority caps ↔ cap ∈ caps :=
  List.mem_insertionSort _

theorem pairwise_byPriority (caps : List CapabilitySet) :
    (byPriority caps).Pairwise fun a b => b.capabilityPriority ≤ a.capabilityPriority := by
  have htotal : Std.Total fun a b : CapabilitySet => b.capabilityPriority ≤ a.capabilityPriority :=
    ⟨fun a b => Nat.le_total b.capabilityPriority a.capabilityPriority⟩
  have htrans : IsTrans CapabilitySet fun a b => b.capabilityPriority ≤ a.capabilityPriority :=
    ⟨fun _ _ _ hab hbc => Nat.le_trans hbc hab⟩
  exact List.pairwise_insertionSort _ caps

/-- The first set in the order of priority for which there is something is the highest of all these. -/
theorem findSome_byPriority {α : Type} {caps : List CapabilitySet} {f : CapabilitySet → Option α} {a : α}
    (h : (byPriority caps).findSome? f = some a) :
    ∃ cap ∈ caps, f cap = some a ∧
      ∀ other ∈ caps, (f other).isSome → other.capabilityPriority ≤ cap.capabilityPriority := by
  obtain ⟨before, cap, after, hsplit, hcap, hnone⟩ := List.findSome?_eq_some_iff.mp h
  have hsorted := pairwise_byPriority caps
  rw [hsplit] at hsorted
  have hmem : cap ∈ byPriority caps := by
    rw [hsplit]
    exact List.mem_append_right before List.mem_cons_self
  refine ⟨cap, mem_byPriority.mp hmem, hcap, ?_⟩
  intro other hother hsome
  have hplace : other ∈ before ++ cap :: after := hsplit ▸ mem_byPriority.mpr hother
  rcases List.mem_append.mp hplace with hbefore | hrest
  · rw [hnone other hbefore] at hsome
    cases hsome
  rcases List.mem_cons.mp hrest with rfl | hafter
  · exact Nat.le_refl _
  · exact (List.pairwise_cons.mp (List.pairwise_append.mp hsorted).2.1).1 other hafter

theorem headD_byPriority {caps : List CapabilitySet} (h : caps ≠ []) (d : CapabilitySet) :
    (byPriority caps).headD d ∈ caps ∧
      ∀ other ∈ caps, other.capabilityPriority ≤ ((byPriority caps).headD d).capabilityPriority := by
  have hsorted := pairwise_byPriority caps
  rcases heq : byPriority caps with _ | ⟨first, rest⟩
  · refine absurd (List.eq_nil_iff_forall_not_mem.mpr fun cap hcap => ?_) h
    have hmem := mem_byPriority.mpr hcap
    rw [heq] at hmem
    exact List.not_mem_nil hmem
  · rw [heq] at hsorted
    have hfirst : first ∈ byPriority caps := by
      rw [heq]
      exact List.mem_cons_self
    refine ⟨mem_byPriority.mp hfirst, ?_⟩
    intro other hother
    have hplace : other ∈ first :: rest := heq ▸ mem_byPriority.mpr hother
    rcases List.mem_cons.mp hplace with rfl | hrest
    · exact Nat.le_refl _
    · exact (List.pairwise_cons.mp hsorted).1 other hrest

/-- The set of the client that answers one of the server. -/
theorem find_version {clientCaps : List CapabilitySet} {version : UInt32} :
    (clientCaps.find? fun c => c.version = version).isSome ↔ ∃ c ∈ clientCaps, c.version = version := by
  rw [List.find?_isSome]
  simp only [decide_eq_true_eq]

/-- Both know the version. -/
def Shared (h : Handler) (cap : CapabilitySet) : Prop := ∃ own ∈ h.preferredCapabilities, own.version = cap.version

theorem negotiateCapabilities_spec (h : Handler) (clientCaps : List CapabilitySet) :
    (negotiateCapabilities clientCaps h.preferredCapabilities = none ∧ ∀ cap ∈ clientCaps, ¬Shared h cap) ∨
      ∃ confirmed, negotiateCapabilities clientCaps h.preferredCapabilities = some confirmed ∧
        (∃ offered ∈ clientCaps, Confirms offered confirmed) ∧ Shared h confirmed ∧
        ∀ cap ∈ clientCaps, Shared h cap → cap.capabilityPriority ≤ confirmed.capabilityPriority := by
  unfold negotiateCapabilities
  rcases hfound : (byPriority h.preferredCapabilities).findSome? _ with _ | confirmed
  · refine .inl ⟨rfl, ?_⟩
    rintro cap hcap ⟨own, hown, hversion⟩
    have hnone := List.findSome?_eq_none_iff.mp hfound own (mem_byPriority.mpr hown)
    have hsome := find_version.mpr ⟨cap, hcap, hversion.symm⟩
    rw [Option.map_eq_none_iff.mp hnone] at hsome
    cases hsome
  · obtain ⟨own, hown, hmade, hbest⟩ := findSome_byPriority hfound
    obtain ⟨offered, hoffered, rfl⟩ := Option.map_eq_some_iff.mp hmade
    have hversion : offered.version = own.version := by
      have hfound := List.find?_some hoffered
      exact of_decide_eq_true hfound
    have hconfirms := (confirms_intersectFlags hversion).trans (confirms_sanitize _)
    have hsame := hconfirms.version.trans hversion
    refine .inr ⟨_, rfl, ⟨offered, List.mem_of_find?_eq_some hoffered, hconfirms⟩, ⟨own, hown, hsame.symm⟩, ?_⟩
    rintro cap hcap ⟨other, hother, hshared⟩
    have hsome := find_version.mpr ⟨cap, hcap, hshared.symm⟩
    have hle := hbest other hother (by rw [Option.isSome_map]; exact hsome)
    calc cap.capabilityPriority = other.capabilityPriority := (capabilityPriority_eq hshared).symm
      _ ≤ own.capabilityPriority := hle
      _ = _ := (capabilityPriority_eq hsame).symm

end CapabilitySet

/-! ### What the client reads -/

theorem parsed_toRaw (cap : CapabilitySet) : cap.toRaw.parsed = .ok (some cap) := by
  have hflags : ∀ (set : UInt32 → CapabilitySet) (flags : UInt32),
      RawCapabilitySet.readFlags set (le32 flags) = .ok (some (set flags), []) := by
    intro set flags
    have htakes : Takes (do return some (set (← readLe32))) (le32 flags) (some (set flags)) :=
      (takes_le32 flags).bind_nil (.pure _)
    exact (htakes.ensured (Nat.le_refl 4)).run_all
  cases cap with
  | v10_1 => rfl
  | v8 flags | v8_1 flags | v10 flags | v10_2 flags | v10_3 flags | v10_4 flags | v10_5 flags | v10_6 flags
  | v10_6Err flags | v10_7 flags => exact congrArg (Except.map Prod.fst) (hflags _ flags)

/-- What the server confirms to a client. -/
structure Agreed (h : Handler) (clientCaps : List CapabilitySet) (confirmed : CapabilitySet) : Prop where
  offered : ∃ offered ∈ clientCaps, Confirms offered confirmed
  exclusive : confirmed.Exclusive
  /-- If both know a version, it is one that both know, and the highest. -/
  shared : (∃ cap ∈ clientCaps, CapabilitySet.Shared h cap) → CapabilitySet.Shared h confirmed
  best : ∀ cap ∈ clientCaps, CapabilitySet.Shared h cap ∨ ¬CapabilitySet.Shared h confirmed →
    cap.capabilityPriority ≤ confirmed.capabilityPriority

theorem agreed_confirmedFor (h : Handler) {clientCaps : List CapabilitySet} (hne : clientCaps ≠ []) :
    Agreed h clientCaps (GraphicsPipelineServer.confirmedFor h clientCaps) := by
  have hsanitize := fun cap => CapabilitySet.confirms_sanitize cap
  unfold GraphicsPipelineServer.confirmedFor
  rcases CapabilitySet.negotiateCapabilities_spec h clientCaps with
    ⟨hnone, hunshared⟩ | ⟨confirmed, hsome, ⟨offered, hoffered, hconfirms⟩, ⟨own, hown, hversion⟩, hbest⟩
  · rw [hnone]
    obtain ⟨hhead, hhighest⟩ := CapabilitySet.headD_byPriority hne (.v8 0)
    change Agreed h clientCaps ((CapabilitySet.byPriority clientCaps).headD _).sanitizeCapabilitiesForConfirm
    generalize (CapabilitySet.byPriority clientCaps).headD (.v8 0) = first at hhead hhighest ⊢
    refine ⟨⟨first, hhead, hsanitize first⟩, CapabilitySet.exclusive_sanitize first, ?_, ?_⟩
    · rintro ⟨cap, hcap, hshared⟩
      exact absurd hshared (hunshared cap hcap)
    · intro cap hcap _
      rw [CapabilitySet.capabilityPriority_eq (hsanitize first).version]
      exact hhighest cap hcap
  · rw [hsome]
    change Agreed h clientCaps confirmed.sanitizeCapabilitiesForConfirm
    have hshared : CapabilitySet.Shared h confirmed.sanitizeCapabilitiesForConfirm :=
      ⟨own, hown, hversion.trans (hsanitize confirmed).version.symm⟩
    refine ⟨⟨offered, hoffered, hconfirms.trans (hsanitize confirmed)⟩, CapabilitySet.exclusive_sanitize confirmed,
      fun _ => hshared, ?_⟩
    intro cap hcap hcase
    rw [CapabilitySet.capabilityPriority_eq (hsanitize confirmed).version]
    rcases hcase with hknown | hunknown
    · exact hbest cap hcap hknown
    · exact absurd hshared hunknown

/-- Whatever the state of the server, it answers a client that offers a version it knows. -/
theorem capabilities_agreed (h : Handler) (s : GraphicsPipelineServer) {pdu : CapabilitiesAdvertisePdu}
    {parsed : List (Option CapabilitySet)} (hparsed : pdu.sets.mapM RawCapabilitySet.parsed = .ok parsed)
    (hknown : parsed.filterMap id ≠ []) :
    ∃ confirmed raw, Agreed h (parsed.filterMap id) confirmed ∧
      (s.handleCapabilitiesAdvertise h pdu).state = .ready ∧
      (s.handleCapabilitiesAdvertise h pdu).negotiatedCaps = some confirmed ∧
      (s.handleCapabilitiesAdvertise h pdu).codecCaps = .fromCapabilitySet confirmed ∧
      (s.handleCapabilitiesAdvertise h pdu).outputQueue = s.outputQueue ++ [.capabilitiesConfirm raw] ∧
      raw.parsed = .ok (some confirmed) := by
  have hqueue : s.reinitialize.outputQueue = s.outputQueue := by
    unfold GraphicsPipelineServer.reinitialize
    by_cases hready : s.state = .ready
    · rw [if_pos hready]
    · rw [if_neg hready]
  unfold GraphicsPipelineServer.handleCapabilitiesAdvertise
  simp only [hparsed]
  refine ⟨GraphicsPipelineServer.confirmedFor h (parsed.filterMap id), _, agreed_confirmedFor h hknown, rfl, rfl, rfl,
    ?_, parsed_toRaw _⟩
  change s.reinitialize.outputQueue ++ _ = _
  rw [hqueue]

theorem capabilities_agreed_drift :
    ∃ confirmed raw, Agreed .default advertisedCaps confirmed ∧
      ((GraphicsPipelineServer.withCompression .default .never).handleCapabilitiesAdvertise .default
        ⟨advertisedCaps.map CapabilitySet.toRaw⟩).state = .ready ∧
      ((GraphicsPipelineServer.withCompression .default .never).handleCapabilitiesAdvertise .default
        ⟨advertisedCaps.map CapabilitySet.toRaw⟩).negotiatedCaps = some confirmed ∧
      ((GraphicsPipelineServer.withCompression .default .never).handleCapabilitiesAdvertise .default
        ⟨advertisedCaps.map CapabilitySet.toRaw⟩).codecCaps = .fromCapabilitySet confirmed ∧
      ((GraphicsPipelineServer.withCompression .default .never).handleCapabilitiesAdvertise .default
        ⟨advertisedCaps.map CapabilitySet.toRaw⟩).outputQueue = [] ++ [.capabilitiesConfirm raw] ∧
      raw.parsed = .ok (some confirmed) := by
  have hparsed : (advertisedCaps.map CapabilitySet.toRaw).mapM RawCapabilitySet.parsed =
      .ok (advertisedCaps.map some) := rfl
  exact capabilities_agreed .default (.withCompression .default .never) hparsed (by decide)

/-- The server that decides nothing sends AVC420 to Drift. -/
example : GraphicsPipelineServer.confirmedFor .default advertisedCaps = .v8_1 avc420Enabled := by decide

end Drift.Egfx
