import Drift.Channel.Pdu

/-!
# PDUs of the dynamic channels are read back

What a side encodes, the other decodes to the same PDU, and nothing is left over.
-/

namespace Drift.Channel

open Pdu Reader

/-! ### Fields -/

theorem header_ofU8_toU8 (h : Header) : Header.ofU8 h.toU8 = .ok h := by
  obtain ⟨cbId, sp, cmd⟩ := h
  cases cbId <;> cases sp <;> cases cmd <;> rfl

theorem takes_header (h : Header) : Takes Header.decode h.encode h := by
  have hread : Takes (do StateT.lift (Header.ofU8 (← readU8))) [h.toU8] h :=
    (takes_readU8 h.toU8).bind_nil (takes_lift (header_ofU8_toU8 h))
  exact hread.ensured (Nat.le_refl 1)

theorem encodeVal_eq_ok {t : FieldType} {value : UInt32} {bytes : Bytes} (h : t.encodeVal value = .ok bytes) :
    t ≠ .invalid ∧ value.toNat < 256 ^ t.sizeOfVal ∧ bytes = toLeBytes t.sizeOfVal value.toNat := by
  unfold FieldType.encodeVal at h
  by_cases hfits : value.toNat < 256 ^ t.sizeOfVal
  · cases t with
    | u8 => exact ⟨by decide, hfits, (Except.ok.inj ((if_pos hfits).symm.trans h)).symm⟩
    | u16 => exact ⟨by decide, hfits, (Except.ok.inj ((if_pos hfits).symm.trans h)).symm⟩
    | u32 => exact ⟨by decide, hfits, (Except.ok.inj ((if_pos hfits).symm.trans h)).symm⟩
    | invalid => cases h
  · cases t with
    | u8 => cases (if_neg hfits).symm.trans h
    | u16 => cases (if_neg hfits).symm.trans h
    | u32 => cases (if_neg hfits).symm.trans h
    | invalid => cases h

theorem length_encodeVal {t : FieldType} {value : UInt32} {bytes : Bytes} (h : t.encodeVal value = .ok bytes) :
    bytes.length = t.sizeOfVal := by
  obtain ⟨-, -, rfl⟩ := encodeVal_eq_ok h
  exact length_toLeBytes _ _

theorem takes_decodeVal {t : FieldType} {value : UInt32} {bytes : Bytes} (h : t.encodeVal value = .ok bytes) :
    Takes t.decodeVal bytes value := by
  obtain ⟨hvalid, hlt, rfl⟩ := encodeVal_eq_ok h
  unfold FieldType.decodeVal
  apply Takes.ensured _ (Nat.le_of_eq (length_toLeBytes t.sizeOfVal value.toNat).symm)
  cases t with
  | u8 =>
      have hbyte : toLeBytes 1 value.toNat = [value.toUInt8] := by
        apply congrArg (· :: [])
        apply UInt8.toNat_inj.mp
        rw [Nat.toUInt8_eq, UInt8.toNat_ofNat', UInt32.toNat_toUInt8, Nat.mod_mod]
      have hvalue : value.toUInt8.toUInt32 = value := by
        apply UInt32.toNat_inj.mp
        rw [UInt8.toNat_toUInt32, UInt32.toNat_toUInt8]
        exact Nat.mod_eq_of_lt hlt
      have hread : Takes (do return (← readU8).toUInt32) [value.toUInt8] value.toUInt8.toUInt32 :=
        (takes_readU8 value.toUInt8).bind_nil (Prefix.Reads.pure _)
      rw [hvalue] at hread
      rw [← hbyte] at hread
      exact hread
  | u16 =>
      have hread : Takes (do return UInt32.ofNat (← readU16)) (toLeBytes 2 value.toNat) (.ofNat value.toNat) :=
        (takes_readU16 hlt).bind_nil (Prefix.Reads.pure _)
      rwa [UInt32.ofNat_toNat] at hread
  | u32 =>
      have hread : Takes (do return UInt32.ofNat (← readU32)) (toLeBytes 4 value.toNat) (.ofNat value.toNat) :=
        (takes_readU32 hlt).bind_nil (Prefix.Reads.pure _)
      rwa [UInt32.ofNat_toNat] at hread
  | invalid => exact absurd rfl hvalid

/-! ### PDUs -/

theorem decode_dataFirst {pdu : DataFirstPdu} {bytes : Bytes} (h : pdu.encode = .ok bytes) :
    ∃ rest, bytes = pdu.header.encode ++ rest ∧ DataFirstPdu.decode pdu.header rest = .ok (pdu, []) := by
  obtain ⟨channelId, hchannel, h⟩ := bind_eq_ok h
  obtain ⟨length, hlength, h⟩ := bind_eq_ok h
  refine ⟨channelId ++ (length ++ pdu.data), ?_, ?_⟩
  · rw [← Except.ok.inj h, List.append_assoc, List.append_assoc]
  · have hsize : pdu.header.cbId.sizeOfVal + pdu.header.sp.sizeOfVal ≤
        (channelId ++ (length ++ pdu.data)).length := by
      rw [List.length_append, List.length_append, length_encodeVal hchannel, length_encodeVal hlength]
      omega
    unfold DataFirstPdu.decode
    rw [ensureSize_then hsize, takes_then (takes_decodeVal hchannel), takes_then (takes_decodeVal hlength)]
    rfl

theorem decode_data {pdu : DataPdu} {bytes : Bytes} (h : pdu.encode = .ok bytes) :
    ∃ rest, bytes = pdu.header.encode ++ rest ∧ DataPdu.decode pdu.header rest = .ok (pdu, []) := by
  obtain ⟨channelId, hchannel, h⟩ := bind_eq_ok h
  refine ⟨channelId ++ pdu.data, ?_, ?_⟩
  · rw [← Except.ok.inj h, List.append_assoc]
  · have hsize : pdu.header.cbId.sizeOfVal ≤ (channelId ++ pdu.data).length := by
      rw [List.length_append, length_encodeVal hchannel]
      omega
    unfold DataPdu.decode
    rw [ensureSize_then hsize, takes_then (takes_decodeVal hchannel)]
    rfl

theorem decode_close {pdu : ClosePdu} {bytes : Bytes} (h : pdu.encode = .ok bytes) :
    ∃ rest, bytes = pdu.header.encode ++ rest ∧ ClosePdu.decode pdu.header rest = .ok (pdu, []) := by
  obtain ⟨channelId, hchannel, h⟩ := bind_eq_ok h
  refine ⟨channelId ++ [], ?_, ?_⟩
  · rw [← Except.ok.inj h, List.append_nil]
  · have hsize : pdu.header.cbId.sizeOfVal ≤ (channelId ++ []).length := by
      rw [List.append_nil, length_encodeVal hchannel]
    unfold ClosePdu.decode
    rw [ensureSize_then hsize, takes_then (takes_decodeVal hchannel)]
    rfl

theorem decode_createResponse {pdu : CreateResponsePdu} {bytes : Bytes} (h : pdu.encode = .ok bytes) :
    ∃ rest, bytes = pdu.header.encode ++ rest ∧ CreateResponsePdu.decode pdu.header rest = .ok (pdu, []) := by
  obtain ⟨channelId, hchannel, h⟩ := bind_eq_ok h
  refine ⟨channelId ++ (toLeBytes 4 pdu.creationStatus.toNat ++ []), ?_, ?_⟩
  · rw [← Except.ok.inj h, List.append_nil, List.append_assoc]
  · have hsize : pdu.header.cbId.sizeOfVal + 4 ≤
        (channelId ++ (toLeBytes 4 pdu.creationStatus.toNat ++ [])).length := by
      rw [List.length_append, List.length_append, length_toLeBytes, length_encodeVal hchannel]
      omega
    unfold CreateResponsePdu.decode
    rw [ensureSize_then hsize, takes_then (takes_decodeVal hchannel),
      takes_then (takes_readU32 pdu.creationStatus.toNat_lt), UInt32.ofNat_toNat]
    rfl

theorem ofU16_toU16 (version : CapsVersion) : CapsVersion.ofU16 version.toU16 = .ok version := by
  cases version <;> rfl

theorem toU16_lt (version : CapsVersion) : version.toU16 < 2 ^ 16 := by
  cases version <;> decide

theorem decode_capabilitiesResponse (pdu : CapabilitiesResponsePdu) :
    ∃ rest, pdu.encode = pdu.header.encode ++ rest ∧
      CapabilitiesResponsePdu.decode pdu.header rest = .ok (pdu, []) := by
  refine ⟨[0] ++ (toLeBytes 2 pdu.version.toU16 ++ []), ?_, ?_⟩
  · rw [List.append_nil, ← List.append_assoc]
    rfl
  · have hsize : 3 ≤ ([0] ++ (toLeBytes 2 pdu.version.toU16 ++ [])).length := by
      rw [List.length_append, List.length_append, length_toLeBytes]
      decide
    unfold CapabilitiesResponsePdu.decode
    rw [ensureSize_then hsize, takes_then (takes_readU8 0), takes_then (takes_readU16 (toU16_lt pdu.version)),
      ofU16_toU16]
    rfl

theorem decode_charges (charges : Charges) : Charges.decode charges.encode = .ok (charges, []) := by
  have hbytes : charges.encode = toLeBytes 2 charges.first.toNat ++ (toLeBytes 2 charges.second.toNat ++
      (toLeBytes 2 charges.third.toNat ++ (toLeBytes 2 charges.fourth.toNat ++ []))) := by
    rw [List.append_nil, ← List.append_assoc, ← List.append_assoc]
    rfl
  have hsize : 8 ≤ charges.encode.length := by
    unfold Charges.encode
    rw [List.length_append, List.length_append, List.length_append, length_toLeBytes, length_toLeBytes,
      length_toLeBytes, length_toLeBytes]
  unfold Charges.decode
  rw [ensureSize_then hsize, hbytes, takes_then (takes_readU16 charges.first.toNat_lt),
    takes_then (takes_readU16 charges.second.toNat_lt), takes_then (takes_readU16 charges.third.toNat_lt),
    takes_then (takes_readU16 charges.fourth.toNat_lt), UInt16.ofNat_toNat, UInt16.ofNat_toNat,
    UInt16.ofNat_toNat, UInt16.ofNat_toNat]
  rfl

theorem decode_capabilitiesRequest (pdu : CapabilitiesRequestPdu) :
    ∃ rest, pdu.encode = pdu.header.encode ++ rest ∧
      CapabilitiesRequestPdu.decode pdu.header rest = .ok (pdu, []) := by
  have hread : ∀ (f : CapsVersion → Reader CapabilitiesRequestPdu) (version : CapsVersion) (rest : Bytes),
      (do
        ensureSize 3
        let _pad ← readU8
        let version ← StateT.lift (CapsVersion.ofU16 (← readU16))
        f version) ([0] ++ (toLeBytes 2 version.toU16 ++ rest)) = f version rest := by
    intro f version rest
    have hsize : 3 ≤ ([0] ++ (toLeBytes 2 version.toU16 ++ rest)).length := by
      rw [List.length_append, List.length_append, length_toLeBytes, List.length_singleton]
      omega
    rw [ensureSize_then hsize, takes_then (takes_readU8 0), takes_then (takes_readU16 (toU16_lt version)),
      ofU16_toU16]
    rfl
  unfold CapabilitiesRequestPdu.decode
  cases pdu with
  | v1 header =>
      refine ⟨[0] ++ (toLeBytes 2 CapsVersion.v1.toU16 ++ []), ?_, ?_⟩
      · rw [← List.append_assoc, ← List.append_assoc]
        rfl
      · rw [hread]
        rfl
  | v2 header charges =>
      refine ⟨[0] ++ (toLeBytes 2 CapsVersion.v2.toU16 ++ charges.encode), ?_, ?_⟩
      · rw [← List.append_assoc, ← List.append_assoc]
        rfl
      · rw [hread]
        exact Prefix.bind_of_ok (decode_charges charges)
  | v3 header charges =>
      refine ⟨[0] ++ (toLeBytes 2 CapsVersion.v3.toU16 ++ charges.encode), ?_, ?_⟩
      · rw [← List.append_assoc, ← List.append_assoc]
        rfl
      · rw [hread]
        exact Prefix.bind_of_ok (decode_charges charges)

/-! ### Names -/

theorem zero_notMem_utf8EncodeChar {c : Char} (h : c ≠ '\x00') : 0 ∉ String.utf8EncodeChar c := by
  have hpos : c.val.toNat ≠ 0 := by
    intro hzero
    exact h (Char.ext (UInt32.toNat_inj.mp hzero))
  have hbyte : ∀ n : Nat, n < 256 → n ≠ 0 → (0 : UInt8) ≠ UInt8.ofNat n := by
    intro n hlt hne hzero
    have hn := congrArg UInt8.toNat hzero
    rw [UInt8.toNat_ofNat', Nat.mod_eq_of_lt hlt] at hn
    exact hne hn.symm
  unfold String.utf8EncodeChar
  simp only
  by_cases hone : c.val.toNat ≤ 0x7f
  · rw [if_pos hone]
    simp only [List.mem_singleton]
    exact hbyte _ (by omega) hpos
  · rw [if_neg hone]
    by_cases htwo : c.val.toNat ≤ 0x7ff
    · rw [if_pos htwo]
      simp only [List.mem_cons, List.not_mem_nil, or_false, not_or]
      exact ⟨hbyte _ (by omega) (by omega), hbyte _ (by omega) (by omega)⟩
    · rw [if_neg htwo]
      by_cases hthree : c.val.toNat ≤ 0xffff
      · rw [if_pos hthree]
        simp only [List.mem_cons, List.not_mem_nil, or_false, not_or]
        exact ⟨hbyte _ (by omega) (by omega), hbyte _ (by omega) (by omega), hbyte _ (by omega) (by omega)⟩
      · rw [if_neg hthree]
        simp only [List.mem_cons, List.not_mem_nil, or_false, not_or]
        exact ⟨hbyte _ (by omega) (by omega), hbyte _ (by omega) (by omega), hbyte _ (by omega) (by omega),
          hbyte _ (by omega) (by omega)⟩

theorem bytes_of_string (value : String) :
    value.toUTF8.data.toList = value.toList.flatMap String.utf8EncodeChar := by
  have hbytes : value.toUTF8 = value.toList.utf8Encode := String.utf8Encode_toList.symm
  rw [hbytes]
  unfold List.utf8Encode
  rw [List.data_toByteArray]

theorem decode_ansiString {value : String} (h : '\x00' ∉ value.toList) :
    readAnsiString (ansiString value) = .ok (value, []) := by
  have hnull : (0 : UInt8) ∉ value.toUTF8.data.toList := by
    rw [bytes_of_string]
    intro hmem
    obtain ⟨c, hc, hbyte⟩ := List.mem_flatMap.mp hmem
    exact zero_notMem_utf8EncodeChar (fun hzero => h (hzero ▸ hc)) hbyte
  have htaken : (ansiString value).takeWhile (· ≠ 0) = value.toUTF8.data.toList := by
    unfold ansiString
    rw [List.takeWhile_append_of_pos]
    · exact List.append_nil _
    · intro byte hbyte
      rw [decide_eq_true_iff]
      rintro rfl
      exact hnull hbyte
  have hsize : min (ansiString value).length (((ansiString value).takeWhile (· ≠ 0)).length + 1) =
      (ansiString value).length := by
    have hlength : (ansiString value).length = value.toUTF8.data.toList.length + 1 := List.length_append
    rw [htaken, hlength, Nat.min_self]
  have hsome : (ansiString value).length ≠ 0 := by
    unfold ansiString
    simp
  have hbytes : ByteArray.mk (ansiString value).toArray = (value.push '\x00').toByteArray := by
    apply ByteArray.ext
    rw [String.toByteArray_push, ByteArray.data_append]
    apply Array.toList_inj.mp
    rw [Array.toList_append]
    rfl
  have hdecode : String.fromUTF8? ⟨(ansiString value).toArray⟩ = some (value.push '\x00') := by
    rw [hbytes]
    exact dif_pos (value.push '\x00').isValidUTF8
  have htrim : String.ofList ((value.push '\x00').toList.rdropWhile (· = '\x00')) = value := by
    have hself : value.toList.rdropWhile (· = '\x00') = value.toList := by
      rw [List.rdropWhile_eq_self_iff]
      intro hne hlast
      rw [decide_eq_true_iff] at hlast
      exact h (hlast ▸ List.getLast_mem hne)
    rw [String.toList_push, List.rdropWhile_concat_pos _ _ _ (by decide), hself, String.ofList_toList]
  have hvalue : decodeUtf8 (ansiString value) = .ok value := by
    unfold decodeUtf8
    rw [hdecode]
    exact congrArg Except.ok htrim
  have hread : Takes (do StateT.lift (decodeUtf8 (← readSlice (ansiString value).length))) (ansiString value) value :=
    (takes_readSlice rfl).bind_nil (takes_lift hvalue)
  unfold readAnsiString
  change (if min _ _ = 0 then _ else _ : Reader String) _ = _
  rw [hsize, if_neg hsome]
  exact hread.run_all

theorem decode_createRequest {pdu : CreateRequestPdu} (hname : '\x00' ∉ pdu.channelName.toList) {bytes : Bytes}
    (h : pdu.encode = .ok bytes) :
    ∃ rest, bytes = pdu.header.encode ++ rest ∧ CreateRequestPdu.decode pdu.header rest = .ok (pdu, []) := by
  obtain ⟨channelId, hchannel, h⟩ := bind_eq_ok h
  refine ⟨channelId ++ ansiString pdu.channelName, ?_, ?_⟩
  · rw [← Except.ok.inj h, List.append_assoc]
  · have hsize : pdu.header.cbId.sizeOfVal ≤ (channelId ++ ansiString pdu.channelName).length := by
      rw [List.length_append, length_encodeVal hchannel]
      omega
    unfold CreateRequestPdu.decode
    rw [ensureSize_then hsize, takes_then (takes_decodeVal hchannel), Prefix.bind_of_ok (decode_ansiString hname)]
    rfl

/-! ### Soft-Sync -/

theorem takes_readU32s (values : List UInt32) : Takes (readU32s values.length) (u32s values) values := by
  induction values with
  | nil => exact Prefix.Reads.pure []
  | cons value values ih =>
      have hread : Takes
          (do
            let value ← readU32
            let values ← readU32s values.length
            return .ofNat value :: values)
          (toLeBytes 4 value.toNat ++ u32s values) (.ofNat value.toNat :: values) :=
        (takes_readU32 value.toNat_lt).bind (ih.bind_nil (Prefix.Reads.pure _))
      rw [UInt32.ofNat_toNat] at hread
      exact hread

theorem length_u32s (values : List UInt32) : (u32s values).length = values.length * 4 := by
  induction values with
  | nil => rfl
  | cons value values ih =>
      change (toLeBytes 4 value.toNat ++ u32s values).length = _
      rw [List.length_append, length_toLeBytes, ih, List.length_cons, Nat.add_mul, Nat.one_mul, Nat.add_comm]

theorem takes_channelList {list : SoftSyncChannelList} (h : list.channelIds.length ≤ u16Max) :
    Takes SoftSyncChannelList.decode list.encode list := by
  have hcount : list.channelIds.length < 2 ^ 16 := Nat.lt_succ_of_le h
  have hids : Takes (do
        ensureSize (list.channelIds.length * 4)
        let channelIds ← readU32s list.channelIds.length
        return (⟨.ofNat list.tunnelType.toNat, channelIds⟩ : SoftSyncChannelList))
      (u32s list.channelIds) ⟨.ofNat list.tunnelType.toNat, list.channelIds⟩ := by
    have hlist : Takes (do
          let channelIds ← readU32s list.channelIds.length
          return (⟨.ofNat list.tunnelType.toNat, channelIds⟩ : SoftSyncChannelList))
        (u32s list.channelIds) ⟨.ofNat list.tunnelType.toNat, list.channelIds⟩ :=
      (takes_readU32s list.channelIds).bind_nil (Prefix.Reads.pure _)
    exact hlist.ensured (Nat.le_of_eq (length_u32s list.channelIds).symm)
  have hread : Takes (do
        let tunnelType ← readU32
        let numberOfDvcs ← readU16
        ensureSize (numberOfDvcs * 4)
        let channelIds ← readU32s numberOfDvcs
        return (⟨.ofNat tunnelType, channelIds⟩ : SoftSyncChannelList))
      (toLeBytes 4 list.tunnelType.toNat ++ (toLeBytes 2 list.channelIds.length ++ u32s list.channelIds))
      ⟨.ofNat list.tunnelType.toNat, list.channelIds⟩ :=
    (takes_readU32 list.tunnelType.toNat_lt).bind ((takes_readU16 hcount).bind hids)
  rw [UInt32.ofNat_toNat, ← List.append_assoc] at hread
  apply Takes.ensured hread
  rw [List.length_append, List.length_append, length_toLeBytes, length_toLeBytes]
  omega

theorem takes_decodeLists {l : Listed} {lists : List SoftSyncChannelList}
    (h : SoftSyncRequestPdu.validateLists l lists = .ok ()) :
    Takes (SoftSyncRequestPdu.decodeLists l lists.length) (lists.flatMap SoftSyncChannelList.encode) lists := by
  induction lists generalizing l with
  | nil => exact Prefix.Reads.pure []
  | cons list lists ih =>
      unfold SoftSyncRequestPdu.validateLists at h
      by_cases hlong : list.channelIds.length > u16Max
      · rw [if_pos hlong] at h
        cases h
      · rw [if_neg hlong] at h
        cases hinsert : l.insert list with
        | error e =>
            rw [hinsert] at h
            cases h
        | ok l' =>
            rw [hinsert] at h
            have hrest : Takes (do return list :: (← SoftSyncRequestPdu.decodeLists l' lists.length))
                (lists.flatMap SoftSyncChannelList.encode) (list :: lists) :=
              (ih h).bind_nil (Prefix.Reads.pure _)
            rw [List.length_cons, List.flatMap_cons]
            apply Prefix.Reads.bind (takes_channelList (Nat.le_of_not_lt hlong))
            rw [hinsert]
            exact hrest

theorem length_channelLists (lists : List SoftSyncChannelList) :
    lists.length * 6 ≤ (lists.flatMap SoftSyncChannelList.encode).length := by
  induction lists with
  | nil => exact Nat.zero_le _
  | cons list lists ih =>
      have hlist : 6 ≤ list.encode.length := by
        unfold SoftSyncChannelList.encode
        rw [List.length_append, List.length_append, length_toLeBytes, length_toLeBytes]
        omega
      rw [List.flatMap_cons, List.length_append, List.length_cons]
      omega

theorem flags_softSyncRequest (pdu : SoftSyncRequestPdu) :
    pdu.flags < 2 ^ 16 ∧ pdu.flags &&& SoftSyncRequestPdu.tcpFlushed ≠ 0 := by
  unfold SoftSyncRequestPdu.flags
  by_cases hnone : pdu.channelLists = []
  · rw [if_pos hnone]
    decide
  · rw [if_neg hnone]
    decide

theorem decode_softSyncRequest {pdu : SoftSyncRequestPdu} {bytes : Bytes} (h : pdu.encode = .ok bytes) :
    ∃ rest, bytes = (Header.new 0 0 .softSyncRequest).encode ++ rest ∧
      SoftSyncRequestPdu.decode (.new 0 0 .softSyncRequest) rest = .ok (pdu, []) := by
  obtain ⟨_, hvalid, h⟩ := bind_eq_ok h
  have hlength : ¬pdu.length > u32Max := by
    intro hlong
    rw [if_pos hlong] at h
    cases h
  rw [if_neg hlength] at h
  have hcount : ¬pdu.channelLists.length > u16Max := by
    intro hmany
    unfold SoftSyncRequestPdu.validate at hvalid
    rw [if_pos hmany] at hvalid
    cases hvalid
  have hlists : SoftSyncRequestPdu.validateLists ⟨[], []⟩ pdu.channelLists = .ok () := by
    unfold SoftSyncRequestPdu.validate at hvalid
    rwa [if_neg hcount] at hvalid
  obtain ⟨hflags, hflushed⟩ := flags_softSyncRequest pdu
  have hbody : pdu.body = toLeBytes 2 pdu.flags ++ (toLeBytes 2 pdu.channelLists.length ++
      (pdu.channelLists.flatMap SoftSyncChannelList.encode ++ [])) := by
    rw [List.append_nil, ← List.append_assoc]
    rfl
  have hrest : ([0] ++ (toLeBytes 4 pdu.length ++ pdu.body)).length = 1 + pdu.length := by
    unfold SoftSyncRequestPdu.length
    rw [List.length_append, List.length_append, length_toLeBytes, List.length_singleton]
  have hfits : ¬pdu.channelLists.length >
      (pdu.channelLists.flatMap SoftSyncChannelList.encode ++ []).length / 6 := by
    have hle := length_channelLists pdu.channelLists
    rw [List.append_nil]
    omega
  have hsize : 9 ≤ ([0] ++ (toLeBytes 4 pdu.length ++ pdu.body)).length := by
    have hheader : 4 ≤ pdu.body.length := by
      rw [hbody, List.length_append, List.length_append, length_toLeBytes, length_toLeBytes]
      omega
    have htotal : pdu.length = 4 + pdu.body.length := rfl
    omega
  refine ⟨[0] ++ (toLeBytes 4 pdu.length ++ pdu.body), ?_, ?_⟩
  · rw [← Except.ok.inj h, List.append_assoc, List.append_assoc]
  · unfold SoftSyncRequestPdu.decode
    rw [if_neg (by decide), ensureSize_then hsize, remaining_then, takes_then (takes_readU8 0),
      if_neg (by decide), takes_then (takes_readU32 (by unfold u32Max at hlength; omega)),
      if_neg (by omega), hbody, takes_then (takes_readU16 hflags), if_neg hflushed,
      takes_then (takes_readU16 (by unfold u16Max at hcount; omega)), remaining_then, if_neg hfits,
      takes_then (takes_decodeLists hlists), remaining_then, if_neg (not_not_intro rfl)]
    rfl

theorem decode_softSyncResponse {pdu : SoftSyncResponsePdu} {bytes : Bytes} (h : pdu.encode = .ok bytes) :
    ∃ rest, bytes = (Header.new 0 0 .softSyncResponse).encode ++ rest ∧
      SoftSyncResponsePdu.decode (.new 0 0 .softSyncResponse) rest = .ok (pdu, []) := by
  obtain ⟨_, hvalid, h⟩ := bind_eq_ok h
  unfold SoftSyncResponsePdu.validate at hvalid
  have hcount : ¬pdu.tunnelsToSwitch.length > u32Max := by
    intro hmany
    rw [if_pos hmany] at hvalid
    cases hvalid
  rw [if_neg hcount] at hvalid
  have hnodup : ¬¬pdu.tunnelsToSwitch.Nodup := by
    intro htwice
    rw [if_pos htwice] at hvalid
    cases hvalid
  have hfits : ¬pdu.tunnelsToSwitch.length > (u32s pdu.tunnelsToSwitch ++ []).length / 4 := by
    rw [List.append_nil, length_u32s]
    omega
  have hsize : 5 ≤ ([0] ++ (toLeBytes 4 pdu.tunnelsToSwitch.length ++ (u32s pdu.tunnelsToSwitch ++ []))).length := by
    rw [List.length_append, List.length_append, length_toLeBytes, List.length_singleton]
    omega
  refine ⟨[0] ++ (toLeBytes 4 pdu.tunnelsToSwitch.length ++ (u32s pdu.tunnelsToSwitch ++ [])), ?_, ?_⟩
  · rw [← Except.ok.inj h, List.append_nil, List.append_assoc, List.append_assoc]
  · unfold SoftSyncResponsePdu.decode
    rw [if_neg (by decide), ensureSize_then hsize, takes_then (takes_readU8 0), if_neg (by decide),
      takes_then (takes_readU32 (by unfold u32Max at hcount; omega)), remaining_then, if_neg hfits,
      takes_then (takes_readU32s pdu.tunnelsToSwitch), if_neg hnodup, remaining_then,
      if_neg (not_not_intro rfl)]
    rfl

/-! ### Both directions -/

/-- The header of the PDU is one of its kind, and a name has no null. -/
def DrdynvcServerPdu.WellFormed : DrdynvcServerPdu → Prop
  | capabilities pdu => pdu.header.cmd = .capability
  | create pdu => pdu.header.cmd = .create ∧ '\x00' ∉ pdu.channelName.toList
  | close pdu => pdu.header.cmd = .close
  | data (.dataFirst pdu) => pdu.header.cmd = .dataFirst
  | data (.data pdu) => pdu.header.cmd = .data
  | softSyncRequest _ => True

/-- The header of the PDU is one of its kind. -/
def DrdynvcClientPdu.WellFormed : DrdynvcClientPdu → Prop
  | capabilities pdu => pdu.header.cmd = .capability
  | create pdu => pdu.header.cmd = .create
  | close pdu => pdu.header.cmd = .close
  | data (.dataFirst pdu) => pdu.header.cmd = .dataFirst
  | data (.data pdu) => pdu.header.cmd = .data
  | softSyncResponse _ => True

theorem bind_pure_ok {α β : Type} {p : Reader α} {c : Bytes} {a : α} (h : p c = .ok (a, [])) (f : α → β) :
    (do return f (← p) : Reader β) c = .ok (f a, []) := Prefix.bind_of_ok h

theorem server_decode_encode {pdu : DrdynvcServerPdu} (hformed : pdu.WellFormed) {bytes : Bytes}
    (h : pdu.encode = .ok bytes) : DrdynvcServerPdu.decode bytes = .ok (pdu, []) := by
  unfold DrdynvcServerPdu.decode
  cases pdu with
  | capabilities pdu =>
      obtain ⟨rest, hbytes, hdecode⟩ := decode_capabilitiesRequest pdu
      change pdu.header.cmd = _ at hformed
      rw [← Except.ok.inj h, hbytes, takes_then (takes_header _), hformed]
      exact bind_pure_ok hdecode _
  | create pdu =>
      obtain ⟨hcmd, hname⟩ := hformed
      obtain ⟨rest, rfl, hdecode⟩ := decode_createRequest hname h
      rw [takes_then (takes_header _), hcmd]
      exact bind_pure_ok hdecode _
  | close pdu =>
      obtain ⟨rest, rfl, hdecode⟩ := decode_close h
      change pdu.header.cmd = _ at hformed
      rw [takes_then (takes_header _), hformed]
      exact bind_pure_ok hdecode _
  | data pdu =>
      cases pdu with
      | dataFirst pdu =>
          obtain ⟨rest, rfl, hdecode⟩ := decode_dataFirst h
          change pdu.header.cmd = _ at hformed
          rw [takes_then (takes_header _), hformed]
          exact bind_pure_ok hdecode fun pdu => DrdynvcServerPdu.data (.dataFirst pdu)
      | data pdu =>
          obtain ⟨rest, rfl, hdecode⟩ := decode_data h
          change pdu.header.cmd = _ at hformed
          rw [takes_then (takes_header _), hformed]
          exact bind_pure_ok hdecode fun pdu => DrdynvcServerPdu.data (.data pdu)
  | softSyncRequest pdu =>
      obtain ⟨rest, rfl, hdecode⟩ := decode_softSyncRequest h
      rw [takes_then (takes_header _)]
      exact bind_pure_ok hdecode _

theorem client_decode_encode {pdu : DrdynvcClientPdu} (hformed : pdu.WellFormed) {bytes : Bytes}
    (h : pdu.encode = .ok bytes) : DrdynvcClientPdu.decode bytes = .ok (pdu, []) := by
  unfold DrdynvcClientPdu.decode
  cases pdu with
  | capabilities pdu =>
      obtain ⟨rest, hbytes, hdecode⟩ := decode_capabilitiesResponse pdu
      change pdu.header.cmd = _ at hformed
      rw [← Except.ok.inj h, hbytes, takes_then (takes_header _), hformed]
      exact bind_pure_ok hdecode _
  | create pdu =>
      obtain ⟨rest, rfl, hdecode⟩ := decode_createResponse h
      change pdu.header.cmd = _ at hformed
      rw [takes_then (takes_header _), hformed]
      exact bind_pure_ok hdecode _
  | close pdu =>
      obtain ⟨rest, rfl, hdecode⟩ := decode_close h
      change pdu.header.cmd = _ at hformed
      rw [takes_then (takes_header _), hformed]
      exact bind_pure_ok hdecode _
  | data pdu =>
      cases pdu with
      | dataFirst pdu =>
          obtain ⟨rest, rfl, hdecode⟩ := decode_dataFirst h
          change pdu.header.cmd = _ at hformed
          rw [takes_then (takes_header _), hformed]
          exact bind_pure_ok hdecode fun pdu => DrdynvcClientPdu.data (.dataFirst pdu)
      | data pdu =>
          obtain ⟨rest, rfl, hdecode⟩ := decode_data h
          change pdu.header.cmd = _ at hformed
          rw [takes_then (takes_header _), hformed]
          exact bind_pure_ok hdecode fun pdu => DrdynvcClientPdu.data (.data pdu)
  | softSyncResponse pdu =>
      obtain ⟨rest, rfl, hdecode⟩ := decode_softSyncResponse h
      rw [takes_then (takes_header _)]
      exact bind_pure_ok hdecode _

/-- What either side encodes, the other decodes to the same PDU, and nothing is left over. -/
theorem dvc_pdus_round_trip :
    (∀ (pdu : DrdynvcServerPdu) (bytes : Bytes), pdu.WellFormed → pdu.encode = .ok bytes →
      DrdynvcServerPdu.decode bytes = .ok (pdu, [])) ∧
    ∀ (pdu : DrdynvcClientPdu) (bytes : Bytes), pdu.WellFormed → pdu.encode = .ok bytes →
      DrdynvcClientPdu.decode bytes = .ok (pdu, []) :=
  ⟨fun _ _ hformed h => server_decode_encode hformed h, fun _ _ hformed h => client_decode_encode hformed h⟩

theorem dvc_pdus_round_trip_sample :
    DrdynvcServerPdu.decode [0x31, 0x2c, 0x01, 7, 8, 9] =
        .ok (.data (.data (.new 300 [7, 8, 9])), []) ∧
      DrdynvcClientPdu.decode [0x10, 5, 0, 0, 0, 0] = .ok (.create (.new 5 creationStatusOk), []) :=
  ⟨dvc_pdus_round_trip.1 (.data (.data (.new 300 [7, 8, 9]))) [0x31, 0x2c, 0x01, 7, 8, 9] rfl rfl,
    dvc_pdus_round_trip.2 (.create (.new 5 creationStatusOk)) [0x10, 5, 0, 0, 0, 0] rfl rfl⟩

end Drift.Channel
