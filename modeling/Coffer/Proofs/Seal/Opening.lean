import Coffer.Proofs.Seal.Record
import Coffer.Proofs.Text.Utf8Exact
import Mathlib.Data.Bool.AllAny

-- Sealing a record and opening it are inverse to each other. A text opens under a key and for a
-- record exactly if its bytes are what sealing under the nonce in front of them gives, and what is
-- sealed opens again, under any nonce.

namespace Coffer.Seal

section

variable {key : Key} {recordKey sealedText text : String} {raw nonce cipher tag : Bytes}

-- What is left to do once the tag has been compared.
theorem openRecord_of_parts (hascii : ∀ c ∈ sealedText.toList, c.toNat < 128)
    (hraw : Base64.decodeChars sealedText.toList = some (nonce ++ (cipher ++ tag)))
    (hnonce : nonce.length = nonceLength) (htag : tag.length = Aead.tagLength) :
    openRecord key recordKey sealedText =
      if tag = Aead.tag key.bytes nonce (Utf8.encode recordKey) cipher then
        (Utf8.decode (ChaCha20.apply key.bytes nonce 1 cipher)).mapError .undecodable
      else .error (.notAuthentic recordKey) := by
  have hsplit : split? sealedText = some (nonce, cipher ++ tag) := by
    refine split?_eq_some_iff.mpr ⟨hascii, _, hraw, ?_, ?_, ?_⟩
    · simp only [List.length_append, hnonce, htag]
      omega
    · exact (List.take_left' hnonce).symm
    · exact (List.drop_left' hnonce).symm
  rw [openRecord, hsplit]
  dsimp only
  rw [Aead.decrypt?_append _ _ _ _ htag]
  by_cases hsame : tag = Aead.tag key.bytes nonce (Utf8.encode recordKey) cipher
  · rw [if_pos hsame, if_pos hsame]
  · rw [if_neg hsame, if_neg hsame]

-- Bytes that are a sealed record are so under the nonce in front of them.
theorem length_of_sealed {plain : Bytes} {associated : Bytes}
    (h : raw = raw.take nonceLength ++ Aead.encrypt key.bytes (raw.take nonceLength) associated plain) :
    nonceLength + Aead.tagLength ≤ raw.length := by
  have hlength := congrArg List.length h
  have htag : Aead.tagLength = 16 := rfl
  rw [List.length_append, List.length_take, Aead.length_encrypt] at hlength
  omega

-- What a text carries under a key and for a record: what sealing under the nonce in front has hidden.
def Carries (key : Key) (recordKey sealedText : String) (plain : Bytes) : Prop :=
  (∀ c ∈ sealedText.toList, c.toNat < 128) ∧
    ∃ raw, Base64.decodeChars sealedText.toList = some raw ∧
      raw = raw.take nonceLength ++
        Aead.encrypt key.bytes (raw.take nonceLength) (Utf8.encode recordKey) plain

theorem openRecord_of_carries {plain : Bytes} (h : Carries key recordKey sealedText plain) :
    openRecord key recordKey sealedText = (Utf8.decode plain).mapError .undecodable := by
  obtain ⟨hascii, raw, hraw, hsealed⟩ := h
  have hlength := length_of_sealed hsealed
  have hnonce : (raw.take nonceLength).length = nonceLength := by
    rw [List.length_take]
    omega
  rw [hsealed, Aead.encrypt] at hraw
  rw [openRecord_of_parts hascii hraw hnonce (Aead.length_tag ..), if_pos rfl, ChaCha20.apply_apply]

theorem openRecord_of_not_carries (h : ∀ plain, ¬Carries key recordKey sealedText plain) :
    openRecord key recordKey sealedText = .error (.notAuthentic recordKey) := by
  cases hsplit : split? sealedText with
  | none => rw [openRecord, hsplit]
  | some parts =>
      obtain ⟨nonce, body⟩ := parts
      rw [openRecord, hsplit]
      dsimp only
      cases hdecrypt : Aead.decrypt? key.bytes nonce (Utf8.encode recordKey) body with
      | none => rfl
      | some plain =>
          obtain ⟨hascii, raw, hraw, -, rfl, rfl⟩ := split?_eq_some_iff.mp hsplit
          refine absurd ⟨hascii, raw, hraw, ?_⟩ (h plain)
          rw [← Aead.decrypt?_eq_some_iff.mp hdecrypt, List.take_append_drop]

theorem openRecord_eq_ok_iff :
    openRecord key recordKey sealedText = .ok text ↔
      Carries key recordKey sealedText (Utf8.encode text) := by
  refine ⟨fun h => ?_, fun h => ?_⟩
  · by_cases hcarries : ∃ plain, Carries key recordKey sealedText plain
    · obtain ⟨plain, hplain⟩ := hcarries
      rw [openRecord_of_carries hplain] at h
      rwa [Utf8.decode_eq_ok_iff.mp (mapError_eq_ok h)] at hplain
    · rw [openRecord_of_not_carries (not_exists.mp hcarries)] at h
      cases h
  · rw [openRecord_of_carries h, Utf8.decode_encode]
    rfl

-- A text whose bytes are too few, or end in another tag than the one for them and the record, is
-- not opened.
theorem openRecord_of_forged (hraw : Base64.decodeChars sealedText.toList = some raw)
    (hforged : raw.length < nonceLength + Aead.tagLength ∨
      ∃ nonce cipher tag, raw = nonce ++ (cipher ++ tag) ∧ nonce.length = nonceLength ∧
        tag.length = Aead.tagLength ∧
        tag ≠ Aead.tag key.bytes nonce (Utf8.encode recordKey) cipher) :
    openRecord key recordKey sealedText = .error (.notAuthentic recordKey) := by
  by_cases hascii : ∀ c ∈ sealedText.toList, c.toNat < 128
  · rcases hforged with hshort | ⟨nonce, cipher, tag, rfl, hnonce, htag, hne⟩
    · refine openRecord_of_not_split fun nonce body hsplit => ?_
      obtain ⟨-, raw', hraw', hlong, -⟩ := split?_eq_some_iff.mp hsplit
      obtain rfl := Option.some.inj (hraw.symm.trans hraw')
      omega
    · rw [openRecord_of_parts hascii hraw hnonce htag, if_neg hne]
  · exact openRecord_of_not_split fun nonce body hsplit => hascii (split?_eq_some_iff.mp hsplit).1

-- What is sealed, as characters.

theorem sealRecord_toList :
    (sealRecord key nonce recordKey text).toList = Base64.encodeChars Base64.urlSafe
      (nonce ++ Aead.encrypt key.bytes nonce (Utf8.encode recordKey) (Utf8.encode text)) := by
  rw [sealRecord, Base64.encode, String.toList_ofList]

theorem lt_of_mem_sealRecord : ∀ c ∈ (sealRecord key nonce recordKey text).toList, c.toNat < 128 := by
  rw [sealRecord_toList]
  exact Base64.lt_of_mem_encodeChars _

theorem decodeChars_sealRecord :
    Base64.decodeChars (sealRecord key nonce recordKey text).toList =
      some (nonce ++ Aead.encrypt key.bytes nonce (Utf8.encode recordKey) (Utf8.encode text)) := by
  rw [sealRecord_toList, Base64.decodeChars_encodeChars]

-- What is sealed for one record opens for another if both have the same tag for it.
theorem openRecord_of_other (hnonce : nonce.length = nonceLength) (other : String) :
    openRecord key recordKey (sealRecord key nonce other text) =
      if Aead.tag key.bytes nonce (Utf8.encode other)
          (ChaCha20.apply key.bytes nonce 1 (Utf8.encode text)) =
        Aead.tag key.bytes nonce (Utf8.encode recordKey)
          (ChaCha20.apply key.bytes nonce 1 (Utf8.encode text)) then .ok text
      else .error (.notAuthentic recordKey) := by
  have hraw : Base64.decodeChars (sealRecord key nonce other text).toList = _ := decodeChars_sealRecord
  rw [Aead.encrypt] at hraw
  rw [openRecord_of_parts lt_of_mem_sealRecord hraw hnonce (Aead.length_tag ..), ChaCha20.apply_apply,
    Utf8.decode_encode]
  rfl

theorem isUrlSafe_digit : ∀ n < 64, (Base64.urlSafe.digit n).isAlphanum ∨
    Base64.urlSafe.digit n = '-' ∨ Base64.urlSafe.digit n = '_' := by decide

-- A sealed text starts with its nonce, so another nonce makes it another text.
theorem nonce_of_sealRecord_eq {nonce nonce' : Bytes} (hnonce : nonce.length = nonceLength)
    (hnonce' : nonce'.length = nonceLength)
    (h : sealRecord key nonce' recordKey text = sealRecord key nonce recordKey text) :
    nonce' = nonce := by
  have hchars := String.ofList_injective h
  have hbytes := Base64.encodeChars_inj hchars
  exact List.append_inj_left hbytes (hnonce'.trans hnonce.symm)

end

-- Whatever text is opened under a key and for a record, it opens to a text exactly if it is ASCII
-- and its bytes are a nonce and what sealing the text under the nonce gives. So too few bytes do
-- not open, nor bytes with any other tag; and what was sealed for another record opens just when
-- the tag for this one happens to be the same.
theorem opens_iff_sealed (key : Key) (recordKey sealedText : String) :
    (∀ text, openRecord key recordKey sealedText = .ok text ↔
      (∀ c ∈ sealedText.toList, c.toNat < 128) ∧
      ∃ raw, Base64.decodeChars sealedText.toList = some raw ∧
        raw = raw.take nonceLength ++
          Aead.encrypt key.bytes (raw.take nonceLength) (Utf8.encode recordKey) (Utf8.encode text)) ∧
    (∀ raw, Base64.decodeChars sealedText.toList = some raw →
      (raw.length < nonceLength + Aead.tagLength ∨
        ∃ nonce cipher tag, raw = nonce ++ (cipher ++ tag) ∧ nonce.length = nonceLength ∧
          tag.length = Aead.tagLength ∧
          tag ≠ Aead.tag key.bytes nonce (Utf8.encode recordKey) cipher) →
      openRecord key recordKey sealedText = .error (.notAuthentic recordKey)) ∧
    ∀ nonce other text, nonce.length = nonceLength → sealedText = sealRecord key nonce other text →
      openRecord key recordKey sealedText =
        if Aead.tag key.bytes nonce (Utf8.encode other)
            (ChaCha20.apply key.bytes nonce 1 (Utf8.encode text)) =
          Aead.tag key.bytes nonce (Utf8.encode recordKey)
            (ChaCha20.apply key.bytes nonce 1 (Utf8.encode text)) then .ok text
        else .error (.notAuthentic recordKey) := by
  refine ⟨fun text => openRecord_eq_ok_iff, fun raw hraw hforged => openRecord_of_forged hraw hforged, ?_⟩
  rintro nonce other text hnonce rfl
  exact openRecord_of_other hnonce other

-- A text of three bytes under the key of zeros.
theorem sealRecord_of_first_nonce :
    sealRecord ⟨List.replicate 32 0, rfl⟩ (nonce 1) "a" "hé" =
      "AAAAAAAAAAAAAAABQPbucXfBuY8Z709dGXzvGt_23A==" := by decide +kernel

-- A text of three bytes sealed for one record, and asked for as another; and a text that is too short.
theorem opens_iff_sealed_of_first_nonce :
    ∃ key : Key, key.bytes = List.replicate 32 0 ∧
      openRecord key "a" "AAAAAAAAAAAAAAABQPbucXfBuY8Z709dGXzvGt_23A==" = .ok "hé" ∧
      openRecord key "b" "AAAAAAAAAAAAAAABQPbucXfBuY8Z709dGXzvGt_23A==" = .error (.notAuthentic "b") ∧
      openRecord key "a" "AAAA" = .error (.notAuthentic "a") := by
  refine ⟨⟨List.replicate 32 0, rfl⟩, rfl, ?_, ?_, ?_⟩
  · rw [← sealRecord_of_first_nonce]
    refine ((opens_iff_sealed _ _ _).1 "hé").mpr ⟨lt_of_mem_sealRecord, _, decodeChars_sealRecord, ?_⟩
    rw [List.take_left' (length_nonce 1)]
  · exact ((opens_iff_sealed _ _ _).2.2 (nonce 1) "a" "hé" rfl (Eq.symm sealRecord_of_first_nonce)).trans
      (if_neg (by decide +kernel))
  · exact (opens_iff_sealed _ _ _).2.1 [0, 0, 0] (by decide) (.inl (by decide))

-- What is sealed under any nonce opens again, is written in whole quads of URL-safe digits with
-- padding at the end, and is another text under another nonce.
theorem sealed_opens_again (key : Key) {nonce : Bytes} (hnonce : nonce.length = nonceLength)
    (recordKey text : String) :
    openRecord key recordKey (sealRecord key nonce recordKey text) = .ok text ∧
    (∃ digits pads,
      (sealRecord key nonce recordKey text).toList = digits ++ List.replicate pads '=' ∧
      (∀ c ∈ digits, c.isAlphanum ∨ c = '-' ∨ c = '_') ∧ pads ≤ 2 ∧
      4 ∣ (sealRecord key nonce recordKey text).toList.length) ∧
    ∀ nonce', nonce'.length = nonceLength → nonce' ≠ nonce →
      sealRecord key nonce' recordKey text ≠ sealRecord key nonce recordKey text := by
  refine ⟨openRecord_sealed key hnonce recordKey text, ?_, fun nonce' hnonce' hne h =>
    hne (nonce_of_sealRecord_eq hnonce hnonce' h)⟩
  obtain ⟨digits, pads, hchars, hdigits, hpads, hquads⟩ := Base64.encodeChars_eq_digits Base64.urlSafe
    (nonce ++ Aead.encrypt key.bytes nonce (Utf8.encode recordKey) (Utf8.encode text))
  rw [sealRecord, Base64.encode, String.toList_ofList]
  refine ⟨digits, pads, hchars, fun c hc => ?_, hpads, hquads⟩
  obtain ⟨n, hn, rfl⟩ := hdigits c hc
  exact isUrlSafe_digit n hn

-- The empty text, sealed with the first and with the second nonce.
theorem sealed_opens_again_of_empty_text :
    ∃ key : Key, key.bytes = List.replicate 32 0 ∧
      (nonce 1).length = nonceLength ∧ (nonce 2).length = nonceLength ∧ nonce 2 ≠ nonce 1 ∧
      openRecord key "a" (sealRecord key (nonce 1) "a" "") = .ok "" ∧
      (∃ digits pads,
        (sealRecord key (nonce 1) "a" "").toList = digits ++ List.replicate pads '=' ∧
        (∀ c ∈ digits, c.isAlphanum ∨ c = '-' ∨ c = '_') ∧ pads ≤ 2 ∧
        4 ∣ (sealRecord key (nonce 1) "a" "").toList.length) ∧
      sealRecord key (nonce 2) "a" "" ≠ sealRecord key (nonce 1) "a" "" := by
  have hne : nonce 2 ≠ nonce 1 := by decide
  let key : Key := ⟨List.replicate 32 0, rfl⟩
  obtain ⟨hopens, hwritten, hothers⟩ := sealed_opens_again key (length_nonce 1) "a" ""
  exact ⟨key, rfl, rfl, rfl, hne, hopens, hwritten, hothers (nonce 2) rfl hne⟩

end Coffer.Seal
