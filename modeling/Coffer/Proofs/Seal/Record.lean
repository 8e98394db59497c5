import Coffer.Seal.Record
import Coffer.Proofs.Text.Base64
import Coffer.Proofs.Text.Utf8
import Mathlib.Data.Option.Basic

namespace Coffer

namespace ChaCha20

theorem length_apply (key nonce : Bytes) (counter : Nat) (data : Bytes) :
    (apply key nonce counter data).length = data.length := by
  simp only [apply, Bytes.xor, List.length_zipWith, length_stream]
  omega

theorem xor_xor (a b : Bytes) (h : a.length ≤ b.length) : (a.xor b).xor b = a := by
  induction a generalizing b with
  | nil => rfl
  | cons x a ih =>
      cases b with
      | nil => cases h
      | cons y b =>
          have hb : a.length ≤ b.length := Nat.le_of_succ_le_succ h
          have hx : x ^^^ y ^^^ y = x := by rw [UInt8.xor_assoc, UInt8.xor_self, UInt8.xor_zero]
          have hrest := ih b hb
          simp only [Bytes.xor] at hrest
          simp only [Bytes.xor, List.zipWith_cons_cons, hx, hrest]

-- The cipher undoes itself.
theorem apply_apply (key nonce : Bytes) (counter : Nat) (data : Bytes) :
    apply key nonce counter (apply key nonce counter data) = data := by
  have hlength : data.length ≤ (stream key nonce counter ((data.length + 63) / 64)).length := by
    rw [length_stream]
    omega
  rw [apply, length_apply]
  exact xor_xor data _ hlength

end ChaCha20

namespace Aead

theorem length_tag (key nonce associated cipher : Bytes) :
    (tag key nonce associated cipher).length = tagLength :=
  Poly1305.length_tag _ _

theorem length_encrypt (key nonce associated plain : Bytes) :
    (encrypt key nonce associated plain).length = plain.length + tagLength := by
  rw [encrypt, List.length_append, length_tag, ChaCha20.length_apply]

-- A cipher text is decrypted if what follows it is its tag.
theorem decrypt?_append (key nonce associated cipher : Bytes) {end' : Bytes}
    (h : end'.length = tagLength) :
    decrypt? key nonce associated (cipher ++ end') =
      if end' = tag key nonce associated cipher then some (ChaCha20.apply key nonce 1 cipher)
      else none := by
  unfold decrypt?
  rw [List.length_append, h, Nat.add_sub_cancel, List.take_left, List.drop_left]

theorem decrypt?_encrypt (key nonce associated plain : Bytes) :
    decrypt? key nonce associated (encrypt key nonce associated plain) = some plain := by
  rw [encrypt, decrypt?_append _ _ _ _ (length_tag ..), if_pos rfl, ChaCha20.apply_apply]

-- Nothing is decrypted but what encrypting gives.
theorem decrypt?_eq_some_iff {key nonce associated body plain : Bytes} :
    decrypt? key nonce associated body = some plain ↔
      body = encrypt key nonce associated plain := by
  refine ⟨fun h => ?_, fun h => by rw [h, decrypt?_encrypt]⟩
  unfold decrypt? at h
  dsimp only at h
  split at h
  · next htag =>
    rw [← Option.some.inj h, encrypt, ChaCha20.apply_apply, ← htag, List.take_append_drop]
  · cases h

end Aead

namespace Seal

theorem length_nonce (n : Nat) : (nonce n).length = nonceLength := Bytes.length_ofNatBE _ _

-- A text is taken apart if it is ASCII and its bytes are enough for a nonce and a tag.
theorem split?_eq_some_iff {sealedText : String} {nonce body : Bytes} :
    split? sealedText = some (nonce, body) ↔
      (∀ c ∈ sealedText.toList, c.toNat < 128) ∧
      ∃ raw, Base64.decodeChars sealedText.toList = some raw ∧
        nonceLength + Aead.tagLength ≤ raw.length ∧
        nonce = raw.take nonceLength ∧ body = raw.drop nonceLength := by
  simp only [split?, Option.bind_eq_bind, Option.bind_eq_some_iff, Option.guard_eq_some', List.all_eq_true,
    decide_eq_true_eq, Option.pure_def, Option.some.injEq, Prod.mk.injEq]
  refine ⟨?_, ?_⟩
  · rintro ⟨-, hascii, raw, hraw, -, hlength, rfl, rfl⟩
    exact ⟨hascii, raw, hraw, hlength, rfl, rfl⟩
  · rintro ⟨hascii, raw, hraw, hlength, rfl, rfl⟩
    exact ⟨(), hascii, raw, hraw, (), hlength, rfl, rfl⟩

theorem split?_encode (nonce body : Bytes) (hnonce : nonce.length = nonceLength)
    (hbody : Aead.tagLength ≤ body.length) :
    split? (Base64.encode Base64.urlSafe (nonce ++ body)) = some (nonce, body) := by
  rw [split?_eq_some_iff, Base64.encode, String.toList_ofList]
  refine ⟨fun c hc => Base64.lt_of_mem_encodeChars _ c hc, _, Base64.decodeChars_encodeChars _, ?_,
    (List.take_left' hnonce).symm, (List.drop_left' hnonce).symm⟩
  rw [List.length_append, hnonce]
  omega

-- What was sealed under a key for a record opens again under both.
theorem openRecord_sealed (key : Key) {nonce : Bytes} (hnonce : nonce.length = nonceLength)
    (recordKey text : String) :
    openRecord key recordKey (sealRecord key nonce recordKey text) = .ok text := by
  have hbody : Aead.tagLength ≤
      (Aead.encrypt key.bytes nonce (Utf8.encode recordKey) (Utf8.encode text)).length := by
    rw [Aead.length_encrypt]
    omega
  rw [openRecord, sealRecord, split?_encode _ _ hnonce hbody]
  simp only [Aead.decrypt?_encrypt, Utf8.decode_encode]
  rfl

theorem openRecord_sealRecord (key : Key) (n : Nat) (recordKey text : String) :
    openRecord key recordKey (sealRecord key (nonce n) recordKey text) = .ok text :=
  openRecord_sealed key (length_nonce n) recordKey text

theorem openRecord_of_not_split {key : Key} {recordKey sealedText : String}
    (h : ∀ nonce body, split? sealedText ≠ some (nonce, body)) :
    openRecord key recordKey sealedText = .error (.notAuthentic recordKey) := by
  have hnone : split? sealedText = none := Option.eq_none_iff_forall_ne_some.mpr fun r => h r.1 r.2
  rw [openRecord, hnone]

-- A text of fewer characters than a nonce and a tag have bytes is no sealed record.
theorem openRecord_of_short (key : Key) (recordKey : String) {text : String}
    (h : text.toList.length < nonceLength + Aead.tagLength) :
    openRecord key recordKey text = .error (.notAuthentic recordKey) := by
  refine openRecord_of_not_split fun nonce body hsplit => ?_
  obtain ⟨-, raw, hraw, hlong, -⟩ := split?_eq_some_iff.mp hsplit
  have hlength := Base64.length_decodeFrom _ _ _ hraw
  rw [List.length_nil, Nat.zero_add] at hlength
  omega

-- The characters of a sealed text, and how many there are at least.
theorem sealRecord_chars (key : Key) (n : Nat) (recordKey text : String) :
    (∀ c ∈ (sealRecord key (nonce n) recordKey text).toList,
      c = '=' ∨ ∃ m < 64, c = Base64.urlSafe.digit m) ∧
    38 ≤ (sealRecord key (nonce n) recordKey text).toList.length := by
  rw [sealRecord, Base64.encode, String.toList_ofList]
  refine ⟨fun c hc => Base64.mem_encodeChars _ _ c hc, ?_⟩
  have hlength := Base64.length_encodeChars Base64.urlSafe
    (nonce n ++ Aead.encrypt key.bytes (nonce n) (Utf8.encode recordKey) (Utf8.encode text))
  rw [List.length_append, length_nonce, Aead.length_encrypt, nonceLength, Aead.tagLength] at hlength
  omega

end Seal

end Coffer
