import Coffer.Proofs.Seal.Opening
import Coffer.Proofs.Text.Spelling

-- What opening a text ends in, whatever the text: which content it tells apart, and which spellings
-- of the same bytes.

namespace Coffer.Seal

section

variable {key : Key} {recordKey sealedText text : String} {nonce : Bytes}

theorem openRecord_eq_error_iff {e : Failure} :
    openRecord key recordKey sealedText = .error e ↔
      (e = .notAuthentic recordKey ∧ ∀ plain, ¬Carries key recordKey sealedText plain) ∨
      ∃ plain fault, Carries key recordKey sealedText plain ∧ Utf8.decode plain = .error fault ∧
        e = .undecodable fault := by
  by_cases hcarries : ∃ plain, Carries key recordKey sealedText plain
  · obtain ⟨plain, hplain⟩ := hcarries
    have hopen := openRecord_of_carries hplain
    refine ⟨fun h => .inr ?_, ?_⟩
    · rw [h] at hopen
      cases hdecode : Utf8.decode plain with
      | ok text =>
          rw [hdecode] at hopen
          cases hopen
      | error fault =>
          rw [hdecode] at hopen
          exact ⟨plain, fault, hplain, hdecode, Except.error.inj hopen⟩
    · rintro (⟨-, hnone⟩ | ⟨other, fault, hother, hdecode, rfl⟩)
      · exact absurd hplain (hnone plain)
      · rw [openRecord_of_carries hother, hdecode]
        rfl
  · have hnone := not_exists.mp hcarries
    rw [openRecord_of_not_carries hnone]
    refine ⟨fun h => .inl ⟨(Except.error.inj h).symm, hnone⟩, ?_⟩
    rintro (⟨rfl, -⟩ | ⟨plain, -, hplain, -⟩)
    · rfl
    · exact absurd hplain (hnone plain)

-- Text written in base64 carries what its bytes do.
theorem carries_of_spelling {raw plain : Bytes} (hascii : ∀ c ∈ sealedText.toList, c.toNat < 128)
    (hspelling : Base64.Spelling sealedText.toList raw)
    (hraw : raw = nonce ++ Aead.encrypt key.bytes nonce (Utf8.encode recordKey) plain)
    (hnonce : nonce.length = nonceLength) : Carries key recordKey sealedText plain := by
  refine ⟨hascii, raw, hspelling.decode, ?_⟩
  have htake : raw.take nonceLength = nonce := by
    rw [hraw]
    exact List.take_left' hnonce
  rw [htake]
  exact hraw

end

-- However a text came about, it opens to the text that it carries; it is refused in the name of the
-- record if it carries nothing; and there is one failure more, if what it carries is no text.
theorem opening_outcome (key : Key) (recordKey sealedText : String) :
    (∀ text, openRecord key recordKey sealedText = .ok text ↔
      Carries key recordKey sealedText (Utf8.encode text)) ∧
    ∀ e, openRecord key recordKey sealedText = .error e ↔
      (e = .notAuthentic recordKey ∧ ∀ plain, ¬Carries key recordKey sealedText plain) ∨
      ∃ plain fault, Carries key recordKey sealedText plain ∧ Utf8.decode plain = .error fault ∧
        e = .undecodable fault :=
  ⟨fun _ => openRecord_eq_ok_iff, fun _ => openRecord_eq_error_iff⟩

-- The byte 0xFF, sealed with the first nonce.
theorem sealed_byte_escapes :
    ∃ key : Key, key.bytes = List.replicate 32 0 ∧
      Carries key "a" "AAAAAAAAAAAAAAAB137iS74s6TXkGL7GS1vvs80=" [0xFF] ∧
      openRecord key "a" "AAAAAAAAAAAAAAAB137iS74s6TXkGL7GS1vvs80=" =
        .error (.undecodable ⟨0xFF, 0, 1, .startByte⟩) := by
  let key : Key := ⟨List.replicate 32 0, rfl⟩
  have hraw : Base64.decodeChars "AAAAAAAAAAAAAAAB137iS74s6TXkGL7GS1vvs80=".toList =
      some (nonce 1 ++ Aead.encrypt key.bytes (nonce 1) (Utf8.encode "a") [0xFF]) := by decide +kernel
  have hcarries : Carries key "a" "AAAAAAAAAAAAAAAB137iS74s6TXkGL7GS1vvs80=" [0xFF] :=
    ⟨by simp, _, hraw, by rw [List.take_left' (length_nonce 1)]⟩
  refine ⟨key, rfl, hcarries, ?_⟩
  rw [openRecord_of_carries hcarries]
  rfl

section

variable {key : Key} {recordKey text other : String} {nonce : Bytes}

theorem openRecord_of_spelling (hnonce : nonce.length = nonceLength)
    (hascii : ∀ c ∈ other.toList, c.toNat < 128)
    (hspelling : Base64.Spelling other.toList
      (nonce ++ Aead.encrypt key.bytes nonce (Utf8.encode recordKey) (Utf8.encode text))) :
    openRecord key recordKey other = .ok text :=
  openRecord_eq_ok_iff.mpr (carries_of_spelling hascii hspelling rfl hnonce)

theorem openRecord_of_not_spelling
    (hsame : Base64.decodeChars other.toList = none ∨ Base64.decodeChars other.toList =
      Base64.decodeChars (sealRecord key nonce recordKey text).toList)
    (hnot : ¬((∀ c ∈ other.toList, c.toNat < 128) ∧ Base64.Spelling other.toList
      (nonce ++ Aead.encrypt key.bytes nonce (Utf8.encode recordKey) (Utf8.encode text)))) :
    openRecord key recordKey other = .error (.notAuthentic recordKey) := by
  refine openRecord_of_not_carries ?_
  rintro plain ⟨hascii, raw, hraw, -⟩
  rcases hsame with hnone | hsame
  · rw [hnone] at hraw
    cases hraw
  · rw [decodeChars_sealRecord] at hsame
    exact hnot ⟨hascii, Base64.decodeChars_eq_some_iff.mp hsame⟩

-- One character more that spells nothing.
theorem openRecord_of_insert (hnonce : nonce.length = nonceLength) {before after : List Char} {c : Char}
    (hsealed : (sealRecord key nonce recordKey text).toList = before ++ after)
    (hascii : c.toNat < 128) (hc : Base64.digitValue? c = none) (hpad : c ≠ '=') :
    openRecord key recordKey (String.ofList (before ++ c :: after)) = .ok text := by
  have hold : ∀ x ∈ before ++ after, x.toNat < 128 := by
    rw [← hsealed]
    exact lt_of_mem_sealRecord
  refine openRecord_of_spelling hnonce ?_ (Base64.decodeChars_eq_some_iff.mp ?_)
  · intro x hx
    rw [String.toList_ofList, List.mem_append, List.mem_cons] at hx
    rcases hx with hx | rfl | hx
    · exact hold x (List.mem_append_left _ hx)
    · exact hascii
    · exact hold x (List.mem_append_right _ hx)
  · rw [String.toList_ofList, Base64.decodeChars, Base64.decodeFrom_insert hc hpad, ← hsealed]
    exact decodeChars_sealRecord

end

-- A text that has no bytes, or those of a sealed record, opens as that record exactly if it is ASCII
-- and spells the bytes, in whatever way it does. So no sealed record has one spelling only.
theorem spellings_of_sealed (key : Key) {nonce : Bytes} (hnonce : nonce.length = nonceLength)
    (recordKey text : String) :
    (∀ other : String,
      Base64.decodeChars other.toList = none ∨ Base64.decodeChars other.toList =
        Base64.decodeChars (sealRecord key nonce recordKey text).toList →
      ((∀ c ∈ other.toList, c.toNat < 128) ∧ Base64.Spelling other.toList
          (nonce ++ Aead.encrypt key.bytes nonce (Utf8.encode recordKey) (Utf8.encode text)) →
        openRecord key recordKey other = .ok text) ∧
      (¬((∀ c ∈ other.toList, c.toNat < 128) ∧ Base64.Spelling other.toList
          (nonce ++ Aead.encrypt key.bytes nonce (Utf8.encode recordKey) (Utf8.encode text))) →
        openRecord key recordKey other = .error (.notAuthentic recordKey))) ∧
    ∀ before after c, (sealRecord key nonce recordKey text).toList = before ++ after →
      c.toNat < 128 → Base64.digitValue? c = none → c ≠ '=' →
      openRecord key recordKey (String.ofList (before ++ c :: after)) = .ok text := by
  refine ⟨fun other hsame => ⟨?_, openRecord_of_not_spelling hsame⟩, ?_⟩
  · rintro ⟨hascii, hspelling⟩
    exact openRecord_of_spelling hnonce hascii hspelling
  · intro before after c hsealed hascii hc hpad
    exact openRecord_of_insert hnonce hsealed hascii hc hpad

-- A newline in front of a sealed text is passed over; a letter that is not ASCII is not.
theorem spellings_of_sealed_of_first_nonce :
    ∃ key : Key, key.bytes = List.replicate 32 0 ∧ (nonce 1).length = nonceLength ∧
      openRecord key "a" "\nAAAAAAAAAAAAAAABQPbucXfBuY8Z709dGXzvGt_23A==" = .ok "hé" ∧
      openRecord key "a" "éAAAAAAAAAAAAAAABQPbucXfBuY8Z709dGXzvGt_23A==" =
        .error (.notAuthentic "a") := by
  let key : Key := ⟨List.replicate 32 0, rfl⟩
  have hsealed : sealRecord key (nonce 1) "a" "hé" = _ := sealRecord_of_first_nonce
  obtain ⟨hother, hinsert⟩ := spellings_of_sealed key (length_nonce 1) "a" "hé"
  rw [hsealed] at hother hinsert
  refine ⟨key, rfl, rfl, ?_, ?_⟩
  · have hlist : String.ofList ([] ++ '\n' :: "AAAAAAAAAAAAAAABQPbucXfBuY8Z709dGXzvGt_23A==".toList) =
        "\nAAAAAAAAAAAAAAABQPbucXfBuY8Z709dGXzvGt_23A==" := by simp
    rw [← hlist]
    exact hinsert [] _ '\n' (List.nil_append _).symm (by decide) (by decide) (by decide)
  · have hlist : "éAAAAAAAAAAAAAAABQPbucXfBuY8Z709dGXzvGt_23A==".toList =
        'é' :: "AAAAAAAAAAAAAAABQPbucXfBuY8Z709dGXzvGt_23A==".toList := by simp
    have hsame : Base64.decodeChars "éAAAAAAAAAAAAAAABQPbucXfBuY8Z709dGXzvGt_23A==".toList =
        Base64.decodeChars "AAAAAAAAAAAAAAABQPbucXfBuY8Z709dGXzvGt_23A==".toList := by
      rw [hlist, Base64.decodeChars, Base64.decodeChars]
      exact Base64.decodeFrom_insert (by decide) (by decide) [] _ [] 0
    refine (hother _ (.inr hsame)).2 fun h => ?_
    rw [hlist] at h
    exact absurd (h.1 'é' List.mem_cons_self) (by decide)

-- A sealed text with a mark among its digits, which is no base64 any more.
theorem altered_spelling_opens :
    ∃ key : Key, key.bytes = List.replicate 32 0 ∧
      sealRecord key (nonce 1) "a" "hé" = "AAAAAAAAAAAAAAABQPbucXfBuY8Z709dGXzvGt_23A==" ∧
      "AAAA!AAAAAAAAAAABQPbucXfBuY8Z709dGXzvGt_23A==" ≠ "AAAAAAAAAAAAAAABQPbucXfBuY8Z709dGXzvGt_23A==" ∧
      openRecord key "a" "AAAA!AAAAAAAAAAABQPbucXfBuY8Z709dGXzvGt_23A==" = .ok "hé" := by
  let key : Key := ⟨List.replicate 32 0, rfl⟩
  have hsealed : sealRecord key (nonce 1) "a" "hé" = _ := sealRecord_of_first_nonce
  have hlist : String.ofList ("AAAA".toList ++ '!' :: "AAAAAAAAAAABQPbucXfBuY8Z709dGXzvGt_23A==".toList) =
      "AAAA!AAAAAAAAAAABQPbucXfBuY8Z709dGXzvGt_23A==" := by simp
  refine ⟨key, rfl, hsealed, by decide, ?_⟩
  rw [← hlist]
  refine openRecord_of_insert (length_nonce 1) ?_ (by decide) (by decide) (by decide)
  rw [hsealed]
  simp

end Coffer.Seal
