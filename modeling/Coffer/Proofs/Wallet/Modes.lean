import Coffer.Proofs.Json.Integer
import Coffer.Proofs.Wallet.Gate
import Coffer.Proofs.Wallet.Sealings

-- Stores with sealed records and stores with plain ones: neither is taken for the other.

namespace Coffer

open Coffer.Action (Agrees Within)

namespace Seal

theorem solid_digit : ∀ m < 64, (Base64.urlSafe.digit m).toNat < 0x80 ∧
    Json.Solid (Json.ascii (Base64.urlSafe.digit m)) := by decide

-- Read as JSON, a sealed text does not nest and is no small integer.
theorem decode_sealRecord (key : Key) (n : Nat) (recordKey text : String) :
    Json.decode .any (sealRecord key (nonce n) recordKey text) ≠ .error .tooDeep ∧
      ∀ m, Json.decode .any (sealRecord key (nonce n) recordKey text) = .ok (.int m) → 255 < m.natAbs := by
  obtain ⟨hchars, hlong⟩ := sealRecord_chars key n recordKey text
  generalize sealRecord key (nonce n) recordKey text = sealedText at hchars hlong ⊢
  have hsolid : ∀ c ∈ sealedText.toList, c.toNat < 0x80 ∧ Json.Solid (Json.ascii c) := by
    intro c hc
    rcases hchars c hc with rfl | ⟨m, hm, rfl⟩
    · decide
    · exact solid_digit m hm
  obtain ⟨hshallow, hlarge⟩ := Json.decode_of_solid hsolid (by omega)
  refine ⟨hshallow, fun m hm => ?_⟩
  calc 255 < 10 ^ 36 := by decide
    _ ≤ 10 ^ (sealedText.toList.length - 2) := Nat.pow_le_pow_right (by decide) (by omega)
    _ ≤ m.natAbs := hlarge m hm

end Seal

namespace Storage

variable {σ : Type} [RecordStore σ] {B : Reliable σ} {storage : Storage} {s t : σ} {key : String}

-- What a text is stored as.
inductive Puts (key text : String) : Storage → String → Prop where
  | plain : Puts key text ⟨none⟩ text
  | sealed (k : Seal.Key) (n : Nat) :
      Puts key text ⟨some k⟩ (Seal.sealRecord k (Seal.nonce n) key text)

theorem protect_puts (storage : Storage) (hs : B.sound s) (key text : String) :
    ∃ stored t, storage.protect key text s = (.ok stored, t) ∧ B.Same s t ∧ Puts key text storage stored := by
  obtain ⟨key?⟩ := storage
  cases key? with
  | none => exact ⟨text, s, rfl, Reliable.Same.refl B hs, .plain⟩
  | some k =>
      obtain ⟨n, t, hdraw, ht, hview, hlate⟩ := B.draw_eq s hs
      exact ⟨_, t, (Action.bind_of_ok hdraw).trans rfl, ⟨ht, hview, hlate⟩, .sealed k n⟩

-- A record that has been set is in the store.
theorem set_eq_ok (hs : B.sound s) {v : Value} (h : storage.set key v s = (.ok (), t)) :
    ∃ text stored, encode key v = .ok text ∧ Puts key text storage stored ∧ B.sound t ∧
      B.view t = (B.view s).put key stored := by
  obtain ⟨text, s₁, hencode, hset⟩ := Action.bind_eq_ok h
  obtain ⟨henc, rfl⟩ := Prod.mk.inj hencode
  obtain ⟨stored, s₂, hprotect, hput⟩ := Action.bind_eq_ok hset
  obtain ⟨stored', s₂', hprotect', hsame, hputs⟩ := protect_puts storage hs key text
  rw [hprotect] at hprotect'
  cases hprotect'
  obtain ⟨r, t', hput', ht, hends⟩ := B.put_ends s₂ [(key, stored)] hsame.sound
  rw [hput] at hput'
  cases hput'
  refine ⟨text, stored, henc, hputs, ht, ?_⟩
  generalize hview : B.view t = new at hends
  cases hends
  rw [hsame.view]
  rfl

end Storage

namespace Wallet.Session

variable {σ : Type} [RecordStore σ] {B : Reliable σ} {st t u : σ} {storage : Storage} {version : Int}
  {stored : String}

-- The version that the gate writes

theorem gate_of_none (hs : B.sound st) (storage : Storage) (hrange : 0 ≤ version ∧ version ≤ maxSchemaVersion)
    (hnone : (B.view st).get? versionKey = none) :
    ∃ t, B.Same st t ∧ gate storage (.int version) st = storage.set versionKey (.int version) t := by
  obtain ⟨t, hnote, hsame⟩ := Reliable.note_same (B := B) ⟨.info,
    s!"Initializing {RecordStore.label st} store with schema version " ++ (Value.int version).asText⟩ hs
  refine ⟨t, hsame, ?_⟩
  rw [gate_eq hs storage hrange, Storage.read_of_absent hnone]
  exact Action.bind_of_ok hnote

theorem length_version (hrange : 0 ≤ version ∧ version ≤ maxSchemaVersion) {text : String}
    (h : Storage.encode versionKey (.int version) = .ok text) : text.toList.length ≤ 3 := by
  have henc : Json.encode (.int version) = .ok (String.ofList (Json.intChars version)) := by
    rw [Json.encode, Json.valueChars]
    rfl
  rw [Storage.encode, henc] at h
  cases h
  have hnat : version.natAbs < 10 ^ 3 := by
    have := hrange.2
    rw [maxSchemaVersion] at this
    omega
  have hdigits : (Double.digitsOf version.natAbs).length ≤ 3 :=
    (Nat.length_toDigits_le_iff (by decide) (by decide)).mpr hnat
  have hsign : ¬version < 0 := by omega
  rw [String.toList_ofList, Json.intChars, Double.signed]
  simpa [hsign] using hdigits

-- The version that a store carries

structure Carries (B : Reliable σ) (stored : String) (s : σ) : Prop where
  sound : B.sound s
  version : (B.view s).get? versionKey = some stored

theorem Carries.same (h : Carries B stored st) (hsame : B.Same st t) : Carries B stored t :=
  ⟨hsame.sound, by rw [hsame.view]; exact h.version⟩

def Keeps (B : Reliable σ) (stored : String) (s t : σ) : Prop := Carries B stored s → Carries B stored t

instance : IsPreorder σ (Keeps B stored) where
  refl _ h := h
  trans _ _ _ hab hbc h := hbc (hab h)

theorem Carries.read_ne_notFound (h : Carries B stored st) (storage : Storage) (name : String) :
    storage.read (B.view st) versionKey .any ≠ .error (.notFound name) := by
  intro hread
  rw [Storage.read_of_some h.version] at hread
  cases hreveal : storage.reveal versionKey stored with
  | error e =>
      rw [hreveal] at hread
      rcases Storage.reveal_eq_error hreveal with rfl | ⟨fault, rfl⟩ <;> cases hread
  | ok text =>
      rw [hreveal, ok_bind, Storage.decode] at hread
      cases hdecode : Json.decode .any text with
      | ok v =>
          rw [hdecode] at hread
          cases hread
      | error error =>
          rw [hdecode] at hread
          cases error <;> cases hread

theorem note_keeps (notice : Notice) : Within (Keeps B stored) (RecordStore.note notice) := by
  intro s h
  obtain ⟨t, hnote, hsame⟩ := Reliable.note_same (B := B) notice h.sound
  rw [hnote]
  exact h.same hsame

-- Where there is a version the gate writes none.
theorem gate_keeps (storage : Storage) (version : Value) :
    Within (Keeps B stored) (gate storage version) := by
  refine (Action.within_ofExcept _).bind fun inRange => ?_
  cases inRange with
  | false => exact Action.within_fail _
  | true =>
      refine (Action.within_reading _).bind fun label => ?_
      intro s h
      have hread : storage.get versionKey .any s = _ := Reliable.get_eq_read h.sound versionKey .any
      have hfound := h.read_ne_notFound storage
      rw [Action.bind_of_ok (Action.attempt_of_eq hread)]
      cases hr : storage.read (B.view s) versionKey .any with
      | ok found =>
          dsimp only
          split
          · exact h
          · exact (note_keeps _).bind (fun _ => Action.within_fail _) s h
      | error e =>
          cases e with
          | notFound name => exact absurd hr (hfound name)
          | _ => exact h

theorem managed_ne_versionKey {key : String} (h : BookedSession.Managed key) : key ≠ versionKey := by
  cases h with
  | account index => exact (versionKey_ne_accountKey index).symm
  | registry => decide
  | builder => decide
  | snapshot => decide

theorem erase_keeps {key : String} (hkey : key ≠ versionKey) :
    Within (Keeps B stored) (RecordStore.erase key) := by
  intro s h
  obtain ⟨r, t, herase, ht, hends⟩ := B.erase_ends s key h.sound
  rw [herase]
  refine ⟨ht, ?_⟩
  dsimp only
  have hother : ((B.view s).erase key).get? versionKey = some stored := by
    rw [Entries.get?_erase, if_neg (by simpa using hkey)]
    exact h.version
  generalize B.view t = new at hends
  cases hends with
  | made => exact hother
  | refused e he => exact h.version
  | reported e he => exact hother

theorem setAll_keeps (storage : Storage) {records : Entries String Value}
    (hkeys : versionKey ∉ records.keys) : Within (Keeps B stored) (storage.setAll records) := by
  intro s h
  obtain ⟨r, t, hset, ht, ⟨e, -, -, hview⟩ | ⟨batch, hbatch, hview, -⟩⟩ :=
    Reliable.setAll_cases storage h.sound records
  · rw [hset]
    exact ⟨ht, by rw [hview]; exact h.version⟩
  · rw [hset]
    refine ⟨ht, ?_⟩
    rw [hview, hbatch.others hkeys]
    exact h.version

def BookKeeps (B : Reliable σ) (stored : String) (b c : Booked σ) : Prop := Keeps B stored b.state c.state

instance : IsPreorder (Booked σ) (BookKeeps B stored) where
  refl _ h := h
  trans _ _ _ hab hbc h := hbc (hab h)

theorem admits_keeps : BookedSession.Admits B.sound (fun _ => True) (BookKeeps B stored) where
  reads s key hs := by rw [B.get_eq s key hs]
  still b st hst h := by
    rw [hst h.sound]
    exact h
  erase _ hkey b := erase_keeps (managed_ne_versionKey hkey) b.state
  setAll storage _ records hrecords b h := by
    have hkeys : versionKey ∉ records.keys := by
      intro hmem
      obtain ⟨r, hr, hkey⟩ := List.mem_map.mp hmem
      exact managed_ne_versionKey (hrecords r hr) hkey
    obtain ⟨-, hstate⟩ := Booked.setAll_agrees storage records b b.state rfl
    have hset := setAll_keeps storage hkeys b.state h
    rwa [← hstate] at hset

theorem answer_keeps (storage : Storage) (registry : Option (List Value)) (deed : Deed)
    (h : Carries B stored st) : Carries B stored (answer deed ⟨storage, registry, st⟩).2.store := by
  have hbooked := (admits_keeps.answer deed ⟨storage, registry, (⟨st, [], []⟩ : Booked σ)⟩).2 trivial h
  obtain ⟨-, hstates⟩ := BookedSession.answer_agrees deed
    ⟨storage, registry, (⟨st, [], []⟩ : Booked σ)⟩ ⟨storage, registry, st⟩ rfl
  rwa [← hstates]

-- The use of a store by sessions over any storage, whether or not what they do succeeds. In between
-- nothing happens to the records.
inductive Used (B : Reliable σ) (st : σ) : σ → Prop where
  | new : Used B st st
  | asked {t : σ} (h : Used B st t) (storage : Storage) (registry : Option (List Value)) (deed : Deed) :
      Used B st (answer deed ⟨storage, registry, t⟩).2.store
  | opened {t : σ} (h : Used B st t) (storage : Storage) (version : Value) :
      Used B st (gate storage version t).2
  | meanwhile {t u : σ} (h : Used B st t) (hu : B.sound u) (hview : B.view u = B.view t) : Used B st u

theorem Used.carries (h : Used B st u) (hst : Carries B stored st) : Carries B stored u := by
  induction h with
  | new => exact hst
  | asked h storage registry deed ih => exact answer_keeps storage registry deed ih
  | opened h storage version ih => exact gate_keeps storage version _ ih
  | meanwhile h hu hview ih => exact ⟨hu, by rw [hview]; exact ih.version⟩

-- A store in which the gate has written a version carries it as the storage puts it.
theorem gate_carries (hs : B.sound st) (hrange : 0 ≤ version ∧ version ≤ maxSchemaVersion)
    (hnone : (B.view st).get? versionKey = none) (hgate : gate storage (.int version) st = (.ok (), t)) :
    ∃ text stored, text.toList.length ≤ 3 ∧ Storage.Puts versionKey text storage stored ∧
      Carries B stored t := by
  obtain ⟨s, hsame, hset⟩ := gate_of_none hs storage hrange hnone
  rw [hgate] at hset
  obtain ⟨text, stored, henc, hputs, ht, hview⟩ := Storage.set_eq_ok hsame.sound hset.symm
  refine ⟨text, stored, length_version hrange henc, hputs, ht, ?_⟩
  rw [hview, Entries.get?_put, if_pos (beq_self_eq_true versionKey)]

-- A plain version does not open under any key.
theorem gate_of_plain {text : String} (h : Carries B text st) (hshort : text.toList.length ≤ 3)
    (k : Seal.Key) (hrange : 0 ≤ version ∧ version ≤ maxSchemaVersion) :
    gate ⟨some k⟩ (.int version) st = (.error (.notAuthentic versionKey), st) := by
  have hreveal : Storage.reveal ⟨some k⟩ versionKey text = .error (.notAuthentic versionKey) :=
    Seal.openRecord_of_short k versionKey (Nat.lt_of_le_of_lt hshort (by decide))
  refine gate_of_notAuthentic h.sound hrange ?_
  rw [Storage.read_of_some h.version, hreveal]
  rfl

-- A sealed version is no version where no key is given.
theorem gate_of_sealed {k : Seal.Key} {n : Nat} {text : String}
    (h : Carries B (Seal.sealRecord k (Seal.nonce n) versionKey text) st)
    (hrange : 0 ≤ version ∧ version ≤ maxSchemaVersion) :
    ∃ found t, gate ⟨none⟩ (.int version) st = (.error (.schemaVersion found (.int version)), t) ∧
      Noted st t := by
  obtain ⟨hshallow, hlarge⟩ := Seal.decode_sealRecord k n versionKey text
  generalize Seal.sealRecord k (Seal.nonce n) versionKey text = sealedText at h hshallow hlarge
  have hlegible : Storage.Legible ⟨none⟩ versionKey sealedText := by
    refine ⟨fun _ => nofun, fun text htext => ?_⟩
    cases htext
    exact hshallow
  have hother : ¬Tells ⟨none⟩ version sealedText := by
    rintro ⟨text, htext, hint⟩
    cases htext
    have hversion := hlarge version hint
    have hsmall := hrange.2
    rw [maxSchemaVersion] at hsmall
    omega
  obtain ⟨e, t, hgate, hrefused, hnoted⟩ := gate_refused h.sound hrange h.version hlegible hother
  cases hrefused with
  | sealed h => cases h
  | other text found h hfound => exact ⟨found, t, hgate, hnoted⟩
  | unreadable text error h herror => exact ⟨_, t, hgate, hnoted⟩

-- A store that was first opened without a key opens under none, and one that was first opened under
-- a key does not open without one, however it has been used since. An attempt changes no record.
theorem modes_kept_apart (hs : B.sound st) (hnone : (B.view st).get? versionKey = none)
    (storage : Storage) (version : Int) (hrange : 0 ≤ version ∧ version ≤ maxSchemaVersion)
    (hgate : gate storage (.int version) st = (.ok (), t)) (hused : Used B t u) (asked : Int)
    (hasked : 0 ≤ asked ∧ asked ≤ maxSchemaVersion) :
    (storage.key = none → ∀ k : Seal.Key,
      gate ⟨some k⟩ (.int asked) u = (.error (.notAuthentic versionKey), u)) ∧
    ∀ k, storage.key = some k → ∃ found u',
      gate ⟨none⟩ (.int asked) u = (.error (.schemaVersion found (.int asked)), u') ∧
      Noted u u' ∧ B.sound u' ∧ B.view u' = B.view u := by
  obtain ⟨text, stored, hshort, hputs, ht⟩ := gate_carries hs hrange hnone hgate
  have hu := hused.carries ht
  refine ⟨fun hplain k => ?_, fun k hk => ?_⟩
  · cases hputs with
    | plain => exact gate_of_plain hu hshort k hasked
    | sealed k' n => cases hplain
  · cases hputs with
    | plain => cases hk
    | sealed k' n =>
        obtain ⟨found, u', hgate', hnoted⟩ := gate_of_sealed hu hasked
        have hsame := hnoted.same hu.sound
        exact ⟨found, u', hgate', hnoted, hsame.sound, hsame.view⟩

-- A store in memory for each mode, in which an account is saved before it is opened in the other one.
theorem modes_kept_apart_after_saving :
    ∃ (k : Seal.Key) (st t u t' u' : Seat Backend), st = ⟨Host.empty, .memory .empty⟩ ∧
      gate ⟨none⟩ (.int 1) st = (.ok (), t) ∧
      u = (answer (.save (Account.ofIndex (.int 7))) ⟨⟨none⟩, none, t⟩).2.store ∧
      gate ⟨some k⟩ (.int 1) u = (.error (.notAuthentic versionKey), u) ∧
      gate ⟨some k⟩ (.int 255) st = (.ok (), t') ∧
      u' = (answer (.save (Account.ofIndex (.int 7))) ⟨⟨some k⟩, none, t'⟩).2.store ∧
      ∃ found v, gate ⟨none⟩ (.int 255) u' = (.error (.schemaVersion found (.int 255)), v) ∧
        Noted u' v ∧ (Backend.calm True).sound v ∧
        (Backend.calm True).view v = (Backend.calm True).view u' := by
  let k : Seal.Key := ⟨List.replicate 32 7, by decide⟩
  let st : Seat Backend := ⟨Host.empty, .memory .empty⟩
  have hB := Backend.calm_faultless True
  have hst : (Backend.calm True).sound st := .memory rfl
  have hnone : ((Backend.calm True).view st).get? versionKey = none := rfl
  have hrange : (0 : Int) ≤ 1 ∧ 1 ≤ maxSchemaVersion := by decide
  have hrange' : (0 : Int) ≤ 255 ∧ 255 ≤ maxSchemaVersion := by decide
  obtain ⟨t, -, -, hgate, -⟩ := gate_adds hB hst ⟨none⟩ hrange hnone
  obtain ⟨t', -, -, hgate', -⟩ := gate_adds hB hst ⟨some k⟩ hrange' hnone
  have hplain := modes_kept_apart hst hnone ⟨none⟩ 1 hrange hgate
    (.asked .new ⟨none⟩ none (.save (Account.ofIndex (.int 7)))) 1 hrange
  have hsealed := modes_kept_apart hst hnone ⟨some k⟩ 255 hrange' hgate'
    (.asked .new ⟨some k⟩ none (.save (Account.ofIndex (.int 7)))) 255 hrange'
  exact ⟨k, st, t, _, t', _, rfl, hgate, rfl, hplain.1 rfl k, hgate', rfl, hsealed.2 k rfl⟩

end Wallet.Session

end Coffer
