import Coffer.Proofs.Json.Decodable
import Coffer.Proofs.Store.Calm
import Coffer.Proofs.Wallet.Steps

-- The gate of a session, by what is stored as the version.

namespace Coffer

namespace Storage

variable {storage : Storage} {es : Entries String String} {key text sealedText : String}
  {schema : Json.Schema} {e : Failure}

-- What is stored is text when it opens, and nests no deeper than the decoder goes.
structure Legible (storage : Storage) (key sealedText : String) : Prop where
  whole : ∀ fault, storage.reveal key sealedText ≠ .error (.undecodable fault)
  shallow : ∀ text, storage.reveal key sealedText = .ok text →
    Json.decode .any text ≠ .error .tooDeep

theorem reveal_eq_error (h : storage.reveal key sealedText = .error e) :
    e = .notAuthentic key ∨ ∃ fault, e = .undecodable fault := by
  obtain ⟨key?⟩ := storage
  cases key? with
  | none => cases h
  | some k =>
      simp only [reveal, Seal.openRecord] at h
      split at h
      · cases h
        exact .inl rfl
      split at h
      · cases h
        exact .inl rfl
      · cases hplain : Utf8.decode ‹Bytes› with
        | ok s =>
            rw [hplain] at h
            cases h
        | error fault =>
            rw [hplain] at h
            cases h
            exact .inr ⟨fault, rfl⟩

theorem read_of_some (hget : es.get? key = some sealedText) (schema : Json.Schema) :
    storage.read es key schema =
      storage.reveal key sealedText >>= fun text => decode key schema text := by
  rw [read, MemoryStore.lookup, hget]
  rfl

-- The depth apart, a text that is refused is refused as the record's.
theorem decode_eq_error {error : Json.Error} (h : Json.decode schema text = .error error)
    (hshallow : error ≠ .tooDeep) :
    decode key schema text = .error (.unreadable key (Utf8.encode text).length error) := by
  rw [decode, h, mapError_error]
  cases error with
  | tooDeep => exact absurd rfl hshallow
  | undecodable fault => exact absurd h (Json.decode_ne_undecodable schema text fault)
  | _ => rfl

end Storage

namespace Wallet.Session

variable {σ : Type} [RecordStore σ] {B : Reliable σ} {st : σ} {storage : Storage} {version : Int}

theorem isInRange_of_not {version : Int} (h : ¬(0 ≤ version ∧ version ≤ maxSchemaVersion)) :
    isInRange (.int version) = .ok false := by
  simp only [isInRange, Value.ratio?, Except.ok.injEq, Bool.and_eq_false_iff,
    decide_eq_false_iff_not]
  omega

theorem isVersion_iff (version : Int) (found : Value) :
    isVersion (.int version) found = true ↔ found = .int version := by
  cases found <;> simp [isVersion, int_beq]

-- A version that there cannot be is refused before the store is asked for anything.
theorem gate_of_not_inRange (storage : Storage) (h : ¬(0 ≤ version ∧ version ≤ maxSchemaVersion)) (st : σ) :
    gate storage (.int version) st = (.error (.unusable (.schemaVersion (.int version))), st) := by
  unfold gate
  rw [isInRange_of_not h]
  rfl

-- What the gate does once it has looked for the version.
def afterReading (storage : Storage) (version : Value) (label : String) :
    Except Failure Value → Action σ Unit
  | .ok found =>
      if isVersion version found then pure ()
      else do
        RecordStore.note (refusal label found version)
        .fail (.schemaVersion found version)
  | .error (.notFound _) => do
      RecordStore.note ⟨.info, s!"Initializing {label} store with schema version " ++ version.asText⟩
      storage.set versionKey version
  | .error (.unreadable _ size error) => .fail (.schemaVersion (.text (error.message size)) version)
  | .error e => .fail e

theorem gate_eq (hs : B.sound st) (storage : Storage) (hrange : 0 ≤ version ∧ version ≤ maxSchemaVersion) :
    gate storage (.int version) st =
      afterReading storage (.int version) (RecordStore.label st)
        (storage.read (B.view st) versionKey .any) st := by
  have hget : storage.get versionKey .any st = _ := Reliable.get_eq_read hs versionKey .any
  unfold gate
  rw [isInRange_int hrange]
  refine (Action.bind_of_ok rfl).trans ?_
  refine (Action.bind_of_ok rfl).trans ?_
  exact Action.bind_of_ok (Action.attempt_of_eq hget)

theorem gate_of_unreadable (hs : B.sound st) (hrange : 0 ≤ version ∧ version ≤ maxSchemaVersion)
    {key : String} {size : Nat} {error : Json.Error}
    (hread : storage.read (B.view st) versionKey .any = .error (.unreadable key size error)) :
    gate storage (.int version) st =
      (.error (.schemaVersion (.text (error.message size)) (.int version)), st) := by
  rw [gate_eq hs storage hrange, hread]
  rfl

theorem gate_of_notAuthentic (hs : B.sound st) (hrange : 0 ≤ version ∧ version ≤ maxSchemaVersion)
    (hread : storage.read (B.view st) versionKey .any = .error (.notAuthentic versionKey)) :
    gate storage (.int version) st = (.error (.notAuthentic versionKey), st) := by
  rw [gate_eq hs storage hrange, hread]
  rfl

-- All that may be left of a refusal is a notice.
def Noted (st t : σ) : Prop := t = st ∨ ∃ notice, RecordStore.note notice st = (.ok (), t)

theorem Noted.same {t : σ} (h : Noted st t) (hs : B.sound st) : B.Same st t := by
  rcases h with rfl | ⟨notice, hnote⟩
  · exact Reliable.Same.refl B hs
  · obtain ⟨t', hnote', hsame⟩ := Reliable.note_same (B := B) notice hs
    rw [hnote] at hnote'
    cases hnote'
    exact hsame

theorem gate_of_other (hs : B.sound st) (hrange : 0 ≤ version ∧ version ≤ maxSchemaVersion) {found : Value}
    (hread : storage.read (B.view st) versionKey .any = .ok found) (hne : found ≠ .int version) :
    ∃ t, gate storage (.int version) st = (.error (.schemaVersion found (.int version)), t) ∧
      Noted st t := by
  have hfail : ¬isVersion (.int version) found = true := fun h => hne ((isVersion_iff version found).mp h)
  obtain ⟨t, hnote, -⟩ :=
    Reliable.note_same (B := B) (refusal (RecordStore.label st) found (.int version)) hs
  refine ⟨t, ?_, .inr ⟨_, hnote⟩⟩
  rw [gate_eq hs storage hrange, hread, afterReading, if_neg hfail]
  exact Action.bind_of_ok hnote

-- The stored text opens, and is the version.
def Tells (storage : Storage) (version : Int) (stored : String) : Prop :=
  ∃ text, storage.reveal versionKey stored = .ok text ∧ Json.decode .any text = .ok (.int version)

-- What a version is refused with that is there in another form or with another value.
inductive Refused (storage : Storage) (version : Int) (stored : String) : Failure → Prop where
  | sealed (h : storage.reveal versionKey stored = .error (.notAuthentic versionKey)) :
      Refused storage version stored (.notAuthentic versionKey)
  | other (text : String) (found : Value) (h : storage.reveal versionKey stored = .ok text)
      (hfound : Json.decode .any text = .ok found) :
      Refused storage version stored (.schemaVersion found (.int version))
  | unreadable (text : String) (error : Json.Error) (h : storage.reveal versionKey stored = .ok text)
      (herror : Json.decode .any text = .error error) :
      Refused storage version stored
        (.schemaVersion (.text (error.message (Utf8.encode text).length)) (.int version))

theorem gate_refused (hs : B.sound st) (hrange : 0 ≤ version ∧ version ≤ maxSchemaVersion) {stored : String}
    (hget : (B.view st).get? versionKey = some stored) (hlegible : storage.Legible versionKey stored)
    (hother : ¬Tells storage version stored) :
    ∃ e t, gate storage (.int version) st = (.error e, t) ∧ Refused storage version stored e ∧
      Noted st t := by
  have hread : storage.read (B.view st) versionKey .any = _ := Storage.read_of_some hget .any
  cases hreveal : storage.reveal versionKey stored with
  | error e =>
      rw [hreveal] at hread
      rcases Storage.reveal_eq_error hreveal with rfl | ⟨fault, rfl⟩
      · exact ⟨_, st, gate_of_notAuthentic hs hrange hread, .sealed hreveal, .inl rfl⟩
      · exact absurd hreveal (hlegible.whole fault)
  | ok text =>
      rw [hreveal, ok_bind] at hread
      cases hdecode : Json.decode .any text with
      | ok found =>
          have hfound : Storage.decode versionKey .any text = .ok found := by
            rw [Storage.decode, hdecode]
            rfl
          have hne : found ≠ .int version := fun h => hother ⟨text, hreveal, by rw [hdecode, h]⟩
          obtain ⟨t, hgate, hnoted⟩ := gate_of_other hs hrange (hread.trans hfound) hne
          exact ⟨_, t, hgate, .other text found hreveal hdecode, hnoted⟩
      | error error =>
          have hshallow : error ≠ .tooDeep := fun h => hlegible.shallow text hreveal (by rw [hdecode, h])
          have hgate := gate_of_unreadable hs hrange
            (hread.trans (Storage.decode_eq_error hdecode hshallow))
          exact ⟨_, st, hgate, .unreadable text error hreveal hdecode, .inl rfl⟩

theorem gate_accepts (hs : B.sound st) (hrange : 0 ≤ version ∧ version ≤ maxSchemaVersion)
    {stored : String} (hget : (B.view st).get? versionKey = some stored)
    (htells : Tells storage version stored) : gate storage (.int version) st = (.ok (), st) := by
  obtain ⟨text, hreveal, hdecode⟩ := htells
  refine gate_of_version storage hrange (Reliable.get_eq_read hs versionKey .any) ?_
  rw [Storage.read_of_some hget, hreveal, ok_bind, Storage.decode, hdecode]
  rfl

theorem gate_adds (hB : B.Faultless) (hs : B.sound st) (storage : Storage)
    (hrange : 0 ≤ version ∧ version ≤ maxSchemaVersion) (hnone : (B.view st).get? versionKey = none) :
    ∃ t stored text, gate storage (.int version) st = (.ok (), t) ∧ B.sound t ∧
      B.view t = B.view st ++ [(versionKey, stored)] ∧
      storage.reveal versionKey stored = .ok text ∧ Json.encode (.int version) = .ok text := by
  obtain ⟨text, htext⟩ := encode_int version
  have hplain : Storage.encodeAll [(versionKey, .int version)] = .ok [(versionKey, text)] := by
    rw [Storage.encodeAll, Storage.encode, htext]
    rfl
  obtain ⟨t, hgate, ht, stored, hview, hreveal⟩ := gate_of_no_version (P := B.Same st)
    (Q := fun t => B.sound t ∧ ∃ stored, B.view t = B.view st ++ [(versionKey, stored)] ∧
      storage.reveal versionKey stored = .ok text)
    storage hrange (Reliable.get_eq_read hs versionKey .any) hnone
    (fun notice => by
      obtain ⟨t, hnote, ht⟩ := B.note_eq st notice hs
      exact ⟨t, hnote, ht.1, ht.2.1, ht.2.2⟩)
    (fun t ht => by
      obtain ⟨u, hu, hset⟩ := hB.setAll_eq storage ht.sound [(versionKey, .int version)]
      rw [hplain] at hset
      obtain ⟨hset, batch, hbatch, hview⟩ := hset
      cases hbatch with
      | @cons b _ _ _ hb hrest =>
          cases hrest
          obtain ⟨key, stored⟩ := b
          obtain ⟨rfl, hreveal⟩ : key = versionKey ∧ storage.reveal key stored = .ok text := hb
          refine ⟨u, hset, hu, stored, ?_, hreveal⟩
          rw [hview, ht.view]
          exact Entries.put_of_not_mem _ _ _ ((Entries.get?_eq_none_iff _ _).mp hnone))
  exact ⟨t, stored, text, hgate, ht, hview, hreveal, htext⟩

-- A store is opened with an integer as the version while nothing goes wrong with it.
theorem gate_writes_missing_version (hB : B.Faultless) (hs : B.sound st) (storage : Storage)
    (version : Int)
    (hlegible : ∀ stored, (B.view st).get? versionKey = some stored → storage.Legible versionKey stored) :
    (¬(0 ≤ version ∧ version ≤ maxSchemaVersion) → ∀ (τ : Type) [RecordStore τ] (u : τ),
      gate storage (.int version) u = (.error (.unusable (.schemaVersion (.int version))), u)) ∧
    (0 ≤ version ∧ version ≤ maxSchemaVersion →
      ((B.view st).get? versionKey = none → ∃ t stored text,
        gate storage (.int version) st = (.ok (), t) ∧ B.sound t ∧
        B.view t = B.view st ++ [(versionKey, stored)] ∧
        storage.reveal versionKey stored = .ok text ∧ Json.encode (.int version) = .ok text ∧
        ∀ u, B.sound u → B.view u = B.view t → gate storage (.int version) u = (.ok (), u)) ∧
      ∀ stored, (B.view st).get? versionKey = some stored →
        (Tells storage version stored → gate storage (.int version) st = (.ok (), st)) ∧
        (¬Tells storage version stored → ∃ e t, gate storage (.int version) st = (.error e, t) ∧
          Refused storage version stored e ∧ Noted st t ∧ B.sound t ∧ B.view t = B.view st)) := by
  refine ⟨fun hrange τ _ u => gate_of_not_inRange storage hrange u, fun hrange => ⟨fun hnone => ?_, ?_⟩⟩
  · obtain ⟨t, stored, text, hgate, ht, hview, hreveal, htext⟩ :=
      gate_adds hB hs storage hrange hnone
    have habsent := (Entries.get?_eq_none_iff _ _).mp hnone
    have htells : Tells storage version stored :=
      ⟨text, hreveal, Json.decode_of_encode (fits_version hrange) htext⟩
    refine ⟨t, stored, text, hgate, ht, hview, hreveal, htext, fun u hu hsame => ?_⟩
    refine gate_accepts hu hrange ?_ htells
    rw [hsame, hview, ← Entries.put_of_not_mem _ _ _ habsent, Entries.get?_put]
    simp
  · intro stored hget
    refine ⟨fun htells => gate_accepts hs hrange hget htells, fun hother => ?_⟩
    obtain ⟨e, t, hgate, he, hnoted⟩ := gate_refused hs hrange hget (hlegible stored hget) hother
    have hsame := hnoted.same hs
    exact ⟨e, t, hgate, he, hnoted, hsame.sound, hsame.view⟩

-- A boolean where a version is looked for.
theorem gate_writes_missing_version_of_boolean :
    ∃ st : Seat Backend, st = ⟨Host.empty, .memory ⟨[(versionKey, "true")]⟩⟩ ∧
      (Backend.calm True).sound st ∧ Json.decode .any "true" = .ok (.bool true) ∧
      ∃ e t, gate ⟨none⟩ (.int 1) st = (.error e, t) ∧ Refused ⟨none⟩ 1 "true" e ∧ Noted st t ∧
        (Backend.calm True).sound t ∧ (Backend.calm True).view t = (Backend.calm True).view st := by
  let st : Seat Backend := ⟨Host.empty, .memory ⟨[(versionKey, "true")]⟩⟩
  have hst : (Backend.calm True).sound st := .memory rfl
  have hget : ((Backend.calm True).view st).get? versionKey = some "true" := rfl
  have hdecode : Json.decode .any "true" = .ok (.bool true) := by
    have hchars : "true".toList = ['t', 'r', 'u', 'e'] := by decide
    rw [Json.decode, Utf8.encode, hchars]
    rfl
  have hlegible : ∀ stored, ((Backend.calm True).view st).get? versionKey = some stored →
      Storage.Legible ⟨none⟩ versionKey stored := by
    intro stored h
    rw [hget] at h
    cases h
    refine ⟨fun _ h => ?_, fun text h => ?_⟩
    · cases h
    · cases h
      rw [hdecode]
      rintro ⟨⟩
  have hother : ¬Tells ⟨none⟩ 1 "true" := by
    rintro ⟨text, h, hint⟩
    cases h
    rw [hdecode] at hint
    cases hint
  have hgate := gate_writes_missing_version (Backend.calm_faultless True) hst ⟨none⟩ 1 hlegible
  exact ⟨st, rfl, hst, hdecode, ((hgate.2 (by decide)).2 "true" hget).2 hother⟩

end Wallet.Session

end Coffer
