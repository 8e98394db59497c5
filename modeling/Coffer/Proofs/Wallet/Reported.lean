import Coffer.Proofs.Wallet.Gate

-- What reading a stored text may end in, whatever text is stored.

namespace Coffer

namespace Storage

variable {schema : Json.Schema} {text : String}

-- A text is decoded to a value of the type asked for, refused as the record's, or nests too deep.
theorem decode_cases (key : String) (schema : Json.Schema) (text : String) :
    (∃ v, decode key schema text = .ok v ∧ Json.HasType schema v) ∨
      (∃ error, decode key schema text = .error (.unreadable key (Utf8.encode text).length error)) ∨
      decode key schema text = .error .readTooDeep ∧ Json.maxDepth < Json.levels text := by
  cases hdecode : Json.decode schema text with
  | ok v =>
      refine .inl ⟨v, ?_, Json.decodeBytes_hasType hdecode⟩
      rw [decode, hdecode, mapError_ok]
  | error error =>
      refine .inr ?_
      by_cases hdeep : error = .tooDeep
      · subst hdeep
        refine .inr ⟨?_, Json.lt_levels_of_tooDeep hdecode⟩
        rw [decode, hdecode, mapError_error]
        rfl
      · exact .inl ⟨error, decode_eq_error hdecode hdeep⟩

end Storage

namespace Wallet.Session

variable {σ : Type} [RecordStore σ] {B : Reliable σ} {st : σ}

theorem get_of_stored (hs : B.sound st) {key text : String} (hget : (B.view st).get? key = some text)
    (schema : Json.Schema) :
    (⟨none⟩ : Storage).get key schema st = (Storage.decode key schema text, st) := by
  rw [Reliable.get_eq_read hs, Storage.read_of_some hget]
  rfl

theorem gate_of_tooDeep (hs : B.sound st) {version : Int} (hrange : 0 ≤ version ∧ version ≤ maxSchemaVersion)
    {storage : Storage} (hread : storage.read (B.view st) versionKey .any = .error .readTooDeep) :
    gate storage (.int version) st = (.error .readTooDeep, st) := by
  rw [gate_eq hs storage hrange, hread]
  rfl

-- A gate that finds a text lets the session in, refuses its version, or fails for how deep it nests.
theorem gate_cases (hs : B.sound st) {version : Int} (hrange : 0 ≤ version ∧ version ≤ maxSchemaVersion)
    {text : String} (hget : (B.view st).get? versionKey = some text) :
    gate ⟨none⟩ (.int version) st = (.ok (), st) ∨
      (∃ found t, gate ⟨none⟩ (.int version) st = (.error (.schemaVersion found (.int version)), t) ∧
        Noted st t) ∨
      gate ⟨none⟩ (.int version) st = (.error .readTooDeep, st) ∧ Json.maxDepth < Json.levels text := by
  have hread : (⟨none⟩ : Storage).read (B.view st) versionKey .any = Storage.decode versionKey .any text :=
    Storage.read_of_some hget .any
  rcases Storage.decode_cases versionKey .any text with ⟨v, hv, -⟩ | ⟨error, herror⟩ | ⟨hdeep, hlevels⟩
  · by_cases hversion : v = .int version
    · subst hversion
      exact .inl (gate_of_version _ hrange (Reliable.get_eq_read hs versionKey .any) (hread.trans hv))
    · obtain ⟨t, hgate, hnoted⟩ := gate_of_other hs hrange (hread.trans hv) hversion
      exact .inr (.inl ⟨v, t, hgate, hnoted⟩)
  · exact .inr (.inl ⟨_, st, gate_of_unreadable hs hrange (hread.trans herror), .inl rfl⟩)
  · exact .inr (.inr ⟨gate_of_tooDeep hs hrange (hread.trans hdeep), hlevels⟩)

-- Whatever text is stored in the open, reading it as any type gives a value of that type or fails in
-- the name of its key, and a gate lets a session in or refuses the version. Both fail otherwise only
-- for a text whose brackets nest deeper than a decoder goes.
theorem stored_text_reported (hs : B.sound st) :
    (∀ key text schema, (B.view st).get? key = some text →
      (∃ v, (⟨none⟩ : Storage).get key schema st = (.ok v, st) ∧ Json.HasType schema v) ∨
      (∃ error, (⟨none⟩ : Storage).get key schema st =
        (.error (.unreadable key (Utf8.encode text).length error), st)) ∨
      (⟨none⟩ : Storage).get key schema st = (.error .readTooDeep, st) ∧ Json.maxDepth < Json.levels text) ∧
    ∀ version text, 0 ≤ version ∧ version ≤ maxSchemaVersion →
      (B.view st).get? versionKey = some text →
      gate ⟨none⟩ (.int version) st = (.ok (), st) ∨
      (∃ found t, gate ⟨none⟩ (.int version) st = (.error (.schemaVersion found (.int version)), t) ∧
        Noted st t) ∨
      gate ⟨none⟩ (.int version) st = (.error .readTooDeep, st) ∧ Json.maxDepth < Json.levels text := by
  refine ⟨fun key text schema hget => ?_, fun version text hrange hget => gate_cases hs hrange hget⟩
  rw [get_of_stored hs hget schema]
  rcases Storage.decode_cases key schema text with ⟨v, hv, htype⟩ | ⟨error, herror⟩ | ⟨hdeep, hlevels⟩
  · exact .inl ⟨v, by rw [hv], htype⟩
  · exact .inr (.inl ⟨error, by rw [herror]⟩)
  · exact .inr (.inr ⟨by rw [hdeep], hlevels⟩)

-- A text cut short under one key, and a boolean for the version.
theorem stored_text_reported_of_cut_text :
    ∃ st : Seat Backend, st = ⟨Host.empty, .memory ⟨[("k", "[1,"), (versionKey, "true")]⟩⟩ ∧
      (Backend.calm True).sound st ∧
      ((∃ v, (⟨none⟩ : Storage).get "k" .any st = (.ok v, st) ∧ Json.HasType .any v) ∨
        ∃ error, (⟨none⟩ : Storage).get "k" .any st =
          (.error (.unreadable "k" (Utf8.encode "[1,").length error), st)) ∧
      (gate ⟨none⟩ (.int 1) st = (.ok (), st) ∨
        ∃ found t, gate ⟨none⟩ (.int 1) st = (.error (.schemaVersion found (.int 1)), t) ∧ Noted st t) := by
  let st : Seat Backend := ⟨Host.empty, .memory ⟨[("k", "[1,"), (versionKey, "true")]⟩⟩
  have hst : (Backend.calm True).sound st := .memory rfl
  have hreported := stored_text_reported hst
  refine ⟨st, rfl, hst, ?_, ?_⟩
  · rcases hreported.1 "k" "[1," .any rfl with h | h | ⟨-, hlevels⟩
    · exact .inl h
    · exact .inr h
    · exact absurd hlevels (by decide)
  · rcases hreported.2 1 "true" (by decide) rfl with h | h | ⟨-, hlevels⟩
    · exact .inl h
    · exact .inr h
    · exact absurd hlevels (by decide)

-- One bracket more than a decoder goes down: no record's failure, and no version's.
theorem nested_text_unreported :
    ∃ (st : Seat Backend) (text : String), text = String.ofList (List.replicate (Json.maxDepth + 1) '[') ∧
      st = ⟨Host.empty, .memory ⟨[("k", text), (versionKey, text)]⟩⟩ ∧
      (⟨none⟩ : Storage).get "k" .any st = (.error .readTooDeep, st) ∧
      gate ⟨none⟩ (.int schemaVersion) st = (.error .readTooDeep, st) := by
  obtain ⟨text, htext⟩ : ∃ text, text = String.ofList (List.replicate (Json.maxDepth + 1) '[') := ⟨_, rfl⟩
  let st : Seat Backend := ⟨Host.empty, .memory ⟨[("k", text), (versionKey, text)]⟩⟩
  have hst : (Backend.calm True).sound st := .memory rfl
  have hdeep (key : String) : Storage.decode key .any text = .error .readTooDeep := by
    rw [Storage.decode, htext, Json.decode_brackets (Nat.lt_succ_self _)]
    rfl
  refine ⟨st, text, htext, rfl, ?_, ?_⟩
  · rw [get_of_stored hst (show ((Backend.calm True).view st).get? "k" = some text from rfl), hdeep]
  · have hread : (⟨none⟩ : Storage).read ((Backend.calm True).view st) versionKey .any =
        Storage.decode versionKey .any text := Storage.read_of_some rfl .any
    exact gate_of_tooDeep hst (by decide) (hread.trans (hdeep versionKey))

end Wallet.Session

end Coffer
