import Coffer.Proofs.Json.Nesting
import Coffer.Proofs.PathName
import Coffer.Wallet.Builder

-- Configurations and secret managers whose members have the types they are declared with, and how
-- they come back from their records.

namespace Coffer.Wallet

open Json (Fits IsTree fitsWord)

def IsNullOr (P : Value → Prop) (v : Value) : Prop := v = .null ∨ P v

def IsWord (v : Value) : Prop := ∃ n, v = .int n ∧ fitsWord n = true

def IsText (v : Value) : Prop := ∃ s, v = .text s

def IsOptions (v : Value) : Prop :=
  ∃ (kind : BackendKind) (path keyFile : Value), IsNullOr IsText path ∧ IsNullOr IsText keyFile ∧
    v = .record optionsKind [("backend", .choice kind.choice), ("path", path), ("key_file", keyFile)]

-- A mapping of texts to trees.
def IsMapping (v : Value) : Prop :=
  ∃ members : Entries String Value, v = Value.ofMembers members ∧ members.keys.Nodup ∧
    ∀ m ∈ members, IsTree m.2

-- A path is named by some text. The seed of a mnemonic is never stored, so it may be anything.
inductive SecretManager.IsTyped : SecretManager → Prop where
  | mnemonic (seed : Bytes) : IsTyped (.mnemonic seed)
  | stronghold (path : String) (timeout : Value) (htimeout : IsNullOr IsWord timeout) :
      IsTyped (.stronghold (.ofText path) timeout)
  | ledgerNano (isSimulator : Bool) : IsTyped (.ledgerNano (.bool isSimulator))
  | placeholder : IsTyped .placeholder

inductive Snapshot.IsTyped : Snapshot → Prop where
  | mnemonic : IsTyped .mnemonic
  | stronghold (path : String) (timeout : Value) (htimeout : IsNullOr IsWord timeout) :
      IsTyped (.stronghold (.text path) timeout)
  | ledgerNano (isSimulator : Bool) : IsTyped (.ledgerNano (.bool isSimulator))
  | placeholder : IsTyped .placeholder

theorem SecretManager.IsTyped.snapshot {m : SecretManager} (h : m.IsTyped) : m.snapshot.IsTyped := by
  cases h with
  | mnemonic seed => exact .mnemonic
  | stronghold path timeout htimeout => exact .stronghold _ timeout htimeout
  | ledgerNano isSimulator => exact .ledgerNano isSimulator
  | placeholder => exact .placeholder

inductive Attachment.IsTyped : Attachment → Prop where
  | none : IsTyped .none
  | manager (m : SecretManager) (hm : m.IsTyped) : IsTyped (.manager m)

structure Builder.IsTyped (b : Builder) : Prop where
  storageOptions : IsNullOr IsOptions b.storageOptions
  clientOptions : IsNullOr IsMapping b.clientOptions
  coinType : IsNullOr IsWord b.coinType
  secret : b.secret.IsTyped

theorem fits_nullOr {P : Value → Prop} {schema : Json.Schema} {v : Value} (h : IsNullOr P v)
    (hP : ∀ v, P v → Fits schema v) : Fits (.nullable schema) v := by
  rcases h with rfl | hv
  · exact .null schema
  · exact .nullable schema v (hP v hv)

theorem fits_word (v : Value) (h : IsWord v) : Fits (.int none) v := by
  obtain ⟨n, rfl, hn⟩ := h
  exact .int _ n hn rfl

theorem fits_text (v : Value) (h : IsText v) : Fits .text v := by
  obtain ⟨s, rfl⟩ := h
  exact .text s

theorem fits_mapping (v : Value) (h : IsMapping v) : Fits (.dict .any) v := by
  obtain ⟨members, rfl, hkeys, hmembers⟩ := h
  exact .dict _ members hkeys fun m hm => .any _ (hmembers m hm)

theorem find?_choice (kind : BackendKind) :
    (BackendKind.all.map BackendKind.choice).find? (fun o => o.text == kind.choice.text) =
      some kind.choice := by
  cases kind <;> rfl

theorem fits_options (v : Value) (h : IsOptions v) : Fits optionsSchema v := by
  obtain ⟨kind, path, keyFile, hpath, hkeyFile, rfl⟩ := h
  refine .record _ _ _ rfl (by rintro ⟨⟩) rfl (by simp [Entries.keys]) ?_
  simp only [optionsFields, List.zip_cons_cons, List.zip_nil_right, List.forall_mem_cons]
  exact ⟨.option _ _ (find?_choice kind), fits_nullOr hpath fits_text, fits_nullOr hkeyFile fits_text,
    by simp⟩

theorem fits_builder {b : Builder} (h : b.IsTyped) : Fits builderSchema b.toRecord := by
  refine .record _ _ _ rfl (fun _ => ?_) rfl (by simp [Entries.keys]) ?_
  · simp [optional]
  · simp only [List.zip_cons_cons, List.zip_nil_right, List.forall_mem_cons]
    exact ⟨fits_nullOr h.storageOptions fits_options, fits_nullOr h.clientOptions fits_mapping,
      fits_nullOr h.coinType fits_word, .any _ .null, by simp⟩

theorem fits_typedSnapshot {s : Snapshot} (h : s.IsTyped) : Fits snapshotSchema s.toValue := by
  cases h with
  | mnemonic => exact .variant _ mnemonicKind _ _ _ rfl rfl (by rintro ⟨⟩) rfl List.nodup_nil (by simp)
  | stronghold path timeout htimeout =>
      refine .variant _ strongholdKind _ _ _ rfl rfl (by rintro ⟨⟩) rfl (by simp [Entries.keys]) ?_
      simp only [List.zip_cons_cons, List.zip_nil_right, List.forall_mem_cons]
      exact ⟨.text _, fits_nullOr htimeout fits_word, by simp⟩
  | ledgerNano isSimulator =>
      refine .variant _ ledgerNanoKind _ _ _ rfl rfl (by rintro ⟨⟩) rfl (by simp [Entries.keys]) ?_
      simp only [List.zip_cons_cons, List.zip_nil_right, List.forall_mem_cons]
      exact ⟨.bool _, by simp⟩
  | placeholder =>
      exact .variant _ placeholderKind _ _ _ rfl rfl (by rintro ⟨⟩) rfl List.nodup_nil (by simp)

-- A manager that may be stored is made again from its snapshot.
theorem fits_snapshot {m : SecretManager} (h : m.IsTyped) : Fits snapshotSchema m.snapshot.toValue :=
  fits_typedSnapshot h.snapshot

theorem Snapshot.ofValue_toValue {m : SecretManager} (h : m.IsTyped) :
    Snapshot.ofValue m.snapshot.toValue = m.snapshot := by
  cases h <;> rfl

theorem SecretManager.ofSnapshot_snapshot {m : SecretManager} (h : m.IsTyped)
    (hpersists : Policy.shouldPersist m.snapshot = .ok true) :
    SecretManager.ofSnapshot m.snapshot = .ok m := by
  cases h with
  | mnemonic seed => cases hpersists
  | stronghold path timeout htimeout =>
      change SecretManager.ofSnapshot (.stronghold (.text (PathName.ofText path).text) timeout) = _
      rw [SecretManager.ofSnapshot, PathName.ofValue, PathName.ofText_text]
      rfl
  | ledgerNano isSimulator => rfl
  | placeholder => rfl

-- A snapshot is written whatever it holds.
theorem nesting_snapshot {m : SecretManager} (h : m.IsTyped) :
    Json.nesting m.snapshot.toValue ≤ Json.maxEncodeDepth := by
  have hmax : 1 ≤ Json.maxEncodeDepth := by decide
  cases h with
  | mnemonic seed => exact hmax
  | stronghold path timeout htimeout =>
      rcases htimeout with rfl | ⟨n, rfl, -⟩ <;> exact hmax
  | ledgerNano isSimulator => exact hmax
  | placeholder => exact hmax

-- A manager that is made of no mnemonic comes back from the text of its snapshot as it was. Its path
-- is normalised a second time on the way, which changes no path.
theorem manager_restored :
    (∀ s : String, PathName.ofText (PathName.ofText s).text = PathName.ofText s) ∧
    ∀ m : SecretManager, m.IsTyped → (∀ seed, m ≠ .mnemonic seed) →
      ∃ text v restored, Json.encode m.snapshot.toValue = .ok text ∧
        Json.decode snapshotSchema text = .ok v ∧
        SecretManager.ofSnapshot (Snapshot.ofValue v) = .ok restored ∧
        restored = m ∧ restored.snapshot = Snapshot.ofValue v := by
  refine ⟨PathName.ofText_text, fun m hm hseedless => ?_⟩
  have hpersists : Policy.shouldPersist m.snapshot = .ok true := by
    cases hm with
    | mnemonic seed => exact absurd rfl (hseedless seed)
    | _ => rfl
  have hfits := fits_snapshot hm
  obtain ⟨text, htext⟩ := Json.encode_ok hfits (nesting_snapshot hm)
  have hdecode := Json.decode_of_encode hfits htext
  have hread := Snapshot.ofValue_toValue hm
  refine ⟨text, m.snapshot.toValue, m, htext, hdecode, ?_, rfl, hread.symm⟩
  rw [hread]
  exact SecretManager.ofSnapshot_snapshot hm hpersists

-- A path with two slashes in front, a dot and an empty part in it, and the least timeout.
theorem manager_restored_of_untidy_path :
    ∃ m : SecretManager, m = .stronghold (.ofText "//a/.//b/../\"c\n/") (.int (-0x8000000000000000)) ∧
      m.snapshot = .stronghold (.text "//a/b/../\"c\n") (.int (-0x8000000000000000)) ∧
      m.IsTyped ∧ (∀ seed, m ≠ .mnemonic seed) ∧
      ∃ text v restored, Json.encode m.snapshot.toValue = .ok text ∧
        Json.decode snapshotSchema text = .ok v ∧
        SecretManager.ofSnapshot (Snapshot.ofValue v) = .ok restored ∧
        restored = m ∧ restored.snapshot = Snapshot.ofValue v := by
  let m : SecretManager := .stronghold (.ofText "//a/.//b/../\"c\n/") (.int (-0x8000000000000000))
  have hpath : (PathName.ofText "//a/.//b/../\"c\n/").text = "//a/b/../\"c\n" := rfl
  have hsnapshot : m.snapshot = .stronghold (.text "//a/b/../\"c\n") (.int (-0x8000000000000000)) := by
    change Snapshot.stronghold (.text _) _ = _
    rw [hpath]
  have hm : m.IsTyped := .stronghold _ _ (.inr ⟨_, rfl, by decide⟩)
  have hseedless : ∀ seed, m ≠ .mnemonic seed := fun _ => nofun
  exact ⟨m, rfl, hsnapshot, hm, hseedless, manager_restored.2 m hm hseedless⟩

end Coffer.Wallet
