import Coffer.Proofs.Json.Nesting
import Coffer.Proofs.Store.Alike
import Coffer.Proofs.Store.Sealings
import Coffer.Proofs.Wallet.Contents

-- What has been written is read as it was written, by the schema of its type, and what has not been
-- written is read as before.

namespace Coffer

namespace Storage

variable {σ : Type} [RecordStore σ] {B : Reliable σ} {storage : Storage} {s t : σ}

theorem protectValues_keys {entries batch : Entries Value Value}
    (h : storage.protectValues entries s = (.ok batch, t)) : batch.keys = entries.keys := by
  induction entries generalizing batch s with
  | nil =>
      cases h
      rfl
  | cons r rest ih =>
      rw [protectValues_cons] at h
      obtain ⟨text, s₁, -, h⟩ := Action.bind_eq_ok h
      obtain ⟨sealedText, s₂, -, h⟩ := Action.bind_eq_ok h
      obtain ⟨batch, s₃, hrest, h⟩ := Action.bind_eq_ok h
      cases h
      exact congrArg (r.1 :: ·) (ih hrest)

theorem keys_of_textRecords {entries : Entries Value Value} {batch : Entries String String}
    (h : textRecords entries = .ok batch) : entries.keys = batch.keys.map Value.text := by
  induction entries generalizing batch with
  | nil =>
      cases h
      rfl
  | cons e rest ih =>
      unfold textRecords at h
      split at h
      · cases ‹e :: rest = []›
      · obtain ⟨rfl, rfl⟩ := List.cons.inj ‹e :: rest = _›
        obtain ⟨batch, hrest, h⟩ := bind_eq_ok h
        cases h
        exact congrArg (_ :: ·) (ih hrest)
      · cases h

theorem ofMembers_of_keys {entries : Entries Value Value} {keys : List String}
    (h : entries.keys = keys.map Value.text) :
    ∃ records : Entries String Value, entries = records.map fun r => (.text r.1, r.2) := by
  induction entries generalizing keys with
  | nil => exact ⟨[], rfl⟩
  | cons e rest ih =>
      obtain ⟨k, v⟩ := e
      cases keys with
      | nil => cases h
      | cons key keys =>
          obtain ⟨rfl, hrest⟩ := List.cons.inj h
          obtain ⟨records, rfl⟩ := ih hrest
          exact ⟨(key, v) :: records, rfl⟩

-- A batch that has been written has text keys.
theorem setBatch_eq_ok {entries : Entries Value Value}
    (h : storage.setBatch (.dict entries) s = (.ok (), t)) :
    ∃ records : Entries String Value, entries = (records.map fun r => (.text r.1, r.2)) ∧
      storage.setAll records s = (.ok (), t) := by
  obtain ⟨values, s₁, hprotect, hput⟩ := Action.bind_eq_ok h
  obtain ⟨batch, s₂, htexts, -⟩ := Action.bind_eq_ok hput
  have htexts : textRecords values = .ok batch := congrArg Prod.fst htexts
  have hkeys : entries.keys = batch.keys.map Value.text := by
    rw [← protectValues_keys hprotect]
    exact keys_of_textRecords htexts
  obtain ⟨records, rfl⟩ := ofMembers_of_keys hkeys
  refine ⟨records, rfl, ?_⟩
  rw [← setBatch_ofMembers]
  exact h

theorem wrote_of_setAll (hs : B.sound s) {records : Entries String Value} (hnodup : records.keys.Nodup)
    (h : storage.setAll records s = (.ok (), t)) :
    B.sound t ∧ storage.Wrote records (B.view s) (B.view t) := by
  obtain ⟨r, t', hset, ht, ⟨e, rfl, -, -⟩ | ⟨batch, hbatch, hview, -⟩⟩ :=
    Reliable.setAll_cases storage hs records <;> rw [h] at hset <;> cases hset
  refine ⟨ht, ?_⟩
  rw [hview]
  exact hbatch.wrote hnodup

-- A key under which nothing was written is read as before.
theorem Wrote.getText_eq {records : Entries String Value}
    (h : storage.Wrote records (B.view s) (B.view t)) (hs : B.sound s) (ht : B.sound t) {key : String}
    (hkey : key ∉ records.keys) : (storage.getText key t).1 = (storage.getText key s).1 := by
  rw [Reliable.getText_eq storage ht, Reliable.getText_eq storage hs, MemoryStore.lookup,
    MemoryStore.lookup, h.others key hkey]

end Storage

namespace Wallet

open Json (Fits IsTree fitsWord)

-- The values that a wallet stores, each with the schema of its type. A tree may be read as any value
-- at all or as what it is.
inductive IsRecord : Json.Schema → Value → Prop where
  | any (v : Value) (hv : IsTree v) : IsRecord .any v
  | bool (b : Bool) : IsRecord .bool (.bool b)
  | int (n : Int) (hn : fitsWord n = true) : IsRecord (.int none) (.int n)
  | text (s : String) : IsRecord .text (.text s)
  | list (items : List Value) (hitems : ∀ v ∈ items, IsTree v) : IsRecord (.list .any) (.list items)
  | mapping (v : Value) (hv : IsMapping v) : IsRecord (.dict .any) v
  | account (a : Account) (i : Nat) (ha : a.IsTyped i) : IsRecord accountSchema a.toValue
  | builder (b : Builder) (hb : b.IsTyped) (hsecret : b.secret = .none) :
      IsRecord builderSchema b.toRecord
  | snapshot (s : Snapshot) (hs : s.IsTyped) : IsRecord snapshotSchema s.toValue

theorem IsRecord.fits {schema : Json.Schema} {v : Value} (h : IsRecord schema v) : Fits schema v := by
  cases h with
  | any _ hv => exact .any v hv
  | bool b => exact .bool b
  | int n hn => exact .int none n hn rfl
  | text s => exact .text s
  | list items hitems => exact .list .any items fun v hv => .any v (hitems v hv)
  | mapping _ hv => exact fits_mapping v hv
  | account a i ha => exact fits_account ha
  | builder b hb _ => exact fits_builder hb
  | snapshot s hs => exact fits_typedSnapshot hs

variable {σ : Type} [RecordStore σ] {B : Reliable σ} {storage : Storage} {s t : σ}

-- After the store has taken some records.
structure ReadBack (storage : Storage) (entries : Entries Value Value) (s t : σ) : Prop where
  written : ∀ key v schema, (.text key, v) ∈ entries → IsRecord schema v →
    storage.get key schema t = (.ok v, t)
  others : ∀ key, .text key ∉ entries.keys → (storage.getText key t).1 = (storage.getText key s).1

theorem readBack_of_setAll (hs : B.sound s) {records : Entries String Value}
    (hnodup : records.keys.Nodup) (h : storage.setAll records s = (.ok (), t)) :
    ReadBack storage (records.map fun r => (.text r.1, r.2)) s t := by
  obtain ⟨ht, hwrote⟩ := Storage.wrote_of_setAll hs hnodup h
  constructor
  case written =>
    intro key v schema hmem hv
    obtain ⟨r, hr, hentry⟩ := List.mem_map.mp hmem
    obtain ⟨hkey, rfl⟩ := Prod.mk.inj hentry
    obtain rfl := Value.text.inj hkey
    rw [Reliable.get_eq_read ht, hwrote.reads r hr schema hv.fits]
  case others =>
    intro key hkey
    refine hwrote.getText_eq hs ht fun hmem => hkey ?_
    obtain ⟨r, hr, rfl⟩ := List.mem_map.mp hmem
    exact List.mem_map.mpr ⟨_, List.mem_map_of_mem hr, rfl⟩

-- A record that does not nest too deep has a text, so only the store can refuse it.
theorem set_ends (hs : B.sound s) (storage : Storage) (key : String) {schema : Json.Schema} {v : Value}
    (hv : IsRecord schema v) (hdeep : Json.nesting v ≤ Json.maxEncodeDepth) :
    ∃ r t, storage.set key v s = (r, t) ∧
      (r = .ok () ∨ ∃ e, r = .error e ∧ (B.refusal e ∨ B.late s e)) := by
  obtain ⟨text, htext⟩ := Json.encode_ok hv.fits hdeep
  have hencode : Storage.encode key v = .ok text := congrArg _ htext
  obtain ⟨sealedText, s₁, hprotect, hsame, -⟩ := Reliable.protect_cases storage hs key text
  obtain ⟨r, t, hput, -, hends⟩ := B.put_ends s₁ [(key, sealedText)] hsame.sound
  refine ⟨r, t, ?_, ?_⟩
  · refine (Action.bind_of_ok (a := text) (t := s) ?_).trans ((Action.bind_of_ok hprotect).trans hput)
    rw [hencode]
    rfl
  · generalize B.view t = new at hends
    cases hends with
    | made => exact .inl rfl
    | refused e he => exact .inr ⟨e, rfl, .inl he⟩
    | reported e he => exact .inr ⟨e, rfl, .inr (hsame.late e he)⟩

-- What a store has taken, alone or in a batch with whatever else, is read as it was written, with a
-- key as without one, and all other texts are read as before. Of what does not nest too deep, a
-- store takes everything unless its own write fails.
theorem records_read_back (B : Reliable σ) (hs : B.sound s) (storage : Storage) :
    (∀ key schema v, IsRecord schema v → Json.nesting v ≤ Json.maxEncodeDepth →
      ∃ r t, storage.set key v s = (r, t) ∧
        (r = .ok () ∨ ∃ e, r = .error e ∧ (B.refusal e ∨ B.late s e))) ∧
    (∀ key v t, storage.set key v s = (.ok (), t) → ReadBack storage [(.text key, v)] s t) ∧
    ∀ (entries : Entries Value Value) t, entries.keys.Nodup →
      storage.setBatch (.dict entries) s = (.ok (), t) → ReadBack storage entries s t := by
  refine ⟨fun key schema v hv hdeep => set_ends hs storage key hv hdeep, ?_, ?_⟩
  · intro key v t h
    rw [Reliable.set_eq_setAll] at h
    have hnodup : Entries.keys [(key, v)] |>.Nodup := List.nodup_singleton key
    exact readBack_of_setAll hs hnodup h
  · intro entries t hnodup h
    obtain ⟨records, rfl, hset⟩ := Storage.setBatch_eq_ok h
    refine readBack_of_setAll hs ?_ hset
    have hkeys : Entries.keys (records.map fun r => (Value.text r.1, r.2)) =
        records.keys.map Value.text := by
      simp [Entries.keys]
    rw [hkeys] at hnodup
    exact hnodup.of_map Value.text

-- A batch of an account and a tree, sealed.
theorem records_read_back_of_batch :
    ∃ (k : Seal.Key) (entries : Entries Value Value) (s t : Seat Backend),
      s = ⟨Host.empty, .memory .empty⟩ ∧
      entries = [(.text (accountKey (.int 7)), (Account.ofIndex (.int 7)).toValue),
        (.text "tree", .list [.int (-0x8000000000000000), .text "\"\n", .null])] ∧
      Backend.reliable.sound s ∧ entries.keys.Nodup ∧
      Storage.setBatch ⟨some k⟩ (.dict entries) s = (.ok (), t) ∧
      ReadBack ⟨some k⟩ entries s t ∧
      Storage.get ⟨some k⟩ (accountKey (.int 7)) accountSchema t =
        (.ok (Account.ofIndex (.int 7)).toValue, t) := by
  have hs : Backend.reliable.sound ⟨Host.empty, .memory .empty⟩ := trivial
  have haccount : (Account.ofIndex (.int 7)).IsTyped 7 := isTyped_ofIndex (by decide)
  obtain ⟨k, t, hset⟩ : ∃ (k : Seal.Key) (t : Seat Backend),
      Storage.setBatch ⟨some k⟩ (.dict [(.text (accountKey (.int 7)), (Account.ofIndex (.int 7)).toValue),
        (.text "tree", .list [.int (-0x8000000000000000), .text "\"\n", .null])])
        ⟨Host.empty, .memory .empty⟩ = (.ok (), t) := ⟨⟨List.replicate 32 7, rfl⟩, _, rfl⟩
  have hnodup : Entries.keys [(Value.text (accountKey (.int 7)), (Account.ofIndex (.int 7)).toValue),
      (.text "tree", .list [.int (-0x8000000000000000), .text "\"\n", .null])] |>.Nodup := by
    have hne : accountKey (.int 7) ≠ "tree" := by decide
    simpa [Entries.keys] using hne
  have hback := (records_read_back Backend.reliable hs ⟨some k⟩).2.2 _ t hnodup hset
  exact ⟨k, _, _, t, rfl, rfl, hs, hnodup, hset, hback,
    hback.written _ _ _ List.mem_cons_self (.account _ 7 haccount)⟩

end Wallet

end Coffer
