import Coffer.Storage
import Coffer.Store.Memory
import Coffer.Proofs.Action
import Coffer.Proofs.Entries
import Coffer.Proofs.Json.Fits
import Coffer.Proofs.Seal.Record

namespace Coffer

-- How a change of records may end: it is made, it is refused, or it is made and then reported
-- as failed all the same.
inductive Ends {ρ : Type} (refusal late : Failure → Prop) (old new : ρ) :
    Except Failure Unit → ρ → Prop where
  | made : Ends refusal late old new (.ok ()) new
  | refused (e : Failure) (he : refusal e) : Ends refusal late old new (.error e) old
  | reported (e : Failure) (he : late e) : Ends refusal late old new (.error e) new

-- A store whose reads never fail but for want of the record, and whose writes are made as a
-- whole or not at all. `refusal` says which failures a write may be refused with, `late` which
-- ones may be reported of a write that was made.
structure Reliable (σ : Type) [RecordStore σ] where
  sound : σ → Prop
  view : σ → Entries String String
  refusal : Failure → Prop
  late : σ → Failure → Prop
  get_eq : ∀ s key, sound s → RecordStore.get key s = (MemoryStore.lookup (view s) key, s)
  put_ends : ∀ s batch, sound s → ∃ r s', RecordStore.put batch s = (r, s') ∧ sound s' ∧
    Ends refusal (late s) (view s) ((view s).putAll batch) r (view s')
  erase_ends : ∀ s key, sound s → ∃ r s', RecordStore.erase key s = (r, s') ∧ sound s' ∧
    Ends refusal (late s) (view s) ((view s).erase key) r (view s')
  draw_eq : ∀ s, sound s → ∃ n s', RecordStore.draw s = (.ok n, s') ∧ sound s' ∧
    view s' = view s ∧ ∀ e, late s' e → late s e
  note_eq : ∀ s notice, sound s → ∃ s', RecordStore.note notice s = (.ok (), s') ∧ sound s' ∧
    view s' = view s ∧ ∀ e, late s' e → late s e

namespace Storage

-- What is read of a record among others.
def read (s : Storage) (es : Entries String String) (key : String) (schema : Json.Schema) :
    Except Failure Value := do
  let text ← MemoryStore.lookup es key
  let text ← s.reveal key text
  decode key schema text

variable {storage : Storage} {es : Entries String String} {key text sealedText : String}
  {schema : Json.Schema} {v : Value}

theorem read_of_absent (h : es.get? key = none) :
    storage.read es key schema = .error (.notFound key) := by
  rw [read, MemoryStore.lookup, h]
  rfl

theorem read_congr {es' : Entries String String} (h : es'.get? key = es.get? key) :
    storage.read es' key schema = storage.read es key schema := by
  simp only [read, MemoryStore.lookup, h]

-- What was read was decoded.
theorem read_eq_ok (h : storage.read es key schema = .ok v) :
    ∃ text, Json.decode schema text = .ok v := by
  obtain ⟨sealedText, -, h⟩ := bind_eq_ok h
  obtain ⟨text, -, h⟩ := bind_eq_ok h
  exact ⟨text, mapError_eq_ok h⟩

theorem read_of_protected (hget : es.get? key = some sealedText)
    (hreveal : storage.reveal key sealedText = .ok text) (henc : encode key v = .ok text)
    (hv : Json.Fits schema v) : storage.read es key schema = .ok v := by
  have henc : Json.encode v = .ok text := mapError_eq_ok henc
  rw [read, MemoryStore.lookup, hget, ok_bind, hreveal, ok_bind, decode,
    Json.decode_of_encode hv henc]
  rfl

theorem encode_eq_error {e : Failure} (h : encode key v = .error e) :
    ∃ error, e = encodeFailure key error := by
  unfold encode at h
  cases he : Json.encode v with
  | ok t =>
      rw [he] at h
      cases h
  | error error =>
      rw [he] at h
      cases h
      exact ⟨error, rfl⟩

-- The batch holds the texts of the records, which can be revealed again.
def Protects (s : Storage) (records : Entries String Value) (batch : Entries String String) : Prop :=
  List.Forall₂ (fun r b => b.1 = r.1 ∧
    ∃ text, encode r.1 r.2 = .ok text ∧ s.reveal r.1 b.2 = .ok text) records batch

-- Reading of a store that answers with the records

section Actions

variable {σ : Type} [RecordStore σ] {s : σ}

theorem getText_of_lookup (hget : RecordStore.get key s = (MemoryStore.lookup es key, s)) :
    storage.getText key s =
      (MemoryStore.lookup es key >>= fun text => storage.reveal key text, s) := by
  cases hl : MemoryStore.lookup es key with
  | error e =>
      rw [hl] at hget
      exact Action.bind_of_error hget
  | ok text =>
      rw [hl] at hget
      exact Action.bind_of_ok hget

theorem get_of_lookup (hget : RecordStore.get key s = (MemoryStore.lookup es key, s))
    (schema : Json.Schema) : storage.get key schema s = (storage.read es key schema, s) := by
  have htext : storage.getText key s = _ := getText_of_lookup hget
  have hread : storage.read es key schema =
      (MemoryStore.lookup es key >>= fun text => storage.reveal key text) >>= fun text =>
        decode key schema text := by
    rw [read, bind_assoc]
  rw [hread]
  cases ht : MemoryStore.lookup es key >>= fun text => storage.reveal key text with
  | error e =>
      rw [ht] at htext
      exact Action.bind_of_error htext
  | ok text =>
      rw [ht] at htext
      exact Action.bind_of_ok htext

-- States in which a nonce can be drawn, which leads to such a state again.
def Draws (P : σ → Prop) : Prop := ∀ s, P s → ∃ n t, RecordStore.draw s = (.ok n, t) ∧ P t

theorem protect_of_draws (storage : Storage) {P : σ → Prop} (hP : Draws P) (hs : P s)
    (key text : String) :
    ∃ sealedText t, storage.protect key text s = (.ok sealedText, t) ∧ P t ∧
      storage.reveal key sealedText = .ok text := by
  obtain ⟨key?⟩ := storage
  cases key? with
  | none => exact ⟨text, s, rfl, hs, rfl⟩
  | some k =>
      obtain ⟨n, t, hdraw, ht⟩ := hP s hs
      exact ⟨_, t, (Action.bind_of_ok hdraw).trans rfl, ht, Seal.openRecord_sealRecord k n key text⟩

end Actions

end Storage

namespace Reliable

variable {σ : Type} [RecordStore σ] (B : Reliable σ)

-- Nothing that is seen of the store has changed.
structure Same (s s' : σ) : Prop where
  sound : B.sound s'
  view : B.view s' = B.view s
  late : ∀ e, B.late s' e → B.late s e

theorem Same.refl {s : σ} (hs : B.sound s) : B.Same s s := ⟨hs, rfl, fun _ h => h⟩

theorem Same.trans {a b c : σ} (hab : B.Same a b) (hbc : B.Same b c) : B.Same a c :=
  ⟨hbc.sound, hbc.view.trans hab.view, fun e h => hab.late e (hbc.late e h)⟩

variable {B} {s : σ} {storage : Storage}

theorem getText_eq (storage : Storage) (hs : B.sound s) (key : String) :
    storage.getText key s =
      (MemoryStore.lookup (B.view s) key >>= fun text => storage.reveal key text, s) :=
  Storage.getText_of_lookup (B.get_eq s key hs)

theorem get_eq_read (hs : B.sound s) (key : String) (schema : Json.Schema) :
    storage.get key schema s = (storage.read (B.view s) key schema, s) :=
  Storage.get_of_lookup (B.get_eq s key hs) schema

theorem Same.draws (s : σ) : Storage.Draws (B.Same s) := by
  intro t ht
  obtain ⟨n, u, hdraw, hu, hview, hlate⟩ := B.draw_eq t ht.sound
  exact ⟨n, u, hdraw, ht.trans B ⟨hu, hview, hlate⟩⟩

theorem note_same (notice : Notice) (hs : B.sound s) :
    ∃ t, RecordStore.note notice s = (.ok (), t) ∧ B.Same s t := by
  obtain ⟨t, hnote, ht, hview, hlate⟩ := B.note_eq s notice hs
  exact ⟨t, hnote, ht, hview, hlate⟩

theorem protect_cases (storage : Storage) (hs : B.sound s) (key text : String) :
    ∃ sealedText s', storage.protect key text s = (.ok sealedText, s') ∧ B.Same s s' ∧
      storage.reveal key sealedText = .ok text :=
  Storage.protect_of_draws storage (Same.draws s) (Same.refl B hs) key text

theorem protectAll_cases (storage : Storage) (hs : B.sound s) (records : Entries String Value) :
    ∃ r s', storage.protectAll records s = (r, s') ∧ B.Same s s' ∧
      (∀ batch, r = .ok batch → storage.Protects records batch) ∧
      ∀ e, r = .error e → ∃ key error, e = Storage.encodeFailure key error := by
  induction records generalizing s with
  | nil =>
      refine ⟨.ok [], s, rfl, Same.refl B hs, fun batch h => ?_, by rintro _ ⟨⟩⟩
      cases h
      exact .nil
  | cons e rest ih =>
      obtain ⟨key, record⟩ := e
      cases henc : Storage.encode key record with
      | error e =>
          refine ⟨.error e, s, ?_, Same.refl B hs, by rintro _ ⟨⟩, ?_⟩
          · refine Action.bind_of_error ?_
            rw [henc]
            rfl
          · rintro _ ⟨⟩
            exact ⟨key, Storage.encode_eq_error henc⟩
      | ok text =>
          obtain ⟨sealedText, s₁, hprotect, hsame₁, hreveal⟩ :=
            protect_cases storage hs key text
          obtain ⟨r, s₂, hrest, hsame₂, hbatch, herror⟩ := ih hsame₁.sound
          have hall : storage.protectAll ((key, record) :: rest) s =
              (do return (key, sealedText) :: (← storage.protectAll rest)) s₁ := by
            refine (Action.bind_of_ok (a := text) (t := s) ?_).trans (Action.bind_of_ok hprotect)
            rw [henc]
            rfl
          cases r with
          | error e =>
              exact ⟨.error e, s₂, hall.trans (Action.bind_of_error hrest),
                Same.trans B hsame₁ hsame₂, by rintro _ ⟨⟩, herror⟩
          | ok batch =>
              refine ⟨.ok ((key, sealedText) :: batch), s₂, hall.trans (Action.bind_of_ok hrest),
                Same.trans B hsame₁ hsame₂, fun batch' h => ?_, by rintro _ ⟨⟩⟩
              cases h
              exact .cons ⟨rfl, text, henc, hreveal⟩ (hbatch batch rfl)

-- What a write of records may be refused with, by the encoder or by the store.
def Refuses (B : Reliable σ) (e : Failure) : Prop :=
  B.refusal e ∨ ∃ key error, e = Storage.encodeFailure key error

-- Records are written together or not at all.
theorem setAll_cases (storage : Storage) (hs : B.sound s) (records : Entries String Value) :
    ∃ r s', storage.setAll records s = (r, s') ∧ B.sound s' ∧
      ((∃ e, r = .error e ∧ Refuses B e ∧ B.view s' = B.view s) ∨
        ∃ batch, storage.Protects records batch ∧ B.view s' = (B.view s).putAll batch ∧
          (r = .ok () ∨ ∃ e, r = .error e ∧ B.late s e)) := by
  obtain ⟨r, s₁, hprotect, hsame, hbatch, herror⟩ :=
    protectAll_cases storage hs records
  cases r with
  | error e =>
      exact ⟨.error e, s₁, Action.bind_of_error hprotect, hsame.sound,
        .inl ⟨e, rfl, .inr (herror e rfl), hsame.view⟩⟩
  | ok batch =>
      obtain ⟨r, s₂, hput, hsound, hends⟩ := B.put_ends s₁ batch hsame.sound
      refine ⟨r, s₂, (Action.bind_of_ok hprotect).trans hput, hsound, ?_⟩
      rw [hsame.view] at hends
      generalize B.view s₂ = new at hends
      cases hends with
      | made => exact .inr ⟨batch, hbatch batch rfl, rfl, .inl rfl⟩
      | refused e he => exact .inl ⟨e, rfl, .inl he, rfl⟩
      | reported e he => exact .inr ⟨batch, hbatch batch rfl, rfl, .inr ⟨e, rfl, hsame.late e he⟩⟩

-- Writing one record is writing a batch of one.
theorem set_eq_setAll (key : String) (v : Value) :
    (storage.set key v : Action σ Unit) = storage.setAll [(key, v)] := by
  simp only [Storage.set, Storage.setText, Storage.setAll, Storage.protectAll, bind_assoc,
    pure_bind]

end Reliable

end Coffer
