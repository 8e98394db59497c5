import Coffer.Proofs.Json.Nesting
import Coffer.Proofs.Store.Reliable

-- Over a store that nothing goes wrong with, records that are encoded and maybe sealed are a map of
-- plain texts: every read gives what the plain text decodes to, and a write fails only if a record
-- has no text.

namespace Coffer

namespace Storage

-- The plain texts of the stored records, entry by entry.
def Holds (s : Storage) (es plain : Entries String String) : Prop :=
  List.Forall₂ (fun e p => e.1 = p.1 ∧ s.reveal e.1 e.2 = .ok p.2) es plain

-- The texts of the records, or what the first one fails with that has none.
def encodeAll : Entries String Value → Except Failure (Entries String String)
  | [] => .ok []
  | (key, record) :: rest => do
      let text ← encode key record
      return (key, text) :: (← encodeAll rest)

variable {storage : Storage} {es plain batch new : Entries String String}

theorem Holds.put {key sealedText text : String} (h : storage.Holds es plain)
    (hreveal : storage.reveal key sealedText = .ok text) :
    storage.Holds (es.put key sealedText) (plain.put key text) := by
  induction h with
  | nil => exact .cons ⟨rfl, hreveal⟩ .nil
  | @cons e p es plain hep hrest ih =>
      obtain ⟨k, v⟩ := e
      obtain ⟨k', w⟩ := p
      obtain rfl : k = k' := hep.1
      simp only [Entries.put]
      split
      · rename_i hk
        obtain rfl : k = key := eq_of_beq hk
        exact .cons ⟨rfl, hreveal⟩ hrest
      · exact .cons hep ih

theorem Holds.putAll (h : storage.Holds es plain) (hbatch : storage.Holds batch new) :
    storage.Holds (es.putAll batch) (plain.putAll new) := by
  induction hbatch generalizing es plain with
  | nil => exact h
  | @cons e p batch new hep hrest ih =>
      obtain ⟨k, v⟩ := e
      obtain ⟨k', w⟩ := p
      obtain ⟨rfl, hreveal⟩ : k = k' ∧ storage.reveal k v = .ok w := hep
      rw [Entries.putAll_cons, Entries.putAll_cons]
      exact ih (h.put hreveal)

theorem Holds.erase (h : storage.Holds es plain) (key : String) :
    storage.Holds (es.erase key) (plain.erase key) := by
  induction h with
  | nil => exact .nil
  | @cons e p es plain hep hrest ih =>
      obtain ⟨k, v⟩ := e
      obtain ⟨k', w⟩ := p
      obtain rfl : k = k' := hep.1
      simp only [Entries.erase, List.filter_cons] at ih ⊢
      split
      · exact .cons hep ih
      · exact ih

theorem Holds.lookup (h : storage.Holds es plain) (key : String) :
    (MemoryStore.lookup es key >>= fun text => storage.reveal key text) =
      MemoryStore.lookup plain key := by
  simp only [MemoryStore.lookup]
  induction h with
  | nil => rfl
  | @cons e p es plain hep hrest ih =>
      obtain ⟨k, v⟩ := e
      obtain ⟨k', w⟩ := p
      obtain ⟨rfl, hreveal⟩ : k = k' ∧ storage.reveal k v = .ok w := hep
      by_cases hk : k = key
      · subst hk
        simp only [Entries.get?, beq_self_eq_true, if_true]
        exact hreveal
      · simp only [Entries.get?, beq_iff_eq, hk, if_false]
        exact ih

theorem encodeAll_ok {records : Entries String Value}
    (h : ∀ r ∈ records, ∃ text, Json.encode r.2 = .ok text) :
    ∃ plain, encodeAll records = .ok plain := by
  induction records with
  | nil => exact ⟨[], rfl⟩
  | cons r rest ih =>
      obtain ⟨key, record⟩ := r
      obtain ⟨text, htext⟩ := h (key, record) List.mem_cons_self
      obtain ⟨plain, hplain⟩ := ih fun r hr => h r (List.mem_cons_of_mem _ hr)
      have hencode : encode key record = .ok text := congrArg _ htext
      refine ⟨(key, text) :: plain, ?_⟩
      rw [encodeAll, hencode, ok_bind, hplain]
      rfl

theorem protects_of_holds {records : Entries String Value} (hplain : encodeAll records = .ok plain)
    (h : storage.Holds batch plain) : storage.Protects records batch := by
  induction records generalizing plain batch with
  | nil =>
      cases hplain
      cases h
      exact .nil
  | cons r rest ih =>
      rw [encodeAll] at hplain
      obtain ⟨text, henc, hplain⟩ := bind_eq_ok hplain
      obtain ⟨tail, htail, hplain⟩ := bind_eq_ok hplain
      cases hplain
      cases h with
      | @cons b _ batch _ hb hrest =>
          obtain ⟨k, sealedText⟩ := b
          obtain ⟨rfl, hreveal⟩ : k = r.1 ∧ storage.reveal k sealedText = .ok text := hb
          exact .cons ⟨rfl, text, henc, hreveal⟩ (ih htail hrest)

theorem Protects.others {records : Entries String Value} (h : storage.Protects records batch)
    {key : String} (hkey : key ∉ records.keys) : (es.putAll batch).get? key = es.get? key := by
  induction h generalizing es with
  | nil => rfl
  | @cons r b records batch hb hrest ih =>
      obtain ⟨k, sealedText⟩ := b
      obtain rfl : k = r.1 := hb.1
      have hne : ¬r.1 = key := fun hk => hkey (hk ▸ List.mem_cons_self)
      rw [Entries.putAll_cons, ih fun hmem => hkey (List.mem_cons_of_mem _ hmem), Entries.get?_put]
      simp only [beq_iff_eq, hne, if_false]

theorem Protects.found {records : Entries String Value} (h : storage.Protects records batch)
    (hnodup : records.keys.Nodup) {r : String × Value} (hr : r ∈ records) :
    ∃ sealedText text, (es.putAll batch).get? r.1 = some sealedText ∧ encode r.1 r.2 = .ok text ∧
      storage.reveal r.1 sealedText = .ok text := by
  induction h generalizing es with
  | nil => cases hr
  | @cons r' b records batch hb hrest ih =>
      obtain ⟨hnot, hnodup⟩ := List.nodup_cons.mp hnodup
      obtain ⟨k, sealedText⟩ := b
      obtain ⟨rfl, text, henc, hreveal⟩ := hb
      rw [Entries.putAll_cons]
      rcases List.mem_cons.mp hr with rfl | hr
      · refine ⟨sealedText, text, ?_, henc, hreveal⟩
        rw [Protects.others hrest hnot, Entries.get?_put]
        simp only [beq_self_eq_true, if_true]
      · exact ih hnodup hr

-- What reading gives before and after some records are written.
structure Wrote (s : Storage) (records : Entries String Value) (es es' : Entries String String) :
    Prop where
  others : ∀ key, key ∉ records.keys → es'.get? key = es.get? key
  texts : ∀ r ∈ records, ∃ text, Json.encode r.2 = .ok text ∧
    ∀ schema, s.read es' r.1 schema = decode r.1 schema text

theorem Protects.wrote {records : Entries String Value} (h : storage.Protects records batch)
    (hnodup : records.keys.Nodup) : storage.Wrote records es (es.putAll batch) := by
  refine ⟨fun key hkey => h.others hkey, fun r hr => ?_⟩
  obtain ⟨sealedText, text, hget, henc, hreveal⟩ := h.found hnodup hr
  refine ⟨text, mapError_eq_ok henc, fun schema => ?_⟩
  rw [read, MemoryStore.lookup, hget, ok_bind, hreveal, ok_bind]

theorem decode_of_fits {key text : String} {schema : Json.Schema} {v : Value}
    (hv : Json.Fits schema v) (henc : Json.encode v = .ok text) : decode key schema text = .ok v := by
  rw [decode, Json.decode_of_encode hv henc]
  rfl

-- A record of the type that is asked for is read as it was written.
theorem Wrote.reads {records : Entries String Value} (h : storage.Wrote records es new)
    (r : String × Value) (hr : r ∈ records) (schema : Json.Schema) (hv : Json.Fits schema r.2) :
    storage.read new r.1 schema = .ok r.2 := by
  obtain ⟨text, henc, hread⟩ := h.texts r hr
  rw [hread, decode_of_fits hv henc]

-- Sealing takes no more than nonces, and fails only if a record has no text.
theorem protectAll_of_draws {σ : Type} [RecordStore σ] {P : σ → Prop} (storage : Storage) (hP : Draws P)
    {s : σ} (hs : P s) (records : Entries String Value) :
    ∃ t, P t ∧
      match encodeAll records with
      | .error e => storage.protectAll records s = (.error e, t)
      | .ok plain => ∃ batch, storage.protectAll records s = (.ok batch, t) ∧
          storage.Holds batch plain := by
  induction records generalizing s with
  | nil => exact ⟨s, hs, [], rfl, .nil⟩
  | cons r rest ih =>
      obtain ⟨key, record⟩ := r
      rw [encodeAll]
      cases henc : encode key record with
      | error e =>
          refine ⟨s, hs, Action.bind_of_error ?_⟩
          rw [henc]
          rfl
      | ok text =>
          obtain ⟨sealedText, s₁, hprotect, hs₁, hreveal⟩ := protect_of_draws storage hP hs key text
          obtain ⟨s₂, hs₂, hrest⟩ := ih hs₁
          have hall : storage.protectAll ((key, record) :: rest) s =
              (do return (key, sealedText) :: (← storage.protectAll rest)) s₁ := by
            refine (Action.bind_of_ok (a := text) (t := s) ?_).trans (Action.bind_of_ok hprotect)
            rw [henc]
            rfl
          refine ⟨s₂, hs₂, ?_⟩
          rw [ok_bind, hall]
          cases hplain : encodeAll rest with
          | error e =>
              rw [hplain] at hrest
              exact Action.bind_of_error hrest
          | ok plain =>
              rw [hplain] at hrest
              obtain ⟨batch, hrest, hbatch⟩ := hrest
              exact ⟨(key, sealedText) :: batch, Action.bind_of_ok hrest, .cons ⟨rfl, hreveal⟩ hbatch⟩

end Storage

namespace Reliable

variable {σ : Type} [RecordStore σ] {B : Reliable σ} {s : σ} {storage : Storage}

structure Faultless (B : Reliable σ) : Prop where
  refusal : ∀ e, ¬B.refusal e
  late : ∀ s e, ¬B.late s e

theorem Faultless.put_ok (hB : B.Faultless) (hs : B.sound s) (batch : Entries String String) :
    ∃ t, RecordStore.put batch s = (.ok (), t) ∧ B.sound t ∧ B.view t = (B.view s).putAll batch := by
  obtain ⟨r, t, hput, ht, hends⟩ := B.put_ends s batch hs
  generalize hview : B.view t = new at hends
  cases hends with
  | made => exact ⟨t, hput, ht, hview⟩
  | refused e he => exact absurd he (hB.refusal e)
  | reported e he => exact absurd he (hB.late s e)

theorem Faultless.erase_ok (hB : B.Faultless) (hs : B.sound s) (key : String) :
    ∃ t, RecordStore.erase key s = (.ok (), t) ∧ B.sound t ∧ B.view t = (B.view s).erase key := by
  obtain ⟨r, t, herase, ht, hends⟩ := B.erase_ends s key hs
  generalize hview : B.view t = new at hends
  cases hends with
  | made => exact ⟨t, herase, ht, hview⟩
  | refused e he => exact absurd he (hB.refusal e)
  | reported e he => exact absurd he (hB.late s e)

-- All the records are written if they all have texts, else none.
theorem Faultless.setAll_eq (hB : B.Faultless) (storage : Storage) (hs : B.sound s)
    (records : Entries String Value) :
    ∃ t, B.sound t ∧
      match Storage.encodeAll records with
      | .error e => storage.setAll records s = (.error e, t) ∧ B.view t = B.view s
      | .ok plain => storage.setAll records s = (.ok (), t) ∧
          ∃ batch, storage.Holds batch plain ∧ B.view t = (B.view s).putAll batch := by
  obtain ⟨t, hsame, hprotect⟩ :=
    Storage.protectAll_of_draws storage (Same.draws s) (Same.refl B hs) records
  cases hplain : Storage.encodeAll records with
  | error e =>
      rw [hplain] at hprotect
      exact ⟨t, hsame.sound, Action.bind_of_error hprotect, hsame.view⟩
  | ok plain =>
      rw [hplain] at hprotect
      obtain ⟨batch, hprotect, hbatch⟩ := hprotect
      obtain ⟨u, hput, hu, hview⟩ := hB.put_ok hsame.sound batch
      rw [hsame.view] at hview
      exact ⟨u, hu, (Action.bind_of_ok hprotect).trans hput, batch, hbatch, hview⟩

theorem Faultless.setAll_ok (hB : B.Faultless) (storage : Storage) (hs : B.sound s)
    (records : Entries String Value)
    (hrecords : ∀ r ∈ records, ∃ text, Json.encode r.2 = .ok text) (hnodup : records.keys.Nodup) :
    ∃ t, storage.setAll records s = (.ok (), t) ∧ B.sound t ∧
      storage.Wrote records (B.view s) (B.view t) := by
  obtain ⟨plain, hplain⟩ := Storage.encodeAll_ok hrecords
  obtain ⟨t, ht, hset⟩ := hB.setAll_eq storage hs records
  rw [hplain] at hset
  obtain ⟨hset, batch, hbatch, hview⟩ := hset
  refine ⟨t, hset, ht, ?_⟩
  rw [hview]
  exact (Storage.protects_of_holds hplain hbatch).wrote hnodup

end Reliable

end Coffer
