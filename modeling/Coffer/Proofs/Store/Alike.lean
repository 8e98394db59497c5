import Coffer.Proofs.Store.Plain

-- Two stores that nothing goes wrong with, each under a storage of its own: as long as their records
-- open to the same plain texts, all that is asked of them has the same answers.

namespace Coffer

open Coffer.Action (Agrees)

variable {σ τ : Type} [RecordStore σ] [RecordStore τ]

structure Alike (B : Reliable σ) (C : Reliable τ) (S T : Storage) (s : σ) (t : τ) : Prop where
  left : B.sound s
  right : C.sound t
  plain : ∃ plain, S.Holds (B.view s) plain ∧ T.Holds (C.view t) plain

namespace Storage

variable {B : Reliable σ} {C : Reliable τ} {S T : Storage}

theorem getText_agrees (key : String) :
    Agrees (Alike B C S T) (S.getText key) (T.getText key) := by
  intro s t h
  obtain ⟨plain, hs, ht⟩ := h.plain
  rw [Reliable.getText_eq S h.left, Reliable.getText_eq T h.right, hs.lookup, ht.lookup]
  exact ⟨rfl, h⟩

theorem get_agrees (key : String) (schema : Json.Schema) :
    Agrees (Alike B C S T) (S.get key schema) (T.get key schema) :=
  (getText_agrees key).bind fun _ => Action.agrees_ofExcept _

theorem setText_agrees (hB : B.Faultless) (hC : C.Faultless) (key text : String) :
    Agrees (Alike B C S T) (S.setText key text) (T.setText key text) := by
  intro s t h
  obtain ⟨plain, hs, ht⟩ := h.plain
  obtain ⟨sealedLeft, s₁, hprotect, hsame, hreveal⟩ := Reliable.protect_cases S h.left key text
  obtain ⟨sealedRight, t₁, hprotect', hsame', hreveal'⟩ := Reliable.protect_cases T h.right key text
  obtain ⟨s₂, hput, hs₂, hview⟩ := hB.put_ok hsame.sound [(key, sealedLeft)]
  obtain ⟨t₂, hput', ht₂, hview'⟩ := hC.put_ok hsame'.sound [(key, sealedRight)]
  have hset : S.setText key text s = (.ok (), s₂) := (Action.bind_of_ok hprotect).trans hput
  have hset' : T.setText key text t = (.ok (), t₂) := (Action.bind_of_ok hprotect').trans hput'
  rw [hset, hset']
  refine ⟨rfl, hs₂, ht₂, plain.put key text, ?_, ?_⟩
  · rw [hview, hsame.view]
    exact hs.put hreveal
  · rw [hview', hsame'.view]
    exact ht.put hreveal'

theorem setAll_agrees (hB : B.Faultless) (hC : C.Faultless) (records : Entries String Value) :
    Agrees (Alike B C S T) (S.setAll records) (T.setAll records) := by
  intro s t h
  obtain ⟨plain, hs, ht⟩ := h.plain
  obtain ⟨s₁, hs₁, hset⟩ := hB.setAll_eq S h.left records
  obtain ⟨t₁, ht₁, hset'⟩ := hC.setAll_eq T h.right records
  cases hnew : encodeAll records with
  | error e =>
      rw [hnew] at hset hset'
      rw [hset.1, hset'.1]
      exact ⟨rfl, hs₁, ht₁, plain, hset.2 ▸ hs, hset'.2 ▸ ht⟩
  | ok new =>
      rw [hnew] at hset hset'
      obtain ⟨hset, batch, hbatch, hview⟩ := hset
      obtain ⟨hset', batch', hbatch', hview'⟩ := hset'
      rw [hset, hset']
      refine ⟨rfl, hs₁, ht₁, plain.putAll new, ?_, ?_⟩
      · rw [hview]
        exact hs.putAll hbatch
      · rw [hview']
        exact ht.putAll hbatch'

theorem set_agrees (hB : B.Faultless) (hC : C.Faultless) (key : String) (v : Value) :
    Agrees (Alike B C S T) (S.set key v) (T.set key v) := by
  rw [Reliable.set_eq_setAll, Reliable.set_eq_setAll]
  exact setAll_agrees hB hC [(key, v)]

-- A batch under text keys is written as it is handed in.
theorem protectValues_texts (storage : Storage) (records : Entries String Value) :
    (storage.protectValues (records.map fun r => (.text r.1, r.2)) : Action σ (Entries Value Value)) =
      (do return (← storage.protectAll records).map fun r => (.text r.1, .text r.2)) := by
  induction records with
  | nil => simp [protectValues, protectAll]
  | cons r records ih =>
      obtain ⟨key, record⟩ := r
      simp only [List.map_cons, protectValues, protectAll, Value.asText, ih, bind_assoc, pure_bind,
        List.map_cons]

theorem textRecords_texts (batch : Entries String String) :
    textRecords (batch.map fun r => (.text r.1, .text r.2)) = .ok batch := by
  induction batch with
  | nil => rfl
  | cons r batch ih =>
      rw [List.map_cons, textRecords, ih]
      rfl

theorem setBatch_ofMembers (storage : Storage) (records : Entries String Value) :
    (storage.setBatch (Value.ofMembers records) : Action σ Unit) = storage.setAll records := by
  have hofExcept (batch : Entries String String) :
      (Action.ofExcept (.ok batch) : Action σ (Entries String String)) = pure batch := rfl
  simp only [setBatch, Value.ofMembers, setAll, protectValues_texts, bind_assoc, pure_bind,
    textRecords_texts, hofExcept]

theorem setBatch_agrees (hB : B.Faultless) (hC : C.Faultless) (records : Entries String Value) :
    Agrees (Alike B C S T) (S.setBatch (Value.ofMembers records))
      (T.setBatch (Value.ofMembers records)) := by
  rw [setBatch_ofMembers, setBatch_ofMembers]
  exact setAll_agrees hB hC records

theorem remove_agrees (hB : B.Faultless) (hC : C.Faultless) (key : String) :
    Agrees (Alike B C S T) (S.remove key) (T.remove key) := by
  intro s t h
  obtain ⟨plain, hs, ht⟩ := h.plain
  obtain ⟨s₁, herase, hs₁, hview⟩ := hB.erase_ok h.left key
  obtain ⟨t₁, herase', ht₁, hview'⟩ := hC.erase_ok h.right key
  rw [remove, remove, herase, herase']
  refine ⟨rfl, hs₁, ht₁, plain.erase key, ?_, ?_⟩
  · rw [hview]
    exact hs.erase key
  · rw [hview']
    exact ht.erase key

theorem note_agrees (notice notice' : Notice) :
    Agrees (Alike B C S T) (RecordStore.note notice) (RecordStore.note notice') := by
  intro s t h
  obtain ⟨plain, hs, ht⟩ := h.plain
  obtain ⟨s₁, hnote, hs₁, hview, -⟩ := B.note_eq s notice h.left
  obtain ⟨t₁, hnote', ht₁, hview', -⟩ := C.note_eq t notice' h.right
  rw [hnote, hnote']
  refine ⟨rfl, hs₁, ht₁, plain, ?_, ?_⟩
  · rw [hview]
    exact hs
  · rw [hview']
    exact ht

end Storage

end Coffer
