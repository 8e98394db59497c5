import Coffer.Proofs.Json.Unencodable
import Coffer.Proofs.Store.Alike
import Coffer.Proofs.Store.Keeping

-- A record that has no text stops the write that it is part of. By then the records before it may
-- have been sealed, for which nonces have been drawn, but the store has not been asked for anything.

namespace Coffer

open Coffer.Action (Within)

namespace Storage

-- The first record of a batch that has no text.
inductive FirstUnwritable : Entries String Value → String → Json.EncodeError → Prop where
  | here {key : String} {record : Value} {error : Json.EncodeError}
      (h : Json.encode record = .error error) (rest : Entries String Value) :
      FirstUnwritable ((key, record) :: rest) key error
  | later {key : String} {r : String × Value} {error : Json.EncodeError} {text : String}
      {rest : Entries String Value} (h : Json.encode r.2 = .ok text)
      (hrest : FirstUnwritable rest key error) : FirstUnwritable (r :: rest) key error

variable {records : Entries String Value} {key : String} {error : Json.EncodeError}

theorem exists_firstUnwritable (h : ∃ r ∈ records, ∃ error, Json.encode r.2 = .error error) :
    ∃ key error, FirstUnwritable records key error := by
  obtain ⟨r, hr, hfails⟩ := h
  induction records with
  | nil => cases hr
  | cons q rest ih =>
      cases hq : Json.encode q.2 with
      | error e => exact ⟨q.1, e, .here hq rest⟩
      | ok text =>
          rcases List.mem_cons.mp hr with rfl | hr
          · obtain ⟨e, he⟩ := hfails
            cases he.symm.trans hq
          · obtain ⟨key, error, hfirst⟩ := ih hr
            exact ⟨key, error, .later hq hfirst⟩

theorem FirstUnwritable.exists_record (h : FirstUnwritable records key error) :
    ∃ record, (key, record) ∈ records ∧ Json.encode record = .error error := by
  induction h with
  | here h rest => exact ⟨_, List.mem_cons_self, h⟩
  | later h hrest ih =>
      obtain ⟨record, hmem, hfails⟩ := ih
      exact ⟨record, List.mem_cons_of_mem _ hmem, hfails⟩

theorem FirstUnwritable.encodeAll_eq (h : FirstUnwritable records key error) :
    encodeAll records = .error (encodeFailure key error) := by
  induction h with
  | here h rest =>
      rw [encodeAll, encode, h, mapError_error]
      rfl
  | later h hrest ih =>
      rw [encodeAll, encode, h, mapError_ok, ok_bind, ih]
      rfl

theorem encodeFailure_of_ne (h : error ≠ .tooDeep) : encodeFailure key error = .unwritable key error := by
  cases error with
  | tooDeep => exact absurd rfl h
  | _ => rfl

theorem FirstUnwritable.encodeFailure_eq (h : FirstUnwritable records key error)
    (hshallow : ∀ r ∈ records, Json.IsShallow r.2) :
    encodeFailure key error = .unwritable key error := by
  refine encodeFailure_of_ne ?_
  rintro rfl
  obtain ⟨record, hmem, hfails⟩ := h.exists_record
  exact (hshallow _ hmem).encode_ne hfails

-- The first record of all draws no nonce either.
theorem setAll_of_error {σ : Type} [RecordStore σ] {record : Value} (storage : Storage)
    (h : Json.encode record = .error error) (rest : Entries String Value) (s : σ) :
    storage.setAll ((key, record) :: rest) s = (.error (encodeFailure key error), s) := by
  refine Action.bind_of_error (Action.bind_of_error ?_)
  rw [encode, h, mapError_error, Action.ofExcept_apply]

theorem set_of_error {σ : Type} [RecordStore σ] {record : Value} (storage : Storage)
    (h : Json.encode record = .error error) (s : σ) :
    storage.set key record s = (.error (encodeFailure key error), s) := by
  rw [Reliable.set_eq_setAll]
  exact setAll_of_error storage h [] s

end Storage

-- Looking a record up leaves a database as it was, whatever state it is in.
theorem DatabaseStore.get_within (key : String) : Within Eq (get key) := by
  have hconnection : Within Eq connection := by
    intro s
    unfold connection
    split <;> rfl
  have htable : Within Eq table := hconnection.bind fun id => Action.within_reading _
  refine (htable.bind fun t => ?_).bind fun t => Action.within_ofExcept _
  split
  · exact Action.within_pure t
  · exact Action.within_fail _

namespace Backend

-- Nothing has changed but the number of nonces drawn.
def Drawn (s t : Seat Backend) : Prop := ∃ drawn, t = { s with host := { s.host with drawn } }

theorem Drawn.refl (s : Seat Backend) : Drawn s s := ⟨s.host.drawn, rfl⟩

theorem Drawn.draws (s : Seat Backend) : Storage.Draws (Drawn s) := by
  rintro _ ⟨drawn, rfl⟩
  exact ⟨_, _, rfl, _, rfl⟩

theorem setAll_of_firstUnwritable {records : Entries String Value} {key : String}
    {error : Json.EncodeError} (storage : Storage)
    (h : Storage.FirstUnwritable records key error) (s : Seat Backend) :
    ∃ t, storage.setAll records s = (.error (Storage.encodeFailure key error), t) ∧ Drawn s t := by
  obtain ⟨t, ht, hprotect⟩ :=
    Storage.protectAll_of_draws storage (Drawn.draws s) (Drawn.refl s) records
  rw [h.encodeAll_eq] at hprotect
  exact ⟨t, Action.bind_of_error hprotect, ht⟩

theorem get_state (s : Seat Backend) (key : String) : (get key s).2 = s := by
  obtain ⟨host, store⟩ := s
  cases store with
  | memory m => rfl
  | log l => rfl
  | document d => rfl
  | database d =>
      have hget := (DatabaseStore.get_within key ⟨host, d⟩).symm
      exact congrArg (fun t : Seat DatabaseStore => (⟨t.host, .database t.store⟩ : Seat Backend)) hget

end Backend

end Coffer
