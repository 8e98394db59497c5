import Coffer.Proofs.Log.Change
import Coffer.Proofs.Store.Backend

-- The three calls that change a store, with whatever they are handed in. What they come to is a
-- change of the records, unless they have been handed something that is not text.

namespace Coffer

-- Batches as they are handed in

def IsText (key value : Value) : Prop := ∃ k v, key = .text k ∧ value = .text v

def Entries.asValues (batch : Entries String String) : Entries Value Value :=
  batch.map fun r => (.text r.1, .text r.2)

theorem Entries.mem_asValues {batch : Entries String String} {key value : Value}
    (h : (key, value) ∈ Entries.asValues batch) : IsText key value := by
  obtain ⟨r, -, hr⟩ := List.mem_map.mp h
  cases hr
  exact ⟨r.1, r.2, rfl, rfl⟩

theorem Entries.text_mem_keys_asValues {batch : Entries String String} {key : String} :
    .text key ∈ (Entries.asValues batch).keys ↔ key ∈ batch.keys := by
  simp [Entries.asValues, Entries.keys]

theorem textRecords_of_odd {before : Entries String String} {key value : Value}
    (hodd : ¬IsText key value) (after : Entries Value Value) :
    textRecords (Entries.asValues before ++ (key, value) :: after) =
      .error (.mistyped (.notText key value)) := by
  induction before with
  | nil =>
      exact textRecords.eq_3 key value after fun k v hk hv => hodd ⟨k, v, hk, hv⟩
  | cons r before ih =>
      change textRecords ((.text r.1, .text r.2) :: (Entries.asValues before ++ _)) = _
      rw [textRecords, ih]
      rfl

-- A batch is all text, or it has a first entry that is not.
theorem texts_or_odd (entries : Entries Value Value) :
    (∃ batch, entries = Entries.asValues batch) ∨
    ∃ before key value after, entries = Entries.asValues before ++ (key, value) :: after ∧
      ¬IsText key value := by
  induction entries with
  | nil => exact .inl ⟨[], rfl⟩
  | cons e rest ih =>
      obtain ⟨key, value⟩ := e
      by_cases htext : IsText key value
      · obtain ⟨k, v, rfl, rfl⟩ := htext
        rcases ih with ⟨batch, rfl⟩ | ⟨before, key, value, after, rfl, hodd⟩
        · exact .inl ⟨(k, v) :: batch, rfl⟩
        · exact .inr ⟨(k, v) :: before, key, value, after, rfl, hodd⟩
      · exact .inr ⟨[], key, value, rest, rfl, htext⟩

namespace Backend

open LogStore (Change)

inductive Call where
  | set (key value : Value)
  | setBatch (records : Value)
  | remove (key : Value)

def change : Change → Action (Seat Backend) Unit
  | .put batch => put batch
  | .erase key => erase key

namespace Call

def run : Call → Action (Seat Backend) Unit
  | .set key value => putAt key value
  | .setBatch records => putBatch records
  | .remove key => eraseAt key

def change? : Call → Option Change
  | .set (.text key) (.text value) => some (.put [(key, value)])
  | .set _ _ => none
  | .setBatch records => (batchOf records >>= textRecords).toOption.map .put
  | .remove (.text key) => some (.erase key)
  | .remove _ => none

-- The records after the call, if it is made.
def apply (call : Call) (records : Entries String String) : Entries String String :=
  call.change?.elim records fun change => change.apply records

variable {call : Call} {change : Change}

theorem apply_of_some (h : call.change? = some change) (records : Entries String String) :
    call.apply records = change.apply records := by
  rw [apply, h, Option.elim_some]

theorem apply_of_none (h : call.change? = none) (records : Entries String String) :
    call.apply records = records := by
  rw [apply, h, Option.elim_none]

theorem run_of_some (h : call.change? = some change) (s : Seat Backend) :
    call.run s = Backend.change change s := by
  cases call with
  | set key value =>
      cases key <;> cases value <;> cases h
      rfl
  | setBatch records =>
      obtain ⟨batch, hbatch, rfl⟩ := Option.map_eq_some_iff.mp h
      have hrecords : (batchOf records >>= textRecords) = .ok batch := by
        revert hbatch
        cases batchOf records >>= textRecords <;> rintro ⟨⟩
        rfl
      change (Action.ofExcept (batchOf records >>= textRecords) >>= put) s = put batch s
      rw [hrecords]
      rfl
  | remove key =>
      cases key <;> cases h
      rfl

theorem putBatch_of_error {records : Value} {e : Failure}
    (h : (batchOf records >>= textRecords) = .error e) (s : Seat Backend) :
    putBatch records s = (.error e, s) := by
  change (Action.ofExcept (batchOf records >>= textRecords) >>= put) s = _
  rw [h]
  rfl

-- Anything else is refused, but for the removal of a key that is no text.
theorem run_of_none (h : call.change? = none) (s : Seat Backend) :
    (∃ e, call.run s = (.error e, s)) ∨
      ∃ key, call = .remove key ∧ ∀ k, key ≠ .text k := by
  cases call with
  | set key value =>
      refine .inl ?_
      cases hkey : checkKey key with
      | error e =>
          refine ⟨e, Action.bind_of_error ?_⟩
          rw [Action.ofExcept_apply, hkey]
      | ok u =>
          have hodd : ¬IsText key value := by
            rintro ⟨k, v, rfl, rfl⟩
            cases h
          have hrecords : (batchOf (.dict [(key, value)]) >>= textRecords) =
              .error (.mistyped (.notText key value)) := @textRecords_of_odd [] _ _ hodd []
          refine ⟨_, (Action.bind_of_ok (a := u) ?_).trans (putBatch_of_error hrecords s)⟩
          rw [Action.ofExcept_apply, hkey]
  | setBatch records =>
      refine .inl ?_
      cases hrecords : batchOf records >>= textRecords with
      | error e => exact ⟨e, putBatch_of_error hrecords s⟩
      | ok batch =>
          rw [change?, hrecords] at h
          cases h
  | remove key =>
      refine .inr ⟨key, rfl, ?_⟩
      rintro k rfl
      cases h

end Call

end Backend

end Coffer
