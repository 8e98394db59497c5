import Coffer.Failure
import Coffer.Store.Kind
import Coffer.Disk.Table
import Coffer.Proofs.Entries
import Mathlib.Data.List.Nodup

namespace Coffer

-- What can be asked of a store. Only a store of the given kind is closed and opened again, a log
-- with a new threshold.
inductive Request where
  | set (key value : String)
  | put (batch : Entries String String)
  | erase (key : String)
  | get (key : String)
  | keys
  | reopen (kind : BackendKind) (threshold : Int)

inductive Answer where
  | done (r : Except Failure Unit)
  | found (r : Except Failure String)
  | listed (r : Except Failure (List String))

-- The answer of a store that lists its keys in their order as bytes.
def Answer.sorted : Answer → Answer
  | .listed (.ok ks) => .listed (.ok (ks.mergeSort Table.keyOrder))
  | a => a

-- What a request makes of the records.
def Request.apply (es : Entries String String) : Request → Entries String String
  | .set key value => es.put key value
  | .put batch => es.putAll batch
  | .erase key => es.erase key
  | .get _ | .keys | .reopen _ _ => es

-- A map, and its keys in the order they came in.
structure Ideal where
  order : List String
  value : String → Option String

namespace Ideal

def empty : Ideal := ⟨[], fun _ => none⟩

def ofEntries (es : Entries String String) : Ideal := ⟨es.keys, es.get?⟩

-- Overwriting keeps the place of a key.
def put (m : Ideal) (key value : String) : Ideal :=
  ⟨if key ∈ m.order then m.order else m.order ++ [key],
    fun k => if k = key then some value else m.value k⟩

def putAll (m : Ideal) (batch : Entries String String) : Ideal :=
  batch.foldl (fun m e => m.put e.1 e.2) m

def erase (m : Ideal) (key : String) : Ideal :=
  ⟨m.order.filter fun k => k ≠ key, fun k => if k = key then none else m.value k⟩

def serve (m : Ideal) : Request → Answer × Ideal
  | .set key value => (.done (.ok ()), m.put key value)
  | .put batch => (.done (.ok ()), m.putAll batch)
  | .erase key => (.done (.ok ()), m.erase key)
  | .get key => (.found ((m.value key).elim (.error (.notFound key)) .ok), m)
  | .keys => (.listed (.ok m.order), m)
  | .reopen _ _ => (.done (.ok ()), m)

def answers (m : Ideal) : List Request → List Answer
  | [] => []
  | request :: rest => (m.serve request).1 :: (m.serve request).2.answers rest

-- Records as a map

theorem ofEntries_nil : ofEntries [] = empty := rfl

theorem ofEntries_put (es : Entries String String) (key value : String) :
    ofEntries (es.put key value) = (ofEntries es).put key value := by
  have horder : (es.put key value).keys = if key ∈ es.keys then es.keys else es.keys ++ [key] := by
    split
    · exact Entries.keys_put_of_mem es key value ‹_›
    · rw [Entries.put_of_not_mem es key value ‹_›]
      simp [Entries.keys]
  have hvalue : (es.put key value).get? = fun k => if k = key then some value else es.get? k := by
    funext k
    simp only [Entries.get?_put, beq_iff_eq, eq_comm (a := key)]
  rw [ofEntries, horder, hvalue]
  rfl

theorem ofEntries_putAll (es batch : Entries String String) :
    ofEntries (es.putAll batch) = (ofEntries es).putAll batch := by
  induction batch generalizing es with
  | nil => rfl
  | cons e rest ih =>
      obtain ⟨key, value⟩ := e
      rw [Entries.putAll_cons, ih, ofEntries_put]
      rfl

theorem ofEntries_erase (es : Entries String String) (key : String) :
    ofEntries (es.erase key) = (ofEntries es).erase key := by
  have horder : (es.erase key).keys = es.keys.filter fun k => k ≠ key := by
    rw [Entries.erase, Entries.keys, Entries.keys, List.filter_map]
    congr 1
    apply List.filter_congr
    intro e _
    by_cases he : e.1 = key <;> simp [he]
  have hvalue : (es.erase key).get? = fun k => if k = key then none else es.get? k := by
    funext k
    simp only [Entries.get?_erase, beq_iff_eq, eq_comm (a := key)]
  rw [ofEntries, horder, hvalue]
  rfl

theorem serve_ofEntries (es : Entries String String) (request : Request) :
    ((ofEntries es).serve request).2 = ofEntries (request.apply es) := by
  cases request with
  | set key value => exact (ofEntries_put es key value).symm
  | put batch => exact (ofEntries_putAll es batch).symm
  | erase key => exact (ofEntries_erase es key).symm
  | get key => rfl
  | keys => rfl
  | reopen kind threshold => rfl

-- The keys have no duplicates

theorem nodup_put {m : Ideal} (h : m.order.Nodup) (key value : String) :
    (m.put key value).order.Nodup := by
  unfold put
  dsimp only
  split
  · exact h
  · rw [← List.concat_eq_append]
    exact h.concat ‹_›

theorem nodup_putAll {m : Ideal} (h : m.order.Nodup) (batch : Entries String String) :
    (m.putAll batch).order.Nodup := by
  induction batch generalizing m with
  | nil => exact h
  | cons e rest ih => exact ih (nodup_put h e.1 e.2)

theorem nodup_serve {m : Ideal} (h : m.order.Nodup) (request : Request) :
    (m.serve request).2.order.Nodup := by
  cases request with
  | set key value => exact nodup_put h key value
  | put batch => exact nodup_putAll h batch
  | erase key => exact h.filter _
  | get key => exact h
  | keys => exact h
  | reopen kind threshold => exact h

theorem nodup_of_listed {m : Ideal} (h : m.order.Nodup) (requests : List Request)
    {r : Except Failure (List String)} (hr : .listed r ∈ m.answers requests) :
    ∃ ks, r = .ok ks ∧ ks.Nodup := by
  induction requests generalizing m with
  | nil => cases hr
  | cons request rest ih =>
      rw [answers] at hr
      rcases List.mem_cons.mp hr with hhead | htail
      · cases request with
        | keys =>
            cases hhead
            exact ⟨m.order, rfl, h⟩
        | _ => cases hhead
      · exact ih (nodup_serve h request) htail

end Ideal

end Coffer
