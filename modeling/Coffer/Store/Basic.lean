import Coffer.Host
import Coffer.Store.Batch

-- What a store of text records offers, and a store together with the host that
-- it works on.

namespace Coffer

-- `put` commits all of its records or none; `erase` of an absent key is no error.
class RecordStore (σ : Type) where
  label : σ → String
  shown : σ → String
  get : String → Action σ String
  put : Entries String String → Action σ Unit
  erase : String → Action σ Unit
  close : Action σ Unit
  draw : Action σ Nat
  note : Notice → Action σ Unit

structure Seat (β : Type) where
  host : Host
  store : β

namespace Seat

variable {β γ α : Type}

def onHost (x : Action Host α) : Action (Seat β) α :=
  Action.onPart Seat.host (fun s host => { s with host }) x

def current : Action (Seat β) β := fun s => (.ok s.store, s)

def setStore (b : β) : Action (Seat β) Unit := Action.update fun s => { s with store := b }

-- An action on one kind of store, for a store that may be of other kinds too.
def focus (inject : β → γ) (b : β) (x : Action (Seat β) α) : Action (Seat γ) α := fun s =>
  match x ⟨s.host, b⟩ with
  | (r, t) => (r, ⟨t.host, inject t.store⟩)

end Seat

end Coffer
