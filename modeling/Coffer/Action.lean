import Coffer.Failure

-- Actions on a state. An action may fail, and then what it changed before stays
-- changed.

namespace Coffer

def Action (σ α : Type) : Type := σ → Except Failure α × σ

namespace Action

variable {σ τ α β : Type}

instance : Monad (Action σ) where
  pure a := fun s => (.ok a, s)
  bind x f := fun s =>
    match x s with
    | (.ok a, s) => f a s
    | (.error e, s) => (.error e, s)

def fail (e : Failure) : Action σ α := fun s => (.error e, s)

-- The handler runs in the state that the failed action left.
def orElse (x : Action σ α) (handler : Failure → Action σ α) : Action σ α := fun s =>
  match x s with
  | (.ok a, s) => (.ok a, s)
  | (.error e, s) => handler e s

instance : MonadExceptOf Failure (Action σ) where
  throw := fail
  tryCatch := orElse

def get : Action σ σ := fun s => (.ok s, s)

def update (f : σ → σ) : Action σ Unit := fun s => (.ok (), f s)

def ofExcept (r : Except Failure α) : Action σ α := fun s => (r, s)

-- The failure of an action as a value.
def attempt (x : Action σ α) : Action σ (Except Failure α) := fun s =>
  match x s with
  | (r, s) => (.ok r, s)

-- An action of a store: what the system refuses is the store's failure.
def guarded (x : Action σ α) : Action σ α := x.orElse fun e => fail e.asStorage

-- An action on a part of the state.
def onPart (part : σ → τ) (replace : σ → τ → σ) (x : Action τ α) : Action σ α := fun s =>
  match x (part s) with
  | (r, t) => (r, replace s t)

@[simp] theorem pure_apply (a : α) (s : σ) : (pure a : Action σ α) s = (.ok a, s) := rfl

theorem bind_apply (x : Action σ α) (f : α → Action σ β) (s : σ) :
    (x >>= f) s =
      match x s with
      | (.ok a, s) => f a s
      | (.error e, s) => (.error e, s) := rfl

@[simp] theorem fail_apply (e : Failure) (s : σ) : (fail e : Action σ α) s = (.error e, s) := rfl

theorem id_map_action (x : Action σ α) : id <$> x = x := by
  funext s
  change (match x s with
    | (.ok a, s) => (Except.ok a, s)
    | (.error e, s) => (.error e, s)) = x s
  rcases x s with ⟨_ | _, _⟩ <;> rfl

theorem bind_assoc_action {γ : Type} (x : Action σ α) (f : α → Action σ β) (g : β → Action σ γ) :
    x >>= f >>= g = x >>= fun a => f a >>= g := by
  funext s
  simp only [bind_apply]
  rcases x s with ⟨_ | _, _⟩ <;> rfl

instance : LawfulMonad (Action σ) :=
  LawfulMonad.mk' (Action σ) id_map_action (fun _ _ => rfl) bind_assoc_action

end Action

end Coffer
