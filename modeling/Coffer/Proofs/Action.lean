import Coffer.Store.Basic
import Mathlib.Order.Defs.Unbundled

namespace Coffer

namespace Action

variable {σ τ α β : Type} {x : Action σ α} {f : α → Action σ β} {handler : Failure → Action σ α}
  {s t : σ} {r : Except Failure α} {a : α} {e : Failure}

@[simp] theorem update_apply (g : σ → σ) (s : σ) : update g s = (.ok (), g s) := rfl

@[simp] theorem ofExcept_apply (r : Except Failure α) (s : σ) : ofExcept r s = (r, s) := rfl

theorem bind_of_ok (h : x s = (.ok a, t)) : (x >>= f) s = f a t := by rw [bind_apply, h]

theorem bind_of_error (h : x s = (.error e, t)) : (x >>= f) s = (.error e, t) := by
  rw [bind_apply, h]

theorem orElse_of_ok (h : x s = (.ok a, t)) : x.orElse handler s = (.ok a, t) := by
  rw [orElse, h]

theorem orElse_of_error (h : x s = (.error e, t)) : x.orElse handler s = handler e t := by
  rw [orElse, h]

theorem guarded_of_ok (h : x s = (.ok a, t)) : x.guarded s = (.ok a, t) := orElse_of_ok h

theorem guarded_of_error (h : x s = (.error e, t)) : x.guarded s = (.error e.asStorage, t) :=
  orElse_of_error h

theorem attempt_of_eq (h : x s = (r, t)) : x.attempt s = (.ok r, t) := by rw [attempt, h]

theorem bind_eq_ok {b : β} (h : (x >>= f) s = (.ok b, t)) :
    ∃ a u, x s = (.ok a, u) ∧ f a u = (.ok b, t) := by
  rw [bind_apply] at h
  split at h
  · exact ⟨_, _, ‹_›, h⟩
  · cases h

theorem bind_eq_error (h : (x >>= f) s = (.error e, t)) :
    x s = (.error e, t) ∨ ∃ a u, x s = (.ok a, u) ∧ f a u = (.error e, t) := by
  rw [bind_apply] at h
  split at h
  · exact .inr ⟨_, _, ‹_›, h⟩
  · cases h
    exact .inl ‹_›

theorem guarded_eq_ok (h : x.guarded s = (.ok a, t)) : x s = (.ok a, t) := by
  rw [guarded, orElse] at h
  split at h
  · rw [‹x s = _›, h]
  · cases h

-- Whatever its result, the action takes no state outside of the relation.
def Within (R : σ → σ → Prop) (x : Action σ α) : Prop := ∀ s, R s (x s).2

section Within

variable {R : σ → σ → Prop} [IsPreorder σ R]

theorem within_reading (g : σ → Except Failure α) : Within R fun s => (g s, s) :=
  fun s => Std.Refl.refl s

theorem within_pure (a : α) : Within R (pure a : Action σ α) := within_reading fun _ => .ok a

theorem within_fail (e : Failure) : Within R (fail e : Action σ α) := within_reading fun _ => .error e

theorem within_ofExcept (r : Except Failure α) : Within R (ofExcept r : Action σ α) :=
  within_reading fun _ => r

theorem Within.bind (hx : Within R x) (hf : ∀ a, Within R (f a)) : Within R (x >>= f) := by
  intro s
  have hs := hx s
  rw [bind_apply]
  split <;> rw [‹x s = _›] at hs
  · exact IsTrans.trans _ _ _ hs (hf _ _)
  · exact hs

theorem Within.orElse (hx : Within R x) (hh : ∀ e, Within R (handler e)) :
    Within R (x.orElse handler) := by
  intro s
  have hs := hx s
  rw [Action.orElse]
  split <;> rw [‹x s = _›] at hs
  · exact hs
  · exact IsTrans.trans _ _ _ hs (hh _ _)

theorem Within.guarded (hx : Within R x) : Within R x.guarded := hx.orElse fun _ => within_fail _

omit [IsPreorder σ R] in
theorem Within.attempt (hx : Within R x) : Within R x.attempt := by
  intro s
  exact hx s

end Within

-- The action keeps the states of a kind, and what it gives there has the property.
def Yields (I : σ → Prop) (x : Action σ α) (Q : α → Prop) : Prop :=
  ∀ s, I s → I (x s).2 ∧ ∀ a, (x s).1 = .ok a → Q a

section Yields

variable {I : σ → Prop} {Q : α → Prop} {P : β → Prop}

theorem yields_pure (h : Q a) : Yields I (pure a : Action σ α) Q := by
  refine fun s hs => ⟨hs, fun b hb => ?_⟩
  rw [← Except.ok.inj hb]
  exact h

theorem yields_fail (e : Failure) : Yields I (fail e : Action σ α) Q :=
  fun _ hs => ⟨hs, nofun⟩

theorem yields_ofExcept (h : ∀ a, r = .ok a → Q a) : Yields I (ofExcept r : Action σ α) Q :=
  fun _ hs => ⟨hs, h⟩

theorem Yields.bind (hx : Yields I x Q) (hf : ∀ a, Q a → Yields I (f a) P) :
    Yields I (x >>= f) P := by
  intro s hs
  obtain ⟨hkept, hgiven⟩ := hx s hs
  rw [bind_apply]
  split <;> rw [‹x s = _›] at hkept hgiven
  · exact hf _ (hgiven _ rfl) _ hkept
  · exact ⟨hkept, nofun⟩

end Yields

-- From states in the relation the two actions give the same result, and end in the relation.
def Agrees (R : σ → τ → Prop) (x : Action σ α) (y : Action τ α) : Prop :=
  ∀ s t, R s t → (x s).1 = (y t).1 ∧ R (x s).2 (y t).2

section Agrees

variable {R : σ → τ → Prop} {y : Action τ α} {g : α → Action τ β}
  {handler' : Failure → Action τ α}

theorem agrees_pure (a : α) : Agrees R (pure a : Action σ α) (pure a) := fun _ _ h => ⟨rfl, h⟩

theorem agrees_fail (e : Failure) : Agrees R (fail e : Action σ α) (fail e) := fun _ _ h => ⟨rfl, h⟩

theorem agrees_ofExcept (r : Except Failure α) : Agrees R (ofExcept r) (ofExcept r) :=
  fun _ _ h => ⟨rfl, h⟩

theorem Agrees.bind (hx : Agrees R x y) (hf : ∀ a, Agrees R (f a) (g a)) :
    Agrees R (x >>= f) (y >>= g) := by
  intro s t h
  obtain ⟨hresult, hstates⟩ := hx s t h
  rw [bind_apply, bind_apply]
  rcases hs : x s with ⟨r, s'⟩
  rcases ht : y t with ⟨r', t'⟩
  rw [hs, ht] at hresult hstates
  obtain rfl : r = r' := hresult
  cases r with
  | ok a => exact hf a s' t' hstates
  | error e => exact ⟨rfl, hstates⟩

-- What is read may differ, as long as nothing depends on it.
theorem agrees_of_reading {γ δ : Type} (read : σ → γ) (read' : τ → δ) {f : γ → Action σ β}
    {g : δ → Action τ β} (h : ∀ c d, Agrees R (f c) (g d)) :
    Agrees R ((fun s => (.ok (read s), s)) >>= f) ((fun t => (.ok (read' t), t)) >>= g) :=
  fun s t hst => h (read s) (read' t) s t hst

theorem Agrees.orElse (hx : Agrees R x y) (hh : ∀ e, Agrees R (handler e) (handler' e)) :
    Agrees R (x.orElse handler) (y.orElse handler') := by
  intro s t h
  obtain ⟨hresult, hstates⟩ := hx s t h
  rw [Action.orElse, Action.orElse]
  rcases hs : x s with ⟨r, s'⟩
  rcases ht : y t with ⟨r', t'⟩
  rw [hs, ht] at hresult hstates
  obtain rfl : r = r' := hresult
  cases r with
  | ok a => exact ⟨rfl, hstates⟩
  | error e => exact hh e s' t' hstates

theorem Agrees.attempt (hx : Agrees R x y) : Agrees R x.attempt y.attempt := by
  intro s t h
  obtain ⟨hresult, hstates⟩ := hx s t h
  exact ⟨congrArg Except.ok hresult, hstates⟩

end Agrees

end Action

namespace Seat

variable {β α : Type} {x : Action Host α} {s : Seat β} {r : Except Failure α} {host : Host}

@[simp] theorem current_apply (s : Seat β) : current s = (.ok s.store, s) := rfl

theorem onHost_of_eq (h : x s.host = (r, host)) : onHost x s = (r, { s with host }) := by
  rw [onHost, Action.onPart, h]

end Seat

end Coffer
