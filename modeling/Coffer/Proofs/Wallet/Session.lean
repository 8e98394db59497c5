import Coffer.Wallet.Session
import Coffer.Proofs.Store.Reliable

namespace Coffer.Wallet.Session

variable {σ α : Type} [RecordStore σ] {B : Reliable σ} {s : Session σ}

omit [RecordStore σ] in
theorem onStore_of_eq {f : Storage → Action σ α} {r : Except Failure α} {t : σ}
    (h : f s.storage s.store = (r, t)) : onStore f s = (r, { s with store := t }) := by
  rw [onStore, Action.onPart, h]

-- A record is read off the stored ones, which stay.
theorem onStore_get (hs : B.sound s.store) (key : String) (schema : Json.Schema) :
    onStore (fun storage => storage.get key schema) s =
      (s.storage.read (B.view s.store) key schema, s) :=
  onStore_of_eq (Reliable.get_eq_read hs key schema)

-- The registry

-- The registry among the stored records; none that is stored is an empty one.
def stored (storage : Storage) (es : Entries String String) : Except Failure (List Value) :=
  match storage.read es registryKey registrySchema with
  | .ok v => .ok (itemsOf v)
  | .error (.notFound _) => .ok []
  | .error e => .error e

-- The registry that a session goes by.
def known (B : Reliable σ) (s : Session σ) : Except Failure (List Value) :=
  match s.registry with
  | some is => .ok is
  | none => stored s.storage (B.view s.store)

theorem loadRegistry_of_known_error {e : Failure} (hs : B.sound s.store)
    (h : known B s = .error e) : loadRegistry s = (.error e, s) := by
  obtain ⟨storage, registry, store⟩ := s
  cases registry with
  | some is => cases h
  | none =>
      have hget := onStore_get (s := ⟨storage, none, store⟩) hs registryKey registrySchema
      refine (Action.bind_of_ok (Action.attempt_of_eq hget)).trans ?_
      simp only [known, stored] at h
      cases hr : storage.read (B.view store) registryKey registrySchema with
      | ok v => simp [hr] at h
      | error e' =>
          rw [hr] at h
          cases e' <;> cases h <;> rfl

-- The store only has to answer when it is asked for the registry.
theorem loadRegistry_of_stored {is : List Value} {storage : Storage} {st : σ}
    {es : Entries String String}
    (hget : storage.get registryKey registrySchema st =
      (storage.read es registryKey registrySchema, st))
    (h : stored storage es = .ok is) :
    loadRegistry ⟨storage, none, st⟩ = (.ok is, ⟨storage, some is, st⟩) := by
  have hread := onStore_of_eq (s := ⟨storage, none, st⟩)
    (f := fun storage => storage.get registryKey registrySchema) hget
  refine (Action.bind_of_ok (Action.attempt_of_eq hread)).trans ?_
  unfold stored at h
  cases hr : storage.read es registryKey registrySchema with
  | ok v =>
      rw [hr] at h
      cases h
      rfl
  | error e =>
      rw [hr] at h
      cases e <;> cases h
      rfl

theorem loadRegistry_of_known {is : List Value} (hs : B.sound s.store) (h : known B s = .ok is) :
    loadRegistry s = (.ok is, { s with registry := some is }) := by
  obtain ⟨storage, registry, store⟩ := s
  cases registry with
  | some is' =>
      cases h
      rfl
  | none => exact loadRegistry_of_stored (Reliable.get_eq_read hs registryKey registrySchema) h

-- Writing

-- How writing some records of a session may end.
inductive Writes (B : Reliable σ) (s : Session σ) (records : Entries String Value) :
    Except Failure Unit → Session σ → Prop where
  | refused (e : Failure) (t : σ) (ht : B.sound t) (hview : B.view t = B.view s.store)
      (he : Reliable.Refuses B e) :
      Writes B s records (.error e) { s with store := t }
  | made (batch : Entries String String) (t : σ) (ht : B.sound t)
      (hbatch : s.storage.Protects records batch)
      (hview : B.view t = (B.view s.store).putAll batch) :
      Writes B s records (.ok ()) { s with store := t }
  | reported (e : Failure) (batch : Entries String String) (t : σ) (ht : B.sound t)
      (hbatch : s.storage.Protects records batch)
      (hview : B.view t = (B.view s.store).putAll batch) (he : B.late s.store e) :
      Writes B s records (.error e) { s with store := t }

-- The records are there or nothing has changed.
theorem Writes.outcome {records : Entries String Value} {r : Except Failure Unit} {t : Session σ}
    (h : Writes B s records r t) :
    B.sound t.store ∧ t.storage = s.storage ∧ t.registry = s.registry ∧
      (B.view t.store = B.view s.store ∨ ∃ batch, s.storage.Protects records batch ∧
        B.view t.store = (B.view s.store).putAll batch) := by
  cases h with
  | refused e t ht hview he => exact ⟨ht, rfl, rfl, .inl hview⟩
  | made batch t ht hbatch hview => exact ⟨ht, rfl, rfl, .inr ⟨batch, hbatch, hview⟩⟩
  | reported e batch t ht hbatch hview he => exact ⟨ht, rfl, rfl, .inr ⟨batch, hbatch, hview⟩⟩

theorem setAll_writes (hs : B.sound s.store) (records : Entries String Value) :
    ∃ r t, onStore (fun storage => storage.setAll records) s = (r, t) ∧ Writes B s records r t := by
  obtain ⟨r, t, hset, ht, ⟨e, rfl, he, hview⟩ | ⟨batch, hbatch, hview, rfl | ⟨e, rfl, he⟩⟩⟩ :=
    Reliable.setAll_cases s.storage hs records
  · exact ⟨_, _, onStore_of_eq hset, .refused e t ht hview he⟩
  · exact ⟨_, _, onStore_of_eq hset, .made batch t ht hbatch hview⟩
  · exact ⟨_, _, onStore_of_eq hset, .reported e batch t ht hbatch hview he⟩

theorem set_writes (hs : B.sound s.store) (key : String) (v : Value) :
    ∃ r t, onStore (fun storage => storage.set key v) s = (r, t) ∧ Writes B s [(key, v)] r t := by
  simp only [Reliable.set_eq_setAll]
  exact setAll_writes hs [(key, v)]

-- Saving

-- What saving writes when it goes by the given indexes.
def saved (is : List Value) (a : Account) : Entries String Value :=
  [(registryKey, .list (register is a.index)), (accountKey a.index, a.toValue)]

theorem saveAccount_of_known_error {e : Failure} (hs : B.sound s.store) (a : Account)
    (h : known B s = .error e) : saveAccount a s = (.error e, s) :=
  Action.bind_of_error (loadRegistry_of_known_error hs h)

-- The cache follows only once the store has said that the records are written.
theorem saveAccount_cases {is : List Value} (hs : B.sound s.store) (a : Account)
    (h : known B s = .ok is) :
    ∃ r t, saveAccount a s = (r, t) ∧ ∃ t₁,
      Writes B { s with registry := some is } (saved is a) r t₁ ∧
      t = match r with
        | .ok () => { t₁ with registry := some (register is a.index) }
        | .error _ => t₁ := by
  obtain ⟨r, t₁, hset, hwrites⟩ :=
    setAll_writes (s := { s with registry := some is }) hs (saved is a)
  have hload := loadRegistry_of_known hs h
  cases r with
  | ok u =>
      exact ⟨_, _, (Action.bind_of_ok hload).trans ((Action.bind_of_ok hset).trans rfl), t₁, hwrites,
        rfl⟩
  | error e =>
      exact ⟨_, _, (Action.bind_of_ok hload).trans (Action.bind_of_error hset), t₁, hwrites, rfl⟩

-- Removing

-- The first part of a removal, up to the writing of the registry.
def dropRecord (index : Value) : Action (Session σ) (List Value) := do
  let indexes ← loadRegistry
  onStore fun storage => storage.remove (accountKey index)
  let indexes := indexes.filter fun i => !(i == index)
  setRegistry indexes
  return indexes

def writeRegistry (indexes : List Value) : Action (Session σ) Unit :=
  onStore fun storage => storage.set registryKey (.list indexes)

theorem removeAccount_eq (index : Value) :
    (removeAccount index : Action (Session σ) Unit) = dropRecord index >>= writeRegistry := by
  simp only [removeAccount, dropRecord, writeRegistry, bind_assoc, pure_bind]

-- A removal that took the record away but could not write the registry.
def FailsAtRegistry (s : Session σ) (index : Value) : Prop :=
  ∃ is s₁ e t, dropRecord index s = (.ok is, s₁) ∧ writeRegistry is s₁ = (.error e, t)

theorem dropRecord_of_known_error {e : Failure} (hs : B.sound s.store) (index : Value)
    (h : known B s = .error e) : dropRecord index s = (.error e, s) :=
  Action.bind_of_error (loadRegistry_of_known_error hs h)

theorem dropRecord_cases {is : List Value} (hs : B.sound s.store) (index : Value)
    (h : known B s = .ok is) :
    ∃ t, B.sound t ∧
      ((∃ e, dropRecord index s = (.error e, { s with registry := some is, store := t }) ∧
        (B.view t = B.view s.store ∨
          (B.late s.store e ∧ B.view t = (B.view s.store).erase (accountKey index)))) ∨
      (dropRecord index s = (.ok (is.filter fun i => !(i == index)),
          { s with registry := some (is.filter fun i => !(i == index)), store := t }) ∧
        B.view t = (B.view s.store).erase (accountKey index))) := by
  obtain ⟨r, t, herase, ht, hends⟩ := B.erase_ends s.store (accountKey index) hs
  have hload := loadRegistry_of_known hs h
  have hremove := onStore_of_eq (s := { s with registry := some is })
    (f := fun storage => storage.remove (accountKey index)) herase
  refine ⟨t, ht, ?_⟩
  generalize hnew : B.view t = new at hends
  cases hends with
  | made =>
      refine .inr ⟨(Action.bind_of_ok hload).trans ((Action.bind_of_ok hremove).trans rfl), rfl⟩
  | refused e he =>
      exact .inl ⟨e, (Action.bind_of_ok hload).trans (Action.bind_of_error hremove), .inl rfl⟩
  | reported e he =>
      exact .inl ⟨e, (Action.bind_of_ok hload).trans (Action.bind_of_error hremove), .inr ⟨he, rfl⟩⟩

-- Reading

theorem getAccount_eq (hs : B.sound s.store) (index : Value) :
    getAccount index s =
      (s.storage.read (B.view s.store) (accountKey index) accountSchema, s) :=
  onStore_get hs (accountKey index) accountSchema

-- The accounts of the given indexes, or the first index without one.
def accountsOf (storage : Storage) (es : Entries String String) :
    List Value → Except Failure (List Value)
  | [] => .ok []
  | index :: rest =>
      match storage.read es (accountKey index) accountSchema with
      | .error (.notFound _) => .error (.danglingAccount index)
      | .error e => .error e
      | .ok account => (account :: ·) <$> accountsOf storage es rest

theorem getRegistered_eq (hs : B.sound s.store) (is : List Value) :
    getRegistered is s = (accountsOf s.storage (B.view s.store) is, s) := by
  induction is with
  | nil => rfl
  | cons index rest ih =>
      have hget := getAccount_eq hs index
      rw [accountsOf]
      cases hr : s.storage.read (B.view s.store) (accountKey index) accountSchema with
      | error e =>
          rw [hr] at hget
          cases e <;> exact Action.bind_of_error ((Action.orElse_of_error hget).trans rfl)
      | ok account =>
          rw [hr] at hget
          refine (Action.bind_of_ok (Action.orElse_of_ok hget)).trans ?_
          cases ha : accountsOf s.storage (B.view s.store) rest with
          | error e =>
              rw [ha] at ih
              exact Action.bind_of_error ih
          | ok accounts =>
              rw [ha] at ih
              exact Action.bind_of_ok ih

theorem getAccounts_of_known_error {e : Failure} (hs : B.sound s.store)
    (h : known B s = .error e) : getAccounts s = (.error e, s) :=
  Action.bind_of_error (loadRegistry_of_known_error hs h)

theorem getAccounts_of_known {is : List Value} (hs : B.sound s.store) (h : known B s = .ok is) :
    getAccounts s = (accountsOf s.storage (B.view s.store) is, { s with registry := some is }) :=
  (Action.bind_of_ok (loadRegistry_of_known hs h)).trans
    (getRegistered_eq (s := { s with registry := some is }) hs is)

-- The gate

-- All records but the one under the key are as they were.
def AgreesBut (B : Reliable σ) (key : String) (st t : σ) : Prop :=
  B.sound st → B.sound t ∧ ∀ k, k ≠ key → (B.view t).get? k = (B.view st).get? k

instance (key : String) : IsPreorder σ (AgreesBut B key) where
  refl _ hs := ⟨hs, fun _ _ => rfl⟩
  trans _ _ _ hab hbc hs :=
    ⟨(hbc (hab hs).1).1, fun k hk => ((hbc (hab hs).1).2 k hk).trans ((hab hs).2 k hk)⟩

theorem set_agreesBut (storage : Storage) (key : String) (v : Value) :
    Action.Within (AgreesBut B key) (storage.set key v) := by
  intro st hs
  rw [Reliable.set_eq_setAll]
  obtain ⟨r, t, hset, ht, ⟨e, -, -, hview⟩ | ⟨batch, hbatch, hview, -⟩⟩ :=
    Reliable.setAll_cases storage hs [(key, v)]
  · rw [hset]
    exact ⟨ht, fun k _ => by rw [hview]⟩
  · rw [hset]
    refine ⟨ht, fun k hk => ?_⟩
    cases hbatch with
    | cons hb hrest =>
        cases hrest with
        | nil =>
            obtain ⟨hkey, -⟩ := hb
            have hne : ¬key = k := fun h => hk h.symm
            rw [hview]
            simp only [Entries.putAll, List.foldl_cons, List.foldl_nil, Entries.get?_put, hkey]
            simp [hne]

theorem note_agreesBut (key : String) (notice : Notice) :
    Action.Within (AgreesBut B key) (RecordStore.note notice) := by
  intro st hs
  obtain ⟨t, hnote, ht, hview, -⟩ := B.note_eq st notice hs
  rw [hnote]
  exact ⟨ht, fun k _ => by rw [hview]⟩

theorem get_agreesBut (storage : Storage) (key : String) (name : String) (schema : Json.Schema) :
    Action.Within (AgreesBut B key) (storage.get name schema) := by
  intro st hs
  rw [Reliable.get_eq_read hs]
  exact ⟨hs, fun _ _ => rfl⟩

-- The gate writes nothing but the version.
theorem gate_agreesBut (storage : Storage) (version : Value) :
    Action.Within (AgreesBut B versionKey) (gate storage version) := by
  refine Action.Within.bind (Action.within_ofExcept _) fun inRange => ?_
  split
  · exact Action.within_fail _
  · refine Action.Within.bind (Action.within_reading _) fun label => ?_
    refine (get_agreesBut storage _ _ _).attempt.bind fun found => ?_
    split
    · split
      · exact Action.within_pure _
      · exact (note_agreesBut _ _).bind fun _ => Action.within_fail _
    · exact (note_agreesBut _ _).bind fun _ => set_agreesBut storage versionKey version
    · exact Action.within_fail _
    · exact Action.within_fail _

end Coffer.Wallet.Session
