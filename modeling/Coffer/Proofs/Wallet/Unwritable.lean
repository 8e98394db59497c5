import Coffer.Proofs.Store.Unwritable
import Coffer.Proofs.Wallet.Session

-- Accounts and configurations that cannot be written. Saving one fails, and leaves the records of the
-- wallet and the registry that the session goes by as they were.

namespace Coffer.Wallet.Session

open Backend (Drawn)
open Json (HoldsForeign IsShallow)
open Storage (FirstUnwritable encodeFailure)

variable {s : Session (Seat Backend)}

-- A registry that is loaded goes to the cache, and else nothing changes.
theorem loadRegistry_cases (s : Session (Seat Backend)) :
    (∃ is, loadRegistry s = (.ok is, { s with registry := some is })) ∨
      s.registry = none ∧ ∃ e, loadRegistry s = (.error e, s) := by
  obtain ⟨storage, registry, store⟩ := s
  cases registry with
  | some is => exact .inl ⟨is, rfl⟩
  | none =>
      obtain ⟨r, hget⟩ : ∃ r, storage.get registryKey registrySchema store = (r, store) :=
        ⟨_, Prod.ext rfl (Storage.get_state (Backend.get_state store registryKey) registrySchema)⟩
      have hload := onStore_of_eq (s := ⟨storage, none, store⟩)
        (f := fun storage => storage.get registryKey registrySchema) hget
      have hattempt := Action.attempt_of_eq hload
      cases r with
      | ok v => exact .inl ⟨itemsOf v, Action.bind_of_ok hattempt⟩
      | error e =>
          cases e with
          | notFound key => exact .inl ⟨[], Action.bind_of_ok hattempt⟩
          | _ => exact .inr ⟨rfl, _, Action.bind_of_ok hattempt⟩

-- What is stored is the same, and so is the registry that the session goes by.
structure Undisturbed (s t : Session (Seat Backend)) : Prop where
  storage : t.storage = s.storage
  store : Drawn s.store t.store
  registry : (loadRegistry t).1 = (loadRegistry s).1
  cached : ∀ is, s.registry = some is → t.registry = some is

theorem Undisturbed.refl (s : Session (Seat Backend)) : Undisturbed s s :=
  ⟨rfl, .refl _, rfl, fun _ h => h⟩

-- The registry, which is written first, may be what cannot be written.
theorem saveAccount_of_holdsForeign (s : Session (Seat Backend)) {a : Account}
    (ha : HoldsForeign a.toValue) :
    ∃ e t, saveAccount a s = (.error e, t) ∧ Undisturbed s t ∧
      ∀ is, (loadRegistry s).1 = .ok is →
        ∃ key error, FirstUnwritable (saved is a) key error ∧ e = encodeFailure key error := by
  rcases loadRegistry_cases s with ⟨is, hload⟩ | ⟨hnone, e, hload⟩
  · have haccount : ∃ r ∈ saved is a, ∃ error, Json.encode r.2 = .error error :=
      ⟨(accountKey a.index, a.toValue), by simp [saved], Json.encode_of_holdsForeign ha⟩
    obtain ⟨key, error, hfirst⟩ := Storage.exists_firstUnwritable haccount
    obtain ⟨u, hset, hdrawn⟩ := Backend.setAll_of_firstUnwritable s.storage hfirst s.store
    have hwrite := onStore_of_eq (s := { s with registry := some is })
      (f := fun storage => storage.setAll (saved is a)) hset
    refine ⟨_, _, (Action.bind_of_ok hload).trans (Action.bind_of_error hwrite),
      ⟨rfl, hdrawn, by rw [hload]; rfl, fun is' hcached => ?_⟩, fun is' his => ?_⟩
    · have hload' : loadRegistry s = (.ok is', s) := by
        unfold loadRegistry
        rw [hcached]
      exact congrArg some (Except.ok.inj (Prod.mk.inj (hload.symm.trans hload')).1)
    · rw [hload] at his
      cases his
      exact ⟨key, error, hfirst, rfl⟩
  · refine ⟨e, s, Action.bind_of_error hload, .refl s, fun is his => ?_⟩
    rw [hload] at his
    cases his

theorem toRecord_holdsForeign {b : Builder} (hb : HoldsForeign b.clientOptions) :
    HoldsForeign b.toRecord := by
  obtain ⟨typeName, shown, h⟩ := hb
  exact ⟨typeName, shown, .field _ _ ("client_options", b.clientOptions) (by simp) h⟩

-- With every kind of secret manager the configuration is the first to be written, and a manager that
-- has no snapshot or no policy is found out before that.
theorem saveBuilder_of_holdsForeign (s : Session (Seat Backend)) {b : Builder}
    (hb : HoldsForeign b.clientOptions) :
    ∃ e, saveBuilder b s = (.error e, s) ∧
      ((∀ v, b.secret ≠ .plain v ∧ b.secret ≠ .manager (.unknown v)) →
        ∃ error, Json.encode b.toRecord = .error error ∧ e = encodeFailure builderKey error) := by
  obtain ⟨error, herror⟩ := Json.encode_of_holdsForeign (toRecord_holdsForeign hb)
  have hset : onStore (fun storage => storage.set builderKey b.toRecord) s =
      (.error (encodeFailure builderKey error), s) :=
    onStore_of_eq (Storage.set_of_error s.storage herror s.store)
  have hsetAll (rest : Entries String Value) :
      onStore (fun storage => storage.setAll ((builderKey, b.toRecord) :: rest)) s =
        (.error (encodeFailure builderKey error), s) :=
    onStore_of_eq (Storage.setAll_of_error s.storage herror rest s.store)
  unfold saveBuilder
  cases hsecret : b.secret with
  | none => exact ⟨_, (Action.bind_of_ok rfl).trans hset, fun _ => ⟨error, herror, rfl⟩⟩
  | plain v => exact ⟨_, Action.bind_of_error rfl, fun h => absurd rfl (h v).1⟩
  | manager m =>
      cases m with
      | unknown v =>
          exact ⟨_, (Action.bind_of_ok rfl).trans (Action.bind_of_error rfl),
            fun h => absurd rfl (h v).2⟩
      | mnemonic seed =>
          exact ⟨_, (Action.bind_of_ok rfl).trans
            ((Action.bind_of_ok rfl).trans (Action.bind_of_error hset)), fun _ => ⟨error, herror, rfl⟩⟩
      | _ =>
          exact ⟨_, (Action.bind_of_ok rfl).trans ((Action.bind_of_ok rfl).trans (hsetAll _)),
            fun _ => ⟨error, herror, rfl⟩⟩

-- A foreign value anywhere in a batch, in an account or among the options of a configuration stops
-- the write of all of it. It is told which record could not be written, and what has happened is no
-- more than that nonces have been drawn and the registry has been loaded.
theorem foreign_value_stops_write :
    (∀ (storage : Storage) (st : Seat Backend) (records : Entries String Value),
      (∀ r ∈ records, IsShallow r.2) → (∃ r ∈ records, HoldsForeign r.2) →
      ∃ key error t, FirstUnwritable records key error ∧
        storage.setBatch (Value.ofMembers records) st = (.error (.unwritable key error), t) ∧
        Drawn st t) ∧
    (∀ (s : Session (Seat Backend)) (a : Account), HoldsForeign a.toValue →
      ∃ e t, saveAccount a s = (.error e, t) ∧ Undisturbed s t ∧
        ∀ is, (loadRegistry s).1 = .ok is → (∀ r ∈ saved is a, IsShallow r.2) →
          ∃ key error, FirstUnwritable (saved is a) key error ∧ e = .unwritable key error) ∧
    ∀ (s : Session (Seat Backend)) (b : Builder), HoldsForeign b.clientOptions →
      ∃ e, saveBuilder b s = (.error e, s) ∧
        ((∀ v, b.secret ≠ .plain v ∧ b.secret ≠ .manager (.unknown v)) →
          IsShallow b.toRecord →
          ∃ error, Json.encode b.toRecord = .error error ∧ e = .unwritable builderKey error) := by
  refine ⟨fun storage st records hshallow ⟨r, hr, hforeign⟩ => ?_, fun s a ha => ?_, fun s b hb => ?_⟩
  · obtain ⟨key, error, hfirst⟩ :=
      Storage.exists_firstUnwritable ⟨r, hr, Json.encode_of_holdsForeign hforeign⟩
    obtain ⟨t, hset, ht⟩ := Backend.setAll_of_firstUnwritable storage hfirst st
    rw [hfirst.encodeFailure_eq hshallow] at hset
    exact ⟨key, error, t, hfirst, by rw [Storage.setBatch_ofMembers, hset], ht⟩
  · obtain ⟨e, t, hsave, ht, hcause⟩ := saveAccount_of_holdsForeign s ha
    refine ⟨e, t, hsave, ht, fun is his hshallow => ?_⟩
    obtain ⟨key, error, hfirst, rfl⟩ := hcause is his
    exact ⟨key, error, hfirst, hfirst.encodeFailure_eq hshallow⟩
  · obtain ⟨e, hsave, hcause⟩ := saveBuilder_of_holdsForeign s hb
    refine ⟨e, hsave, fun hkind hshallow => ?_⟩
    obtain ⟨error, herror, rfl⟩ := hcause hkind
    refine ⟨error, herror, Storage.encodeFailure_of_ne ?_⟩
    rintro rfl
    exact hshallow.encode_ne herror

-- The second record of a batch that is to be sealed, an account with the value among its transactions,
-- and a configuration whose secret manager would take a stored snapshot away.
theorem foreign_value_stops_write_of_nested_values :
    ∃ (k : Seal.Key) (object options : Value) (s : Session (Seat Backend)) (a : Account) (b : Builder),
      object = .foreign "object" "<object>" ∧
      options = .dict [(.text "nodes", .list [.text "here", object])] ∧
      s = ⟨⟨some k⟩, none, ⟨Host.empty, .memory ⟨[("b", "0")]⟩⟩⟩ ∧
      a = { Account.ofIndex (.int 1) with incomingTransactions := options } ∧
      b = ⟨.null, options, .null, .manager (.mnemonic [])⟩ ∧
      (∃ key error t, s.storage.setBatch
          (Value.ofMembers [("a", .int 1), ("b", options), ("c", object)]) s.store =
        (.error (.unwritable key error), t) ∧ Drawn s.store t) ∧
      (∃ key error t, saveAccount a s = (.error (.unwritable key error), t) ∧ Undisturbed s t) ∧
      ∃ error, saveBuilder b s = (.error (.unwritable builderKey error), s) := by
  let k : Seal.Key := ⟨List.replicate 32 7, by decide⟩
  let object : Value := .foreign "object" "<object>"
  let options : Value := .dict [(.text "nodes", .list [.text "here", object])]
  let s : Session (Seat Backend) := ⟨⟨some k⟩, none, ⟨Host.empty, .memory ⟨[("b", "0")]⟩⟩⟩
  let a : Account := { Account.ofIndex (.int 1) with incomingTransactions := options }
  let b : Builder := ⟨.null, options, .null, .manager (.mnemonic [])⟩
  have hoccurs : Json.Occurs object options :=
    .member _ _ List.mem_cons_self (.item _ _ (List.mem_cons_of_mem _ List.mem_cons_self) .here)
  have hoptions : HoldsForeign options := ⟨_, _, hoccurs⟩
  have haccount : HoldsForeign a.toValue :=
    ⟨_, _, .field _ _ ("incoming_transactions", options) (by simp [a]) hoccurs⟩
  obtain ⟨hbatch, hsave, hconfigure⟩ := foreign_value_stops_write
  obtain ⟨key, error, t, -, hset, ht⟩ := hbatch s.storage s.store
    [("a", .int 1), ("b", options), ("c", object)] (by unfold IsShallow; decide)
    ⟨("b", options), by simp, hoptions⟩
  obtain ⟨e, u, hsaved, hu, hcause⟩ := hsave s a haccount
  obtain ⟨key', error', -, rfl⟩ := hcause [] rfl (by unfold IsShallow; decide)
  obtain ⟨e, hconfigured, hcause⟩ := hconfigure s b hoptions
  obtain ⟨error'', -, rfl⟩ := hcause (fun v => ⟨nofun, nofun⟩) (by unfold IsShallow; decide)
  exact ⟨k, object, options, s, a, b, rfl, rfl, rfl, rfl, rfl, ⟨key, error, t, hset, ht⟩,
    ⟨key', error', u, hsaved, hu⟩, error'', hconfigured⟩

end Coffer.Wallet.Session
