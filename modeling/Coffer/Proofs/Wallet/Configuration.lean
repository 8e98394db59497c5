import Coffer.Proofs.Store.Backend
import Coffer.Proofs.Wallet.Steps

-- Saving a configuration that fails. Where the snapshot of the manager that is replaced has to go,
-- the configuration and the snapshot are changed one after the other, and a failure in between
-- leaves the new configuration beside the old snapshot.

namespace Coffer.Wallet.Session

variable {σ : Type} [RecordStore σ] {B : Reliable σ} {s t : Session σ} {storage : Storage}
  {es es' : Entries String String}

-- What is read of a configuration

-- What is stored under a key, if anything is.
def readIfPresent (storage : Storage) (es : Entries String String) (key : String)
    (schema : Json.Schema) : Except Failure (Option Value) :=
  match storage.read es key schema with
  | .ok v => .ok (some v)
  | .error (.notFound _) => .ok none
  | .error e => .error e

-- The configuration among the stored records, with the manager behind the stored snapshot.
def builderOf (storage : Storage) (es : Entries String String) : Except Failure (Option Builder) := do
  match ← readIfPresent storage es builderKey builderSchema with
  | none => return none
  | some v => do
      let b := Builder.ofValue v
      match ← readIfPresent storage es snapshotKey snapshotSchema with
      | none => return some b
      | some v => do
          let snapshot := Snapshot.ofValue v
          if ← Policy.shouldPersist snapshot then
            return some (b.withSecret (.manager (← SecretManager.ofSnapshot snapshot)))
          else return some b

theorem getBuilder_eq (hs : B.sound s.store) :
    getBuilder s = (builderOf s.storage (B.view s.store), s) := by
  have hget (key : String) (schema : Json.Schema) :
      getIfPresent key schema s = (readIfPresent s.storage (B.view s.store) key schema, s) :=
    getIfPresent_eq hs key schema
  unfold getBuilder builderOf
  have hbuilder := hget builderKey builderSchema
  cases hb : readIfPresent s.storage (B.view s.store) builderKey builderSchema with
  | error e =>
      rw [hb] at hbuilder
      exact Action.bind_of_error hbuilder
  | ok v? =>
      rw [hb] at hbuilder
      rw [Action.bind_of_ok hbuilder, ok_bind]
      cases v? with
      | none => rfl
      | some v =>
          have hsnapshot := hget snapshotKey snapshotSchema
          dsimp only
          cases hw : readIfPresent s.storage (B.view s.store) snapshotKey snapshotSchema with
          | error e =>
              rw [hw] at hsnapshot
              exact Action.bind_of_error hsnapshot
          | ok w? =>
              rw [hw] at hsnapshot
              rw [Action.bind_of_ok hsnapshot, ok_bind]
              cases w? with
              | none => rfl
              | some w =>
                  dsimp only
                  cases Policy.shouldPersist (Snapshot.ofValue w) with
                  | error e => rfl
                  | ok persists =>
                      cases persists with
                      | false => rfl
                      | true => cases SecretManager.ofSnapshot (Snapshot.ofValue w) <;> rfl

theorem builderOf_configured {b : Builder} {m? : Option SecretManager}
    (h : Configures storage es (some b) m?) :
    builderOf storage es = .ok (some (b.withSecret (m?.elim .none .manager))) := by
  have hbuilder : readIfPresent storage es builderKey builderSchema = .ok (some b.toRecord) := by
    rw [readIfPresent, h.builder b rfl]
  unfold builderOf
  rw [hbuilder, ok_bind]
  cases m? with
  | none =>
      have hsnapshot : readIfPresent storage es snapshotKey snapshotSchema = .ok none := by
        rw [readIfPresent, Storage.read_of_absent (h.unmanaged rfl)]
      dsimp only
      rw [hsnapshot]
      rfl
  | some m =>
      obtain ⟨htyped, hpersists, hread⟩ := h.manager m rfl
      have hsnapshot :
          readIfPresent storage es snapshotKey snapshotSchema = .ok (some m.snapshot.toValue) := by
        rw [readIfPresent, hread]
      dsimp only
      rw [hsnapshot, ok_bind]
      dsimp only
      rw [Snapshot.ofValue_toValue htyped, hpersists, ok_bind,
        SecretManager.ofSnapshot_snapshot htyped hpersists]
      rfl

-- A save that fails

-- The configuration has been written, and the snapshot is still to be removed.
def HalfSaved (b : Builder) (s u : Session σ) : Prop :=
  (∃ seed, b.secret = .manager (.mnemonic seed)) ∧
    onStore (fun storage => storage.set builderKey b.toRecord) s = (.ok (), u)

variable {b : Builder} {e : Failure}

-- A write that fails has changed nothing, unless the failure is one of those that are reported late.
theorem Writes.of_error {records : Entries String Value} (hlate : ∀ st, ¬B.late st e)
    (h : Writes B s records (.error e) t) :
    B.sound t.store ∧ t = { s with store := t.store } ∧ B.view t.store = B.view s.store := by
  cases h with
  | refused e st hst hview he => exact ⟨hst, rfl, hview⟩
  | reported e batch st hst hbatch hview he => exact absurd he (hlate _)

theorem saveBuilder_of_mnemonic {seed : Bytes} (hsecret : b.secret = .manager (.mnemonic seed)) :
    (saveBuilder b : Action (Session σ) Unit) =
      (onStore fun storage => storage.set builderKey b.toRecord) >>= fun _ =>
        onStore fun storage => storage.remove snapshotKey := by
  unfold saveBuilder
  rw [hsecret]
  rfl

-- Every other way of saving is one write.
theorem saveBuilder_writes (hs : B.sound s.store) (h : ∀ seed, b.secret ≠ .manager (.mnemonic seed)) :
    (∃ e, saveBuilder b s = (.error e, s)) ∨
      ∃ records r u, saveBuilder b s = (r, u) ∧ Writes B s records r u := by
  unfold saveBuilder
  cases hsecret : b.secret with
  | none =>
      obtain ⟨r, u, hset, hwrites⟩ := set_writes hs builderKey b.toRecord
      exact .inr ⟨_, r, u, (Action.bind_of_ok rfl).trans hset, hwrites⟩
  | plain v => exact .inl ⟨_, Action.bind_of_error rfl⟩
  | manager m =>
      have htogether := setAll_writes hs [(builderKey, b.toRecord), (snapshotKey, m.snapshot.toValue)]
      cases m with
      | mnemonic seed => exact absurd hsecret (h seed)
      | unknown v => exact .inl ⟨_, (Action.bind_of_ok rfl).trans (Action.bind_of_error rfl)⟩
      | stronghold path timeout =>
          obtain ⟨r, u, hset, hwrites⟩ := htogether
          exact .inr ⟨_, r, u, (Action.bind_of_ok rfl).trans ((Action.bind_of_ok rfl).trans hset), hwrites⟩
      | ledgerNano isSimulator =>
          obtain ⟨r, u, hset, hwrites⟩ := htogether
          exact .inr ⟨_, r, u, (Action.bind_of_ok rfl).trans ((Action.bind_of_ok rfl).trans hset), hwrites⟩
      | placeholder =>
          obtain ⟨r, u, hset, hwrites⟩ := htogether
          exact .inr ⟨_, r, u, (Action.bind_of_ok rfl).trans ((Action.bind_of_ok rfl).trans hset), hwrites⟩

-- After the configuration the removal of the snapshot is what has failed.
theorem HalfSaved.failed {u : Session σ} (h : HalfSaved b s u) (hs : B.sound s.store)
    (hlate : ∀ st, ¬B.late st e) (hsave : saveBuilder b s = (.error e, t)) :
    onStore (fun storage => storage.remove snapshotKey) u = (.error e, t) ∧ B.refusal e ∧
      B.view t.store = B.view u.store ∧ B.sound t.store ∧ t = { s with store := t.store } ∧
      s.storage.Wrote [(builderKey, b.toRecord)] (B.view s.store) (B.view t.store) := by
  obtain ⟨⟨seed, hsecret⟩, hset⟩ := h
  rw [saveBuilder_of_mnemonic hsecret, Action.bind_of_ok hset] at hsave
  obtain ⟨r, u', hset', hwrites⟩ := set_writes hs builderKey b.toRecord
  obtain ⟨rfl, rfl⟩ := Prod.mk.inj (hset.symm.trans hset')
  cases hwrites with
  | made batch st hst hbatch hview =>
      obtain ⟨r, st', herase, hst', hends⟩ := B.erase_ends st snapshotKey hst
      have hremove := onStore_of_eq (s := { s with store := st })
        (f := fun storage => storage.remove snapshotKey) herase
      obtain ⟨rfl, rfl⟩ := Prod.mk.inj (hremove.symm.trans hsave)
      dsimp only
      generalize hnew : B.view st' = new at hends
      cases hends with
      | refused e he =>
          refine ⟨hremove, he, rfl, hst', rfl, ?_⟩
          rw [hview]
          exact hbatch.wrote (by simp [Entries.keys])
      | reported e he => exact absurd he (hlate _)

-- A failure of the store that has changed nothing leaves the wallet as it was, except when it is the
-- removal of the snapshot that it comes from.
theorem failed_saveBuilder (hs : B.sound s.store) (hlate : ∀ st, ¬B.late st e)
    (hsave : saveBuilder b s = (.error e, t)) :
    B.sound t.store ∧ t = { s with store := t.store } ∧
    ((¬∃ u, HalfSaved b s u) →
      B.view t.store = B.view s.store ∧ (getBuilder t).1 = (getBuilder s).1) ∧
    ∀ u, HalfSaved b s u →
      onStore (fun storage => storage.remove snapshotKey) u = (.error e, t) ∧ B.refusal e ∧
      B.view t.store = B.view u.store ∧
      s.storage.Wrote [(builderKey, b.toRecord)] (B.view s.store) (B.view t.store) ∧
      ∀ (c : TypedBuilder) c? m, c.builder = b → Configures s.storage (B.view s.store) c? (some m) →
        (getBuilder t).1 = .ok (some (b.withSecret (.manager m))) := by
  by_cases hhalf : ∃ u, HalfSaved b s u
  · obtain ⟨u, hu⟩ := hhalf
    obtain ⟨-, -, -, ht, hstore, hwrote⟩ := hu.failed hs hlate hsave
    refine ⟨ht, hstore, fun h => absurd ⟨u, hu⟩ h, fun u hu => ?_⟩
    obtain ⟨hremove, he, hview, -⟩ := hu.failed hs hlate hsave
    refine ⟨hremove, he, hview, hwrote, fun c c? m hc hconfig => ?_⟩
    subst hc
    have hstorage : t.storage = s.storage := by rw [hstore]
    rw [getBuilder_eq ht, hstorage, builderOf_configured (hconfig.saved c hwrote)]
    rfl
  · have hkept : B.sound t.store ∧ t = { s with store := t.store } ∧ B.view t.store = B.view s.store := by
      by_cases hmnemonic : ∃ seed, b.secret = .manager (.mnemonic seed)
      · obtain ⟨seed, hsecret⟩ := hmnemonic
        rw [saveBuilder_of_mnemonic hsecret] at hsave
        obtain ⟨r, u, hset, hwrites⟩ := set_writes hs builderKey b.toRecord
        cases r with
        | ok _ => exact absurd ⟨u, ⟨seed, hsecret⟩, hset⟩ hhalf
        | error e' =>
            obtain ⟨he, hu⟩ := Prod.mk.inj ((Action.bind_of_error hset).symm.trans hsave)
            cases he
            cases hu
            exact hwrites.of_error hlate
      · have hother : ∀ seed, b.secret ≠ .manager (.mnemonic seed) := fun seed h => hmnemonic ⟨seed, h⟩
        rcases saveBuilder_writes hs hother with ⟨e', herror⟩ | ⟨records, r, u, hwrite, hwrites⟩
        · obtain ⟨-, rfl⟩ := Prod.mk.inj (herror.symm.trans hsave)
          exact ⟨hs, rfl, rfl⟩
        · obtain ⟨rfl, rfl⟩ := Prod.mk.inj (hwrite.symm.trans hsave)
          exact hwrites.of_error hlate
    obtain ⟨ht, hstore, hview⟩ := hkept
    have hstorage : t.storage = s.storage := by rw [hstore]
    refine ⟨ht, hstore, fun _ => ⟨hview, ?_⟩, fun u hu => absurd ⟨u, hu⟩ hhalf⟩
    rw [getBuilder_eq ht, getBuilder_eq hs, hview, hstorage]

-- A save that went through, of a configuration whose manager may be stored.
theorem saveBuilder_configures (hs : B.sound s.store) {c : TypedBuilder} {m : SecretManager}
    (hsecret : c.builder.secret = .manager m) (hpersists : Policy.shouldPersist m.snapshot = .ok true)
    (hsave : saveBuilder c.builder s = (.ok (), t)) :
    B.sound t.store ∧ t.storage = s.storage ∧
      Configures s.storage (B.view t.store) (some c.builder) (some m) := by
  have hm : m.IsTyped := by
    have htyped := c.typed.secret
    rw [hsecret] at htyped
    cases htyped with
    | manager _ hm => exact hm
  have heq : saveBuilder c.builder s = onStore (fun storage => storage.setAll
      [(builderKey, c.builder.toRecord), (snapshotKey, m.snapshot.toValue)]) s := by
    unfold saveBuilder
    rw [hsecret]
    refine (Action.bind_of_ok rfl).trans ?_
    dsimp only
    rw [hpersists]
    exact Action.bind_of_ok rfl
  obtain ⟨r, u, hset, hwrites⟩ :=
    setAll_writes hs [(builderKey, c.builder.toRecord), (snapshotKey, m.snapshot.toValue)]
  obtain ⟨rfl, rfl⟩ := Prod.mk.inj ((heq.trans hset).symm.trans hsave)
  cases hwrites with
  | made batch st hst hbatch hview =>
      have hwrote : s.storage.Wrote _ (B.view s.store) _ :=
        hbatch.wrote (by simp [Entries.keys, builderKey, snapshotKey])
      rw [← hview] at hwrote
      exact ⟨hst, rfl, configures_savedWith c hm hpersists hwrote⟩

-- A mnemonic replaces a hardware manager, and the third commit of the log fails, which is the removal
-- of the snapshot.

def hardware : TypedBuilder :=
  ⟨⟨.null, .null, .int 1, .manager (.ledgerNano (.bool false))⟩,
    ⟨.inl rfl, .inl rfl, .inr ⟨1, rfl, by decide⟩, .manager _ (.ledgerNano false)⟩, by decide⟩

def seeded : TypedBuilder :=
  ⟨⟨.null, .null, .int 2, .manager (.mnemonic [1])⟩,
    ⟨.inl rfl, .inl rfl, .inr ⟨2, rfl, by decide⟩, .manager _ (.mnemonic [1])⟩, by decide⟩

structure FullLog (l : LogStore) (h : Host) (s u t : Session (Seat Backend)) : Prop where
  opened : LogStore.openAt ⟨.here, ["w.log"]⟩ 100000
    { Host.empty with plans := [⟨.fsync, 2, 1, "full"⟩] } = (.ok l, h)
  saved : saveBuilder hardware.builder ⟨⟨none⟩, none, ⟨h, .log l⟩⟩ = (.ok (), s)
  halfSaved : HalfSaved seeded.builder s u
  failed : saveBuilder seeded.builder s = (.error (.storage (.system (.injected "full"))), t)

set_option maxRecDepth 2000 in
theorem fullLog : ∃ l h s u t, FullLog l h s u t :=
  ⟨_, _, _, _, _, rfl, rfl, ⟨⟨[1], rfl⟩, rfl⟩, rfl⟩

section FullLog

variable {l : LogStore} {h : Host} {s u t : Session (Seat Backend)}

theorem FullLog.configured (hl : FullLog l h s u t) :
    Backend.reliable.sound s.store ∧ s.storage = ⟨none⟩ ∧
      Configures s.storage (Backend.reliable.view s.store) (some hardware.builder)
        (some (.ledgerNano (.bool false))) := by
  have hstart : Backend.reliable.sound ⟨h, .log l⟩ :=
    (Backend.Opened.log _ h _ _ l Disk.empty_sound hl.opened).sound
  obtain ⟨hs, hstorage, hconfig⟩ := saveBuilder_configures hstart rfl rfl hl.saved
  exact ⟨hs, hstorage, hstorage.symm ▸ hconfig⟩

theorem not_late_storage (f : StorageFault) (st : Seat Backend) : ¬Backend.reliable.late st (.storage f) := by
  obtain ⟨host, store⟩ := st
  cases store with
  | log l =>
      rintro ⟨⟨m, hm⟩, -⟩
      cases hm
  | _ => exact id

end FullLog

theorem failed_saveBuilder_of_full_log :
    ∃ l h s u t, FullLog l h s u t ∧ Backend.reliable.sound s.store ∧
      (∀ st, ¬Backend.reliable.late st (.storage (.system (.injected "full")))) ∧
      Backend.view t.store = Backend.view u.store ∧
      s.storage.Wrote [(builderKey, seeded.builder.toRecord)] (Backend.view s.store)
        (Backend.view t.store) ∧
      (getBuilder t).1 = .ok (some (seeded.builder.withSecret (.manager (.ledgerNano (.bool false))))) := by
  obtain ⟨l, h, s, u, t, hl⟩ := fullLog
  obtain ⟨hs, -, hconfig⟩ := hl.configured
  obtain ⟨-, -, -, hfailed⟩ := failed_saveBuilder hs (not_late_storage _) hl.failed
  obtain ⟨-, -, hview, hwrote, hread⟩ := hfailed u hl.halfSaved
  exact ⟨l, h, s, u, t, hl, hs, not_late_storage _, hview, hwrote, hread seeded _ _ rfl hconfig⟩

-- The new configuration is read with the manager that it was to replace.
theorem configuration_beside_replaced_manager :
    ∃ l h s u t, FullLog l h s u t ∧ Backend.view t.store = Backend.view u.store ∧
      (getBuilder s).1 = .ok (some hardware.builder) ∧
      (getBuilder t).1 = .ok (some (seeded.builder.withSecret (.manager (.ledgerNano (.bool false))))) ∧
      (getBuilder t).1 ≠ (getBuilder s).1 := by
  obtain ⟨l, h, s, u, t, hl⟩ := fullLog
  obtain ⟨hs, -, hconfig⟩ := hl.configured
  obtain ⟨-, -, hview, ht, hstore, hwrote⟩ := hl.halfSaved.failed hs (not_late_storage _) hl.failed
  have hstorage : t.storage = s.storage := by rw [hstore]
  have hbefore : (getBuilder s).1 = .ok (some hardware.builder) := by
    rw [getBuilder_eq hs, builderOf_configured hconfig]
    rfl
  have hafter : (getBuilder t).1 =
      .ok (some (seeded.builder.withSecret (.manager (.ledgerNano (.bool false))))) := by
    rw [getBuilder_eq ht, hstorage, builderOf_configured (hconfig.saved seeded hwrote)]
    rfl
  refine ⟨l, h, s, u, t, hl, hview, hbefore, hafter, ?_⟩
  rw [hbefore, hafter]
  intro h
  have hcoin : Value.int 2 = .int 1 := congrArg Builder.coinType (Option.some.inj (Except.ok.inj h))
  cases hcoin

end Coffer.Wallet.Session
