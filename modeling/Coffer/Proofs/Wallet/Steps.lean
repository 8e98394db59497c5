import Coffer.Proofs.Wallet.Contents

-- The steps of a session that nothing goes wrong with: what they make of the accounts and the
-- configuration that its store holds.

namespace Coffer.Wallet.Session

open Json (Fits)

section Steps

variable {σ : Type} [RecordStore σ] {B : Reliable σ} {s : Session σ}

theorem onStore_setAll_ok (hB : B.Faultless) (hs : B.sound s.store) (records : Entries String Value)
    (hrecords : ∀ r ∈ records, ∃ text, Json.encode r.2 = .ok text) (hnodup : records.keys.Nodup) :
    ∃ t, onStore (fun storage => storage.setAll records) s = (.ok (), { s with store := t }) ∧
      B.sound t ∧ s.storage.Wrote records (B.view s.store) (B.view t) := by
  obtain ⟨t, hset, ht, hw⟩ := hB.setAll_ok s.storage hs records hrecords hnodup
  exact ⟨t, onStore_of_eq hset, ht, hw⟩

theorem onStore_set_ok (hB : B.Faultless) (hs : B.sound s.store) (key : String) {v : Value}
    (hv : ∃ text, Json.encode v = .ok text) :
    ∃ t, onStore (fun storage => storage.set key v) s = (.ok (), { s with store := t }) ∧
      B.sound t ∧ s.storage.Wrote [(key, v)] (B.view s.store) (B.view t) := by
  simp only [Reliable.set_eq_setAll]
  exact onStore_setAll_ok hB hs [(key, v)] (by simpa using hv) (by simp [Entries.keys])

theorem onStore_remove_ok (hB : B.Faultless) (hs : B.sound s.store) (key : String) :
    ∃ t, onStore (fun storage => storage.remove key) s = (.ok (), { s with store := t }) ∧
      B.sound t ∧ B.view t = (B.view s.store).erase key := by
  obtain ⟨t, herase, ht, hview⟩ := hB.erase_ok hs key
  exact ⟨t, onStore_of_eq herase, ht, hview⟩

theorem saveAccount_ok (hB : B.Faultless) (hs : B.sound s.store) (a : Account) {is : List Value}
    (hknown : known B s = .ok is)
    (hregistry : ∃ text, Json.encode (.list (register is a.index)) = .ok text)
    (haccount : ∃ text, Json.encode a.toValue = .ok text) :
    ∃ t, saveAccount a s = (.ok (), { s with registry := some (register is a.index), store := t }) ∧
      B.sound t ∧ s.storage.Wrote (saved is a) (B.view s.store) (B.view t) := by
  have hload := loadRegistry_of_known hs hknown
  have hnodup : (saved is a).keys.Nodup := by
    simp [saved, Entries.keys, (accountKey_ne_registryKey a.index).symm]
  obtain ⟨t, hset, ht, hw⟩ := onStore_setAll_ok (s := { s with registry := some is }) hB hs
    (saved is a) (by simpa [saved] using ⟨hregistry, haccount⟩) hnodup
  exact ⟨t, (Action.bind_of_ok hload).trans ((Action.bind_of_ok hset).trans rfl), ht, hw⟩

theorem removeAccount_ok (hB : B.Faultless) (hs : B.sound s.store) (index : Value) {is : List Value}
    (hknown : known B s = .ok is)
    (hregistry : ∃ text, Json.encode (.list (is.filter fun i => !(i == index))) = .ok text) :
    ∃ t, removeAccount index s =
        (.ok (), { s with registry := some (is.filter fun i => !(i == index)), store := t }) ∧
      B.sound t ∧ s.storage.Wrote [(registryKey, .list (is.filter fun i => !(i == index)))]
        ((B.view s.store).erase (accountKey index)) (B.view t) := by
  have hload := loadRegistry_of_known hs hknown
  obtain ⟨t₁, hremove, ht₁, hview⟩ :=
    onStore_remove_ok (s := { s with registry := some is }) hB hs (accountKey index)
  obtain ⟨t₂, hset, ht₂, hw⟩ := onStore_set_ok
    (s := { s with registry := some (is.filter fun i => !(i == index)), store := t₁ }) hB ht₁
    registryKey hregistry
  rw [hview] at hw
  exact ⟨t₂, (Action.bind_of_ok hload).trans ((Action.bind_of_ok hremove).trans hset), ht₂, hw⟩

-- The gate

theorem isInRange_int {version : Int} (h : 0 ≤ version ∧ version ≤ maxSchemaVersion) :
    isInRange (.int version) = .ok true := by
  have hmax : version ≤ maxSchemaVersion * 1 := by omega
  simp [isInRange, Value.ratio?, h.1, h.2]

theorem fits_version {version : Int} (h : 0 ≤ version ∧ version ≤ maxSchemaVersion) :
    Fits .any (.int version) := by
  have hmax : maxSchemaVersion = 255 := rfl
  refine .any _ (.int version ?_)
  simp only [Json.fitsWord, Bool.and_eq_true, decide_eq_true_eq]
  omega

theorem gate_of_version {st : σ} {es : Entries String String} (storage : Storage) {version : Int}
    (hrange : 0 ≤ version ∧ version ≤ maxSchemaVersion)
    (hget : storage.get versionKey .any st = (storage.read es versionKey .any, st))
    (hread : storage.read es versionKey .any = .ok (.int version)) :
    gate storage (.int version) st = (.ok (), st) := by
  rw [hread] at hget
  have hpass : isVersion (.int version) (.int version) = true := by
    rw [isVersion, int_beq, beq_self_eq_true]
  unfold gate
  rw [isInRange_int hrange]
  refine (Action.bind_of_ok rfl).trans ?_
  refine (Action.bind_of_ok rfl).trans ?_
  refine (Action.bind_of_ok (Action.attempt_of_eq hget)).trans ?_
  simp only [hpass, if_true]
  rfl

-- `P` is what the notice leaves, `Q` what writing the version comes to.
theorem gate_of_no_version {P Q : σ → Prop} {st : σ} {es : Entries String String} (storage : Storage)
    {version : Int} (hrange : 0 ≤ version ∧ version ≤ maxSchemaVersion)
    (hget : storage.get versionKey .any st = (storage.read es versionKey .any, st))
    (habsent : es.get? versionKey = none)
    (hnote : ∀ notice, ∃ t, RecordStore.note notice st = (.ok (), t) ∧ P t)
    (hset : ∀ t, P t → ∃ u, storage.setAll [(versionKey, .int version)] t = (.ok (), u) ∧ Q u) :
    ∃ u, gate storage (.int version) st = (.ok (), u) ∧ Q u := by
  rw [Storage.read_of_absent habsent] at hget
  let notice : Notice := ⟨.info, s!"Initializing {RecordStore.label st} store with schema version " ++
    (Value.int version).asText⟩
  obtain ⟨t, hnote, ht⟩ := hnote notice
  obtain ⟨u, hset, hu⟩ := hset t ht
  refine ⟨u, ?_, hu⟩
  unfold gate
  rw [isInRange_int hrange]
  refine (Action.bind_of_ok rfl).trans ?_
  refine (Action.bind_of_ok rfl).trans ?_
  refine (Action.bind_of_ok (Action.attempt_of_eq hget)).trans ?_
  refine (Action.bind_of_ok hnote).trans ?_
  rw [Reliable.set_eq_setAll]
  exact hset

theorem gate_of_absent (hB : B.Faultless) {st : σ} (hs : B.sound st) (storage : Storage) {version : Int}
    (hrange : 0 ≤ version ∧ version ≤ maxSchemaVersion) (habsent : (B.view st).get? versionKey = none) :
    ∃ t, gate storage (.int version) st = (.ok (), t) ∧ B.sound t ∧
      storage.Wrote [(versionKey, .int version)] (B.view st) (B.view t) := by
  refine gate_of_no_version (P := B.Same st) storage hrange
    (Reliable.get_eq_read hs versionKey .any) habsent (fun notice => ?_) fun t ht => ?_
  · obtain ⟨t, hnote, ht⟩ := B.note_eq st notice hs
    exact ⟨t, hnote, ht.1, ht.2.1, ht.2.2⟩
  · have hset := hB.setAll_ok storage ht.sound [(versionKey, .int version)]
      (by simpa using encode_int version) (by simp [Entries.keys])
    rw [ht.view] at hset
    exact hset

-- A new session on the store of the old one. One that is refused leaves the old one as it is.
def newSession (version : Value) : Action (Session σ) Unit := fun s =>
  ((gate s.storage version s.store).1, startSession version s)

-- A session of which it is known what its store holds.
structure Stands (B : Reliable σ) (storage : Storage) (version : Int) (m : Entries Int Account)
    (b? : Option Builder) (m? : Option SecretManager) (s : Session σ) : Prop where
  uses : s.storage = storage
  sound : B.sound s.store
  version : storage.read (B.view s.store) versionKey .any = .ok (.int version)
  accounts : Lists storage (B.view s.store) m
  cache : s.registry = none ∨ s.registry = some (registryOf m)
  config : Configures storage (B.view s.store) b? m?

variable {storage : Storage} {version : Int} {m : Entries Int Account} {b? : Option Builder}
  {m? : Option SecretManager}

theorem Stands.known (hs : Stands B storage version m b? m? s) :
    Session.known B s = .ok (registryOf m) := by
  rw [Session.known]
  rcases hs.cache with hnone | hsome
  · rw [hnone, hs.uses]
    exact hs.accounts.registry
  · rw [hsome]

theorem Stands.loaded (hs : Stands B storage version m b? m? s) :
    loadRegistry s = (.ok (registryOf m), { s with registry := some (registryOf m) }) ∧
      Stands B storage version m b? m? { s with registry := some (registryOf m) } :=
  ⟨loadRegistry_of_known hs.sound hs.known,
    hs.uses, hs.sound, hs.version, hs.accounts, .inr rfl, hs.config⟩

theorem Stands.saveAccount (hB : B.Faultless) (hs : Stands B storage version m b? m? s)
    (a : TypedAccount) :
    ∃ t, Session.saveAccount a.account s = (.ok (), t) ∧
      Stands B storage version (m.put a.index a.account) b? m? t := by
  have hindex := a.typed.index
  have hregister : register (registryOf m) a.account.index = registryOf (m.put a.index a.account) := by
    rw [hindex, register_registryOf]
  have hregistry := encode_registryOf (hs.accounts.range.put a.range a.account)
  rw [← hregister] at hregistry
  obtain ⟨t, hsave, ht, hw⟩ := saveAccount_ok hB hs.sound a.account hs.known hregistry a.encode_ok
  rw [hs.uses] at hw
  have hother (key : String) (hregistry : key ≠ registryKey) (haccount : key ≠ accountKey (.int a.index)) :
      (B.view t).get? key = (B.view s.store).get? key :=
    hw.others key (by simp [saved, Entries.keys, hindex, hregistry, haccount])
  refine ⟨_, hsave, hs.uses, ht, ?_, hs.accounts.saved a hw, .inr (congrArg some hregister), ?_⟩
  · rw [Storage.read_congr (hother _ versionKey_ne_registryKey (versionKey_ne_accountKey _))]
    exact hs.version
  · exact hs.config.congr (hother _ (by decide) (accountKey_ne_builderKey _).symm)
      (hother _ (by decide) (accountKey_ne_snapshotKey _).symm)

theorem Stands.removeAccount (hB : B.Faultless) (hs : Stands B storage version m b? m? s) (i : Int) :
    ∃ t, Session.removeAccount (.int i) s = (.ok (), t) ∧
      Stands B storage version (m.erase i) b? m? t := by
  have hregistry := encode_registryOf (hs.accounts.range.erase i)
  rw [← filter_registryOf] at hregistry
  obtain ⟨t, hremove, ht, hw⟩ := removeAccount_ok hB hs.sound (.int i) hs.known hregistry
  rw [hs.uses, filter_registryOf] at hw
  have hother (key : String) (hregistry : key ≠ registryKey) (haccount : key ≠ accountKey (.int i)) :
      (B.view t).get? key = (B.view s.store).get? key := by
    rw [hw.others key (by simp [Entries.keys, hregistry]), Entries.get?_erase]
    simp [haccount.symm]
  refine ⟨_, hremove, hs.uses, ht, ?_, hs.accounts.removed i hw,
    .inr (congrArg some (filter_registryOf m i)), ?_⟩
  · rw [Storage.read_congr (hother _ versionKey_ne_registryKey (versionKey_ne_accountKey _))]
    exact hs.version
  · exact hs.config.congr (hother _ (by decide) (accountKey_ne_builderKey _).symm)
      (hother _ (by decide) (accountKey_ne_snapshotKey _).symm)

-- The manager that is stored once a configuration with the attachment has been saved.
def keptBy (m? : Option SecretManager) : Attachment → Option SecretManager
  | .manager (.mnemonic _) => none
  | .manager m => some m
  | _ => m?

-- A typed manager is a mnemonic, or its snapshot may be stored.
theorem mnemonic_or_kept {manager : SecretManager} (h : manager.IsTyped) (m? : Option SecretManager) :
    (∃ seed, manager = .mnemonic seed) ∨ Policy.shouldPersist manager.snapshot = .ok true ∧
      keptBy m? (.manager manager) = some manager := by
  cases h with
  | mnemonic seed => exact .inl ⟨seed, rfl⟩
  | _ => exact .inr ⟨rfl, rfl⟩

-- A change of the records of the configuration leaves all the others.
theorem Stands.configured {t : σ} (hs : Stands B storage version m b? m? s) (ht : B.sound t)
    {c? : Option Builder} {n? : Option SecretManager} (hconfig : Configures storage (B.view t) c? n?)
    (hother : ∀ key, key ≠ builderKey → key ≠ snapshotKey →
      (B.view t).get? key = (B.view s.store).get? key) :
    Stands B storage version m c? n? { s with store := t } := by
  refine ⟨hs.uses, ht, ?_, ?_, hs.cache, hconfig⟩
  · rw [Storage.read_congr (hother _ (by decide) (by decide))]
    exact hs.version
  · exact hs.accounts.congr (hother _ (by decide) (by decide)) fun i =>
      hother _ (accountKey_ne_builderKey i) (accountKey_ne_snapshotKey _)

theorem Stands.saveBuilder (hB : B.Faultless) (hs : Stands B storage version m b? m? s)
    (b : TypedBuilder) :
    ∃ t, Session.saveBuilder b.builder s = (.ok (), t) ∧
      Stands B storage version m (some b.builder) (keptBy m? b.builder.secret) t := by
  obtain ⟨t₁, hset, ht₁, hw⟩ := onStore_set_ok hB hs.sound builderKey b.encode_ok
  rw [hs.uses] at hw
  have hconfig := hs.config.saved b hw
  have hother (key : String) (hbuilder : key ≠ builderKey) :
      (B.view t₁).get? key = (B.view s.store).get? key :=
    hw.others key (by simp [Entries.keys, hbuilder])
  have hsecret := b.typed.secret
  unfold Session.saveBuilder
  generalize b.builder.secret = secret at hsecret
  cases hsecret with
  | none =>
      exact ⟨_, (Action.bind_of_ok rfl).trans hset,
        hs.configured ht₁ hconfig fun key hbuilder _ => hother key hbuilder⟩
  | manager manager hm =>
      rcases mnemonic_or_kept hm m? with ⟨seed, rfl⟩ | ⟨hpersists, hkept⟩
      · obtain ⟨t₂, hremove, ht₂, hview⟩ :=
          onStore_remove_ok (s := { s with store := t₁ }) hB ht₁ snapshotKey
        refine ⟨_, (Action.bind_of_ok rfl).trans ((Action.bind_of_ok rfl).trans
          ((Action.bind_of_ok hset).trans hremove)), hs.configured ht₂ ?_ fun key hbuilder hsnapshot => ?_⟩
        · rw [hview]
          exact hconfig.dropped
        · rw [hview, Entries.get?_erase]
          simpa [hsnapshot.symm] using hother key hbuilder
      · have hsnapshot : ∃ text, Json.encode manager.snapshot.toValue = .ok text :=
          Json.encode_ok (fits_snapshot hm) (nesting_snapshot hm)
        obtain ⟨t₂, hset₂, ht₂, hw₂⟩ := onStore_setAll_ok hB hs.sound
          [(builderKey, b.builder.toRecord), (snapshotKey, manager.snapshot.toValue)]
          (by simpa using ⟨b.encode_ok, hsnapshot⟩) (by simp [Entries.keys, builderKey, snapshotKey])
        rw [hs.uses] at hw₂
        have hchoose : (Action.ofExcept (Policy.shouldPersist manager.snapshot) :
            Action (Session σ) Bool) s = (.ok true, s) := by rw [hpersists]; rfl
        refine ⟨_, (Action.bind_of_ok rfl).trans ((Action.bind_of_ok hchoose).trans hset₂), ?_⟩
        rw [hkept]
        refine hs.configured ht₂ (configures_savedWith b hm hpersists hw₂) fun key hbuilder hsnapshot => ?_
        exact hw₂.others key (by simp [Entries.keys, hbuilder, hsnapshot])

theorem Stands.newSession (hs : Stands B storage version m b? m? s)
    (hrange : 0 ≤ version ∧ version ≤ maxSchemaVersion) :
    ∃ t, Session.newSession (.int version) s = (.ok (), t) ∧ t.registry = none ∧
      Stands B storage version m b? m? t := by
  have hget : s.storage.get versionKey .any s.store = _ := Reliable.get_eq_read hs.sound versionKey .any
  have hgate := gate_of_version s.storage hrange hget (hs.uses ▸ hs.version)
  refine ⟨{ s with registry := none }, ?_, rfl,
    ⟨hs.uses, hs.sound, hs.version, hs.accounts, .inl rfl, hs.config⟩⟩
  simp only [Session.newSession, startSession, hgate]

-- What is read

theorem Stands.getAccount (hs : Stands B storage version m b? m? s) (i : Int) :
    Session.getAccount (.int i) s =
      ((m.get? i).elim (.error (.notFound (accountKey (.int i)))) fun a => .ok a.toValue, s) := by
  rw [getAccount_eq hs.sound, hs.uses, hs.accounts.read_eq]

theorem accountsOf_lists {es : Entries String String} (h : Lists storage es m) :
    accountsOf storage es (registryOf m) = .ok (m.map fun e => e.2.toValue) := by
  have hread : ∀ e ∈ m, storage.read es (accountKey (.int e.1)) accountSchema = .ok e.2.toValue := by
    intro e he
    rw [h.read_eq, Entries.get?_of_mem h.nodup he]
    rfl
  clear h
  induction m with
  | nil => rfl
  | cons e m ih =>
      have hrest := ih fun e he => hread e (List.mem_cons_of_mem _ he)
      change accountsOf storage es (.int e.1 :: registryOf m) = _
      rw [accountsOf, hread e List.mem_cons_self, hrest]
      rfl

theorem Stands.getAccounts (hs : Stands B storage version m b? m? s) :
    Session.getAccounts s =
      (.ok (m.map fun e => e.2.toValue), { s with registry := some (registryOf m) }) := by
  rw [getAccounts_of_known hs.sound hs.known, hs.uses, accountsOf_lists hs.accounts]

theorem Stands.getBuilder (hs : Stands B storage version m b? m? s) :
    Session.getBuilder s =
      (.ok (b?.map fun b => b.withSecret (m?.elim .none .manager)), s) := by
  have hget (key : String) (schema : Json.Schema) := getIfPresent_eq hs.sound key schema
  rw [hs.uses] at hget
  unfold Session.getBuilder
  have hbuilder := hget builderKey builderSchema
  cases hb : b? with
  | none =>
      rw [Storage.read_of_absent (hs.config.unconfigured hb)] at hbuilder
      exact (Action.bind_of_ok hbuilder).trans rfl
  | some b =>
      rw [hs.config.builder b hb] at hbuilder
      refine (Action.bind_of_ok hbuilder).trans ?_
      have hsnapshot := hget snapshotKey snapshotSchema
      cases hm : m? with
      | none =>
          rw [Storage.read_of_absent (hs.config.unmanaged hm)] at hsnapshot
          exact (Action.bind_of_ok hsnapshot).trans rfl
      | some manager =>
          obtain ⟨htyped, hpersists, hread⟩ := hs.config.manager manager hm
          rw [hread] at hsnapshot
          refine (Action.bind_of_ok hsnapshot).trans ?_
          simp only [Snapshot.ofValue_toValue htyped, hpersists,
            SecretManager.ofSnapshot_snapshot htyped hpersists]
          rfl

end Steps

end Coffer.Wallet.Session
