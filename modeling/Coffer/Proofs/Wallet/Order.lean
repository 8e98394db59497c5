import Coffer.Proofs.Store.Simulation
import Coffer.Proofs.Wallet.Faults
import Coffer.Proofs.Wallet.Proper

namespace Coffer.Wallet.Session

open Json (Conforms Lawful Schema)

-- Which schema the records under a key are read by, for the registry and the keys of interest. What is
-- saved under the others may be anything.
inductive Files (W : String → Prop) : String → Schema → Prop where
  | registry : Files W registryKey registrySchema
  | account (n : Int) (h : W (accountKey (.int n))) : Files W (accountKey (.int n)) accountSchema
  | builder (h : W builderKey) : Files W builderKey builderSchema
  | snapshot (h : W snapshotKey) : Files W snapshotKey snapshotSchema

theorem accountKey_ne_builderKey (n : Int) : accountKey (.int n) ≠ builderKey := by
  intro h
  have htext := congrArg String.toList h
  cases n with
  | ofNat n =>
      have hdigits : Nat.toDigits 10 n = ['m', 'a', 'n', 'a', 'g', 'e', 'r'] := by
        simpa [accountKey, accountKeyStem, builderKey, Value.asText, Value.shown, toString, Int.repr,
          Nat.repr] using htext
      have hdigit : 'm'.isDigit := Json.isDigit_of_mem_digitsOf n 'm' (by
        rw [Double.digitsOf, hdigits]
        exact List.mem_cons_self)
      exact absurd hdigit (by decide)
  | negSucc n =>
      simp [accountKey, accountKeyStem, builderKey, Value.asText, Value.shown, toString, Int.repr] at htext

theorem accountKey_ne_snapshotKey (v : Value) : accountKey v ≠ snapshotKey := by
  intro h
  have htext := congrArg String.toList h
  simp [accountKey, accountKeyStem, snapshotKey] at htext

section Files

variable {V W : String → Prop} {key : String} {schema : Schema}

theorem Files.ne_versionKey (h : Files W key schema) : key ≠ versionKey := by
  cases h with
  | registry => exact versionKey_ne_registryKey.symm
  | account n => exact (versionKey_ne_accountKey _).symm
  | builder => decide
  | snapshot => decide

theorem Files.lawful (h : Files W key schema) : Lawful schema := by
  cases h with
  | registry => exact lawful_registrySchema
  | account n => exact lawful_accountSchema
  | builder => exact lawful_builderSchema
  | snapshot => exact lawful_snapshotSchema

theorem Files.imp (h : Files V key schema) (hkey : V key → W key) : Files W key schema := by
  cases h with
  | registry => exact .registry
  | account n h => exact .account n (hkey h)
  | builder h => exact .builder (hkey h)
  | snapshot h => exact .snapshot (hkey h)

theorem Files.watched (h : Files W key schema) : key = registryKey ∨ W key := by
  cases h with
  | registry => exact .inl rfl
  | account n h => exact .inr h
  | builder h => exact .inr h
  | snapshot h => exact .inr h

-- The key alone tells the schema.
def schemaAt (key : String) : Schema :=
  if key = registryKey then registrySchema
  else if key = builderKey then builderSchema
  else if key = snapshotKey then snapshotSchema
  else accountSchema

theorem Files.schema_eq (h : Files W key schema) : schema = schemaAt key := by
  cases h with
  | registry => rfl
  | account n =>
      rw [schemaAt, if_neg (accountKey_ne_registryKey _), if_neg (accountKey_ne_builderKey n),
        if_neg (accountKey_ne_snapshotKey _)]
  | builder => rfl
  | snapshot => rfl

end Files

-- Every record of interest is one that conforms to the schema it is read by, encoded and sealed.
def Orderly (W : String → Prop) (storage : Storage) (es : Entries String String) : Prop :=
  ∀ key schema, Files W key schema → ∀ sealedText, es.get? key = some sealedText →
    ∃ v text, Conforms schema v ∧ Storage.encode key v = .ok text ∧
      storage.reveal key sealedText = .ok text

section Orderly

variable {V W : String → Prop} {storage : Storage} {es es' : Entries String String}

theorem orderly_empty (W : String → Prop) (storage : Storage) : Orderly W storage [] := by
  rintro key schema - sealedText ⟨⟩

theorem Orderly.mono (h : Orderly W storage es) (hV : ∀ k, V k → W k) : Orderly V storage es :=
  fun key schema hfiles => h key schema (hfiles.imp (hV key))

theorem Orderly.congr (h : Orderly W storage es) (hes : ∀ k, k ≠ versionKey → es'.get? k = es.get? k) :
    Orderly W storage es' := by
  intro key schema hfiles sealedText hget
  rw [hes key hfiles.ne_versionKey] at hget
  exact h key schema hfiles sealedText hget

-- A record that has been removed is in order, whatever it was.
theorem Orderly.erase (h : Orderly W storage es) {key : String} (hV : ∀ k, V k → W k ∨ k = key) :
    Orderly V storage (es.erase key) := by
  intro k schema hfiles sealedText hget
  rw [Entries.get?_erase] at hget
  split at hget
  · cases hget
  · rename_i hother
    have hne : k ≠ key := fun hk => hother (beq_iff_eq.mpr hk.symm)
    exact h k schema (hfiles.imp fun hk => (hV k hk).resolve_right hne) sealedText hget

-- What is written under a key of interest has to conform to the schema that it will be read by.
def Filed (W : String → Prop) (records : Entries String Value) : Prop :=
  ∀ r ∈ records, ∀ schema, Files W r.1 schema → Conforms schema r.2

-- What has been written is in order, whatever was there before.
theorem Orderly.putAll {records : Entries String Value} {batch : Entries String String}
    (h : Orderly W storage es) (hV : ∀ k, V k → W k ∨ k ∈ records.keys) (hrecords : Filed V records)
    (hbatch : storage.Protects records batch) : Orderly V storage (es.putAll batch) := by
  induction hbatch generalizing es W with
  | nil => exact h.mono fun k hk => (hV k hk).resolve_right List.not_mem_nil
  | @cons r b records batch hb hrest ih =>
      obtain ⟨hkey, text, henc, hreveal⟩ := hb
      let written (k : String) : Prop := V k ∧ (W k ∨ k = r.1)
      have hput : Orderly written storage (es.put b.1 b.2) := by
        intro key schema hfiles sealedText hget
        rw [Entries.get?_put, hkey] at hget
        split at hget
        · obtain rfl : r.1 = key := eq_of_beq ‹_›
          obtain rfl := Option.some.inj hget
          have hconforms := hrecords r List.mem_cons_self schema (hfiles.imp And.left)
          exact ⟨r.2, text, hconforms, henc, hreveal⟩
        · rename_i hother
          have hne : key ≠ r.1 := fun hk => hother (beq_iff_eq.mpr hk.symm)
          exact h key schema (hfiles.imp fun hk => hk.2.resolve_right hne) sealedText hget
      refine ih hput (fun k hk => ?_) fun r hr => hrecords r (List.mem_cons_of_mem _ hr)
      rcases hV k hk with hw | hmem
      · exact .inl ⟨hk, .inl hw⟩
      · exact (List.mem_cons.mp hmem).imp (fun hr => ⟨hk, .inr hr⟩) id

-- A record is read as one that conforms again, or it is not there.
theorem Orderly.read (h : Orderly W storage es) {key : String} {schema : Schema}
    (hfiles : Files W key schema) :
    (key ∉ es.keys ∧ storage.read es key schema = .error (.notFound key)) ∨
      (key ∈ es.keys ∧ ∃ v, Conforms schema v ∧ storage.read es key schema = .ok v) := by
  cases hget : es.get? key with
  | none => exact .inl ⟨(Entries.get?_eq_none_iff es key).mp hget, Storage.read_of_absent hget⟩
  | some sealedText =>
      obtain ⟨v, text, hv, henc, hreveal⟩ := h key schema hfiles sealedText hget
      have henc : Json.encode v = .ok text := mapError_eq_ok henc
      obtain ⟨v', hv', hdecode⟩ := Json.decode_of_conforms hfiles.lawful hv henc
      have hmem : key ∈ es.keys := by simp [← Entries.get?_isSome_iff, hget]
      refine .inr ⟨hmem, v', hv', ?_⟩
      rw [Storage.read, MemoryStore.lookup, hget, ok_bind, hreveal, ok_bind, Storage.decode, hdecode]
      rfl

end Orderly

-- The operations of a session

section Session

variable {σ : Type} [RecordStore σ]

structure InOrder (W : String → Prop) (B : Reliable σ) (storage : Storage) (s : Session σ) : Prop where
  storage : s.storage = storage
  sound : B.sound s.store
  records : Orderly W s.storage (B.view s.store)
  registry : ∀ is, s.registry = some is → Conforms registrySchema (.list is)

variable {V W : String → Prop} {B : Reliable σ} {storage : Storage} {s t : Session σ}

theorem InOrder.mono (hs : InOrder W B storage s) (hV : ∀ k, V k → W k) : InOrder V B storage s :=
  ⟨hs.storage, hs.sound, hs.records.mono hV, hs.registry⟩

theorem InOrder.withStore (hs : InOrder W B storage s) {t : σ} (ht : B.sound t)
    (hrecords : Orderly V s.storage (B.view t)) : InOrder V B storage { s with store := t } :=
  ⟨hs.storage, ht, hrecords, hs.registry⟩

theorem yields_setAll {records : Entries String Value} (h : Filed W records) :
    Action.Yields (InOrder W B storage) (onStore fun storage => storage.setAll records)
      fun _ => True := by
  intro s hs
  obtain ⟨r, t, hset, hwrites⟩ := setAll_writes hs.sound records
  obtain ⟨ht, hstorage, hregistry, houtcome⟩ := hwrites.outcome
  rw [hset]
  refine ⟨⟨hstorage.trans hs.storage, ht, ?_, fun is his => hs.registry is (hregistry ▸ his)⟩,
    fun _ _ => trivial⟩
  rw [hstorage]
  rcases houtcome with hview | ⟨batch, hbatch, hview⟩
  · rw [hview]
    exact hs.records
  · rw [hview]
    exact hs.records.putAll (fun _ => .inl) h hbatch

theorem yields_set {key : String} {v : Value} (h : Filed W [(key, v)]) :
    Action.Yields (InOrder W B storage) (onStore fun storage => storage.set key v) fun _ => True := by
  simp only [Reliable.set_eq_setAll]
  exact yields_setAll h

theorem yields_remove (key : String) :
    Action.Yields (InOrder W B storage) (onStore fun storage => storage.remove key) fun _ => True := by
  intro s hs
  obtain ⟨r, t, herase, ht, hends⟩ := B.erase_ends s.store key hs.sound
  rw [onStore_of_eq (s := s) (f := fun storage => storage.remove key) herase]
  refine ⟨hs.withStore ht ?_, fun _ _ => trivial⟩
  have herased : Orderly W s.storage ((B.view s.store).erase key) := hs.records.erase fun _ => .inl
  generalize B.view t = new at hends
  cases hends with
  | made => exact herased
  | refused e he => exact hs.records
  | reported e he => exact herased

theorem yields_setRegistry {is : List Value} (h : Conforms registrySchema (.list is)) :
    Action.Yields (InOrder W B storage) (setRegistry is) fun _ => True := by
  refine fun s hs => ⟨⟨hs.storage, hs.sound, hs.records, fun js hjs => ?_⟩, fun _ _ => trivial⟩
  rw [← Option.some.inj hjs]
  exact h

theorem yields_get (key : String) (schema : Schema) :
    Action.Yields (InOrder W B storage) (onStore fun storage => storage.get key schema)
      fun _ => True := by
  intro s hs
  rw [onStore_get hs.sound]
  exact ⟨hs, fun _ _ => trivial⟩

-- Accounts

theorem filed_singleton {key : String} {schema : Schema} {v : Value}
    (hfiles : Files (fun _ => True) key schema) (hv : key = registryKey ∨ W key → Conforms schema v) :
    Filed W [(key, v)] := by
  intro r hr schema' hfiles'
  rw [List.mem_singleton.mp hr] at hfiles' ⊢
  rw [hfiles'.schema_eq, ← hfiles.schema_eq]
  exact hv hfiles'.watched

theorem filed_registry {is : List Value} (h : Conforms registrySchema (.list is)) :
    Filed W [(registryKey, .list is)] :=
  filed_singleton .registry fun _ => h

theorem filed_account {a : Account} {n : Int} (hn : a.index = .int n)
    (h : W (accountKey a.index) → a.IsProper) : Filed W [(accountKey a.index, a.toValue)] := by
  have hfiles : Files (fun _ => True) (accountKey a.index) accountSchema := by
    rw [hn]
    exact .account n trivial
  refine filed_singleton hfiles fun hkey => ?_
  exact (h (hkey.resolve_left (accountKey_ne_registryKey _))).conforms

theorem conforms_register {is : List Value} {index : Value} (his : Conforms registrySchema (.list is))
    (hindex : Conforms indexSchema index) : Conforms registrySchema (.list (register is index)) := by
  unfold register
  split
  · exact his
  · cases his with
    | list _ _ hitems =>
        refine .list _ _ fun v hv => ?_
        rcases List.mem_append.mp hv with hv | hv
        · exact hitems v hv
        · rw [List.mem_singleton.mp hv]
          exact hindex

theorem filed_saved {is : List Value} {a : Account} (his : Conforms registrySchema (.list is))
    (hindex : Conforms indexSchema a.index) (h : W (accountKey a.index) → a.IsProper) :
    Filed W (saved is a) := by
  obtain ⟨n, hn⟩ := int_of_conforms hindex
  exact List.forall_mem_append.mpr ⟨filed_registry (conforms_register his hindex), filed_account hn h⟩

theorem InOrder.known (hs : InOrder W B storage s) :
    ∃ is, known B s = .ok is ∧ Conforms registrySchema (.list is) := by
  unfold Session.known
  cases hregistry : s.registry with
  | some is => exact ⟨is, rfl, hs.registry is hregistry⟩
  | none =>
      rcases hs.records.read .registry with ⟨-, hread⟩ | ⟨-, v, hv, hread⟩
      · refine ⟨[], ?_, conforms_nil⟩
        simp only [stored, hread]
      · cases hv with
        | list _ items hitems =>
            refine ⟨items, ?_, .list _ items hitems⟩
            simp only [stored, hread, itemsOf]

theorem loadRegistry_yields :
    Action.Yields (InOrder W B storage) loadRegistry fun is => Conforms registrySchema (.list is) := by
  intro s hs
  obtain ⟨is, hknown, his⟩ := hs.known
  rw [loadRegistry_of_known hs.sound hknown]
  refine ⟨⟨hs.storage, hs.sound, hs.records, fun js hjs => ?_⟩, fun js hjs => ?_⟩
  · rw [← Option.some.inj hjs]
    exact his
  · rw [← Except.ok.inj hjs]
    exact his

theorem saveAccount_yields {a : Account} (hindex : Conforms indexSchema a.index)
    (ha : W (accountKey a.index) → a.IsProper) :
    Action.Yields (InOrder W B storage) (saveAccount a) fun _ => True := by
  refine Action.Yields.bind loadRegistry_yields fun is his => ?_
  refine (yields_setAll (filed_saved his hindex ha)).bind fun _ _ => ?_
  exact yields_setRegistry (conforms_register his hindex)

theorem removeAccount_yields (index : Value) :
    Action.Yields (InOrder W B storage) (removeAccount index) fun _ => True := by
  refine Action.Yields.bind loadRegistry_yields fun is his => ?_
  refine (yields_remove _).bind fun _ _ => ?_
  have his : Conforms registrySchema (.list (is.filter fun i => !(i == index))) := by
    cases his with
    | list _ _ hitems => exact .list _ _ fun v hv => hitems v (List.mem_of_mem_filter hv)
  exact (yields_setRegistry his).bind fun _ _ => yields_set (filed_registry his)

theorem getAccounts_yields : Action.Yields (InOrder W B storage) getAccounts fun _ => True := by
  refine Action.Yields.bind loadRegistry_yields fun is _ s hs => ?_
  rw [getRegistered_eq hs.sound]
  exact ⟨hs, fun _ _ => trivial⟩

-- The configuration

theorem filed_builder {b : Builder} (h : W builderKey → b.IsProper) :
    Filed W [(builderKey, b.toRecord)] :=
  filed_singleton (.builder trivial) fun hkey => (h (hkey.resolve_left (by decide))).conforms

theorem filed_snapshot {v : Value} (h : W snapshotKey → Conforms snapshotSchema v) :
    Filed W [(snapshotKey, v)] :=
  filed_singleton (.snapshot trivial) fun hkey => h (hkey.resolve_left (by decide))

theorem saveBuilder_yields {b : Builder} (hb : W builderKey → b.IsProper)
    (hsecret : W snapshotKey → b.IsRestorable) :
    Action.Yields (InOrder W B storage) (saveBuilder b) fun _ => True := by
  refine (Action.yields_ofExcept fun _ h => h).bind fun snapshot? hsnapshot => ?_
  split
  · exact yields_set (filed_builder hb)
  · refine (Action.yields_ofExcept fun _ h => h).bind fun persists hpersists => ?_
    split
    · have hfiled := filed_snapshot fun hkey => hsecret hkey _ hsnapshot (‹_ = true› ▸ hpersists)
      exact yields_setAll (List.forall_mem_append.mpr ⟨filed_builder hb, hfiled⟩)
    · exact (yields_set (filed_builder hb)).bind fun _ _ => yields_remove _

theorem getIfPresent_eq (hs : B.sound s.store) (key : String) (schema : Schema) :
    getIfPresent key schema s =
      (match s.storage.read (B.view s.store) key schema with
        | .ok v => .ok (some v)
        | .error (.notFound _) => .ok none
        | .error e => .error e, s) := by
  refine (Action.bind_of_ok (Action.attempt_of_eq (onStore_get hs key schema))).trans ?_
  cases s.storage.read (B.view s.store) key schema with
  | ok v => rfl
  | error e => cases e <;> rfl

theorem getIfPresent_yields (key : String) (schema : Schema) :
    Action.Yields (InOrder W B storage) (getIfPresent key schema) fun v? =>
      ∀ v, v? = some v → Files W key schema → Conforms schema v := by
  intro s hs
  rw [getIfPresent_eq hs.sound]
  refine ⟨hs, ?_⟩
  rintro v? hv? v rfl hfiles
  rcases hs.records.read hfiles with ⟨-, hread⟩ | ⟨-, w, hw, hread⟩
  · simp only [hread] at hv?
    cases hv?
  · simp only [hread] at hv?
    cases hv?
    exact hw

theorem getBuilder_yields :
    Action.Yields (InOrder W B storage) getBuilder fun b? => ∀ b, b? = some b →
      (W builderKey → b.IsProper) ∧ (W snapshotKey → b.IsRestorable) := by
  refine (getIfPresent_yields builderKey builderSchema).bind fun v? hv => ?_
  split
  · exact Action.yields_pure nofun
  · rename_i v
    have hproper (hkey : W builderKey) : (Builder.ofValue v).IsProper :=
      Builder.isProper_ofValue (hv v rfl (.builder hkey))
    refine (getIfPresent_yields snapshotKey snapshotSchema).bind fun w? hw => ?_
    split
    · refine Action.yields_pure fun b hb => ?_
      cases hb
      exact ⟨hproper, fun _ => Builder.isRestorable_ofValue v⟩
    · rename_i w
      refine (Action.yields_ofExcept fun _ h => h).bind fun persists hpersists => ?_
      split
      · refine (Action.yields_ofExcept fun _ h => h).bind fun m hm => Action.yields_pure fun b hb => ?_
        cases hb
        refine ⟨fun hkey => (hproper hkey).withSecret _, fun hkey => Builder.isRestorable_withSecret _ ?_⟩
        obtain ⟨_, hpersists', hmanager⟩ := Snapshot.ofValue_conforms (hw w rfl (.snapshot hkey))
        cases hpersists.symm.trans hpersists'
        obtain ⟨m', hm', hsnapshot⟩ := hmanager ‹_›
        cases hm.symm.trans hm'
        exact hsnapshot
      · refine Action.yields_pure fun b hb => ?_
        cases hb
        exact ⟨hproper, fun _ => Builder.isRestorable_ofValue v⟩

theorem resaveBuilder_yields : Action.Yields (InOrder W B storage) resaveBuilder fun _ => True := by
  refine getBuilder_yields.bind fun b? hb => ?_
  split
  · exact Action.yields_fail _
  · exact saveBuilder_yields (hb _ rfl).1 (hb _ rfl).2

-- The builder is read, and with it the manager behind the snapshot that is stored.
theorem InOrder.getBuilder (hs : InOrder W B storage s) (hbuilder : W builderKey)
    (hsnapshot : W snapshotKey) :
    ∃ b?, getBuilder s = (.ok b?, s) ∧ (builderKey ∈ (B.view s.store).keys → b? ≠ none) := by
  have hget (key : String) (schema : Schema) (hfiles : Files W key schema) :
      (key ∉ (B.view s.store).keys ∧ getIfPresent key schema s = (.ok none, s)) ∨
        ∃ v, Conforms schema v ∧ getIfPresent key schema s = (.ok (some v), s) := by
    rw [getIfPresent_eq hs.sound]
    refine (hs.records.read hfiles).imp (fun ⟨habsent, hread⟩ => ⟨habsent, ?_⟩)
      fun ⟨_, v, hv, hread⟩ => ⟨v, hv, ?_⟩
    all_goals rw [hread]
  unfold Session.getBuilder
  rcases hget builderKey builderSchema (.builder hbuilder) with ⟨habsent, hget⟩ | ⟨v, hv, hbuilder⟩
  · exact ⟨none, Action.bind_of_ok hget, fun h => absurd h habsent⟩
  rw [Action.bind_of_ok hbuilder]
  rcases hget snapshotKey snapshotSchema (.snapshot hsnapshot) with ⟨-, hget⟩ | ⟨w, hw, hget⟩
  · exact ⟨_, Action.bind_of_ok hget, nofun⟩
  obtain ⟨persists, hpersists, hmanager⟩ := Snapshot.ofValue_conforms hw
  dsimp only
  rw [Action.bind_of_ok hget]
  dsimp only
  rw [hpersists]
  cases persists with
  | false => exact ⟨_, rfl, nofun⟩
  | true =>
      obtain ⟨m, hm, -⟩ := hmanager rfl
      rw [hm]
      exact ⟨_, rfl, nofun⟩

-- What is asked of a wallet

inductive Deed where
  | save (a : Account)
  | remove (index : Value)
  | getAccount (index : Value)
  | getAccounts
  | getIndexes
  | saveBuilder (b : Builder)
  | resaveBuilder
  | getBuilder
  | get (key : String) (schema : Schema)

-- Every index has to be one, for the sake of the registry, and what else is handed in has to be proper
-- where it is of interest.
def Deed.IsProper (W : String → Prop) : Deed → Prop
  | .save a => Conforms indexSchema a.index ∧ (W (accountKey a.index) → a.IsProper)
  | .saveBuilder b => (W builderKey → b.IsProper) ∧ (W snapshotKey → b.IsRestorable)
  | _ => True

def carryOut (s : Session σ) : Deed → Session σ
  | .save a => (saveAccount a s).2
  | .remove index => (removeAccount index s).2
  | .getAccount index => (Session.getAccount index s).2
  | .getAccounts => (Session.getAccounts s).2
  | .getIndexes => (loadRegistry s).2
  | .saveBuilder b => (Session.saveBuilder b s).2
  | .resaveBuilder => (Session.resaveBuilder s).2
  | .getBuilder => (Session.getBuilder s).2
  | .get key schema => (onStore (fun storage => storage.get key schema) s).2

theorem carryOut_inOrder (hs : InOrder W B storage s) {deed : Deed} (hdeed : deed.IsProper W) :
    InOrder W B storage (carryOut s deed) := by
  cases deed with
  | save a => exact (saveAccount_yields hdeed.1 hdeed.2 s hs).1
  | remove index => exact (removeAccount_yields index s hs).1
  | getAccount index => exact (yields_get _ _ s hs).1
  | getAccounts => exact (getAccounts_yields s hs).1
  | getIndexes => exact (loadRegistry_yields s hs).1
  | saveBuilder b => exact (saveBuilder_yields hdeed.1 hdeed.2 s hs).1
  | resaveBuilder => exact (resaveBuilder_yields s hs).1
  | getBuilder => exact (getBuilder_yields s hs).1
  | get key schema => exact (yields_get key schema s hs).1

end Session

end Coffer.Wallet.Session
