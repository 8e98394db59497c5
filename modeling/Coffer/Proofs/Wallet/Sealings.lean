import Coffer.Proofs.Store.Sealings
import Coffer.Proofs.Wallet.Transparent

-- What a wallet seals. Every operation of a storage and of its sessions is carried out with a book
-- beside the store, and what holds of the writes of a session holds of all that a session does.

namespace Coffer.Wallet

open Coffer.Action (Agrees Within)
open Seal (Sealing)

-- What is asked for over a storage. A session may have loaded any registry before.
inductive Request where
  | get (key : String) (schema : Json.Schema)
  | getRaw (key : String)
  | set (key : String) (record : Value)
  | setRaw (key : String) (value : Value)
  | setBatch (records : Value)
  | remove (key : String)
  | close
  | openSession (version : Value)
  | ask (registry : Option (List Value)) (deed : Session.Deed)

def handle {σ : Type} [RecordStore σ] (storage : Storage) : Request → Action σ Session.Reply
  | .get key schema => do return .value (← storage.get key schema)
  | .getRaw key => do return .text (← storage.getText key)
  | .set key record => do
      storage.set key record
      return .done
  | .setRaw key value => do
      storage.setValue key value
      return .done
  | .setBatch records => do
      storage.setBatch records
      return .done
  | .remove key => do
      storage.remove key
      return .done
  | .close => do
      storage.close
      return .done
  | .openSession version => do
      Session.gate storage version
      return .done
  | .ask registry deed => fun st =>
      match Session.answer deed ⟨storage, registry, st⟩ with
      | (r, s) => (r, s.store)

namespace Session

section Reading

variable {σ : Type} [RecordStore σ] {sound : σ → Prop}

-- The storage and the store are as they were.
def Untouched (sound : σ → Prop) (s t : Session σ) : Prop :=
  t.storage = s.storage ∧ (sound s.store → t.store = s.store)

omit [RecordStore σ] in
instance : IsPreorder (Session σ) (Untouched sound) where
  refl _ := ⟨rfl, fun _ => rfl⟩
  trans a b c hab hbc := by
    refine ⟨hbc.1.trans hab.1, fun hs => ?_⟩
    have hb := hab.2 hs
    exact (hbc.2 (hb ▸ hs)).trans hb

-- Reading a record leaves the store as it was.
def Reads (sound : σ → Prop) : Prop := ∀ s key, sound s → (RecordStore.get key s).2 = s

theorem get_untouched (hreads : Reads sound) (key : String) (schema : Json.Schema) :
    Within (Untouched sound) (onStore fun storage => storage.get key schema) :=
  fun s => ⟨rfl, fun hs => Storage.get_state (hreads s.store key hs) schema⟩

omit [RecordStore σ] in
theorem setRegistry_untouched (is : List Value) : Within (Untouched sound) (setRegistry is) :=
  fun _ => ⟨rfl, fun _ => rfl⟩

theorem loadRegistry_untouched (hreads : Reads sound) : Within (Untouched sound) loadRegistry := by
  intro s
  unfold loadRegistry
  cases s.registry with
  | some is => exact ⟨rfl, fun _ => rfl⟩
  | none =>
      refine ((get_untouched hreads registryKey registrySchema).attempt.bind fun found => ?_) s
      rcases found with e | v
      · cases e with
        | notFound _ => exact (setRegistry_untouched []).bind fun _ => Action.within_pure _
        | _ => exact Action.within_fail _
      · exact (setRegistry_untouched _).bind fun _ => Action.within_pure _

theorem getRegistered_untouched (hreads : Reads sound) (is : List Value) :
    Within (Untouched sound) (getRegistered is) := by
  induction is with
  | nil => exact Action.within_pure []
  | cons index is ih =>
      refine ((get_untouched hreads _ _).orElse fun e => ?_).bind fun account => ?_
      · cases e with
        | notFound _ => exact Action.within_fail _
        | _ => exact Action.within_fail _
      · exact ih.bind fun _ => Action.within_pure _

theorem getIfPresent_untouched (hreads : Reads sound) (key : String) (schema : Json.Schema) :
    Within (Untouched sound) (getIfPresent key schema) := by
  refine (get_untouched hreads key schema).attempt.bind fun found => ?_
  rcases found with e | v
  · cases e with
    | notFound _ => exact Action.within_pure none
    | _ => exact Action.within_fail _
  · exact Action.within_pure (some v)

theorem getBuilder_untouched (hreads : Reads sound) : Within (Untouched sound) getBuilder := by
  refine (getIfPresent_untouched hreads _ _).bind fun v? => ?_
  cases v? with
  | none => exact Action.within_pure none
  | some v =>
      refine (getIfPresent_untouched hreads _ _).bind fun w? => ?_
      cases w? with
      | none => exact Action.within_pure _
      | some w =>
          refine (Action.within_ofExcept _).bind fun persists => ?_
          cases persists with
          | true => exact (Action.within_ofExcept _).bind fun _ => Action.within_pure _
          | false => exact Action.within_pure _

end Reading

end Session

namespace BookedSession

open Session (onStore setRegistry loadRegistry getBuilder Deed Reply Untouched)

-- Sessions over a store with a book

section Operations

variable {σ α : Type}

def forget (s : Session (Booked σ)) : Session σ := ⟨s.storage, s.registry, s.store.state⟩

def quietly (x : Action (Session σ) α) : Action (Session (Booked σ)) α :=
  Action.onPart forget (fun s t => ⟨t.storage, t.registry, { s.store with state := t.store }⟩) x

variable [RecordStore σ]

def erase (key : String) : Action (Session (Booked σ)) Unit :=
  onStore fun _ => Booked.quietly (RecordStore.erase key)

def saveAccount (a : Account) : Action (Session (Booked σ)) Unit := do
  let indexes := Session.register (← quietly loadRegistry) a.index
  onStore fun storage =>
    Booked.setAll storage [(registryKey, .list indexes), (accountKey a.index, a.toValue)]
  setRegistry indexes

def removeAccount (index : Value) : Action (Session (Booked σ)) Unit := do
  let indexes ← quietly loadRegistry
  erase (accountKey index)
  let indexes := indexes.filter fun i => !(i == index)
  setRegistry indexes
  onStore fun storage => Booked.set storage registryKey (.list indexes)

def saveBuilder (b : Builder) : Action (Session (Booked σ)) Unit := do
  let record := b.toRecord
  match ← .ofExcept b.secret.snapshot? with
  | none => onStore fun storage => Booked.set storage builderKey record
  | some snapshot =>
      if ← .ofExcept (Policy.shouldPersist snapshot) then
        onStore fun storage =>
          Booked.setAll storage [(builderKey, record), (snapshotKey, snapshot.toValue)]
      else do
        onStore fun storage => Booked.set storage builderKey record
        erase snapshotKey

def resaveBuilder : Action (Session (Booked σ)) Unit := do
  match ← quietly getBuilder with
  | none => .fail (.noMember Value.null.typeName "without_secret_manager")
  | some b => saveBuilder b

def gate (storage : Storage) (version : Value) : Action (Booked σ) Unit := do
  if !(← .ofExcept (Session.isInRange version)) then .fail (.unusable (.schemaVersion version))
  else
    let label ← Booked.quietly fun s => (.ok (RecordStore.label s), s)
    match ← (Booked.quietly (storage.get versionKey .any)).attempt with
    | .ok found =>
        if Session.isVersion version found then pure ()
        else do
          Booked.quietly (RecordStore.note (Session.refusal label found version))
          .fail (.schemaVersion found version)
    | .error (.notFound _) => do
        Booked.quietly (RecordStore.note
          ⟨.info, s!"Initializing {label} store with schema version " ++ version.asText⟩)
        Booked.set storage versionKey version
    | .error (.unreadable _ size error) => .fail (.schemaVersion (.text (error.message size)) version)
    | .error e => .fail e

def answer : Deed → Action (Session (Booked σ)) Reply
  | .save a => do
      saveAccount a
      return .done
  | .remove index => do
      removeAccount index
      return .done
  | .saveBuilder b => do
      saveBuilder b
      return .done
  | .resaveBuilder => do
      resaveBuilder
      return .done
  | deed => quietly (Session.answer deed)

def handle (storage : Storage) : Request → Action (Booked σ) Reply
  | .get key schema => do return .value (← Booked.quietly (storage.get key schema))
  | .getRaw key => do return .text (← Booked.quietly (storage.getText key))
  | .set key record => do
      Booked.set storage key record
      return .done
  | .setRaw key value => do
      Booked.setValue storage key value
      return .done
  | .setBatch records => do
      Booked.setBatch storage records
      return .done
  | .remove key => do
      Booked.quietly (RecordStore.erase key)
      return .done
  | .close => do
      Booked.quietly RecordStore.close
      return .done
  | .openSession version => do
      gate storage version
      return .done
  | .ask registry deed => fun b =>
      match answer deed ⟨storage, registry, b⟩ with
      | (r, s) => (r, s.store)

-- They do what the sessions do

def Forgets (s : Session (Booked σ)) (t : Session σ) : Prop := forget s = t

omit [RecordStore σ] in
theorem quietly_agrees (x : Action (Session σ) α) : Agrees Forgets (quietly x) x := by
  rintro s t rfl
  exact ⟨rfl, rfl⟩

omit [RecordStore σ] in
theorem onStore_agrees {f : Storage → Action (Booked σ) α} {g : Storage → Action σ α}
    (h : ∀ storage, Agrees Booked.Forgets (f storage) (g storage)) :
    Agrees Forgets (onStore f) (onStore g) := by
  rintro s t rfl
  obtain ⟨hresult, hstates⟩ := h s.storage s.store s.store.state rfl
  refine ⟨hresult, ?_⟩
  exact congrArg (Session.mk s.storage s.registry) hstates

omit [RecordStore σ] in
theorem setRegistry_agrees (is : List Value) :
    Agrees Forgets (setRegistry is : Action (Session (Booked σ)) Unit) (setRegistry is) := by
  rintro s t rfl
  exact ⟨rfl, rfl⟩

theorem erase_agrees (key : String) :
    Agrees Forgets (erase key : Action (Session (Booked σ)) Unit)
      (onStore fun storage => storage.remove key) :=
  onStore_agrees fun _ => Booked.quietly_agrees _

theorem saveAccount_agrees (a : Account) :
    Agrees Forgets (saveAccount a : Action (Session (Booked σ)) Unit) (Session.saveAccount a) := by
  refine (quietly_agrees loadRegistry).bind fun is => ?_
  exact (onStore_agrees fun storage => Booked.setAll_agrees storage _).bind fun _ => setRegistry_agrees _

theorem removeAccount_agrees (index : Value) :
    Agrees Forgets (removeAccount index : Action (Session (Booked σ)) Unit)
      (Session.removeAccount index) := by
  refine (quietly_agrees loadRegistry).bind fun is => ?_
  refine (erase_agrees _).bind fun _ => (setRegistry_agrees _).bind fun _ => ?_
  exact onStore_agrees fun storage => Booked.set_agrees storage _ _

theorem saveBuilder_agrees (b : Builder) :
    Agrees Forgets (saveBuilder b : Action (Session (Booked σ)) Unit) (Session.saveBuilder b) := by
  refine (Action.agrees_ofExcept _).bind fun snapshot? => ?_
  cases snapshot? with
  | none => exact onStore_agrees fun storage => Booked.set_agrees storage _ _
  | some snapshot =>
      refine (Action.agrees_ofExcept _).bind fun persists => ?_
      cases persists with
      | true => exact onStore_agrees fun storage => Booked.setAll_agrees storage _
      | false =>
          exact (onStore_agrees fun storage => Booked.set_agrees storage _ _).bind fun _ => erase_agrees _

theorem resaveBuilder_agrees :
    Agrees Forgets (resaveBuilder : Action (Session (Booked σ)) Unit) Session.resaveBuilder := by
  refine (quietly_agrees getBuilder).bind fun b? => ?_
  cases b? with
  | none => exact Action.agrees_fail _
  | some b => exact saveBuilder_agrees b

theorem gate_agrees (storage : Storage) (version : Value) :
    Agrees Booked.Forgets (gate storage version : Action (Booked σ) Unit)
      (Session.gate storage version) := by
  refine (Action.agrees_ofExcept _).bind fun inRange => ?_
  cases inRange with
  | false => exact Action.agrees_fail _
  | true =>
      refine (Booked.quietly_agrees _).bind fun label => ?_
      refine (Booked.quietly_agrees _).attempt.bind fun found => ?_
      rcases found with e | v
      · cases e with
        | notFound _ => exact (Booked.quietly_agrees _).bind fun _ => Booked.set_agrees storage _ _
        | unreadable _ _ _ => exact Action.agrees_fail _
        | _ => exact Action.agrees_fail _
      · dsimp only
        split
        · exact Action.agrees_pure ()
        · exact (Booked.quietly_agrees _).bind fun _ => Action.agrees_fail _

theorem answer_agrees (deed : Deed) :
    Agrees Forgets (answer deed : Action (Session (Booked σ)) Reply) (Session.answer deed) := by
  cases deed with
  | save a => exact (saveAccount_agrees a).bind fun _ => Action.agrees_pure _
  | remove index => exact (removeAccount_agrees index).bind fun _ => Action.agrees_pure _
  | saveBuilder b => exact (saveBuilder_agrees b).bind fun _ => Action.agrees_pure _
  | resaveBuilder => exact resaveBuilder_agrees.bind fun _ => Action.agrees_pure _
  | _ => exact quietly_agrees _

theorem handle_agrees (storage : Storage) (request : Request) :
    Agrees Booked.Forgets (handle storage request : Action (Booked σ) Reply)
      (Wallet.handle storage request) := by
  cases request with
  | get key schema => exact (Booked.quietly_agrees _).bind fun _ => Action.agrees_pure _
  | getRaw key => exact (Booked.quietly_agrees _).bind fun _ => Action.agrees_pure _
  | set key record => exact (Booked.set_agrees storage key record).bind fun _ => Action.agrees_pure _
  | setRaw key value => exact (Booked.setValue_agrees storage key value).bind fun _ => Action.agrees_pure _
  | setBatch records => exact (Booked.setBatch_agrees storage records).bind fun _ => Action.agrees_pure _
  | remove key => exact (Booked.quietly_agrees _).bind fun _ => Action.agrees_pure _
  | close => exact (Booked.quietly_agrees _).bind fun _ => Action.agrees_pure _
  | openSession version => exact (gate_agrees storage version).bind fun _ => Action.agrees_pure _
  | ask registry deed =>
      rintro b s rfl
      obtain ⟨hresult, hstates⟩ := answer_agrees deed ⟨storage, registry, b⟩ ⟨storage, registry, b.state⟩ rfl
      exact ⟨hresult, congrArg Session.store hstates⟩

end Operations

-- What holds of their writes

section Writes

variable {σ α : Type} [RecordStore σ] {sound : σ → Prop} {P : Storage → Prop}
  {R : Booked σ → Booked σ → Prop}

-- The keys of what a session writes.
inductive Managed : String → Prop where
  | registry : Managed registryKey
  | account (index : Value) : Managed (accountKey index)
  | builder : Managed builderKey
  | snapshot : Managed snapshotKey

-- A relation that no write of a session leaves, over a storage of a kind.
structure Admits (sound : σ → Prop) (P : Storage → Prop) (R : Booked σ → Booked σ → Prop) : Prop where
  reads : Session.Reads sound
  still : ∀ b st, (sound b.state → st = b.state) → R b { b with state := st }
  erase : ∀ key, Managed key → Within R (Booked.quietly (RecordStore.erase key))
  setAll : ∀ storage, P storage → ∀ records : Entries String Value, (∀ r ∈ records, Managed r.1) →
    Within R (Booked.setAll storage records)

def OnStores (P : Storage → Prop) (R : Booked σ → Booked σ → Prop) (s t : Session (Booked σ)) : Prop :=
  t.storage = s.storage ∧ (P s.storage → R s.store t.store)

omit [RecordStore σ] in
instance [IsPreorder (Booked σ) R] : IsPreorder (Session (Booked σ)) (OnStores P R) where
  refl s := ⟨rfl, fun _ => Std.Refl.refl s.store⟩
  trans _ _ _ hab hbc :=
    ⟨hbc.1.trans hab.1, fun hP => IsTrans.trans _ _ _ (hab.2 hP) (hbc.2 (hab.1 ▸ hP))⟩

theorem Admits.quietly (h : Admits sound P R) {x : Action (Session σ) α} (hx : Within (Untouched sound) x) :
    Within (OnStores P R) (quietly x) := by
  intro s
  obtain ⟨hstorage, hstore⟩ := hx (forget s)
  exact ⟨hstorage, fun _ => h.still _ _ hstore⟩

omit [RecordStore σ] in
theorem onStore_within {f : Storage → Action (Booked σ) α}
    (hf : ∀ storage, P storage → Within R (f storage)) : Within (OnStores P R) (onStore f) :=
  fun s => ⟨rfl, fun hP => hf s.storage hP s.store⟩

variable [IsPreorder (Booked σ) R]

omit [RecordStore σ] in
theorem setRegistry_within (is : List Value) :
    Within (OnStores P R) (setRegistry is : Action (Session (Booked σ)) Unit) :=
  fun s => ⟨rfl, fun _ => Std.Refl.refl s.store⟩

omit [IsPreorder (Booked σ) R] in
theorem Admits.eraseRecord (h : Admits sound P R) {key : String} (hkey : Managed key) :
    Within (OnStores P R) (BookedSession.erase key) :=
  onStore_within fun _ _ => h.erase key hkey

omit [IsPreorder (Booked σ) R] in
theorem Admits.set (h : Admits sound P R) {key : String} (hkey : Managed key) (v : Value) :
    Within (OnStores P R) (onStore fun storage => Booked.set storage key v) :=
  onStore_within fun storage hP => h.setAll storage hP [(key, v)] (by simpa using hkey)

theorem Admits.saveAccount (h : Admits sound P R) (a : Account) :
    Within (OnStores P R) (saveAccount a) := by
  refine (h.quietly (Session.loadRegistry_untouched h.reads)).bind fun is => ?_
  refine Within.bind ?_ fun _ => setRegistry_within _
  refine onStore_within fun storage hP => h.setAll storage hP _ ?_
  simpa using And.intro Managed.registry (Managed.account a.index)

theorem Admits.removeAccount (h : Admits sound P R) (index : Value) :
    Within (OnStores P R) (removeAccount index) := by
  refine (h.quietly (Session.loadRegistry_untouched h.reads)).bind fun is => ?_
  refine (h.eraseRecord (.account index)).bind fun _ => (setRegistry_within _).bind fun _ => ?_
  exact h.set .registry _

theorem Admits.saveBuilder (h : Admits sound P R) (b : Builder) :
    Within (OnStores P R) (saveBuilder b) := by
  refine (Action.within_ofExcept _).bind fun snapshot? => ?_
  cases snapshot? with
  | none => exact h.set .builder _
  | some snapshot =>
      refine (Action.within_ofExcept _).bind fun persists => ?_
      cases persists with
      | true =>
          refine onStore_within fun storage hP => h.setAll storage hP _ ?_
          simpa using And.intro Managed.builder Managed.snapshot
      | false => exact (h.set .builder _).bind fun _ => h.eraseRecord .snapshot

theorem Admits.resaveBuilder (h : Admits sound P R) : Within (OnStores P R) resaveBuilder := by
  refine (h.quietly (Session.getBuilder_untouched h.reads)).bind fun b? => ?_
  cases b? with
  | none => exact Action.within_fail _
  | some b => exact h.saveBuilder b

theorem Admits.answer (h : Admits sound P R) (deed : Deed) : Within (OnStores P R) (answer deed) := by
  have hget (key : String) (schema : Json.Schema) := Session.get_untouched h.reads key schema
  have hloaded := Session.loadRegistry_untouched h.reads
  have hregistered := Session.getRegistered_untouched h.reads
  have hbuilder := Session.getBuilder_untouched h.reads
  cases deed with
  | save a => exact (h.saveAccount a).bind fun _ => Action.within_pure _
  | remove index => exact (h.removeAccount index).bind fun _ => Action.within_pure _
  | getAccount index => exact h.quietly ((hget _ _).bind fun _ => Action.within_pure _)
  | getAccounts => exact h.quietly ((hloaded.bind hregistered).bind fun _ => Action.within_pure _)
  | getIndexes => exact h.quietly (hloaded.bind fun _ => Action.within_pure _)
  | saveBuilder b => exact (h.saveBuilder b).bind fun _ => Action.within_pure _
  | resaveBuilder => exact h.resaveBuilder.bind fun _ => Action.within_pure _
  | getBuilder => exact h.quietly (hbuilder.bind fun _ => Action.within_pure _)
  | get key schema => exact h.quietly ((hget _ _).bind fun _ => Action.within_pure _)

end Writes

-- Every text in the store is sealed

section Sealed

variable {σ α : Type} [RecordStore σ] {K : Keeping σ} {k : Seal.Key} {storage : Storage} {b : Booked σ}

open Booked (Grows)

theorem reading_grows {x : Action σ α} (hx : ∀ s, K.sound s → (x s).2 = s) :
    Within (Grows K k) (Booked.quietly x) := by
  refine Booked.quietly_grows fun s hs => ?_
  rw [hx s hs]
  exact ⟨hs, List.Subset.refl _⟩

theorem get_grows (key : String) (schema : Json.Schema) :
    Within (Grows K k) (Booked.quietly (storage.get key schema)) :=
  reading_grows fun s hs => Storage.get_state (K.get_eq s key hs) schema

theorem getText_grows (key : String) :
    Within (Grows K k) (Booked.quietly (storage.getText key)) :=
  reading_grows fun s hs => Storage.getText_state (K.get_eq s key hs)

theorem note_grows (notice : Notice) :
    Within (Grows K k) (Booked.quietly (RecordStore.note notice : Action σ Unit)) :=
  Booked.quietly_grows fun s hs => K.note_view s notice hs

theorem admits_grows : Admits K.sound (fun storage => storage.key = some k) (Grows K k) where
  reads := K.get_eq
  still b st hst := by
    refine fun hs => ⟨?_, [], [], ⟨by simp, by simp, .slnil⟩, fun e he => .inl ?_⟩
    · rw [hst hs]
      exact hs
    · rwa [hst hs] at he
  erase key _ := Booked.erase_grows key
  setAll _ hk records _ := Booked.setAll_grows hk records

theorem gate_grows (hk : storage.key = some k) (version : Value) :
    Within (Grows K k) (gate storage version) := by
  refine (Action.within_ofExcept _).bind fun inRange => ?_
  cases inRange with
  | false => exact Action.within_fail _
  | true =>
      refine (reading_grows fun s hs => rfl).bind fun label => ?_
      refine (get_grows _ _).attempt.bind fun found => ?_
      rcases found with e | v
      · cases e with
        | notFound _ => exact (note_grows _).bind fun _ => Booked.set_grows hk _ _
        | unreadable _ _ _ => exact Action.within_fail _
        | _ => exact Action.within_fail _
      · dsimp only
        split
        · exact Action.within_pure ()
        · exact (note_grows _).bind fun _ => Action.within_fail _

theorem handle_grows (hk : storage.key = some k) (request : Request) :
    Within (Grows K k) (handle storage request) := by
  cases request with
  | get key schema => exact (get_grows key schema).bind fun _ => Action.within_pure _
  | getRaw key => exact (getText_grows key).bind fun _ => Action.within_pure _
  | set key record => exact (Booked.set_grows hk key record).bind fun _ => Action.within_pure _
  | setRaw key value => exact (Booked.setValue_grows hk key value).bind fun _ => Action.within_pure _
  | setBatch records => exact (Booked.setBatch_grows hk records).bind fun _ => Action.within_pure _
  | remove key => exact (Booked.erase_grows key).bind fun _ => Action.within_pure _
  | close =>
      have hclose : Within (Grows K k) (Booked.quietly (RecordStore.close : Action σ Unit)) :=
        Booked.quietly_grows fun s hs => K.close_view s hs
      exact hclose.bind fun _ => Action.within_pure _
  | openSession version => exact (gate_grows hk version).bind fun _ => Action.within_pure _
  | ask registry deed => exact fun b => (admits_grows.answer deed ⟨storage, registry, b⟩).2 hk

-- What is reached from an empty store through storages with one key, with all that the store held
-- on the way. It may be opened again, with what it held at any time.
inductive Reached (K : Keeping σ) (k : Seal.Key) : List (Entries String String) → Booked σ → Prop where
  | empty (st : σ) (hs : K.sound st) (hview : K.view st = []) : Reached K k [[]] ⟨st, [], []⟩
  | handled {past : List (Entries String String)} {b : Booked σ} (h : Reached K k past b)
      (request : Request) : Reached K k (K.view (handle ⟨some k⟩ request b).2.state :: past)
        (handle ⟨some k⟩ request b).2
  | reopened {past : List (Entries String String)} {b : Booked σ} (h : Reached K k past b) (st : σ)
      (hs : K.sound st) (hview : K.view st ∈ past) : Reached K k past { b with state := st }

def handleAll (storage : Storage) (requests : List Request) (b : Booked σ) : Booked σ :=
  requests.foldl (fun b request => (handle storage request b).2) b

theorem Reached.handledAll {past : List (Entries String String)} (h : Reached K k past b)
    (requests : List Request) : ∃ past, Reached K k past (handleAll ⟨some k⟩ requests b) := by
  induction requests generalizing past b with
  | nil => exact ⟨past, h⟩
  | cons request rest ih => exact ih (h.handled request)

-- What a book accounts for: all that the store ever held, each sealing with a nonce of its own.
structure Accounts (K : Keeping σ) (k : Seal.Key) (past : List (Entries String String)) (b : Booked σ) :
    Prop where
  sound : K.sound b.state
  present : K.view b.state ∈ past
  sealed : ∀ es ∈ past, ∀ e ∈ es, ∃ x ∈ b.sealings, e = (x.recordKey, x.sealedText k)
  fresh : (b.sealings.map Sealing.drawn).Sublist b.drawn

theorem Reached.accounts {past : List (Entries String String)} (h : Reached K k past b) :
    Accounts K k past b := by
  have hk : (⟨some k⟩ : Storage).key = some k := rfl
  induction h with
  | empty st hs hview =>
      refine ⟨hs, ?_, ?_, .slnil⟩
      · simp [hview]
      · simp
  | @handled past b h request ih =>
      obtain ⟨hsound, draws, page, hbooks, hview⟩ := handle_grows hk request b ih.sound
      have hkept : ∀ es ∈ past, ∀ e ∈ es, ∃ x ∈ (handle ⟨some k⟩ request b).2.sealings,
          e = (x.recordKey, x.sealedText k) := by
        intro es hes e he
        obtain ⟨x, hx, heq⟩ := ih.sealed es hes e he
        rw [hbooks.sealings]
        exact ⟨x, List.mem_append_left _ hx, heq⟩
      refine ⟨hsound, List.mem_cons_self, fun es hes => ?_, ?_⟩
      · rcases List.mem_cons.mp hes with rfl | hes
        · intro e he
          rcases hview e he with he | ⟨x, hx, heq⟩
          · exact hkept _ ih.present e he
          · rw [hbooks.sealings]
            exact ⟨x, List.mem_append_right _ hx, heq⟩
        · exact hkept es hes
      · rw [hbooks.sealings, hbooks.drawn, List.map_append]
        exact ih.fresh.append hbooks.fresh
  | reopened h st hs hview ih => exact ⟨hs, hview, ih.sealed, ih.fresh⟩

-- A store that is written through storages with one key holds sealed texts only, each bound to the
-- key that it is stored under. All texts that are ever sealed have nonces of their own, if the
-- source of the nonces repeats none; a request gets new texts into the store only by sealing them
-- itself, whether or not it succeeds.
theorem stored_texts_sealed (K : Keeping σ) (k : Seal.Key) {past : List (Entries String String)}
    {b : Booked σ} (h : Reached K k past b) :
    (∀ e ∈ K.view b.state, ∃ x ∈ b.sealings, x.recordKey = e.1 ∧ (Seal.nonce x.drawn).length = 12 ∧
      e.2 = Base64.encode Base64.urlSafe (Seal.nonce x.drawn ++
        Aead.encrypt k.bytes (Seal.nonce x.drawn) (Utf8.encode e.1) (Utf8.encode x.text))) ∧
    ((b.drawn.map Seal.nonce).Nodup → (b.sealings.map fun x => Seal.nonce x.drawn).Nodup) ∧
    ∀ request, ∃ c draws page,
      handle ⟨some k⟩ request b = ((Wallet.handle ⟨some k⟩ request b.state).1, c) ∧
      c.state = (Wallet.handle ⟨some k⟩ request b.state).2 ∧
      c.drawn = b.drawn ++ draws ∧ c.sealings = b.sealings ++ page ∧
      (page.map Sealing.drawn).Sublist draws ∧
      ∀ e ∈ K.view c.state, e ∈ K.view b.state ∨ ∃ x ∈ page, e = (x.recordKey, x.sealedText k) := by
  have hbook := h.accounts
  have hk : (⟨some k⟩ : Storage).key = some k := rfl
  refine ⟨fun e he => ?_, fun hnodup => ?_, fun request => ?_⟩
  · obtain ⟨x, hx, rfl⟩ := hbook.sealed _ hbook.present e he
    exact ⟨x, hx, rfl, Seal.length_nonce x.drawn, rfl⟩
  · have hsub := hbook.fresh.map Seal.nonce
    rw [List.map_map] at hsub
    exact hnodup.sublist hsub
  · obtain ⟨hresult, hstate⟩ := handle_agrees ⟨some k⟩ request b b.state rfl
    obtain ⟨-, draws, page, hbooks, hview⟩ := handle_grows hk request b hbook.sound
    exact ⟨_, draws, page, Prod.ext hresult rfl, hstate, hbooks.drawn, hbooks.sealings, hbooks.fresh, hview⟩

-- A database that refuses one record, and a batch of which the second record has no encoding.
theorem stored_texts_sealed_after_failed_writes :
    ∃ (d : DatabaseStore) (h : Host) (k : Seal.Key) (past : List (Entries String String))
        (b : Booked (Seat Backend)),
      DatabaseStore.openAt ⟨.here, ["wallet"]⟩ Host.empty = (.ok d, h) ∧
      handleAll ⟨some k⟩ [.openSession (.int 1), .set "b" (.int 2),
        .setBatch (.dict [(.text "a", .int 3), (.text "c", .foreign "object" "c")])]
        ⟨(Backend.deny "b" ⟨h, .database d⟩).2, [], []⟩ = b ∧
      Reached Backend.keeping k past b ∧
      b.sealings = [⟨versionKey, "1", 1⟩, ⟨"b", "2", 2⟩, ⟨"a", "3", 3⟩] ∧
      (b.drawn.map Seal.nonce).Nodup ∧ (b.sealings.map fun x => Seal.nonce x.drawn).Nodup ∧
      ∀ e ∈ Backend.view b.state, ∃ x ∈ b.sealings, x.recordKey = e.1 ∧
        (Seal.nonce x.drawn).length = 12 ∧
        e.2 = Base64.encode Base64.urlSafe (Seal.nonce x.drawn ++
          Aead.encrypt k.bytes (Seal.nonce x.drawn) (Utf8.encode e.1) (Utf8.encode x.text)) := by
  obtain ⟨d, h, hopen, hempty, hbook⟩ : ∃ d h,
      DatabaseStore.openAt ⟨.here, ["wallet"]⟩ Host.empty = (.ok d, h) ∧
      Backend.view ⟨h, .database d⟩ = [] ∧
      let b := handleAll ⟨some ⟨List.replicate 32 7, by decide⟩⟩ [.openSession (.int 1),
        .set "b" (.int 2), .setBatch (.dict [(.text "a", .int 3), (.text "c", .foreign "object" "c")])]
        ⟨(Backend.deny "b" ⟨h, .database d⟩).2, [], []⟩
      b.sealings = [⟨versionKey, "1", 1⟩, ⟨"b", "2", 2⟩, ⟨"a", "3", 3⟩] ∧ b.drawn = [1, 2, 3] := by
    refine ⟨_, _, rfl, rfl, ?_⟩
    decide +kernel
  let k : Seal.Key := ⟨List.replicate 32 7, by decide⟩
  obtain ⟨hsound, hview⟩ := Backend.deny_same
    (Backend.Opened.database _ h _ d Disk.empty_sound hopen).sound "b"
  have hstart := Reached.empty (K := Backend.keeping) (k := k) _ (.inl hsound) (hview.trans hempty)
  obtain ⟨past, hreached⟩ := hstart.handledAll [.openSession (.int 1), .set "b" (.int 2),
    .setBatch (.dict [(.text "a", .int 3), (.text "c", .foreign "object" "c")])]
  have hnodup : ([1, 2, 3].map Seal.nonce).Nodup := by decide
  rw [← hbook.2] at hnodup
  obtain ⟨hsealed, hnonces, -⟩ := stored_texts_sealed Backend.keeping k hreached
  exact ⟨d, h, k, past, _, hopen, rfl, hreached, hbook.1, hnodup, hnonces hnodup, hsealed⟩

end Sealed

end BookedSession

end Coffer.Wallet
