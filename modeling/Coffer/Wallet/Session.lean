import Coffer.Storage
import Coffer.Wallet.Account
import Coffer.Wallet.Builder

-- A session on a wallet: the schema gate it passes when it opens, the registry of
-- accounts, and the wallet's configuration with its secret manager.

namespace Coffer.Wallet

def schemaVersion : Int := 1

def maxSchemaVersion : Int := 255

def versionKey : String := "database-schema-version"

def registryKey : String := "wallet-accounts"

def accountKeyStem : String := "wallet-account-"

def builderKey : String := "wallet-account-manager"

def snapshotKey : String := "secret-manager"

def accountKey (index : Value) : String := accountKeyStem ++ index.asText

-- The registry is `none` until it has been loaded; a loaded one may be empty.
structure Session (σ : Type) where
  storage : Storage
  registry : Option (List Value)
  store : σ

namespace Session

variable {σ : Type} [RecordStore σ]

def onStore {α : Type} (f : Storage → Action σ α) : Action (Session σ) α := fun s =>
  Action.onPart Session.store (fun s store => { s with store }) (f s.storage) s

def setRegistry (indexes : List Value) : Action (Session σ) Unit :=
  Action.update fun s => { s with registry := some indexes }

def shown (s : Session σ) : String := "StorageManager(storage=" ++ s.storage.shown s.store ++ ")"

-- The schema gate

def refusal (label : String) (found expected : Value) : Notice :=
  ⟨.error, s!"Refusing to open {label} store: schema version " ++ found.shown ++
    ", expected " ++ expected.asText⟩

-- Any number may be asked for as a version, but what is found has to be an integer.
def isVersion (version : Value) : Value → Bool
  | .int n => Value.int n == version
  | _ => false

def isInRange (version : Value) : Except Failure Bool :=
  match version.ratio?, version with
  | some (n, d), _ => .ok (0 ≤ n && n ≤ maxSchemaVersion * d)
  | none, .float _ => .ok false
  | none, v => .error (.mistyped (.notComparable v.typeName))

-- A store without a version gets the given one; one with another is refused.
def gate (storage : Storage) (version : Value) : Action σ Unit := do
  if !(← .ofExcept (isInRange version)) then .fail (.unusable (.schemaVersion version))
  else
    let label ← fun s => (.ok (RecordStore.label s), s)
    match ← (storage.get versionKey .any).attempt with
    | .ok found =>
        if isVersion version found then pure ()
        else do
          RecordStore.note (refusal label found version)
          .fail (.schemaVersion found version)
    | .error (.notFound _) => do
        RecordStore.note ⟨.info, s!"Initializing {label} store with schema version " ++ version.asText⟩
        storage.set versionKey version
    | .error (.unreadable _ size error) => .fail (.schemaVersion (.text (error.message size)) version)
    | .error e => .fail e

-- Accounts

def registrySchema : Json.Schema := .list indexSchema

def itemsOf : Value → List Value
  | .list items => items
  | _ => []

def loadRegistry : Action (Session σ) (List Value) := fun s =>
  match s.registry with
  | some indexes => (.ok indexes, s)
  | none =>
      (do
        match ← (onStore fun storage => storage.get registryKey registrySchema).attempt with
        | .ok v => do
            setRegistry (itemsOf v)
            return itemsOf v
        | .error (.notFound _) => do
            setRegistry []
            return []
        | .error e => .fail e) s

def getAccount (index : Value) : Action (Session σ) Value :=
  onStore fun storage => storage.get (accountKey index) accountSchema

def getRegistered : List Value → Action (Session σ) (List Value)
  | [] => return []
  | index :: rest => do
      let account ← (getAccount index).orElse fun
        | .notFound _ => .fail (.danglingAccount index)
        | e => .fail e
      return account :: (← getRegistered rest)

def getAccounts : Action (Session σ) (List Value) := do getRegistered (← loadRegistry)

-- The indexes with one more, unless it is there already.
def register (indexes : List Value) (index : Value) : List Value :=
  if indexes.contains index then indexes else indexes ++ [index]

-- The registry and the record are written together.
def saveAccount (a : Account) : Action (Session σ) Unit := do
  let indexes := register (← loadRegistry) a.index
  onStore fun storage =>
    storage.setAll [(registryKey, .list indexes), (accountKey a.index, a.toValue)]
  setRegistry indexes

-- The record goes first. If the registry cannot be written after that, the
-- stored one still names the account.
def removeAccount (index : Value) : Action (Session σ) Unit := do
  let indexes ← loadRegistry
  onStore fun storage => storage.remove (accountKey index)
  let indexes := indexes.filter fun i => !(i == index)
  setRegistry indexes
  onStore fun storage => storage.set registryKey (.list indexes)

-- Configuration

-- A snapshot that may be stored goes with the configuration. One that may not
-- takes away the snapshot of the manager it replaces.
def saveBuilder (b : Builder) : Action (Session σ) Unit := do
  let record := b.toRecord
  match ← .ofExcept b.secret.snapshot? with
  | none => onStore fun storage => storage.set builderKey record
  | some snapshot =>
      if ← .ofExcept (Policy.shouldPersist snapshot) then
        onStore fun storage => storage.setAll [(builderKey, record), (snapshotKey, snapshot.toValue)]
      else do
        onStore fun storage => storage.set builderKey record
        onStore fun storage => storage.remove snapshotKey

-- Nothing if the key is absent.
def getIfPresent (key : String) (schema : Json.Schema) : Action (Session σ) (Option Value) := do
  match ← (onStore fun storage => storage.get key schema).attempt with
  | .ok v => return some v
  | .error (.notFound _) => return none
  | .error e => .fail e

def getBuilder : Action (Session σ) (Option Builder) := do
  match ← getIfPresent builderKey builderSchema with
  | none => return none
  | some v => do
      let b := Builder.ofValue v
      match ← getIfPresent snapshotKey snapshotSchema with
      | none => return some b
      | some v => do
          let snapshot := Snapshot.ofValue v
          if ← .ofExcept (Policy.shouldPersist snapshot) then
            return some (b.withSecret (.manager (← .ofExcept (SecretManager.ofSnapshot snapshot))))
          else return some b

-- What was loaded is saved again.
def resaveBuilder : Action (Session σ) Unit := do
  match ← getBuilder with
  | none => .fail (.noMember Value.null.typeName "without_secret_manager")
  | some b => saveBuilder b

def close : Action (Session σ) Unit := onStore fun storage => storage.close

end Session

end Coffer.Wallet
