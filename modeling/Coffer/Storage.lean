import Coffer.Seal.Record
import Coffer.Json.Decode
import Coffer.Store.Basic

-- Records over a store of texts: encoded, and sealed under a key if there is one.

namespace Coffer

structure Storage where
  key : Option Seal.Key

namespace Storage

variable {σ : Type} [RecordStore σ]

def isEncrypted (s : Storage) : Bool := s.key.isSome

def shown (s : Storage) (store : σ) : String :=
  "Storage(inner=" ++ RecordStore.shown store ++ ", encrypted=" ++ (Value.bool s.isEncrypted).shown
    ++ ")"

-- A nonce is drawn before anything else can go wrong.
def protect (s : Storage) (key text : String) : Action σ String :=
  match s.key with
  | none => return text
  | some k => do
      let n ← RecordStore.draw
      return Seal.sealRecord k (Seal.nonce n) key text

def reveal (s : Storage) (key text : String) : Except Failure String :=
  match s.key with
  | none => .ok text
  | some k => Seal.openRecord k key text

def decodeFailure (key : String) (size : Nat) : Json.Error → Failure
  | .undecodable fault => .undecodable fault
  | .tooDeep => .readTooDeep
  | error => .unreadable key size error

def decode (key : String) (schema : Json.Schema) (text : String) : Except Failure Value :=
  (Json.decode schema text).mapError (decodeFailure key (Utf8.encode text).length)

def encodeFailure (key : String) : Json.EncodeError → Failure
  | .tooDeep => .writeTooDeep
  | error => .unwritable key error

def encode (key : String) (record : Value) : Except Failure String :=
  (Json.encode record).mapError (encodeFailure key)

def getText (s : Storage) (key : String) : Action σ String := do
  let text ← RecordStore.get key
  .ofExcept (s.reveal key text)

def setText (s : Storage) (key text : String) : Action σ Unit := do
  RecordStore.put [(key, ← s.protect key text)]

-- A plain text is expected, but what is handed in may be another value. It is refused
-- by the store, or before that by the cipher, for which a nonce is drawn already.
def setValue (s : Storage) (key : String) (value : Value) : Action σ Unit :=
  match value, s.key with
  | .text text, _ => s.setText key text
  | v, none => .fail (.mistyped (.notText (.text key) v))
  | v, some _ => do
      let _ ← (RecordStore.draw : Action σ Nat)
      .fail (.noMember v.typeName "encode")

def get (s : Storage) (key : String) (schema : Json.Schema) : Action σ Value := do
  let text ← s.getText key
  .ofExcept (decode key schema text)

def set (s : Storage) (key : String) (record : Value) : Action σ Unit := do
  let text ← .ofExcept (encode key record)
  s.setText key text

-- Each record is encoded and sealed before the next one is looked at.
def protectAll (s : Storage) : Entries String Value → Action σ (Entries String String)
  | [] => return []
  | (key, record) :: rest => do
      let text ← .ofExcept (encode key record)
      let sealedText ← s.protect key text
      return (key, sealedText) :: (← s.protectAll rest)

def setAll (s : Storage) (records : Entries String Value) : Action σ Unit := do
  RecordStore.put (← s.protectAll records)

-- Records under any keys. The cipher takes text keys only, and so does the store.
def protectValues (s : Storage) : Entries Value Value → Action σ (Entries Value Value)
  | [] => return []
  | (key, record) :: rest => do
      let text ← .ofExcept (encode key.asText record)
      let sealedText ←
        match key, s.key with
        | .text k, _ => s.protect k text
        | _, none => pure text
        | v, some _ => do
            let _ ← (RecordStore.draw : Action σ Nat)
            .fail (.noMember v.typeName "encode")
      return (key, .text sealedText) :: (← s.protectValues rest)

def setBatch (s : Storage) (records : Value) : Action σ Unit := do
  match records with
  | .dict entries => RecordStore.put (← .ofExcept (textRecords (← s.protectValues entries)))
  | v => .fail (.noMember v.typeName "items")

def remove (_ : Storage) (key : String) : Action σ Unit := RecordStore.erase key

def close (_ : Storage) : Action σ Unit := RecordStore.close

end Storage

end Coffer
