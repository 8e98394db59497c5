import Coffer.Wallet.Secret

-- The configuration of a wallet, with the secret manager that goes along.

namespace Coffer.Wallet

-- A stored configuration may hold any value where a secret manager is expected.
inductive Attachment where
  | none
  | manager (m : SecretManager)
  | plain (v : Value)
  deriving Repr

namespace Attachment

def ofValue (v : Value) : Attachment := if v.isNull then .none else .plain v

-- The snapshot of what is attached, if anything is.
def snapshot? : Attachment → Except Failure (Option Snapshot)
  | .none => .ok Option.none
  | .manager m => .ok (some m.snapshot)
  | .plain v => .error (.noMember v.typeName "to_dto")

end Attachment

structure Builder where
  storageOptions : Value
  clientOptions : Value
  coinType : Value
  secret : Attachment
  deriving Repr

namespace Builder

def empty : Builder := ⟨.null, .null, .null, .none⟩

def withStorageOptions (b : Builder) (options : Value) : Builder := { b with storageOptions := options }

def withClientOptions (b : Builder) (options : Value) : Builder := { b with clientOptions := options }

def withCoinType (b : Builder) (coinType : Value) : Builder := { b with coinType }

def withSecret (b : Builder) (secret : Attachment) : Builder := { b with secret }

def withoutSecret (b : Builder) : Builder := b.withSecret .none

-- What is stored of a builder: all but the secret manager.
def toRecord (b : Builder) : Value :=
  .record builderKind
    [("storage_options", b.storageOptions), ("client_options", b.clientOptions),
      ("coin_type", b.coinType), ("secret_manager", .null)]

-- The builder in what decoding by the schema gives.
def ofValue : Value → Builder
  | .record _ [(_, storageOptions), (_, clientOptions), (_, coinType), (_, secret)] =>
      ⟨storageOptions, clientOptions, coinType, .ofValue secret⟩
  | _ => empty

end Builder

end Coffer.Wallet
