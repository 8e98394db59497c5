import Coffer.Wallet.Record
import Coffer.PathName
import Coffer.Seed.Mnemonic

-- Secret managers, the snapshots that describe how to rebuild them, and which
-- snapshots may be stored.

namespace Coffer.Wallet

-- A snapshot of a kind that is not known here is kept as the value it is.
inductive Snapshot where
  | mnemonic
  | stronghold (path timeout : Value)
  | ledgerNano (isSimulator : Value)
  | placeholder
  | unknown (v : Value)
  deriving Repr

namespace Snapshot

def toValue : Snapshot → Value
  | .mnemonic => .record mnemonicKind []
  | .stronghold path timeout =>
      .record strongholdKind [("snapshot_path", path), ("timeout", timeout)]
  | .ledgerNano isSimulator => .record ledgerNanoKind [("is_simulator", isSimulator)]
  | .placeholder => .record placeholderKind []
  | .unknown v => v

-- The snapshot in what decoding by the schema gives.
def ofValue (v : Value) : Snapshot :=
  match v with
  | .record kind fields =>
      if kind = mnemonicKind then .mnemonic
      else if kind = placeholderKind then .placeholder
      else
        match fields with
        | [(_, path), (_, timeout)] => if kind = strongholdKind then .stronghold path timeout else .unknown v
        | [(_, isSimulator)] => if kind = ledgerNanoKind then .ledgerNano isSimulator else .unknown v
        | _ => .unknown v
  | _ => .unknown v

end Snapshot

inductive Policy where
  | persist
  | neverPersist
  deriving DecidableEq, Repr

namespace Policy

def name : Policy → String
  | .persist => "persist"
  | .neverPersist => "never_persist"

-- A seed cannot be rebuilt from the snapshot of a mnemonic.
def ofSnapshot : Snapshot → Except Failure Policy
  | .mnemonic => .ok .neverPersist
  | .stronghold .. | .ledgerNano _ | .placeholder => .ok .persist
  | .unknown v => .error (.noPolicy v.typeName)

def shouldPersist (s : Snapshot) : Except Failure Bool :=
  (ofSnapshot s).map (· == .persist)

end Policy

inductive SecretManager where
  | mnemonic (seed : Bytes)
  | stronghold (path : PathName) (timeout : Value)
  | ledgerNano (isSimulator : Value)
  | placeholder
  | unknown (snapshot : Value)
  deriving Repr

namespace SecretManager

def ofMnemonic (phrase passphrase : String) : Except Failure SecretManager :=
  .mnemonic <$> Mnemonic.seed phrase passphrase

def snapshot : SecretManager → Snapshot
  | .mnemonic _ => .mnemonic
  | .stronghold path timeout => .stronghold (.text path.text) timeout
  | .ledgerNano isSimulator => .ledgerNano isSimulator
  | .placeholder => .placeholder
  | .unknown v => .unknown v

def ofSnapshot : Snapshot → Except Failure SecretManager
  | .stronghold path timeout => return .stronghold (← PathName.ofValue path) timeout
  | .ledgerNano isSimulator => .ok (.ledgerNano isSimulator)
  | .placeholder => .ok .placeholder
  | .mnemonic => .error (.unusable .mnemonicSnapshot)
  | .unknown v => .error (.mistyped (.unknownSnapshot v))

-- A seed is never shown.
def shown : SecretManager → String
  | .mnemonic _ => "MnemonicSecretManager(<seed hidden>)"
  | .stronghold path _ => "StrongholdSecretManager(" ++ Text.quoted path.text ++ ")"
  | .ledgerNano isSimulator =>
      "LedgerNanoSecretManager(is_simulator=" ++ isSimulator.asText ++ ")"
  | .placeholder => "PlaceholderSecretManager()"
  | .unknown _ => "SecretManager()"

end SecretManager

end Coffer.Wallet
