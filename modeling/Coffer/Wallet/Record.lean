import Coffer.Json.Schema
import Coffer.Store.Kind

-- The kinds of records that a wallet stores, and the schemas they are read by.

namespace Coffer.Wallet

open Json (Member Schema)

def defaultCoinType : Int := 4218

def required (name : String) (schema : Schema) : Member Schema := ⟨name, schema, none⟩

def optional (name : String) (schema : Schema) (absent : Value) : Member Schema :=
  ⟨name, schema, some absent⟩

-- An account index fits in 32 bits.
def indexSchema : Schema := .int (some (0, 0xFFFFFFFF))

def addressKind : RecordKind := ⟨"Address", none, false⟩

def addressSchema : Schema :=
  .record addressKind
    [required "address" .text, required "key_index" (.int none),
      optional "internal" .bool (.bool false), optional "used" .bool (.bool false)]

def accountKind : RecordKind := ⟨"Account", none, false⟩

def accountSchema : Schema :=
  .record accountKind
    [required "index" indexSchema, optional "coin_type" (.int none) (.int defaultCoinType),
      optional "alias" .text (.text ""), optional "public_addresses" (.list addressSchema) (.list []),
      optional "internal_addresses" (.list addressSchema) (.list []),
      optional "pending_transactions" (.list .text) (.list []),
      optional "incoming_transactions" (.dict .any) (.dict [])]

def optionsKind : RecordKind := ⟨"StorageOptions", none, false⟩

def backendMember : Member Schema :=
  optional "backend" (.options (BackendKind.all.map BackendKind.choice))
    (.choice BackendKind.database.choice)

def pathMember : Member Schema := optional "path" (.nullable .text) (.text "walletdb")

def keyFileMember : Member Schema := optional "key_file" (.nullable .text) .null

def optionsFields : List (Member Schema) := [backendMember, pathMember, keyFileMember]

def optionsSchema : Schema := .record optionsKind optionsFields

def builderKind : RecordKind := ⟨"AccountManagerBuilder", none, true⟩

def builderSchema : Schema :=
  .record builderKind
    [optional "storage_options" (.nullable optionsSchema) .null,
      optional "client_options" (.nullable (.dict .any)) .null,
      optional "coin_type" (.nullable (.int none)) .null,
      optional "secret_manager" .any .null]

def mnemonicKind : RecordKind := ⟨"MnemonicDto", some "mnemonic", false⟩

def strongholdKind : RecordKind := ⟨"StrongholdDto", some "stronghold", false⟩

def ledgerNanoKind : RecordKind := ⟨"LedgerNanoDto", some "ledger_nano", false⟩

def placeholderKind : RecordKind := ⟨"PlaceholderDto", some "placeholder", false⟩

def snapshotSchema : Schema :=
  .variants
    [(mnemonicKind, []),
      (strongholdKind,
        [required "snapshot_path" .text, optional "timeout" (.nullable (.int none)) .null]),
      (ledgerNanoKind, [optional "is_simulator" .bool (.bool false)]),
      (placeholderKind, [])]

end Coffer.Wallet
