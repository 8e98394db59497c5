import Coffer.Text.Blank
import Coffer.Text.Decomposition
import Coffer.Json.Decode
import Coffer.Decimal.Numeral
import Coffer.Failure
import Coffer.Wallet.Record
import Coffer.Seal.Record
import Coffer.Seed.Mnemonic
import Coffer.PathName
import Coffer.Action
import Coffer.Host
import Coffer.Store.Backend
import Coffer.Config.Opening
import Coffer.Proofs.Log.Crash
import Coffer.Proofs.Log.Poisoned
import Coffer.Proofs.Log.Compaction
import Coffer.Proofs.Store.Corrupt
import Coffer.Proofs.Seal.Opening
import Coffer.Proofs.Wallet.Faults
import Coffer.Proofs.Wallet.Readable
import Coffer.Proofs.Wallet.History
import Coffer.Proofs.Wallet.Transparent
import Coffer.Proofs.Wallet.Directory.LastSession
import Coffer.Proofs.Wallet.Configuration
import Coffer.Proofs.Wallet.Modes
import Coffer.Proofs.Wallet.Mnemonics
import Coffer.Proofs.Wallet.Frame
import Coffer.Proofs.Wallet.RoundTrip
import Coffer.Proofs.Store.Batch
import Coffer.Proofs.Log.Bounded
import Coffer.Proofs.Store.Replacement
import Coffer.Proofs.Json.Unencodable
import Coffer.Proofs.Store.Unwritable
import Coffer.Proofs.Wallet.Unwritable
import Coffer.Proofs.Wallet.Reported
import Coffer.Proofs.Seal.Outcome
import Coffer.Proofs.Config.Load
import Coffer.Proofs.Config.KeyFile
import Coffer.Proofs.Config.Section
import Coffer.Proofs.Config.Precedence
import Coffer.Proofs.Config.Opening
