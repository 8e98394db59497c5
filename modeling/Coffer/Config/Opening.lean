import Coffer.Config.KeyFile
import Coffer.Config.Load
import Coffer.Wallet.Session

-- Opening a wallet as the configuration says.

namespace Coffer.Config

def readKey (home : String) (keyFile : Option String) : Action Host Storage := do
  match keyFile.filter fun s => !s.isEmpty with
  | some path => return ⟨some (← KeyFile.load home path)⟩
  | none => return ⟨none⟩

-- A store that does not pass the schema gate is closed again.
def passGate (storage : Storage) (backend : Backend) : Action Host Backend := fun h =>
  match Wallet.Session.gate storage (.int Wallet.schemaVersion) ⟨h, backend⟩ with
  | (.ok (), s) => (.ok s.store, s.host)
  | (.error e, s) =>
      match Backend.close s with
      | (.ok (), s) => (.error e, s.host)
      | (.error e, s) => (.error e, s.host)

def openWallet (env : Environment) (options : Option Options) : Action Host (Storage × Backend) := do
  let options ←
    match options with
    | some options => pure options
    | none => loadOptions env none
  let storage ← readKey env.home options.keyFile
  let backend ← Backend.create env.home options.backend (Options.textOrNull options.path)
  return (storage, ← passGate storage backend)

end Coffer.Config
