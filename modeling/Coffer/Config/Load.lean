import Coffer.Config.Environment
import Coffer.Config.Merge
import Coffer.Config.Options
import Coffer.Yaml.Document

-- Configuration from files and from the environment. Later files win over
-- earlier ones, and the environment over all files.

namespace Coffer.Config

def ofBytes (b : Bytes) : Except Failure Value := Yaml.Document.load (Yaml.Source.ofBytes b)

-- A document that holds nothing is an empty mapping.
def orEmpty (v : Value) : Value := if v.isBlank then .dict [] else v

def unreadable : Failure → Failure
  | .system fault => .unusable (.unreadableDocument fault)
  | e => e

def readDocument (path : PathName) : Action Host Value := do
  let content ← (Host.readFile path).orElse fun e => .fail (unreadable e)
  .ofExcept (orEmpty <$> ofBytes content)

def isUnusable : Failure → Bool
  | .unusable _ | .undecodable _ => true
  | _ => false

def skipNotice (path : PathName) (e : Failure) : Notice :=
  ⟨.warning, s!"Skipping config file {path.text}: " ++ e.message⟩

-- One file more. A file that is not there changes nothing, nor does one that
-- cannot be used.
def mergeFile (config : List (Value × Value)) (path : PathName) :
    Action Host (List (Value × Value)) := do
  let there ← fun h => ((h.disk.has path).mapError .system, h)
  if there then
    match ← (do
      let v ← readDocument path
      .ofExcept (merge config v)).attempt with
    | .ok merged => return merged
    | .error e =>
        if isUnusable e then do
          Host.note (skipNotice path e)
          return config
        else .fail e
  else return config

def mergeFiles (config : List (Value × Value)) :
    List PathName → Action Host (List (Value × Value))
  | [] => return config
  | path :: rest => do mergeFiles (← mergeFile config path) rest

def sectionName : String := "storage"

-- What the environment says about storage.
def overrides (env : Environment) : Value :=
  let entry (key name : String) : List (String × Value) :=
    ((env.filled? name).map fun s => (key, Value.text s)).toList
  Value.ofMembers
    (entry "backend" "WALLETSTORE_BACKEND" ++ entry "path" "WALLETSTORE_PATH"
      ++ entry "key_file" "WALLETSTORE_KEY_FILE")

def load (env : Environment) (paths : Option (List PathName)) :
    Action Host (List (Value × Value)) := do
  let paths ←
    match paths with
    | some paths => pure paths
    | none => .ofExcept (defaultPaths env)
  let config ← mergeFiles [] paths
  return mergeEntries config [(.text sectionName, overrides env)]

-- The section about storage; one that holds nothing is an empty mapping.
def storageSection (config : List (Value × Value)) : Value :=
  orEmpty ((Entries.get? config (.text sectionName)).getD .null)

def loadOptions (env : Environment) (paths : Option (List PathName)) : Action Host Options := do
  let config ← load env paths
  .ofExcept (Options.ofSection (storageSection config))

end Coffer.Config
