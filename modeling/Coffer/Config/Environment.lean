import Coffer.PathName

-- The environment variables that configuration looks at.

namespace Coffer.Config

structure Environment where
  settings : Entries String String
  deriving DecidableEq, Repr

namespace Environment

def get? (env : Environment) (name : String) : Option String := env.settings.get? name

def put (env : Environment) (name value : String) : Environment := ⟨env.settings.put name value⟩

def erase (env : Environment) (name : String) : Environment := ⟨env.settings.erase name⟩

def home (env : Environment) : String := (env.get? "HOME").getD PathName.accountHome

-- A variable that is set to nothing counts as not set.
def filled? (env : Environment) (name : String) : Option String :=
  (env.get? name).filter fun s => !s.isEmpty

end Environment

-- Where configuration is looked for: the user's own, then the project's.
def defaultPaths (env : Environment) : Except Failure (List PathName) := do
  let home ← (PathName.ofText "~").expandHome env.home
  let base :=
    match env.get? "XDG_CONFIG_HOME" with
    | some s => PathName.ofText s
    | none => home.join ".config"
  return [(base.join "walletstore").join "config.yaml", PathName.ofText ".walletstore.yaml",
    PathName.ofText "walletstore.yaml"]

end Coffer.Config
