import Coffer.Wallet.Session

-- What the operations of a session tell for debugging. A builder that was read is told as it is shown.

namespace Coffer.Wallet.Session

variable {σ : Type} [RecordStore σ]

def toldOfSave (a : Account) : List String := ["save_account " ++ a.index.asText]

def toldOfRemoval (index : Value) : List String := ["remove_account " ++ index.asText]

def toldOfBuilder : List String := ["save_account_manager_data"]

def toldOfLoad (s : Session σ) : List String :=
  "get_account_manager_data" ::
    match getIfPresent builderKey builderSchema s with
    | (.ok (some v), s) =>
        ("get_account_manager_data " ++ v.shown) ::
          match getIfPresent snapshotKey snapshotSchema s with
          | (.ok (some snapshot), _) => ["get_secret_manager " ++ snapshot.typeName]
          | _ => []
    | _ => []

def toldOfResave (s : Session σ) : List String :=
  toldOfLoad s ++
    match getBuilder s with
    | (.ok (some _), _) => toldOfBuilder
    | _ => []

end Coffer.Wallet.Session
