import Coffer.Proofs.Store.Atomic
import Coffer.Proofs.Wallet.Contents
import Coffer.Proofs.Wallet.Sealings

-- Which records the operations of a session touch. All others stay as they are, also when the
-- operation fails, before it writes or between two writes.

namespace Coffer.Wallet.Session

open Coffer.Action (Within)

variable {σ α : Type} [RecordStore σ] {A : Atomic σ} {keys keys' : List String} {s t : Session σ}

def TouchesOnly (A : Atomic σ) (keys : List String) (s t : Session σ) : Prop :=
  A.TouchesOnly keys s.store t.store

instance : IsPreorder (Session σ) (TouchesOnly A keys) where
  refl s := Std.Refl.refl (r := A.TouchesOnly keys) s.store
  trans _ _ _ hab hbc := IsTrans.trans (r := A.TouchesOnly keys) _ _ _ hab hbc

theorem touchesOnly_of_untouched {x : Action (Session σ) α} (hx : Within (Untouched A.sound) x) :
    Within (TouchesOnly A keys) x := by
  intro s hs
  rw [(hx s).2 hs]
  exact ⟨hs, rfl⟩

theorem onStore_touchesOnly {f : Storage → Action σ α}
    (hf : ∀ storage, Within (A.TouchesOnly keys) (f storage)) : Within (TouchesOnly A keys) (onStore f) :=
  fun s => hf s.storage s.store

theorem set_touchesOnly {key : String} (hkey : key ∈ keys) (v : Value) :
    Within (TouchesOnly A keys) (onStore fun storage => storage.set key v) :=
  onStore_touchesOnly fun storage => Storage.set_touchesOnly storage hkey v

theorem setAll_touchesOnly {records : Entries String Value} (hrecords : records.keys ⊆ keys) :
    Within (TouchesOnly A keys) (onStore fun storage => storage.setAll records) :=
  onStore_touchesOnly fun storage => Storage.setAll_touchesOnly storage hrecords

theorem remove_touchesOnly {key : String} (hkey : key ∈ keys) :
    Within (TouchesOnly A keys) (onStore fun storage => storage.remove key) :=
  onStore_touchesOnly fun _ => Atomic.erase_touchesOnly hkey

theorem loadRegistry_touchesOnly : Within (TouchesOnly A keys) loadRegistry :=
  touchesOnly_of_untouched (loadRegistry_untouched A.get_eq)

theorem setRegistry_touchesOnly (is : List Value) : Within (TouchesOnly A keys) (setRegistry is) :=
  touchesOnly_of_untouched (setRegistry_untouched is)

-- The operations that write

theorem saveAccount_touchesOnly (a : Account) :
    Within (TouchesOnly A [registryKey, accountKey a.index]) (saveAccount a) := by
  refine loadRegistry_touchesOnly.bind fun is => ?_
  exact (setAll_touchesOnly (List.Subset.refl _)).bind fun _ => setRegistry_touchesOnly _

theorem removeAccount_touchesOnly (index : Value) :
    Within (TouchesOnly A [registryKey, accountKey index]) (removeAccount index) := by
  refine loadRegistry_touchesOnly.bind fun is => ?_
  refine (remove_touchesOnly (by simp)).bind fun _ => (setRegistry_touchesOnly _).bind fun _ => ?_
  exact set_touchesOnly (by simp) _

theorem saveBuilder_touchesOnly (b : Builder) :
    Within (TouchesOnly A [builderKey, snapshotKey]) (saveBuilder b) := by
  refine (Action.within_ofExcept _).bind fun snapshot? => ?_
  cases snapshot? with
  | none => exact set_touchesOnly (by simp) _
  | some snapshot =>
      refine (Action.within_ofExcept _).bind fun persists => ?_
      cases persists with
      | true => exact setAll_touchesOnly (List.Subset.refl _)
      | false => exact (set_touchesOnly (by simp) _).bind fun _ => remove_touchesOnly (by simp)

theorem resaveBuilder_touchesOnly :
    Within (TouchesOnly A [builderKey, snapshotKey]) (resaveBuilder : Action (Session σ) Unit) := by
  refine (touchesOnly_of_untouched (getBuilder_untouched A.get_eq)).bind fun b? => ?_
  cases b? with
  | none => exact Action.within_fail _
  | some b => exact saveBuilder_touchesOnly b

-- The operations that read

theorem getAccounts_untouched : Within (Untouched A.sound) getAccounts :=
  (loadRegistry_untouched A.get_eq).bind (getRegistered_untouched A.get_eq)

-- Runs

-- The keys of the records that an operation may write or remove.
def Deed.footprint : Deed → List String
  | .save a => [registryKey, accountKey a.index]
  | .remove index => [registryKey, accountKey index]
  | .saveBuilder _ | .resaveBuilder => [builderKey, snapshotKey]
  | .getAccount _ | .getAccounts | .getIndexes | .getBuilder | .get _ _ => []

theorem answer_touchesOnly (deed : Deed) : Within (TouchesOnly A deed.footprint) (answer deed) := by
  have hget (key : String) (schema : Json.Schema) := get_untouched A.get_eq key schema
  cases deed with
  | save a => exact (saveAccount_touchesOnly a).bind fun _ => Action.within_pure _
  | remove index => exact (removeAccount_touchesOnly index).bind fun _ => Action.within_pure _
  | getAccount index => exact (touchesOnly_of_untouched (hget _ _)).bind fun _ => Action.within_pure _
  | getAccounts => exact (touchesOnly_of_untouched getAccounts_untouched).bind fun _ => Action.within_pure _
  | getIndexes => exact loadRegistry_touchesOnly.bind fun _ => Action.within_pure _
  | saveBuilder b => exact (saveBuilder_touchesOnly b).bind fun _ => Action.within_pure _
  | resaveBuilder => exact resaveBuilder_touchesOnly.bind fun _ => Action.within_pure _
  | getBuilder =>
      exact (touchesOnly_of_untouched (getBuilder_untouched A.get_eq)).bind fun _ => Action.within_pure _
  | get key schema => exact (touchesOnly_of_untouched (hget _ _)).bind fun _ => Action.within_pure _

def answerAll (deeds : List Deed) (s : Session σ) : Session σ :=
  deeds.foldl (fun s deed => (answer deed s).2) s

-- A record stays until an operation has its key in the footprint.
theorem answerAll_touchesOnly (deeds : List Deed) (s : Session σ) :
    TouchesOnly A (deeds.flatMap Deed.footprint) s (answerAll deeds s) := by
  induction deeds generalizing s with
  | nil => exact Std.Refl.refl (r := TouchesOnly A []) s
  | cons deed rest ih =>
      have hall : (deed :: rest).flatMap Deed.footprint =
          deed.footprint ++ rest.flatMap Deed.footprint := rfl
      have hfirst := (answer_touchesOnly (A := A) deed s).mono (List.subset_append_left _
        (rest.flatMap Deed.footprint))
      have hlater := (ih (answer deed s).2).mono (List.subset_append_right deed.footprint _)
      rw [hall]
      exact IsTrans.trans (r := TouchesOnly A _) _ _ _ hfirst hlater

-- The keys of the other accounts and of the configuration

theorem not_mem_accountKeys {i j : Int} (h : j ≠ i) :
    accountKey (.int j) ∉ [registryKey, accountKey (.int i)] := by
  have hne : accountKey (.int j) ≠ accountKey (.int i) := fun hk => h (accountKey_injective hk)
  simp [hne, accountKey_ne_registryKey]

theorem builderKey_not_mem (i : Int) : builderKey ∉ [registryKey, accountKey (.int i)] := by
  simp [(accountKey_ne_builderKey i).symm, show builderKey ≠ registryKey by decide]

theorem snapshotKey_not_mem (v : Value) : snapshotKey ∉ [registryKey, accountKey v] := by
  simp [(accountKey_ne_snapshotKey v).symm, show snapshotKey ≠ registryKey by decide]

theorem versionKey_not_mem (v : Value) : versionKey ∉ [registryKey, accountKey v] := by
  simp [versionKey_ne_accountKey v, versionKey_ne_registryKey]

-- Every record but the registry and that of the account.
structure OthersStay (A : Atomic σ) (i : Int) (s t : Session σ) : Prop where
  all : (A.view t.store).eraseAll [registryKey, accountKey (.int i)] =
    (A.view s.store).eraseAll [registryKey, accountKey (.int i)]
  account : ∀ j : Int, j ≠ i → (A.view t.store).get? (accountKey (.int j)) =
    (A.view s.store).get? (accountKey (.int j))
  builder : (A.view t.store).get? builderKey = (A.view s.store).get? builderKey
  snapshot : (A.view t.store).get? snapshotKey = (A.view s.store).get? snapshotKey
  version : (A.view t.store).get? versionKey = (A.view s.store).get? versionKey

theorem TouchesOnly.othersStay {i : Int} (h : TouchesOnly A [registryKey, accountKey (.int i)] s t)
    (hs : A.sound s.store) : OthersStay A i s t where
  all := (h hs).2
  account _ hj := h.get? hs (not_mem_accountKeys hj)
  builder := h.get? hs (builderKey_not_mem i)
  snapshot := h.get? hs (snapshotKey_not_mem _)
  version := h.get? hs (versionKey_not_mem _)

-- Whatever the outcome, saving and removing an account change no record but the registry and that
-- of the account, saving the configuration changes none but the configuration and the snapshot, and
-- reading leaves the store as it is. A run changes no record but those of its operations.
theorem other_records_stay (A : Atomic σ) (hs : A.sound s.store) :
    (∀ (a : Account) (i : Int), a.index = .int i → OthersStay A i s (saveAccount a s).2) ∧
    (∀ i : Int, OthersStay A i s (removeAccount (.int i) s).2) ∧
    (∀ b : Builder, (A.view (saveBuilder b s).2.store).eraseAll [builderKey, snapshotKey] =
      (A.view s.store).eraseAll [builderKey, snapshotKey]) ∧
    (∀ index : Value, (getAccount index s).2.store = s.store) ∧
    (getAccounts s).2.store = s.store ∧ (loadRegistry s).2.store = s.store ∧
    (getBuilder s).2.store = s.store ∧
    (∀ (key : String) (schema : Json.Schema),
      (onStore (fun storage => storage.get key schema) s).2.store = s.store) ∧
    ∀ deeds : List Deed, (A.view (answerAll deeds s).store).eraseAll (deeds.flatMap Deed.footprint) =
      (A.view s.store).eraseAll (deeds.flatMap Deed.footprint) := by
  have hget (key : String) (schema : Json.Schema) := (get_untouched A.get_eq key schema s).2 hs
  refine ⟨fun a i hi => ?_, fun i => ?_, fun b => ?_, fun index => hget _ _, ?_, ?_, ?_, hget,
    fun deeds => ?_⟩
  · have honly := saveAccount_touchesOnly (A := A) a s
    rw [hi] at honly
    exact honly.othersStay hs
  · exact TouchesOnly.othersStay (removeAccount_touchesOnly (.int i) s) hs
  · exact (saveBuilder_touchesOnly b s hs).2
  · exact (getAccounts_untouched s).2 hs
  · exact (loadRegistry_untouched A.get_eq s).2 hs
  · exact (getBuilder_untouched A.get_eq s).2 hs
  · exact (answerAll_touchesOnly deeds s hs).2

-- A database takes the configuration and rejects the record of an account.
theorem other_records_stay_after_failed_save :
    ∃ (d : DatabaseStore) (h : Host) (s : Session (Seat Backend)),
      DatabaseStore.openAt ⟨.here, ["wallet"]⟩ Host.empty = (.ok d, h) ∧
      s = (saveBuilder .empty
        ⟨⟨none⟩, none, (Backend.deny "wallet-account-7" ⟨h, .database d⟩).2⟩).2 ∧
      Backend.atomic.sound s.store ∧
      (saveAccount (.ofIndex (.int 7)) s).1 = .error (.storage .rejected) ∧
      OthersStay Backend.atomic 7 s (saveAccount (.ofIndex (.int 7)) s).2 := by
  obtain ⟨d, h, hopen, hsave⟩ : ∃ d h,
      DatabaseStore.openAt ⟨.here, ["wallet"]⟩ Host.empty = (.ok d, h) ∧
      (saveAccount (.ofIndex (.int 7)) (saveBuilder .empty (⟨⟨none⟩, none,
        (Backend.deny "wallet-account-7" ⟨h, .database d⟩).2⟩ : Session (Seat Backend))).2).1 =
        .error (.storage .rejected) := ⟨_, _, rfl, rfl⟩
  have hopened := Backend.Opened.database _ h _ d Disk.empty_sound hopen
  obtain ⟨hdenied, -⟩ := Backend.deny_same hopened.sound "wallet-account-7"
  have hsaved := (saveBuilder_touchesOnly (A := Backend.atomic) .empty ⟨⟨none⟩, none, _⟩
    (.inl hdenied)).1
  exact ⟨d, h, _, hopen, rfl, hsaved, hsave,
    (other_records_stay Backend.atomic hsaved).1 (.ofIndex (.int 7)) 7 rfl⟩

end Coffer.Wallet.Session
