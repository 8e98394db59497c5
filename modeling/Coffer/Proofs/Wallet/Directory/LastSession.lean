import Coffer.Proofs.Wallet.Directory.Run

-- The document of a directory keeps the accounts of all sessions that save to it. Which of them are
-- listed at the end is up to the session that saves last.

namespace Coffer.Wallet.Directory

open Session
open Sharing (Common Beside IsName)

-- What a session that is opened at the end shows

-- The list, the account behind each index, and the listed ones if they have fields of the declared
-- types; a record that has not is decoded from what was written.
structure Shows (s : Session (Seat Backend)) (is : List Nat) (m : Entries Int Account) : Prop where
  indexes : (loadRegistry s).1 = .ok (indexes is)
  accounts : (∀ i ∈ is, ∀ a, m.get? (i : Int) = some a → a.IsTyped i) →
    ∃ as : List Account, (getAccounts s).1 = .ok (as.map Account.toValue) ∧
      List.Forall₂ (fun (i : Nat) a => m.get? (i : Int) = some a) is as
  typed : ∀ (i : Nat) a, m.get? (i : Int) = some a → a.IsTyped i →
    (getAccount (.int i) s).1 = .ok a.toValue
  record : ∀ i a, m.get? i = some a → ∃ text, Json.encode a.toValue = .ok text ∧
    (getAccount (.int i) s).1 = Storage.decode (accountKey (.int i)) accountSchema text
  absent : ∀ i, m.get? i = none → (getAccount (.int i) s).1 = .error (.notFound (accountKey (.int i)))

section Fresh

variable {storage : Storage} {version : Int} {names : PathName → Prop} {place : Place}
  {d : DocumentStore} {es : Entries String String} {m : Entries Int Account} {is : List Nat}
  {t : Seat Backend}

theorem accountsOf_indexes (hm : HasAccounts storage es m) (his : Names m is)
    (htyped : ∀ i ∈ is, ∀ a, m.get? (i : Int) = some a → a.IsTyped i) :
    ∃ as : List Account, accountsOf storage es (indexes is) = .ok (as.map Account.toValue) ∧
      List.Forall₂ (fun (i : Nat) a => m.get? (i : Int) = some a) is as := by
  induction is with
  | nil => exact ⟨[], rfl, .nil⟩
  | cons i is ih =>
      obtain ⟨-, a, ha⟩ := his i List.mem_cons_self
      obtain ⟨as, hrest, has⟩ := ih (fun j hj => his j (List.mem_cons_of_mem _ hj))
        fun j hj => htyped j (List.mem_cons_of_mem _ hj)
      have hread := hm.read_typed ha (htyped i List.mem_cons_self a ha)
      refine ⟨a :: as, ?_, .cons ha has⟩
      change accountsOf storage es (.int i :: indexes is) = _
      rw [accountsOf, hread, hrest]
      rfl

theorem shows_of_beside (ht : Beside names place ⟨d.directory, es⟩ es t) (hname : names d.directory)
    (hes : Tells storage version es (some is)) (hm : HasAccounts storage es m) (his : Names m is) :
    Shows ⟨storage, none, t⟩ is m := by
  obtain ⟨h, store⟩ := t
  obtain rfl : store = .document ⟨d.directory, es⟩ := ht.store
  obtain ⟨hsound, hview⟩ := ht.common.calm_sound hname
  let s : Session (Seat Backend) := ⟨storage, none, ⟨h, .document ⟨d.directory, es⟩⟩⟩
  have hknown : known (Backend.calm True) s = .ok (indexes is) := by
    rw [known, hview]
    exact hes.registry is rfl
  have haccounts := getAccounts_of_known (s := s) hsound hknown
  have hget (index : Value) : (getAccount index s).1 =
      storage.read es (accountKey index) accountSchema := by rw [getAccount_eq (s := s) hsound, hview]
  refine ⟨by rw [loadRegistry_of_known (s := s) hsound hknown], fun htyped => ?_,
    fun i a ha htyped => (hget _).trans (hm.read_typed ha htyped), fun i a ha => ?_,
    fun i hi => (hget _).trans (Storage.read_of_absent (hm.absent i hi))⟩
  · obtain ⟨as, has, hall⟩ := accountsOf_indexes hm his htyped
    rw [hview] at haccounts
    rw [haccounts, has]
    exact ⟨as, rfl, hall⟩
  · obtain ⟨text, henc, hread⟩ := hm.account i a ha
    exact ⟨text, henc, (hget _).trans hread⟩

-- The gate of a session whose store has seen the document.
theorem gate_fresh {h : Host} {listed : Option (List Nat)}
    (hrange : 0 ≤ version ∧ version ≤ maxSchemaVersion) (hc : Common names place h es)
    {directory : PathName} (hname : names directory) (hes : Tells storage version es listed) :
    ∃ t es', gate storage (.int version) (⟨h, .document ⟨directory, es⟩⟩ : Seat Backend) = (.ok (), t) ∧
      Beside names place ⟨directory, es'⟩ es' t ∧
      Tells storage version es' (some (listed.getD [])) ∧
      ∀ m, HasAccounts storage es m → HasAccounts storage es' m := by
  cases listed with
  | some is => exact ⟨_, es, gate_passes hrange h hes, ⟨rfl, hc⟩, hes, fun _ hm => hm⟩
  | none => exact gate_begins (d := ⟨directory, es⟩) hrange hc hname hes hes

theorem Meets.fresh {stores sessions : List Nat} {v : Views} {w : World}
    (hs : Meets storage version names place stores sessions v m w)
    (hrange : 0 ≤ version ∧ version ≤ maxSchemaVersion) {directory : PathName}
    (hname : names directory) (k : Nat) :
    ∃ w' s, Directory.performAll storage version [.openStore k directory, .openSession k] w = (.ok (), w') ∧
      w'.session storage k = some s ∧ Shows s (v.listed.getD []) m := by
  obtain ⟨es, hc, hes, hm⟩ := hs.document
  obtain ⟨t, es', hgate, ht, hes', hm'⟩ := gate_fresh hrange hc hname hes
  let w₁ : World := ⟨w.host, Function.update w.opened k (some ⟨.document ⟨directory, es⟩, none⟩)⟩
  have hopen : Directory.openStore k directory w = (.ok (), w₁) := by
    rw [Directory.openStore, DocumentStore.openAt_of_kept (hc.kept directory hname)]
  have ho : w₁.opened k = some ⟨.document ⟨directory, es⟩, none⟩ := Function.update_self ..
  have hsession := openSession_of_gate ho hgate
  refine ⟨_, ⟨storage, none, t⟩, (Action.bind_of_ok hopen).trans ((Action.bind_of_ok hsession).trans rfl),
    ?_, shows_of_beside (d := ⟨directory, es'⟩) ht hname hes' (hm' m hm) hs.names_listed⟩
  simp only [World.session, Function.update_self]

end Fresh

-- No store is open on the host.
def unopened (h : Host) : World := ⟨h, fun _ => none⟩

theorem tells_empty (storage : Storage) (version : Int) : Tells storage version [] none :=
  ⟨fun _ => ⟨rfl, rfl⟩, nofun, nofun⟩

theorem hasAccounts_empty (storage : Storage) : HasAccounts storage [] [] := ⟨nofun, fun _ _ => rfl⟩

theorem meets_unopened {storage : Storage} {version : Int} {h h₀ : Host} {directory : PathName}
    {d : DocumentStore} (hd : h.disk.Sound) (hcalm : ∀ call, h.Spares call)
    (hopen : DocumentStore.openAt directory h = (.ok d, h₀)) {listed : Option (List Nat)}
    {m : Entries Int Account} (hes : Tells storage version d.records listed)
    (hm : HasAccounts storage d.records m) (hnamed : ∀ is, listed = some is → Names m is) :
    ∃ place, IsName h₀ directory directory ∧ Meets storage version (IsName h₀ directory) place [] []
      ⟨listed, fun _ => none⟩ m (unopened h₀) := by
  obtain ⟨place, hc, hname⟩ := Sharing.common_of_openAt hd hcalm hopen
  exact ⟨place, hname, ⟨d.records, hc, hes, hm⟩, hnamed, nofun, nofun⟩

-- Sessions are opened on one directory and save accounts, in any order. No step fails, and every
-- record stays for good. The list is the one of the session that saved last: what its store had seen
-- of the list, and after that what it has saved itself. So nothing is missing on it if one session
-- followed the other.
theorem list_of_last_session (storage : Storage) {version : Int}
    (hrange : 0 ≤ version ∧ version ≤ maxSchemaVersion) {h h₀ : Host} {directory : PathName}
    {d : DocumentStore} (hd : h.disk.Sound) (hcalm : ∀ call, h.Spares call)
    (hopen : DocumentStore.openAt directory h = (.ok d, h₀)) {listed : Option (List Nat)}
    {m : Entries Int Account} (hes : Tells storage version d.records listed)
    (hm : HasAccounts storage d.records m) (hnamed : ∀ is, listed = some is → Names m is)
    {steps : List Step} (hlegal : Legal [] [] steps)
    (hnames : ∀ i other, .openStore i other ∈ steps → IsName h₀ directory other) :
    ∃ w, performAll storage version steps (unopened h₀) = (.ok (), w) ∧
      (∀ k, ∃ w' s, performAll storage version [.openStore k directory, .openSession k] w = (.ok (), w') ∧
        w'.session storage k = some s ∧
        Shows s ((viewsAfter listed steps).listed.getD []) (accountsAfter m steps)) ∧
      (∀ before after i is, steps = before ++ after → (viewsAfter listed before).seen i = some is →
        (∀ other, .openStore i other ∉ after) → SavesLast i after →
        (viewsAfter listed steps).listed = some ((savedBy i after).foldl added is)) ∧
      (Successive none steps →
        (viewsAfter listed steps).listed.getD [] = (savedIn steps).foldl added (listed.getD [])) := by
  obtain ⟨place, hname, hs⟩ := meets_unopened hd hcalm hopen hes hm hnamed
  obtain ⟨w, stores, sessions, hrun, hw⟩ := hs.performAll hrange hlegal hnames
  refine ⟨w, hrun, hw.fresh hrange hname, fun before after i is hsplit hseen hother hlast => ?_,
    listed_of_successive nofun⟩
  rw [viewsAfter, hsplit, List.foldl_append]
  exact listed_of_savesLast hseen hother hlast

-- The second session has seen the list when its store was opened, and what the first one saves after
-- that is gone from it. The third one sees the list that the second one leaves.
theorem list_of_last_session_of_three :
    ∃ (h₀ : Host) (d : DocumentStore) (key : Seal.Key) (first second third fourth : SavableAccount)
        (steps : List Step) (w : World),
      DocumentStore.openAt ⟨.here, ["s"]⟩ Host.empty = (.ok d, h₀) ∧ d.records = [] ∧
      Legal [] [] steps ∧
      (∀ i other, .openStore i other ∈ steps → IsName h₀ ⟨.here, ["s"]⟩ other) ∧
      steps = [.openStore 0 ⟨.here, ["s"]⟩, .openSession 0, .save 0 first,
        .openStore 1 ⟨.here, ["s", "..", "s"]⟩, .save 0 second, .openSession 1, .save 1 third,
        .openStore 2 ⟨.here, ["s"]⟩, .openSession 2, .save 2 fourth] ∧
      (first.index, second.index, third.index, fourth.index) = (7, 8, 4294967295, 0) ∧
      (viewsAfter none steps).listed = some [7, 4294967295, 0] ∧
      performAll ⟨some key⟩ 1 steps (unopened h₀) = (.ok (), w) ∧
      (∀ k, ∃ w' s, performAll ⟨some key⟩ 1 [.openStore k ⟨.here, ["s"]⟩, .openSession k] w =
          (.ok (), w') ∧ w'.session ⟨some key⟩ k = some s ∧
        Shows s ((viewsAfter none steps).listed.getD []) (accountsAfter [] steps)) ∧
      (∀ before after i is, steps = before ++ after → (viewsAfter none before).seen i = some is →
        (∀ other, .openStore i other ∉ after) → SavesLast i after →
        (viewsAfter none steps).listed = some ((savedBy i after).foldl added is)) ∧
      (Successive none steps →
        (viewsAfter none steps).listed.getD [] = (savedIn steps).foldl added []) := by
  obtain ⟨d, h₀, hopen, hempty, hname, hother⟩ : ∃ d h₀,
      DocumentStore.openAt ⟨.here, ["s"]⟩ Host.empty = (.ok d, h₀) ∧ d.records = [] ∧
      IsName h₀ ⟨.here, ["s"]⟩ ⟨.here, ["s"]⟩ ∧ IsName h₀ ⟨.here, ["s"]⟩ ⟨.here, ["s", "..", "s"]⟩ :=
    ⟨_, _, rfl, rfl, ⟨rfl, _, _, rfl⟩, rfl, _, _, rfl⟩
  let first := (TypedAccount.ofIndex 7 (by decide)).savable
  let second := (TypedAccount.ofIndex 8 (by decide)).savable
  let third := (TypedAccount.ofIndex 4294967295 (by decide)).savable
  let fourth := (TypedAccount.ofIndex 0 (by decide)).savable
  let steps : List Step := [.openStore 0 ⟨.here, ["s"]⟩, .openSession 0, .save 0 first,
    .openStore 1 ⟨.here, ["s", "..", "s"]⟩, .save 0 second, .openSession 1, .save 1 third,
    .openStore 2 ⟨.here, ["s"]⟩, .openSession 2, .save 2 fourth]
  have hlegal : Legal [] [] steps := by simp [steps, Legal]
  have hnames : ∀ i other, .openStore i other ∈ steps → IsName h₀ ⟨.here, ["s"]⟩ other := by
    intro i other hmem
    have hcases : i = 0 ∧ other = ⟨.here, ["s"]⟩ ∨ i = 1 ∧ other = ⟨.here, ["s", "..", "s"]⟩ ∨
        i = 2 ∧ other = ⟨.here, ["s"]⟩ := by simpa [steps] using hmem
    rcases hcases with ⟨-, rfl⟩ | ⟨-, rfl⟩ | ⟨-, rfl⟩
    · exact hname
    · exact hother
    · exact hname
  let key : Seal.Key := ⟨List.replicate 32 0, rfl⟩
  have hes : Tells ⟨some key⟩ 1 d.records none := hempty ▸ tells_empty _ 1
  have hm : HasAccounts ⟨some key⟩ d.records [] := hempty ▸ hasAccounts_empty _
  obtain ⟨w, hw⟩ := list_of_last_session ⟨some key⟩ (by decide) Disk.empty_sound Host.empty_spares hopen hes hm
    nofun hlegal hnames
  exact ⟨h₀, d, key, first, second, third, fourth, steps, w, hopen, hempty, hlegal, hnames, rfl, rfl,
    rfl, hw⟩

-- Two sessions have opened a new directory and save an account each. Only the second one is listed.
theorem account_unlisted :
    ∃ (h₀ : Host) (d : DocumentStore) (first second : SavableAccount) (w w' : World)
        (s : Session (Seat Backend)),
      DocumentStore.openAt ⟨.here, ["s"]⟩ Host.empty = (.ok d, h₀) ∧
      first.account = .ofIndex (.int 1) ∧ second.account = .ofIndex (.int 2) ∧
      performAll ⟨none⟩ 1 [.openStore 0 ⟨.here, ["s"]⟩, .openStore 1 ⟨.here, ["s"]⟩, .openSession 0,
        .openSession 1, .save 0 first, .save 1 second] (unopened h₀) = (.ok (), w) ∧
      performAll ⟨none⟩ 1 [.openStore 2 ⟨.here, ["s"]⟩, .openSession 2] w = (.ok (), w') ∧
      w'.session ⟨none⟩ 2 = some s ∧ (loadRegistry s).1 = .ok [second.account.index] ∧
      first.account.index ∉ [second.account.index] ∧
      (getAccounts s).1 = .ok [second.account.toValue] ∧
      (getAccount first.account.index s).1 = .ok first.account.toValue := by
  obtain ⟨d, h₀, hopen, hempty⟩ : ∃ d h₀,
      DocumentStore.openAt ⟨.here, ["s"]⟩ Host.empty = (.ok d, h₀) ∧ d.records = [] :=
    ⟨_, _, rfl, rfl⟩
  let first := (TypedAccount.ofIndex 1 (by decide)).savable
  let second := (TypedAccount.ofIndex 2 (by decide)).savable
  let steps : List Step := [.openStore 0 ⟨.here, ["s"]⟩, .openStore 1 ⟨.here, ["s"]⟩, .openSession 0,
    .openSession 1, .save 0 first, .save 1 second]
  have hrange : (0 : Int) ≤ 1 ∧ (1 : Int) ≤ maxSchemaVersion := by decide
  have hes : Tells ⟨none⟩ 1 d.records none := hempty ▸ tells_empty _ 1
  have hm : HasAccounts ⟨none⟩ d.records [] := hempty ▸ hasAccounts_empty _
  obtain ⟨place, hname, hs⟩ := meets_unopened Disk.empty_sound Host.empty_spares hopen hes hm nofun
  have hnames : ∀ i other, .openStore i other ∈ steps → IsName h₀ ⟨.here, ["s"]⟩ other := by
    intro i other hmem
    have hcases : i = 0 ∧ other = ⟨.here, ["s"]⟩ ∨ i = 1 ∧ other = ⟨.here, ["s"]⟩ := by
      simpa [steps] using hmem
    rcases hcases with ⟨-, rfl⟩ | ⟨-, rfl⟩ <;> exact hname
  obtain ⟨w, stores, sessions, hrun, hw⟩ := hs.performAll hrange (by simp [steps, Legal]) hnames
  obtain ⟨w', s, hfresh, hsession, hshows⟩ := hw.fresh hrange hname 2
  have htyped : ∀ i ∈ [2], ∀ a, (accountsAfter [] steps).get? ((i : Nat) : Int) = some a →
      a.IsTyped i := by
    intro i hi a ha
    obtain rfl : i = 2 := by simpa using hi
    obtain rfl : second.account = a := Option.some.inj ha
    exact isTyped_ofIndex (by decide)
  obtain ⟨as, has, hall⟩ := hshows.accounts htyped
  have hsecond : as = [second.account] := by
    cases hall with
    | @cons _ a _ _ ha hrest =>
        cases hrest
        rw [← Option.some.inj ha]
  subst hsecond
  exact ⟨h₀, d, first, second, w, w', s, hopen, rfl, rfl, hrun, hfresh, hsession, hshows.indexes,
    by simp [first, second, TypedAccount.savable, TypedAccount.ofIndex, Account.ofIndex], has,
    hshows.typed 1 first.account rfl (isTyped_ofIndex (by decide))⟩

end Coffer.Wallet.Directory
