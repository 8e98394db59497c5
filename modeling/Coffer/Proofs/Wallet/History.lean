import Coffer.Proofs.Store.Calm
import Coffer.Proofs.Wallet.Steps

-- Whole histories of a wallet in which nothing goes wrong: accounts and configurations are saved,
-- read and removed in sessions one after the other, and the store may be closed and opened again.

namespace Coffer.Wallet.Session

inductive Task where
  | save (a : TypedAccount)
  | remove (i : Int)
  | saveBuilder (b : TypedBuilder)
  | getAccount (i : Int)
  | getAccounts
  | getIndexes
  | getBuilder
  | newSession
  | reopen (kind : BackendKind) (threshold : Int)

-- Looking for an account that is not there is no failure of the run.
def perform (version : Int) : Task → Action (Session (Seat Backend)) Unit
  | .save a => saveAccount a.account
  | .remove i => removeAccount (.int i)
  | .saveBuilder b => Session.saveBuilder b.builder
  | .getAccount i => do let _ ← (Session.getAccount (.int i)).attempt
  | .getAccounts => do let _ ← Session.getAccounts
  | .getIndexes => do let _ ← loadRegistry
  | .getBuilder => do let _ ← Session.getBuilder
  | .newSession => Session.newSession (.int version)
  | .reopen kind threshold => do
      onStore fun _ => Backend.reopen kind threshold
      Session.newSession (.int version)

def performAll (version : Int) : List Task → Action (Session (Seat Backend)) Unit
  | [] => pure ()
  | task :: rest => do
      perform version task
      performAll version rest

-- The ordered map that saving and removing accounts makes: a new index goes last, and one that is
-- there keeps its place.
def change (m : Entries Int Account) : Task → Entries Int Account
  | .save a => m.put a.index a.account
  | .remove i => m.erase i
  | _ => m

def accountsAfter (tasks : List Task) : Entries Int Account := tasks.foldl change []

def buildersIn (tasks : List Task) : List Builder :=
  tasks.filterMap fun
    | .saveBuilder b => some b.builder
    | _ => none

def attached? (b : Builder) : Option SecretManager :=
  match b.secret with
  | .manager m => some m
  | _ => none

-- The manager that was attached last, unless it is a mnemonic.
def restored (bs : List Builder) : Option SecretManager :=
  match (bs.filterMap attached?).getLast? with
  | some (.mnemonic _) => none
  | m? => m?

theorem accountsAfter_append (tasks : List Task) (task : Task) :
    accountsAfter (tasks ++ [task]) = change (accountsAfter tasks) task := by
  simp [accountsAfter]

theorem restored_append (bs : List Builder) (b : Builder) :
    restored (bs ++ [b]) = keptBy (restored bs) b.secret := by
  unfold restored
  rw [List.filterMap_append]
  cases hsecret : b.secret with
  | none => simp [attached?, hsecret, keptBy]
  | plain v => simp [attached?, hsecret, keptBy]
  | manager m => cases m <;> simp [attached?, hsecret, keptBy]

theorem performAll_append (version : Int) (tasks : List Task) (task : Task) :
    performAll version (tasks ++ [task]) = performAll version tasks >>= fun _ => perform version task := by
  induction tasks with
  | nil => simp [performAll]
  | cons first tasks ih => simp only [List.cons_append, performAll, ih, bind_assoc]

section Run

variable {lasting : Prop} {storage : Storage} {version : Int} {m : Entries Int Account}
  {b? : Option Builder} {m? : Option SecretManager} {s : Session (Seat Backend)}

theorem Stands.reopen (hs : Stands (Backend.calm lasting) storage version m b? m? s)
    (hrange : 0 ≤ version ∧ version ≤ maxSchemaVersion) (hlasting : lasting) (kind : BackendKind)
    (threshold : Int) :
    ∃ t, perform version (.reopen kind threshold) s = (.ok (), t) ∧ t.registry = none ∧
      Stands (Backend.calm lasting) storage version m b? m? t := by
  obtain ⟨t, hreopen, ht, hview⟩ := Backend.calm_reopen hs.sound hlasting kind threshold
  have hsame : Stands (Backend.calm lasting) storage version m b? m? { s with store := t } :=
    ⟨hs.uses, ht, hview ▸ hs.version, hview ▸ hs.accounts, hs.cache, hview ▸ hs.config⟩
  obtain ⟨u, hnew, hregistry, hu⟩ := hsame.newSession hrange
  have honStore := onStore_of_eq (s := s) (f := fun _ => Backend.reopen kind threshold) hreopen
  exact ⟨u, (Action.bind_of_ok honStore).trans hnew, hregistry, hu⟩

-- One task is done, and what is known of the store follows it.
theorem Stands.perform {bs : List Builder}
    (hs : Stands (Backend.calm lasting) storage version m bs.getLast? (restored bs) s)
    (hrange : 0 ≤ version ∧ version ≤ maxSchemaVersion) (task : Task)
    (hlasting : ∀ kind threshold, task = .reopen kind threshold → lasting) :
    ∃ t, Session.perform version task s = (.ok (), t) ∧
      Stands (Backend.calm lasting) storage version (change m task)
        (bs ++ buildersIn [task]).getLast? (restored (bs ++ buildersIn [task])) t := by
  have hB := Backend.calm_faultless lasting
  have hsame (h : buildersIn [task] = []) : bs ++ buildersIn [task] = bs := by
    rw [h, List.append_nil]
  cases task with
  | save a =>
      rw [hsame rfl]
      exact hs.saveAccount hB a
  | remove i =>
      rw [hsame rfl]
      exact hs.removeAccount hB i
  | saveBuilder b =>
      have hlast : (bs ++ buildersIn [.saveBuilder b]).getLast? = some b.builder :=
        List.getLast?_concat
      have hrestored : restored (bs ++ buildersIn [.saveBuilder b]) =
          keptBy (restored bs) b.builder.secret := restored_append bs b.builder
      rw [hlast, hrestored]
      exact hs.saveBuilder hB b
  | getAccount i =>
      have hget := hs.getAccount i
      rw [hsame rfl]
      exact ⟨s, (Action.bind_of_ok (Action.attempt_of_eq hget)).trans rfl, hs⟩
  | getAccounts =>
      rw [hsame rfl]
      exact ⟨_, (Action.bind_of_ok hs.getAccounts).trans rfl, hs.loaded.2⟩
  | getIndexes =>
      rw [hsame rfl]
      exact ⟨_, (Action.bind_of_ok hs.loaded.1).trans rfl, hs.loaded.2⟩
  | getBuilder =>
      rw [hsame rfl]
      exact ⟨s, (Action.bind_of_ok hs.getBuilder).trans rfl, hs⟩
  | newSession =>
      obtain ⟨t, hnew, -, ht⟩ := hs.newSession hrange
      rw [hsame rfl]
      exact ⟨t, hnew, ht⟩
  | reopen kind threshold =>
      obtain ⟨t, hreopen, -, ht⟩ := hs.reopen hrange (hlasting kind threshold rfl) kind threshold
      rw [hsame rfl]
      exact ⟨t, hreopen, ht⟩

theorem stands_of_begun {st : Seat Backend} (hst : Backend.Begun st) (storage : Storage)
    (hrange : 0 ≤ version ∧ version ≤ maxSchemaVersion) :
    ∃ s, Session.newSession (.int version) ⟨storage, none, st⟩ = (.ok (), s) ∧
      Stands (Backend.calm (Backend.Lasts st)) storage version [] none none s := by
  have hempty := hst.view_eq
  obtain ⟨t, hgate, ht, hw⟩ := gate_of_absent (Backend.calm_faultless (Backend.Lasts st)) hst.sound storage
    hrange (by rw [hempty]; rfl)
  rw [hempty] at hw
  have hother (key : String) (hkey : key ≠ versionKey) :
      ((Backend.calm (Backend.Lasts st)).view t).get? key = none :=
    hw.others key (by simp [Entries.keys, hkey])
  have hversion := hw.reads _ List.mem_cons_self .any (fits_version hrange)
  refine ⟨⟨storage, none, t⟩, ?_, rfl, ht, hversion, ?_, .inl rfl, ?_⟩
  · simp only [Session.newSession, startSession, hgate]
  · have habsent : HasAccounts storage ((Backend.calm (Backend.Lasts st)).view t) [] :=
      ⟨by simp [Entries.get?], fun i _ => hother _ (versionKey_ne_accountKey _).symm⟩
    refine ⟨List.nodup_nil, by simp [InRange, Entries.keys], ?_, habsent, by simp [Entries.get?]⟩
    rw [stored, Storage.read_of_absent (hother _ (by decide))]
    rfl
  · exact ⟨by simp, fun _ => hother _ (by decide), by simp, fun _ => hother _ (by decide)⟩

-- After any history all tasks are done, and the records tell its outcome.
theorem performAll_stands {st : Seat Backend} (hst : Backend.Begun st) (storage : Storage)
    (hrange : 0 ≤ version ∧ version ≤ maxSchemaVersion) (tasks : List Task)
    (hreopen : ∀ kind threshold, .reopen kind threshold ∈ tasks → Backend.Lasts st) :
    ∃ s, performAll version (.newSession :: tasks) ⟨storage, none, st⟩ = (.ok (), s) ∧
      Stands (Backend.calm (Backend.Lasts st)) storage version (accountsAfter tasks)
        (buildersIn tasks).getLast? (restored (buildersIn tasks)) s := by
  induction tasks using List.reverseRecOn with
  | nil =>
      obtain ⟨s, hnew, hs⟩ := stands_of_begun hst storage hrange
      exact ⟨s, (Action.bind_of_ok hnew).trans rfl, hs⟩
  | append_singleton tasks task ih =>
      obtain ⟨s, hrun, hs⟩ := ih fun kind threshold h => hreopen kind threshold (List.mem_append_left _ h)
      obtain ⟨t, hperform, ht⟩ := hs.perform hrange task fun kind threshold h =>
        hreopen kind threshold (List.mem_append_right _ (by simp [h]))
      have hbuilders : buildersIn (tasks ++ [task]) = buildersIn tasks ++ buildersIn [task] :=
        List.filterMap_append
      rw [accountsAfter_append, hbuilders, ← List.cons_append, performAll_append]
      exact ⟨t, (Action.bind_of_ok hrun).trans hperform, ht⟩

-- The accounts

-- What is read of the accounts in a session is what the map holds.
structure Shows (s : Session (Seat Backend)) (m : Entries Int Account) : Prop where
  indexes : (loadRegistry s).1 = .ok (m.keys.map Value.int)
  accounts : (getAccounts s).1 = .ok (m.map fun e => e.2.toValue)
  account : ∀ i : Int, (getAccount (.int i) s).1 =
    (m.get? i).elim (.error (.notFound (accountKey (.int i)))) fun a => .ok a.toValue

theorem Stands.shows (hs : Stands (Backend.calm lasting) storage version m b? m? s) : Shows s m := by
  refine ⟨?_, ?_, fun i => ?_⟩
  · rw [hs.loaded.1]
    rfl
  · rw [hs.getAccounts]
  · rw [hs.getAccount]

-- Nothing that is asked of a wallet fails, and whatever has been saved and removed, the session
-- shows the accounts of the ordered map, and so does every session that is opened next.
theorem accounts_are_ordered_map (version : Int)
    (hrange : 0 ≤ version ∧ version ≤ maxSchemaVersion) (storage : Storage) {st : Seat Backend}
    (hst : Backend.Begun st) (tasks : List Task)
    (hreopen : ∀ kind threshold, .reopen kind threshold ∈ tasks → Backend.Lasts st) :
    ∃ s, performAll version (.newSession :: tasks) ⟨storage, none, st⟩ = (.ok (), s) ∧
      (accountsAfter tasks).keys.Nodup ∧ Shows s (accountsAfter tasks) ∧
      (∃ t, newSession (.int version) s = (.ok (), t) ∧ t.registry = none ∧
        Shows t (accountsAfter tasks)) ∧
      (Backend.Lasts st → ∀ kind threshold, ∃ t,
        perform version (.reopen kind threshold) s = (.ok (), t) ∧ t.registry = none ∧
          Shows t (accountsAfter tasks)) := by
  obtain ⟨s, hrun, hs⟩ := performAll_stands hst storage hrange tasks hreopen
  refine ⟨s, hrun, hs.accounts.nodup, hs.shows, ?_, fun hlasts kind threshold => ?_⟩
  · obtain ⟨t, hnew, hregistry, ht⟩ := hs.newSession hrange
    exact ⟨t, hnew, hregistry, ht.shows⟩
  · obtain ⟨t, hopen, hregistry, ht⟩ := hs.reopen hrange hlasts kind threshold
    exact ⟨t, hopen, hregistry, ht.shows⟩

-- An account is saved again, another one is removed and saved once more behind it, with the store
-- closed and opened in between.
theorem accounts_are_ordered_map_in_sealed_log :
    ∃ (h : Host) (l : LogStore) (key : Seal.Key) (first again second : TypedAccount)
        (tasks : List Task) (s : Session (Seat Backend)),
      LogStore.openAt ⟨.here, ["wallet"]⟩ 0 Host.empty = (.ok l, h) ∧ Backend.Begun ⟨h, .log l⟩ ∧
      Backend.Lasts ⟨h, .log l⟩ ∧ first.index = 7 ∧ again.index = 7 ∧ second.index = 4294967295 ∧
      again.account = { first.account with label := .text "spare" } ∧
      tasks = [.save second, .save first, .remove 4294967295, .reopen .log 1, .save again,
        .getAccount (-1), .newSession, .save second, .remove (-1)] ∧
      accountsAfter tasks = [(7, again.account), (4294967295, second.account)] ∧
      performAll 1 (.newSession :: tasks) ⟨⟨some key⟩, none, ⟨h, .log l⟩⟩ = (.ok (), s) ∧
      (accountsAfter tasks).keys.Nodup ∧ Shows s (accountsAfter tasks) ∧
      (∃ t, newSession (.int 1) s = (.ok (), t) ∧ t.registry = none ∧ Shows t (accountsAfter tasks)) ∧
      (Backend.Lasts ⟨h, .log l⟩ → ∀ kind threshold, ∃ t,
        perform 1 (.reopen kind threshold) s = (.ok (), t) ∧ t.registry = none ∧
          Shows t (accountsAfter tasks)) := by
  obtain ⟨l, h, hopen, hempty⟩ : ∃ l h,
      LogStore.openAt ⟨.here, ["wallet"]⟩ 0 Host.empty = (.ok l, h) ∧ l.records = [] :=
    ⟨_, _, rfl, rfl⟩
  have hst : Backend.Begun ⟨h, .log l⟩ := .log _ _ _ _ _ Disk.empty_sound Host.empty_spares hopen hempty
  have hlasts : Backend.Lasts ⟨h, .log l⟩ := nofun
  let first := TypedAccount.ofIndex 7 (by decide)
  let second := TypedAccount.ofIndex 4294967295 (by decide)
  let again : TypedAccount := ⟨7, { first.account with label := .text "spare" },
    { first.typed with label := ⟨"spare", rfl⟩ }, by decide⟩
  let tasks : List Task := [.save second, .save first, .remove 4294967295, .reopen .log 1, .save again,
    .getAccount (-1), .newSession, .save second, .remove (-1)]
  obtain ⟨s, hs⟩ := accounts_are_ordered_map 1 (by decide)
    ⟨some ⟨List.replicate 32 0, rfl⟩⟩ hst tasks fun _ _ _ => hlasts
  exact ⟨h, l, _, first, again, second, tasks, s, hopen, hst, hlasts, rfl, rfl, rfl, rfl, rfl, rfl, hs⟩

-- The configuration

-- The configuration that was saved last comes back with the manager that was attached last, unless
-- that is a mnemonic, and a snapshot is stored just when a manager comes back.
theorem configuration_follows_history (version : Int)
    (hrange : 0 ≤ version ∧ version ≤ maxSchemaVersion) (storage : Storage) {st : Seat Backend}
    (hst : Backend.Begun st) (tasks : List Task)
    (hreopen : ∀ kind threshold, .reopen kind threshold ∈ tasks → Backend.Lasts st) :
    ∃ s, performAll version (.newSession :: tasks) ⟨storage, none, st⟩ = (.ok (), s) ∧
      getBuilder s = (.ok ((buildersIn tasks).getLast?.map fun b =>
        b.withSecret ((restored (buildersIn tasks)).elim .none .manager)), s) ∧
      ((∃ text, (Backend.get snapshotKey s.store).1 = .ok text) ↔
        ∃ b m, (getBuilder s).1 = .ok (some b) ∧ b.secret = .manager m) := by
  obtain ⟨s, hrun, hs⟩ := performAll_stands hst storage hrange tasks hreopen
  have hbuilder := hs.getBuilder
  have hget : Backend.get snapshotKey s.store = _ :=
    (Backend.calm (Backend.Lasts st)).get_eq s.store snapshotKey hs.sound
  have hconfig := hs.config
  generalize buildersIn tasks = bs at hbuilder hconfig ⊢
  refine ⟨s, hrun, hbuilder, ?_⟩
  rw [hget, hbuilder]
  cases hrestored : restored bs with
  | none =>
      rw [MemoryStore.lookup, hconfig.unmanaged hrestored]
      constructor
      · rintro ⟨text, ⟨⟩⟩
      · rintro ⟨b, m, hb, hm⟩
        obtain ⟨c, -, rfl⟩ := Option.map_eq_some_iff.mp (Except.ok.inj hb)
        cases hm
  | some m =>
      obtain ⟨-, -, hread⟩ := hconfig.manager m hrestored
      obtain ⟨sealedText, hlookup, -⟩ := bind_eq_ok hread
      cases hlast : bs.getLast? with
      | none =>
          rw [List.getLast?_eq_none_iff.mp hlast] at hrestored
          cases hrestored
      | some c => exact ⟨fun _ => ⟨_, m, rfl, rfl⟩, fun _ => ⟨sealedText, hlookup⟩⟩

-- A manager is kept by a configuration without one, replaced by a mnemonic and attached anew.
theorem configuration_follows_history_of_switches :
    ∃ (h : Host) (d : DocumentStore) (hardware plain mnemonic vault : TypedBuilder)
        (tasks : List Task) (s : Session (Seat Backend)),
      DocumentStore.openAt ⟨.here, ["wallet"]⟩ Host.empty = (.ok d, h) ∧
      Backend.Begun ⟨h, .document d⟩ ∧ Backend.Lasts ⟨h, .document d⟩ ∧
      hardware.builder = ⟨.null, .dict [(.text "node", .int 3)], .int 60, .manager (.ledgerNano (.bool true))⟩ ∧
      plain.builder = ⟨.null, .null, .int 61, .none⟩ ∧
      mnemonic.builder = ⟨.null, .null, .null, .manager (.mnemonic [1, 2])⟩ ∧
      vault.builder = ⟨.null, .null, .null, .manager (.stronghold (.ofText "a//./b/") (.int 30))⟩ ∧
      tasks = [.saveBuilder hardware, .newSession, .saveBuilder mnemonic, .saveBuilder vault,
        .reopen .document 0, .saveBuilder plain] ∧
      restored (buildersIn tasks) = some (.stronghold ⟨.here, ["a", "b"]⟩ (.int 30)) ∧
      performAll 1 (.newSession :: tasks) ⟨⟨none⟩, none, ⟨h, .document d⟩⟩ = (.ok (), s) ∧
      getBuilder s = (.ok ((buildersIn tasks).getLast?.map fun b =>
        b.withSecret ((restored (buildersIn tasks)).elim .none .manager)), s) ∧
      ((∃ text, (Backend.get snapshotKey s.store).1 = .ok text) ↔
        ∃ b m, (getBuilder s).1 = .ok (some b) ∧ b.secret = .manager m) := by
  obtain ⟨d, h, hopen, hempty⟩ : ∃ d h,
      DocumentStore.openAt ⟨.here, ["wallet"]⟩ Host.empty = (.ok d, h) ∧ d.records = [] :=
    ⟨_, _, rfl, rfl⟩
  have hst : Backend.Begun ⟨h, .document d⟩ := .document _ _ _ _ Disk.empty_sound Host.empty_spares hopen hempty
  have hlasts : Backend.Lasts ⟨h, .document d⟩ := nofun
  have hword (n : Int) (hn : Json.fitsWord n = true) : IsNullOr IsWord (.int n) := .inr ⟨n, rfl, hn⟩
  have hnode : IsMapping (.dict [(.text "node", .int 3)]) :=
    ⟨[("node", .int 3)], rfl, by decide, by simpa using Json.IsTree.int 3 (by decide)⟩
  let hardware : TypedBuilder :=
    ⟨⟨.null, .dict [(.text "node", .int 3)], .int 60, .manager (.ledgerNano (.bool true))⟩,
      ⟨.inl rfl, .inr hnode, hword 60 (by decide), .manager _ (.ledgerNano true)⟩, by decide⟩
  let plain : TypedBuilder :=
    ⟨⟨.null, .null, .int 61, .none⟩, ⟨.inl rfl, .inl rfl, hword 61 (by decide), .none⟩, by decide⟩
  let mnemonic : TypedBuilder :=
    ⟨⟨.null, .null, .null, .manager (.mnemonic [1, 2])⟩,
      ⟨.inl rfl, .inl rfl, .inl rfl, .manager _ (.mnemonic [1, 2])⟩, by decide⟩
  let vault : TypedBuilder :=
    ⟨⟨.null, .null, .null, .manager (.stronghold (.ofText "a//./b/") (.int 30))⟩,
      ⟨.inl rfl, .inl rfl, .inl rfl, .manager _ (.stronghold "a//./b/" _ (hword 30 (by decide)))⟩,
      by decide⟩
  let tasks : List Task := [.saveBuilder hardware, .newSession, .saveBuilder mnemonic,
    .saveBuilder vault, .reopen .document 0, .saveBuilder plain]
  have hrestored : restored (buildersIn tasks) = some (.stronghold ⟨.here, ["a", "b"]⟩ (.int 30)) := rfl
  obtain ⟨s, hs⟩ := configuration_follows_history 1 (by decide) ⟨none⟩ hst tasks fun _ _ _ => hlasts
  exact ⟨h, d, hardware, plain, mnemonic, vault, tasks, s, hopen, hst, hlasts, rfl, rfl, rfl, rfl, rfl,
    hrestored, hs⟩

end Run

end Coffer.Wallet.Session
