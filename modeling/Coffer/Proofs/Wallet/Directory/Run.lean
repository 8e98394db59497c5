import Coffer.Proofs.Store.Behind
import Coffer.Proofs.Wallet.Directory.Views
import Coffer.Proofs.Wallet.Steps

-- What the steps of sessions that share a directory do to its document and to what their stores have
-- seen of it.

namespace Coffer.Wallet.Directory

open Session
open Sharing (Common Beside IsName)

-- A store and, once there is one, the session on it with the registry that it has loaded, if it has.
structure Opened where
  store : Backend
  session : Option (Option (List Value))

structure World where
  host : Host
  opened : Nat → Option Opened

def World.session (storage : Storage) (w : World) (i : Nat) : Option (Session (Seat Backend)) :=
  match w.opened i with
  | some ⟨store, some registry⟩ => some ⟨storage, registry, ⟨w.host, store⟩⟩
  | _ => none

def openStore (i : Nat) (directory : PathName) : Action World Unit := fun w =>
  match DocumentStore.openAt directory w.host with
  | (.ok d, h) => (.ok (), ⟨h, Function.update w.opened i (some ⟨.document d, none⟩)⟩)
  | (.error e, h) => (.error e, { w with host := h })

def openSession (storage : Storage) (version : Value) (i : Nat) : Action World Unit := fun w =>
  match w.opened i with
  | none => (.ok (), w)
  | some o =>
      match gate storage version (⟨w.host, o.store⟩ : Seat Backend) with
      | (.ok (), t) => (.ok (), ⟨t.host, Function.update w.opened i (some ⟨t.store, some none⟩)⟩)
      | (.error e, t) => (.error e, ⟨t.host, Function.update w.opened i (some ⟨t.store, o.session⟩)⟩)

def save (storage : Storage) (i : Nat) (a : Account) : Action World Unit := fun w =>
  match w.session storage i with
  | none => (.ok (), w)
  | some s =>
      match saveAccount a s with
      | (r, t) =>
          (r, ⟨t.store.host, Function.update w.opened i (some ⟨t.store.store, some t.registry⟩)⟩)

def perform (storage : Storage) (version : Int) : Step → Action World Unit
  | .openStore i directory => openStore i directory
  | .openSession i => openSession storage (.int version) i
  | .save i a => save storage i a.account

def performAll (storage : Storage) (version : Int) : List Step → Action World Unit
  | [] => pure ()
  | step :: rest => do
      perform storage version step
      performAll storage version rest

-- What records say of the version and of the list: nothing before there is a session.
structure Tells (storage : Storage) (version : Int) (es : Entries String String)
    (listed : Option (List Nat)) : Prop where
  unused : listed = none → es.get? versionKey = none ∧ es.get? registryKey = none
  version : ∀ is, listed = some is → storage.read es versionKey .any = .ok (.int version)
  registry : ∀ is, listed = some is → stored storage es = .ok (indexes is)

-- Every index on the list is one of an account.
def Names (m : Entries Int Account) (is : List Nat) : Prop :=
  ∀ i ∈ is, i ≤ 0xFFFFFFFF ∧ ∃ a, m.get? (i : Int) = some a

theorem register_added (is : List Nat) (a : SavableAccount) :
    register (indexes is) a.account.index = indexes (added is a.index) := by
  rw [a.named, register_indexes]
  rfl

section Records

variable {storage : Storage} {version : Int} {es es' : Entries String String}
  {listed : Option (List Nat)} {m : Entries Int Account} {is : List Nat}

theorem Names.saved (h : Names m is) (a : SavableAccount) :
    Names (m.put a.index a.account) is := by
  intro i hi
  obtain ⟨hbound, b, hb⟩ := h i hi
  refine ⟨hbound, ?_⟩
  rw [Entries.get?_put]
  split
  · exact ⟨_, rfl⟩
  · exact ⟨b, hb⟩

theorem Names.added (h : Names m is) (a : SavableAccount) :
    Names (m.put a.index a.account) (added is a.index) := by
  intro i hi
  rcases (mem_added is a.index i).mp hi with hi | rfl
  · exact h.saved a i hi
  · refine ⟨a.bound, a.account, ?_⟩
    rw [Entries.get?_put]
    simp

theorem Tells.list (h : Tells storage version es listed) :
    stored storage es = .ok (indexes (listed.getD [])) := by
  cases hlisted : listed with
  | some is => exact h.registry is hlisted
  | none =>
      rw [stored, Storage.read_of_absent (h.unused hlisted).2]
      rfl

-- The version is written, which begins the list if there is none.
theorem Tells.begun (h : Tells storage version es listed)
    (hrange : 0 ≤ version ∧ version ≤ maxSchemaVersion)
    (hw : storage.Wrote [(versionKey, .int version)] es es') :
    Tells storage version es' (some (listed.getD [])) := by
  refine ⟨by simp, fun is _ => hw.reads _ List.mem_cons_self .any (fits_version hrange), fun is his => ?_⟩
  have hregistry : es'.get? registryKey = es.get? registryKey :=
    hw.others _ (by simp [Entries.keys, versionKey, registryKey])
  rw [stored_congr storage hregistry, h.list, Option.some.inj his]

-- A session writes the list that it goes by, whatever the document said.
theorem Tells.saved (h : Tells storage version es listed) (hlisted : listed ≠ none) (a : SavableAccount)
    (hbound : ∀ i ∈ is, i ≤ 0xFFFFFFFF)
    (hw : storage.Wrote (saved (indexes is) a.account) es es') :
    Tells storage version es' (some (added is a.index)) := by
  obtain ⟨js, hjs⟩ := Option.ne_none_iff_exists'.mp hlisted
  rw [Session.saved, register_added] at hw
  have hversion : es'.get? versionKey = es.get? versionKey :=
    hw.others _ (by simp [Entries.keys, versionKey_ne_registryKey, versionKey_ne_accountKey])
  have hread := hw.reads _ List.mem_cons_self registrySchema
    (fits_registry _ (bound_added hbound a.bound))
  refine ⟨by simp, fun _ _ => ?_, fun ks hks => ?_⟩
  · rw [Storage.read_congr hversion]
    exact h.version js hjs
  · rw [← Option.some.inj hks]
    exact stored_of_read hread

end Records

-- A session on a store that may have missed commits

section Stores

variable {storage : Storage} {version : Int} {names : PathName → Prop} {place : Place} {h : Host}
  {d : DocumentStore} {es : Entries String String} {listed seen : Option (List Nat)}
  {m : Entries Int Account} {is : List Nat}

theorem gate_passes (hrange : 0 ≤ version ∧ version ≤ maxSchemaVersion) (h : Host)
    (hd : Tells storage version d.records (some is)) :
    gate storage (.int version) (⟨h, .document d⟩ : Seat Backend) = (.ok (), ⟨h, .document d⟩) :=
  gate_of_version storage hrange (Sharing.reads_seen d h versionKey .any) (hd.version is rfl)

theorem gate_begins (hrange : 0 ≤ version ∧ version ≤ maxSchemaVersion)
    (hc : Common names place h es) (hname : names d.directory)
    (hd : Tells storage version d.records none) (hes : Tells storage version es listed) :
    ∃ t es', gate storage (.int version) (⟨h, .document d⟩ : Seat Backend) = (.ok (), t) ∧
      Beside names place ⟨d.directory, es'⟩ es' t ∧
      Tells storage version es' (some (listed.getD [])) ∧
      ∀ m, HasAccounts storage es m → HasAccounts storage es' m := by
  have hbeside : Beside names place d es ⟨h, .document d⟩ := ⟨rfl, hc⟩
  obtain ⟨t, hgate, es', ht, hw⟩ := gate_of_no_version storage hrange
    (Sharing.reads_seen d h versionKey .any) (hd.unused rfl).1 hbeside.noted
    (Q := fun t => ∃ es', Beside names place ⟨d.directory, es'⟩ es' t ∧
      storage.Wrote [(versionKey, .int version)] es es') fun t ht => by
        obtain ⟨u, es', hset, hu⟩ := ht.setAll storage hname
          [(versionKey, .int version)] (by simpa using encode_int version) (by simp [Entries.keys])
        exact ⟨u, hset, es', hu⟩
  refine ⟨t, es', hgate, ht, hes.begun hrange hw, fun m hm => hm.congr fun i => ?_⟩
  exact hw.others _ (by simp [Entries.keys, (versionKey_ne_accountKey _).symm])

-- The session goes by the list that its store has seen, or by the one that it has loaded before.
theorem loadRegistry_seen {registry : Option (List Value)} (h : Host)
    (hd : Tells storage version d.records (some is))
    (hregistry : registry = none ∨ registry = some (indexes is)) :
    loadRegistry (⟨storage, registry, ⟨h, .document d⟩⟩ : Session (Seat Backend)) =
      (.ok (indexes is), ⟨storage, some (indexes is), ⟨h, .document d⟩⟩) := by
  rcases hregistry with rfl | rfl
  · exact loadRegistry_of_stored (Sharing.reads_seen d h registryKey registrySchema)
      (hd.registry is rfl)
  · rfl

theorem saveAccount_seen {registry : Option (List Value)} (hc : Common names place h es)
    (hname : names d.directory) (hd : Tells storage version d.records (some is))
    (hregistry : registry = none ∨ registry = some (indexes is)) (hbound : ∀ i ∈ is, i ≤ 0xFFFFFFFF)
    (hes : Tells storage version es listed) (hlisted : listed ≠ none)
    (hm : HasAccounts storage es m) (a : SavableAccount) :
    ∃ t es', saveAccount a.account (⟨storage, registry, ⟨h, .document d⟩⟩ : Session (Seat Backend)) =
        (.ok (), ⟨storage, some (indexes (added is a.index)), t⟩) ∧
      Beside names place ⟨d.directory, es'⟩ es' t ∧
      Tells storage version es' (some (added is a.index)) ∧
      HasAccounts storage es' (m.put a.index a.account) := by
  have hload := loadRegistry_seen h hd hregistry
  have hencode : ∀ r ∈ saved (indexes is) a.account, ∃ text, Json.encode r.2 = .ok text := by
    have hlist := encode_indexes (bound_added hbound a.bound)
    rw [← register_added] at hlist
    simpa [saved] using ⟨hlist, a.encodes⟩
  have hnodup : (saved (indexes is) a.account).keys.Nodup := by
    simp [saved, Entries.keys, (accountKey_ne_registryKey a.account.index).symm]
  have hbeside : Beside names place d es ⟨h, .document d⟩ := ⟨rfl, hc⟩
  obtain ⟨t, es', hset, ht, hw⟩ := hbeside.setAll storage hname _ hencode hnodup
  let loaded : Session (Seat Backend) := ⟨storage, some (indexes is), ⟨h, .document d⟩⟩
  have hwrite := onStore_of_eq (s := loaded)
    (f := fun storage => storage.setAll (saved (indexes is) a.account)) hset
  refine ⟨t, es', ?_, ht, hes.saved hlisted a hbound hw, hm.saved a hw⟩
  rw [← register_added]
  exact (Action.bind_of_ok hload).trans ((Action.bind_of_ok hwrite).trans rfl)

end Stores

-- The run of several sessions

-- A store shows the list that it has seen, and the session on it goes by that.
structure Knows (storage : Storage) (version : Int) (names : PathName → Prop)
    (m : Entries Int Account) (seen : Option (List Nat)) (o : Opened) : Prop where
  store : ∃ d, o.store = .document d ∧ names d.directory ∧ Tells storage version d.records seen
  session : ∀ registry, o.session = some registry →
    ∃ is, seen = some is ∧ (registry = none ∨ registry = some (indexes is))
  named : ∀ is, seen = some is → Names m is

structure Meets (storage : Storage) (version : Int) (names : PathName → Prop) (place : Place)
    (stores sessions : List Nat) (v : Views) (m : Entries Int Account) (w : World) : Prop where
  document : ∃ es, Common names place w.host es ∧ Tells storage version es v.listed ∧
    HasAccounts storage es m
  named : ∀ is, v.listed = some is → Names m is
  knows : ∀ i ∈ stores, ∃ o, w.opened i = some o ∧ Knows storage version names m (v.seen i) o ∧
    (v.listed = none → v.seen i = none)
  saves : ∀ i ∈ sessions, i ∈ stores ∧ ∀ o, w.opened i = some o → o.session ≠ none

section Run

variable {storage : Storage} {version : Int} {names : PathName → Prop} {place : Place}
  {stores sessions : List Nat} {v : Views} {m : Entries Int Account} {w : World} {i : Nat}

theorem Meets.names_listed (hs : Meets storage version names place stores sessions v m w) :
    Names m (v.listed.getD []) := by
  cases hv : v.listed with
  | some is => exact hs.named is hv
  | none => exact nofun

theorem Knows.mono {seen : Option (List Nat)} {o : Opened} {m' : Entries Int Account}
    (h : Knows storage version names m seen o) (hm : ∀ is, Names m is → Names m' is) :
    Knows storage version names m' seen o :=
  ⟨h.store, h.session, fun is his => hm is (h.named is his)⟩

-- Only the store of the step and the document have changed.
theorem Meets.updated (hs : Meets storage version names place stores sessions v m w) {h' : Host}
    {o : Opened} {v' : Views} {m' : Entries Int Account} {stores' sessions' : List Nat}
    (hdocument : ∃ es, Common names place h' es ∧ Tells storage version es v'.listed ∧
      HasAccounts storage es m')
    (hnamed : ∀ is, v'.listed = some is → Names m' is) (hm : ∀ is, Names m is → Names m' is)
    (ho : Knows storage version names m' (v'.seen i) o)
    (hothers : ∀ j ≠ i, v'.seen j = v.seen j)
    (hlisted : v'.listed = none → v.listed = none ∧ v'.seen i = none)
    (hstores : ∀ j ∈ stores', j ≠ i → j ∈ stores)
    (hsessions : ∀ j ∈ sessions', j ∈ stores' ∧ (j ≠ i → j ∈ sessions) ∧ (j = i → o.session ≠ none)) :
    Meets storage version names place stores' sessions' v' m'
      ⟨h', Function.update w.opened i (some o)⟩ := by
  refine ⟨hdocument, hnamed, fun j hj => ?_, fun j hj => ?_⟩
  · by_cases hji : j = i
    · subst hji
      exact ⟨o, Function.update_self .., ho, fun hnone => (hlisted hnone).2⟩
    · obtain ⟨p, hp, hknows, hnone⟩ := hs.knows j (hstores j hj hji)
      rw [hothers j hji]
      exact ⟨p, (Function.update_of_ne hji ..).trans hp, hknows.mono hm,
        fun hv' => hnone (hlisted hv').1⟩
  · obtain ⟨hstore, hother, hself⟩ := hsessions j hj
    refine ⟨hstore, fun p hp => ?_⟩
    by_cases hji : j = i
    · subst hji
      have hupdated : Function.update w.opened j (some o) j = some o := Function.update_self ..
      obtain rfl : o = p := Option.some.inj (hupdated.symm.trans hp)
      exact hself rfl
    · have hsame : Function.update w.opened i (some o) j = w.opened j := Function.update_of_ne hji ..
      exact (hs.saves j (hother hji)).2 p (hsame.symm.trans hp)

theorem openSession_of_gate {store : Backend} {session : Option (Option (List Value))} {version : Value}
    {t : Seat Backend} (ho : w.opened i = some ⟨store, session⟩)
    (hgate : gate storage version (⟨w.host, store⟩ : Seat Backend) = (.ok (), t)) :
    Directory.openSession storage version i w =
      (.ok (), ⟨t.host, Function.update w.opened i (some ⟨t.store, some none⟩)⟩) := by
  simp only [Directory.openSession, ho, hgate]

theorem save_of_eq {store : Backend} {registry : Option (List Value)} {a : Account}
    {t : Session (Seat Backend)} (ho : w.opened i = some ⟨store, some registry⟩)
    (hsave : saveAccount a (⟨storage, registry, ⟨w.host, store⟩⟩ : Session (Seat Backend)) =
      (.ok (), t)) :
    Directory.save storage i a w =
      (.ok (), ⟨t.store.host, Function.update w.opened i (some ⟨t.store.store, some t.registry⟩)⟩) := by
  simp only [Directory.save, World.session, ho, hsave]

theorem Meets.wrote (hs : Meets storage version names place stores sessions v m w) (hi : i ∈ stores)
    {t : Seat Backend} {d : DocumentStore} {es : Entries String String} {m' : Entries Int Account}
    {is sessions' : List Nat} {registry : Option (List Value)} (hname : names d.directory)
    (ht : Beside names place ⟨d.directory, es⟩ es t) (hes : Tells storage version es (some is))
    (haccounts : HasAccounts storage es m') (his : Names m' is) (hm : ∀ is, Names m is → Names m' is)
    (hregistry : registry = none ∨ registry = some (indexes is))
    (hsessions : ∀ j ∈ sessions', j = i ∨ j ∈ sessions) :
    Meets storage version names place stores sessions' (v.puts i is) m'
      ⟨t.host, Function.update w.opened i (some ⟨t.store, some registry⟩)⟩ := by
  have hself : (v.puts i is).seen i = some is := Function.update_self ..
  have hnamed : ∀ js, some is = some js → Names m' js := fun js hjs => Option.some.inj hjs ▸ his
  refine hs.updated ⟨es, ht.common, hes, haccounts⟩ hnamed hm ?_
    (fun j hj => Function.update_of_ne hj ..) nofun (fun _ hj _ => hj) fun j hj => ?_
  · rw [hself]
    exact ⟨⟨_, ht.store, hname, hes⟩, fun r hr => ⟨is, rfl, Option.some.inj hr ▸ hregistry⟩, hnamed⟩
  · rcases hsessions j hj with rfl | hj
    · exact ⟨hi, fun hne => absurd rfl hne, fun _ => by simp⟩
    · exact ⟨(hs.saves j hj).1, fun _ => hj, fun _ => by simp⟩

theorem Meets.openStore (hs : Meets storage version names place stores sessions v m w)
    {directory : PathName} (hname : names directory) (i : Nat) :
    ∃ w', Directory.openStore i directory w = (.ok (), w') ∧
      Meets storage version names place (i :: stores) (sessions.filter (· != i))
        (v.after (.openStore i directory)) m w' := by
  obtain ⟨es, hc, hes, hm⟩ := hs.document
  have hopen := DocumentStore.openAt_of_kept (hc.kept directory hname)
  have hseen : (v.after (.openStore i directory)).seen i = v.listed := Function.update_self ..
  refine ⟨_, by rw [Directory.openStore, hopen], ?_⟩
  refine hs.updated ⟨es, hc, hes, hm⟩ hs.named (fun _ h => h) ⟨⟨_, rfl, hname, ?_⟩, nofun, ?_⟩
    (fun j hj => Function.update_of_ne hj ..) ?_ ?_ ?_
  · rw [hseen]
    exact hes
  · rw [hseen]
    exact hs.named
  · rw [hseen]
    exact fun hnone => ⟨hnone, hnone⟩
  · exact fun j hj hji => (List.mem_cons.mp hj).resolve_left hji
  · intro j hj
    obtain ⟨hj, hji⟩ := List.mem_filter.mp hj
    have hne : j ≠ i := by simpa using hji
    exact ⟨List.mem_cons_of_mem _ (hs.saves j hj).1, fun _ => hj, fun h => absurd h hne⟩

theorem Meets.openSession (hs : Meets storage version names place stores sessions v m w)
    (hrange : 0 ≤ version ∧ version ≤ maxSchemaVersion) (hi : i ∈ stores) :
    ∃ w', Directory.openSession storage (.int version) i w = (.ok (), w') ∧
      Meets storage version names place stores (i :: sessions) (v.after (.openSession i)) m w' := by
  obtain ⟨es, hc, hes, hm⟩ := hs.document
  obtain ⟨⟨store, session⟩, ho, hknows, hnone⟩ := hs.knows i hi
  obtain ⟨d, hstore, hname, hd⟩ := hknows.store
  obtain rfl : store = .document d := hstore
  cases hseen : v.seen i with
  | some is =>
      rw [hseen] at hd hknows
      have hafter : v.after (.openSession i) = v := by simp only [Views.after, hseen]
      have hgate := gate_passes hrange w.host hd
      rw [hafter]
      refine ⟨_, openSession_of_gate ho hgate, hs.updated ⟨es, hc, hes, hm⟩ hs.named (fun _ h => h) ?_
        (fun _ _ => rfl) (fun hlisted => ⟨hlisted, hnone hlisted⟩) (fun _ hj _ => hj) fun j hj => ?_⟩
      · rw [hseen]
        exact ⟨⟨d, rfl, hname, hd⟩, fun r hr => ⟨is, rfl, .inl (Option.some.inj hr).symm⟩, hknows.named⟩
      · rcases List.mem_cons.mp hj with rfl | hj
        · exact ⟨hi, fun hne => absurd rfl hne, fun _ => by simp⟩
        · exact ⟨(hs.saves j hj).1, fun _ => hj, fun _ => by simp⟩
  | none =>
      rw [hseen] at hd
      obtain ⟨t, es', hgate, ht, hes', hm'⟩ := gate_begins hrange hc hname hd hes
      have hafter : v.after (.openSession i) = v.puts i (v.listed.getD []) := by
        simp only [Views.after, hseen]
      rw [hafter]
      exact ⟨_, openSession_of_gate ho hgate, hs.wrote hi hname ht hes' (hm' m hm) hs.names_listed
        (fun _ h => h) (.inl rfl) fun j hj => List.mem_cons.mp hj⟩

theorem Meets.save (hs : Meets storage version names place stores sessions v m w) (hi : i ∈ sessions)
    (a : SavableAccount) :
    ∃ w', Directory.save storage i a.account w = (.ok (), w') ∧
      Meets storage version names place stores sessions (v.after (.save i a))
        (m.put a.index a.account) w' := by
  obtain ⟨es, hc, hes, hm⟩ := hs.document
  obtain ⟨hstore, hsession⟩ := hs.saves i hi
  obtain ⟨⟨store, session⟩, ho, hknows, hnone⟩ := hs.knows i hstore
  obtain ⟨d, hdocument, hname, hd⟩ := hknows.store
  obtain rfl : store = .document d := hdocument
  obtain ⟨registry, rfl⟩ := Option.ne_none_iff_exists'.mp (hsession _ ho)
  obtain ⟨is, hseen, hregistry⟩ := hknows.session registry rfl
  have hnamed := hknows.named is hseen
  have hlisted : v.listed ≠ none := fun hv => by simp [hnone hv] at hseen
  rw [hseen] at hd
  obtain ⟨t, es', hsave, ht, hes', hm'⟩ := saveAccount_seen hc hname hd hregistry
    (fun j hj => (hnamed j hj).1) hes hlisted hm a
  have hafter : v.after (.save i a) = v.puts i (added is a.index) := by
    simp only [Views.after, hseen, Option.getD_some]
  rw [hafter]
  exact ⟨_, save_of_eq ho hsave, hs.wrote hstore hname ht hes' hm' (hnamed.added a)
    (fun _ h => h.saved a) (.inr rfl) fun _ hj => .inr hj⟩

theorem Meets.perform (hs : Meets storage version names place stores sessions v m w)
    (hrange : 0 ≤ version ∧ version ≤ maxSchemaVersion) {step : Step} {rest : List Step}
    (hlegal : Legal stores sessions (step :: rest))
    (hname : ∀ i directory, step = .openStore i directory → names directory) :
    ∃ w' stores' sessions', Directory.perform storage version step w = (.ok (), w') ∧
      Legal stores' sessions' rest ∧
      Meets storage version names place stores' sessions' (v.after step) (change m step) w' := by
  cases step with
  | openStore i directory =>
      obtain ⟨w', hopen, hw'⟩ := hs.openStore (hname i directory rfl) i
      exact ⟨w', _, _, hopen, hlegal, hw'⟩
  | openSession i =>
      obtain ⟨w', hopen, hw'⟩ := hs.openSession hrange hlegal.1
      exact ⟨w', _, _, hopen, hlegal.2, hw'⟩
  | save i a =>
      obtain ⟨w', hsave, hw'⟩ := hs.save hlegal.1 a
      exact ⟨w', _, _, hsave, hlegal.2, hw'⟩

theorem Meets.performAll (hs : Meets storage version names place stores sessions v m w)
    (hrange : 0 ≤ version ∧ version ≤ maxSchemaVersion) {steps : List Step}
    (hlegal : Legal stores sessions steps)
    (hnames : ∀ i directory, .openStore i directory ∈ steps → names directory) :
    ∃ w' stores' sessions', Directory.performAll storage version steps w = (.ok (), w') ∧
      Meets storage version names place stores' sessions' (steps.foldl Views.after v)
        (accountsAfter m steps) w' := by
  induction steps generalizing stores sessions v m w with
  | nil => exact ⟨w, stores, sessions, rfl, hs⟩
  | cons step rest ih =>
      obtain ⟨w₁, stores₁, sessions₁, hstep, hlegal, hw₁⟩ := hs.perform hrange hlegal
        fun i directory h => hnames i directory (h ▸ List.mem_cons_self)
      obtain ⟨w', stores', sessions', hrest, hw'⟩ := ih hw₁ hlegal
        fun i directory h => hnames i directory (List.mem_cons_of_mem _ h)
      exact ⟨w', stores', sessions', (Action.bind_of_ok hstep).trans hrest, hw'⟩

end Run

end Coffer.Wallet.Directory
