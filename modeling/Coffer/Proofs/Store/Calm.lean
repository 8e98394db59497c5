import Coffer.Proofs.Store.Plain
import Coffer.Proofs.Store.Simulation

-- Stores of the four kinds that nothing is planned to go wrong with.

namespace Coffer.Backend

-- A store that holds the records and makes every change. It can be closed and opened again, if it
-- is said to last: a database then has a file of its own.
inductive Serves (lasting : Prop) (s : Seat Backend) (es : Entries String String) : Prop where
  | memory (h : s.store = .memory ⟨es⟩)
  | log (h : ∃ l, LogServes s l ∧ l.records = es)
  | document (h : ∃ d, DocumentServes s d ∧ d.records = es)
  | database (path : PathName) (h : ∃ d id t, DatabaseServes path s es d id t)
      (hpath : lasting → DatabaseStore.isPrivate path = false)

section Serves

variable {lasting : Prop} {s : Seat Backend} {es : Entries String String}

theorem Serves.view_eq (h : Serves lasting s es) : view s = es := by
  obtain ⟨host, store⟩ := s
  cases h with
  | memory h =>
      obtain rfl : store = .memory ⟨es⟩ := h
      rfl
  | log h =>
      obtain ⟨l, hs, rfl⟩ := h
      obtain rfl : store = .log l := hs.store
      rfl
  | document h =>
      obtain ⟨d, hs, rfl⟩ := h
      obtain rfl : store = .document d := hs.store
      rfl
  | database path h hpath =>
      obtain ⟨d, id, t, hs⟩ := h
      obtain rfl : store = .database d := hs.store
      exact (view_of_connected hs.connected).trans hs.rows

theorem Serves.get (h : Serves lasting s es) (key : String) :
    Backend.get key s = (MemoryStore.lookup es key, s) := by
  cases h with
  | memory h => exact memory_simulates.get s es key h
  | log h => exact log_simulates.get s es key h
  | document h => exact document_simulates.get s es key h
  | database path h hpath => exact (database_simulates path).get s es key h

theorem Serves.put (h : Serves lasting s es) (batch : Entries String String) :
    ∃ t, Backend.put batch s = (.ok (), t) ∧ Serves lasting t (es.putAll batch) := by
  cases h with
  | memory h =>
      obtain ⟨t, hput, ht⟩ := memory_simulates.put s es batch h
      exact ⟨t, hput, .memory ht⟩
  | log h =>
      obtain ⟨t, hput, ht⟩ := log_simulates.put s es batch h
      exact ⟨t, hput, .log ht⟩
  | document h =>
      obtain ⟨t, hput, ht⟩ := document_simulates.put s es batch h
      exact ⟨t, hput, .document ht⟩
  | database path h hpath =>
      obtain ⟨t, hput, ht⟩ := (database_simulates path).put s es batch h
      exact ⟨t, hput, .database path ht hpath⟩

theorem Serves.erase (h : Serves lasting s es) (key : String) :
    ∃ t, Backend.erase key s = (.ok (), t) ∧ Serves lasting t (es.erase key) := by
  cases h with
  | memory h =>
      obtain ⟨t, herase, ht⟩ := memory_simulates.erase s es key h
      exact ⟨t, herase, .memory ht⟩
  | log h =>
      obtain ⟨t, herase, ht⟩ := log_simulates.erase s es key h
      exact ⟨t, herase, .log ht⟩
  | document h =>
      obtain ⟨t, herase, ht⟩ := document_simulates.erase s es key h
      exact ⟨t, herase, .document ht⟩
  | database path h hpath =>
      obtain ⟨t, herase, ht⟩ := (database_simulates path).erase s es key h
      exact ⟨t, herase, .database path ht hpath⟩

theorem Serves.reopen (h : Serves lasting s es) (hlasting : lasting) (kind : BackendKind)
    (threshold : Int) :
    ∃ t, Backend.reopen kind threshold s = (.ok (), t) ∧ Serves lasting t es := by
  cases h with
  | memory h =>
      obtain ⟨t, hreopen, ht⟩ := memory_simulates.reopen s es kind threshold h trivial
      exact ⟨t, hreopen, .memory ht⟩
  | log h =>
      obtain ⟨t, hreopen, ht⟩ := log_simulates.reopen s es kind threshold h trivial
      exact ⟨t, hreopen, .log ht⟩
  | document h =>
      obtain ⟨t, hreopen, ht⟩ := document_simulates.reopen s es kind threshold h trivial
      exact ⟨t, hreopen, .document ht⟩
  | database path h hpath =>
      have hmay : DatabaseStore.isPrivate path = true → ∀ t, Request.reopen kind threshold ≠
          .reopen .database t := by
        intro hprivate
        rw [hpath hlasting] at hprivate
        cases hprivate
      obtain ⟨t, hreopen, ht⟩ := (database_simulates path).reopen s es kind threshold h hmay
      exact ⟨t, hreopen, .database path ht hpath⟩

-- Nothing but the disk, the locks and the planned faults of the host matters.
theorem Serves.of_host {host : Host} (h : Serves lasting s es) (hdisk : host.disk = s.host.disk)
    (hk : s.host.Keeps host) : Serves lasting { s with host } es := by
  have hg : Disk.Grown s.host.disk host.disk := by
    rw [hdisk]
    exact Disk.Grown.refl _
  cases h with
  | memory h => exact .memory h
  | log h =>
      obtain ⟨l, hs, rfl⟩ := h
      obtain ⟨place, file, hl⟩ := hs.holds
      exact .log ⟨l, ⟨hs.store, ⟨fun call => hk.spares call (hs.calm.1 call), hs.calm.2⟩, place, file,
        hl.grown hk hg⟩, rfl⟩
  | document h =>
      obtain ⟨d, hs, rfl⟩ := h
      obtain ⟨place, hd⟩ := hs.kept
      exact .document ⟨d, ⟨hs.store, fun call => hk.spares call (hs.calm call), place, hd.grown hg⟩, rfl⟩
  | database path h hpath =>
      obtain ⟨d, id, t, hs⟩ := h
      refine .database path ⟨d, id, t, hs.store, hs.samePath, hs.connected.of_disk hdisk, hs.present,
        hs.admits, hs.rows, fun hp => ?_⟩ hpath
      obtain ⟨place, hnamed, hparentNamed, hparent, hreaches, hroom, hshort⟩ := hs.filed hp
      rw [← hdisk] at hparent hreaches
      exact ⟨place, hnamed, hparentNamed, hparent, hreaches, hroom, hshort⟩

end Serves

-- Such a store is reliable, and no write is ever refused or reported as failed.
def calm (lasting : Prop) : Reliable (Seat Backend) where
  sound s := Serves lasting s (view s)
  view := view
  refusal _ := False
  late _ _ := False
  get_eq _ key hs := hs.get key
  put_ends s batch hs := by
    obtain ⟨t, hput, ht⟩ := hs.put batch
    refine ⟨_, t, hput, ?_⟩
    rw [ht.view_eq]
    exact ⟨ht, .made⟩
  erase_ends s key hs := by
    obtain ⟨t, herase, ht⟩ := hs.erase key
    refine ⟨_, t, herase, ?_⟩
    rw [ht.view_eq]
    exact ⟨ht, .made⟩
  draw_eq s hs := by
    let host : Host := { s.host with drawn := s.host.drawn + 1 }
    have ht := @Serves.of_host lasting s (view s) host hs rfl ⟨rfl, fun _ h => h⟩
    refine ⟨s.host.drawn + 1, _, rfl, ?_⟩
    rw [ht.view_eq]
    exact ⟨ht, rfl, fun _ => id⟩
  note_eq s n hs := by
    let host : Host := { s.host with notices := s.host.notices ++ [n] }
    have ht := @Serves.of_host lasting s (view s) host hs rfl ⟨rfl, fun _ h => h⟩
    refine ⟨_, rfl, ?_⟩
    rw [ht.view_eq]
    exact ⟨ht, rfl, fun _ => id⟩

theorem calm_faultless (lasting : Prop) : (calm lasting).Faultless := ⟨fun _ => id, fun _ _ => id⟩

theorem calm_reopen {lasting : Prop} {s : Seat Backend} (hs : (calm lasting).sound s)
    (hlasting : lasting) (kind : BackendKind) (threshold : Int) :
    ∃ t, reopen kind threshold s = (.ok (), t) ∧ (calm lasting).sound t ∧
      (calm lasting).view t = (calm lasting).view s := by
  obtain ⟨t, hreopen, ht⟩ := hs.reopen hlasting kind threshold
  refine ⟨t, hreopen, ?_, ht.view_eq⟩
  rw [← ht.view_eq] at ht
  exact ht

-- A store that has just been opened and has no records, of any kind, with nothing planned to go
-- wrong.
inductive Begun : Seat Backend → Prop where
  | memory (h : Host) : Begun ⟨h, .memory MemoryStore.empty⟩
  | log (h h' : Host) (path : PathName) (threshold : Int) (l : LogStore) (hd : h.disk.Sound)
      (hcalm : ∀ call, h.Spares call) (hopen : LogStore.openAt path threshold h = (.ok l, h'))
      (hempty : l.records = []) : Begun ⟨h', .log l⟩
  | document (h h' : Host) (directory : PathName) (d : DocumentStore) (hd : h.disk.Sound)
      (hcalm : ∀ call, h.Spares call) (hopen : DocumentStore.openAt directory h = (.ok d, h'))
      (hempty : d.records = []) : Begun ⟨h', .document d⟩
  | database (h h' : Host) (path : PathName) (d : DatabaseStore) (hd : h.disk.Sound)
      (hopen : DatabaseStore.openAt path h = (.ok d, h'))
      (hempty : (DatabaseStore.table ⟨h', d⟩).1 = .ok Table.empty) : Begun ⟨h', .database d⟩

-- Whether the records outlive the closing of the store; those of a database without a file do not.
def Lasts (s : Seat Backend) : Prop :=
  ∀ d, s.store = .database d → DatabaseStore.isPrivate d.path = false

theorem Begun.serves {s : Seat Backend} (h : Begun s) : Serves (Lasts s) s [] := by
  cases h with
  | memory h => exact .memory rfl
  | log h h' path threshold l hd hcalm hopen hempty =>
      exact .log ⟨l, logServes_of_openAt hd hcalm hopen, hempty⟩
  | document h h' directory d hd hcalm hopen hempty =>
      exact .document ⟨d, documentServes_of_openAt hd hcalm hopen, hempty⟩
  | database h h' path d hd hopen hempty =>
      obtain ⟨id, hserves⟩ := databaseServes_of_openAt hd hopen hempty
      refine .database path ⟨d, id, _, hserves⟩ fun hlasts => ?_
      rw [← hserves.samePath]
      exact hlasts d rfl

theorem Begun.sound {s : Seat Backend} (h : Begun s) : (calm (Lasts s)).sound s := by
  have hserves := h.serves
  have hview := hserves.view_eq
  rw [← hview] at hserves
  exact hserves

theorem Begun.view_eq {s : Seat Backend} (h : Begun s) : (calm (Lasts s)).view s = [] := h.serves.view_eq

end Coffer.Backend
