import Coffer.Proofs.Store.Backend
import Coffer.Proofs.Store.Ideal

namespace Coffer.Backend

-- A store of the kind that is closed and opened again; one of another kind stays as it is.
def reopen (kind : BackendKind) (threshold : Int) : Action (Seat Backend) Unit := fun s =>
  match kind, s.store with
  | .log, .log l => (do
      close
      Seat.setStore (.log (← Seat.onHost (LogStore.openAt l.path threshold)))) s
  | .document, .document d => (do
      close
      Seat.setStore (.document (← Seat.onHost (DocumentStore.openAt d.directory)))) s
  | .database, .database d => (do
      close
      Seat.setStore (.database (← Seat.onHost (DatabaseStore.openAt d.path)))) s
  | _, _ => (.ok (), s)

def serve (s : Seat Backend) : Request → Answer × Seat Backend
  | .set key value => (putAt (.text key) (.text value) s).map .done id
  | .put batch => (put batch s).map .done id
  | .erase key => (erase key s).map .done id
  | .get key => (get key s).map .found id
  | .keys => (keys s).map .listed id
  | .reopen kind threshold => (reopen kind threshold s).map .done id

def answers (s : Seat Backend) : List Request → List Answer
  | [] => []
  | request :: rest => (serve s request).1 :: answers (serve s request).2 rest

-- A relation that every request keeps, and under which a store answers like the map of its
-- records but for the form that the answers are given in.
structure Simulates (form : Answer → Answer) (may : Request → Prop)
    (R : Seat Backend → Entries String String → Prop) : Prop where
  put : ∀ s es batch, R s es → ∃ s', Backend.put batch s = (.ok (), s') ∧ R s' (es.putAll batch)
  erase : ∀ s es key, R s es → ∃ s', Backend.erase key s = (.ok (), s') ∧ R s' (es.erase key)
  get : ∀ s es key, R s es → Backend.get key s = (MemoryStore.lookup es key, s)
  keys : ∀ s es, R s es → ∃ r, Backend.keys s = (r, s) ∧ .listed r = form (.listed (.ok es.keys))
  reopen : ∀ s es kind threshold, R s es → may (.reopen kind threshold) →
    ∃ s', Backend.reopen kind threshold s = (.ok (), s') ∧ R s' es
  done : ∀ r, form (.done r) = .done r
  found : ∀ r, form (.found r) = .found r

section

variable {form : Answer → Answer} {may : Request → Prop}
  {R : Seat Backend → Entries String String → Prop}

theorem putAt_text (key value : String) (s : Seat Backend) :
    putAt (.text key) (.text value) s = put [(key, value)] s := rfl

theorem lookup_eq_elim (es : Entries String String) (key : String) :
    MemoryStore.lookup es key = (es.get? key).elim (.error (.notFound key)) .ok := by
  unfold MemoryStore.lookup
  cases es.get? key <;> rfl

theorem Simulates.serve (h : Simulates form may R) {s : Seat Backend} {es : Entries String String}
    (hs : R s es) (request : Request) (hmay : may request) :
    ∃ s', Backend.serve s request = (form ((Ideal.ofEntries es).serve request).1, s') ∧
      R s' (request.apply es) := by
  cases request with
  | set key value =>
      obtain ⟨s', hput, hs'⟩ := h.put s es [(key, value)] hs
      refine ⟨s', ?_, hs'⟩
      rw [Backend.serve, putAt_text, hput]
      exact Prod.ext (h.done _).symm rfl
  | put batch =>
      obtain ⟨s', hput, hs'⟩ := h.put s es batch hs
      refine ⟨s', ?_, hs'⟩
      rw [Backend.serve, hput]
      exact Prod.ext (h.done _).symm rfl
  | erase key =>
      obtain ⟨s', herase, hs'⟩ := h.erase s es key hs
      refine ⟨s', ?_, hs'⟩
      rw [Backend.serve, herase]
      exact Prod.ext (h.done _).symm rfl
  | get key =>
      refine ⟨s, ?_, hs⟩
      rw [Backend.serve, h.get s es key hs, lookup_eq_elim]
      exact Prod.ext (h.found _).symm rfl
  | keys =>
      obtain ⟨r, hkeys, hform⟩ := h.keys s es hs
      refine ⟨s, ?_, hs⟩
      rw [Backend.serve, hkeys]
      exact Prod.ext hform rfl
  | reopen kind threshold =>
      obtain ⟨s', hreopen, hs'⟩ := h.reopen s es kind threshold hs hmay
      refine ⟨s', ?_, hs'⟩
      rw [Backend.serve, hreopen]
      exact Prod.ext (h.done _).symm rfl

theorem Simulates.answers (h : Simulates form may R) {s : Seat Backend}
    {es : Entries String String} (hs : R s es) (requests : List Request)
    (hmay : ∀ request ∈ requests, may request) :
    Backend.answers s requests = ((Ideal.ofEntries es).answers requests).map form := by
  induction requests generalizing s es with
  | nil => rfl
  | cons request rest ih =>
      obtain ⟨s', hserve, hs'⟩ := h.serve hs request (hmay request List.mem_cons_self)
      rw [Backend.answers, Ideal.answers, List.map_cons, hserve, Ideal.serve_ofEntries,
        ih hs' fun request hr => hmay request (List.mem_cons_of_mem _ hr)]

end

-- Records in memory

theorem memory_simulates : Simulates id (fun _ => True) fun s es => s.store = .memory ⟨es⟩ where
  put := by
    rintro ⟨h, _⟩ es batch rfl
    exact ⟨⟨h, .memory ⟨es.putAll batch⟩⟩, rfl, rfl⟩
  erase := by
    rintro ⟨h, _⟩ es key rfl
    exact ⟨⟨h, .memory ⟨es.erase key⟩⟩, rfl, rfl⟩
  get := by
    rintro ⟨h, _⟩ es key rfl
    rfl
  keys := by
    rintro ⟨h, _⟩ es rfl
    exact ⟨_, rfl, rfl⟩
  reopen := by
    rintro ⟨h, _⟩ es kind threshold rfl -
    refine ⟨⟨h, .memory ⟨es⟩⟩, ?_, rfl⟩
    cases kind <;> rfl
  done _ := rfl
  found _ := rfl

-- Records in a log

-- An open log that nothing is planned to go wrong with.
structure LogServes (s : Seat Backend) (l : LogStore) : Prop where
  store : s.store = .log l
  calm : LogStore.Calm ⟨s.host, l⟩
  holds : ∃ place file, LogStore.Holds s.host l place file

theorem commit_of_logServes {h : Host} {l : LogStore} (hs : LogServes ⟨h, .log l⟩ l) (c : Commit) :
    ∃ h' l', LogStore.commit c ⟨h, l⟩ = (.ok (), ⟨h', l'⟩) ∧ LogServes ⟨h', .log l'⟩ l' ∧
      l'.records = c.apply l.records := by
  obtain ⟨place, file, hl⟩ := hs.holds
  obtain ⟨r, ⟨h', l'⟩, hcommit, hsteps, hrejected | happlied⟩ :=
    LogStore.commit_cases (s := ⟨h, l⟩) hl c
  · exact absurd hs.calm hrejected.cause
  · have hr : r = .ok () := by
      refine happlied.result.resolve_right ?_
      rintro ⟨m, -, hspares⟩
      exact hspares (hs.calm.1 _)
    subst hr
    exact ⟨h', l', hcommit, ⟨rfl, hsteps.calm hs.calm, place, happlied.state⟩, happlied.records⟩

-- An open log is opened again as it was, whatever is planned to go wrong.
theorem reopen_of_holds {h : Host} {l : LogStore} {place : Place} {file : FileId}
    (hl : LogStore.Holds h l place file) (threshold : Int) :
    ∃ lock l', reopen .log threshold ⟨h, .log l⟩ = (.ok (), ⟨LogStore.retaken h lock, .log l'⟩) ∧
      LogStore.Holds (LogStore.retaken h lock) l' place file ∧ l'.path = l.path ∧
      l'.records = l.records ∧ l'.shortWrites = [] := by
  obtain ⟨-, -, lock, -, -, -, -, hlock, -⟩ := hl.lock
  let l' : LogStore := ⟨l.path, threshold, l.records, some file, some lock, []⟩
  have hclose : LogStore.close ⟨h, l⟩ = (.ok (), ⟨LogStore.released h lock,
      { l with file := none, lock := none, shortWrites := [] }⟩) := by
    rw [LogStore.close_eq]
    simp only [hlock, Option.elim_some]
  have hclose : close ⟨h, .log l⟩ = (.ok (), ⟨LogStore.released h lock,
      .log { l with file := none, lock := none, shortWrites := [] }⟩) := Seat.focus_of_eq hclose
  have hopen := LogStore.openAt_of_released hl hlock threshold
  refine ⟨lock, l', ?_, hl.retaken hlock threshold, rfl, rfl, rfl⟩
  refine (Action.bind_of_ok hclose).trans ?_
  exact (Action.bind_of_ok (Seat.onHost_of_eq hopen)).trans rfl

theorem reopen_of_kept {h : Host} {d : DocumentStore} {place : Place}
    (hd : DocumentStore.Kept h d place) (threshold : Int) :
    reopen .document threshold ⟨h, .document d⟩ = (.ok (), ⟨h, .document d⟩) := by
  have hopen := DocumentStore.openAt_of_kept hd
  have hclose : close ⟨h, .document d⟩ = (.ok (), ⟨h, .document d⟩) := rfl
  refine (Action.bind_of_ok hclose).trans ?_
  exact (Action.bind_of_ok (Seat.onHost_of_eq hopen)).trans rfl

theorem reopen_of_filed {h : Host} {d : DatabaseStore} {id : FileId} {t : Table} {place : Place}
    (hd : DatabaseStore.Connected h d id t) (ht : t.present = true)
    (hp : DatabaseStore.isPrivate d.path = false) (hf : DatabaseStore.Filed h d.path place id)
    (threshold : Int) :
    reopen .database threshold ⟨h, .database d⟩ =
      (.ok (), ⟨h, .database ⟨d.path, some id, false⟩⟩) := by
  have hclose : close ⟨h, .database d⟩ =
    (.ok (), ⟨h, .database { d with file := none, compiled := false }⟩) := rfl
  have hopen := DatabaseStore.openAt_of_filed hd ht hp hf
  refine (Action.bind_of_ok hclose).trans ?_
  exact (Action.bind_of_ok (Seat.onHost_of_eq hopen)).trans rfl

-- A store that its records outlive: a log that is open, or a database in a file of its own.
def Lasting (s : Seat Backend) : Prop :=
  match s.store with
  | .memory _ | .document _ => True
  | .log l => l.file ≠ none
  | .database d => DatabaseStore.isPrivate d.path = false ∧
      ∃ place id, d.file = some id ∧ DatabaseStore.Filed s.host d.path place id

-- Such a store holds the same records after it has been closed and opened again.
theorem reopen_same {s : Seat Backend} (hs : Sound s) (hlasting : Lasting s) (kind : BackendKind)
    (threshold : Int) :
    ∃ t, reopen kind threshold s = (.ok (), t) ∧ Sound t ∧ view t = view s := by
  obtain ⟨h, store⟩ := s
  cases store with
  | memory m => cases kind <;> exact ⟨_, rfl, hs, rfl⟩
  | log l =>
      cases kind with
      | log =>
          obtain ⟨path, hl⟩ := hs
          obtain ⟨place, file, hholds⟩ := hl.state.resolve_left hlasting
          obtain ⟨lock, l', hreopen, hholds', hpath, hrecords, -⟩ := reopen_of_holds hholds threshold
          exact ⟨_, hreopen, ⟨path, hl.sound, hpath.trans hl.path, .inr ⟨place, file, hholds'⟩⟩, hrecords⟩
      | _ => exact ⟨_, rfl, hs, rfl⟩
  | document d =>
      cases kind with
      | document =>
          obtain ⟨place, hd⟩ := hs
          exact ⟨_, reopen_of_kept hd threshold, ⟨place, hd⟩, rfl⟩
      | _ => exact ⟨_, rfl, hs, rfl⟩
  | database d =>
      cases kind with
      | database =>
          obtain ⟨id, t, hd, ht⟩ := hs
          obtain ⟨hp, place, id', hid, hf⟩ := hlasting
          obtain rfl : id = id' := Option.some.inj (hd.isOpen.symm.trans hid)
          have hd' : DatabaseStore.Connected h ⟨d.path, some id, false⟩ id t :=
            ⟨rfl, hd.allocated, hd.content⟩
          refine ⟨_, reopen_of_filed hd ht hp hf threshold, ⟨id, t, hd', ht⟩, ?_⟩
          rw [view_of_connected hd', view_of_connected hd]
      | _ => exact ⟨_, rfl, hs, rfl⟩

theorem reopen_of_logServes {h : Host} {l : LogStore} (hs : LogServes ⟨h, .log l⟩ l)
    (threshold : Int) :
    ∃ h' l', reopen .log threshold ⟨h, .log l⟩ = (.ok (), ⟨h', .log l'⟩) ∧
      LogServes ⟨h', .log l'⟩ l' ∧ l'.records = l.records := by
  obtain ⟨place, file, hl⟩ := hs.holds
  obtain ⟨lock, l', hreopen, hholds, -, hrecords, hshort⟩ := reopen_of_holds hl threshold
  exact ⟨_, l', hreopen, ⟨rfl, ⟨hs.calm.1, hshort⟩, place, file, hholds⟩, hrecords⟩

theorem log_simulates : Simulates id (fun _ => True) fun s es =>
    ∃ l, LogServes s l ∧ l.records = es where
  put := by
    rintro ⟨h, store⟩ es batch ⟨l, hs, rfl⟩
    obtain rfl : store = .log l := hs.store
    by_cases hempty : batch.isEmpty = true
    · have hnil : batch = [] := List.isEmpty_iff.mp hempty
      subst hnil
      exact ⟨⟨h, .log l⟩, rfl, l, hs, rfl⟩
    · obtain ⟨h', l', hcommit, hs', hrecords⟩ := commit_of_logServes hs ⟨batch, []⟩
      have hput : LogStore.put batch ⟨h, l⟩ = (.ok (), ⟨h', l'⟩) := by
        rw [LogStore.put, if_neg hempty, hcommit]
      exact ⟨⟨h', .log l'⟩, Seat.focus_of_eq hput, l', hs', hrecords⟩
  erase := by
    rintro ⟨h, store⟩ es key ⟨l, hs, rfl⟩
    obtain rfl : store = .log l := hs.store
    by_cases hhas : l.records.has key = true
    · obtain ⟨h', l', hcommit, hs', hrecords⟩ := commit_of_logServes hs ⟨[], [key]⟩
      have herase : LogStore.erase key ⟨h, l⟩ = (.ok (), ⟨h', l'⟩) := by
        rw [LogStore.erase_eq, if_pos hhas, hcommit]
      exact ⟨⟨h', .log l'⟩, Seat.focus_of_eq herase, l', hs', hrecords⟩
    · have habsent : key ∉ l.records.keys := by
        rwa [← Entries.has_iff]
      have herase : LogStore.erase key ⟨h, l⟩ = (.ok (), ⟨h, l⟩) := by
        rw [LogStore.erase_eq, if_neg hhas]
      exact ⟨⟨h, .log l⟩, Seat.focus_of_eq herase, l, hs, (Entries.erase_of_not_mem _ _ habsent).symm⟩
  get := by
    rintro ⟨h, store⟩ es key ⟨l, hs, rfl⟩
    obtain rfl : store = .log l := hs.store
    rfl
  keys := by
    rintro ⟨h, store⟩ es ⟨l, hs, rfl⟩
    obtain rfl : store = .log l := hs.store
    exact ⟨_, rfl, rfl⟩
  reopen := by
    rintro ⟨h, store⟩ es kind threshold ⟨l, hs, rfl⟩ -
    obtain rfl : store = .log l := hs.store
    cases kind with
    | log =>
        obtain ⟨h', l', hreopen, hs', hrecords⟩ := reopen_of_logServes hs threshold
        exact ⟨_, hreopen, l', hs', hrecords⟩
    | database => exact ⟨⟨h, .log l⟩, rfl, l, hs, rfl⟩
    | memory => exact ⟨⟨h, .log l⟩, rfl, l, hs, rfl⟩
    | document => exact ⟨⟨h, .log l⟩, rfl, l, hs, rfl⟩
  done _ := rfl
  found _ := rfl

-- Records in a document

structure DocumentServes (s : Seat Backend) (d : DocumentStore) : Prop where
  store : s.store = .document d
  calm : ∀ call, s.host.Spares call
  kept : ∃ place, DocumentStore.Kept s.host d place

theorem document_simulates : Simulates id (fun _ => True) fun s es =>
    ∃ d, DocumentServes s d ∧ d.records = es where
  put := by
    rintro ⟨h, store⟩ es batch ⟨d, hs, rfl⟩
    obtain rfl : store = .document d := hs.store
    obtain ⟨place, hd⟩ := hs.kept
    rcases DocumentStore.put_cases (s := ⟨h, d⟩) hd batch with
      ⟨-, -, -, -, -, hspares⟩ | ⟨h', hput, hkeeps, hd'⟩
    · exact absurd hs.calm hspares
    · exact ⟨⟨h', .document { d with records := d.records.putAll batch }⟩, Seat.focus_of_eq hput,
        _, ⟨rfl, fun call => hkeeps.spares call (hs.calm call), place, hd'⟩, rfl⟩
  erase := by
    rintro ⟨h, store⟩ es key ⟨d, hs, rfl⟩
    obtain rfl : store = .document d := hs.store
    obtain ⟨place, hd⟩ := hs.kept
    rcases DocumentStore.erase_cases (s := ⟨h, d⟩) hd key with
      ⟨-, -, -, -, -, hspares⟩ | ⟨h', herase, hkeeps, hd'⟩
    · exact absurd hs.calm hspares
    · exact ⟨⟨h', .document { d with records := d.records.erase key }⟩, Seat.focus_of_eq herase,
        _, ⟨rfl, fun call => hkeeps.spares call (hs.calm call), place, hd'⟩, rfl⟩
  get := by
    rintro ⟨h, store⟩ es key ⟨d, hs, rfl⟩
    obtain rfl : store = .document d := hs.store
    rfl
  keys := by
    rintro ⟨h, store⟩ es ⟨d, hs, rfl⟩
    obtain rfl : store = .document d := hs.store
    exact ⟨_, rfl, rfl⟩
  reopen := by
    rintro ⟨h, store⟩ es kind threshold ⟨d, hs, rfl⟩ -
    obtain rfl : store = .document d := hs.store
    obtain ⟨place, hd⟩ := hs.kept
    refine ⟨⟨h, .document d⟩, ?_, d, hs, rfl⟩
    cases kind with
    | document => exact reopen_of_kept hd threshold
    | _ => rfl
  done _ := rfl
  found _ := rfl

-- Records in a database

-- An open database whose table admits every key.
structure DatabaseServes (path : PathName) (s : Seat Backend) (es : Entries String String)
    (d : DatabaseStore) (id : FileId) (t : Table) : Prop where
  store : s.store = .database d
  samePath : d.path = path
  connected : DatabaseStore.Connected s.host d id t
  present : t.present = true
  admits : t.denied = []
  rows : t.rows = es
  filed : DatabaseStore.isPrivate path = false → ∃ place, DatabaseStore.Filed s.host path place id

theorem DatabaseServes.written {path : PathName} {h : Host} {es es' : Entries String String}
    {d : DatabaseStore} {id : FileId} {t : Table}
    (hs : DatabaseServes path ⟨h, .database d⟩ es d id t) :
    DatabaseServes path
      ⟨(DatabaseStore.written ⟨h, d⟩ id { t with rows := es' }).host, .database d⟩ es' d id
      { t with rows := es' } := by
  refine ⟨rfl, hs.samePath, DatabaseStore.Connected.written (s := ⟨h, d⟩) hs.connected _, hs.present,
    hs.admits, rfl, fun hp => ?_⟩
  obtain ⟨place, hf⟩ := hs.filed hp
  exact ⟨place, DatabaseStore.Filed.written (s := ⟨h, d⟩) hf _⟩

theorem DatabaseServes.ready {path : PathName} {h : Host} {es : Entries String String}
    {d : DatabaseStore} {id : FileId} {t : Table}
    (hs : DatabaseServes path ⟨h, .database d⟩ es d id t) :
    DatabaseServes path ⟨h, .database { d with compiled := true }⟩ es { d with compiled := true } id
      t :=
  ⟨rfl, hs.samePath, DatabaseStore.Connected.ready (s := ⟨h, d⟩) hs.connected, hs.present, hs.admits,
    hs.rows, hs.filed⟩

-- A database that no file holds is not opened again.
theorem database_simulates (path : PathName) : Simulates Answer.sorted
    (fun request => DatabaseStore.isPrivate path = true → ∀ t, request ≠ .reopen .database t)
    fun s es => ∃ d id t, DatabaseServes path s es d id t where
  put := by
    rintro ⟨h, store⟩ es batch ⟨d, id, t, hs⟩
    obtain rfl : store = .database d := hs.store
    rcases DatabaseStore.put_cases (s := ⟨h, d⟩) hs.connected hs.present batch with
      ⟨-, key, -, hdenied⟩ | hput
    · rw [hs.admits] at hdenied
      cases hdenied
    · rw [hs.rows] at hput
      exact ⟨_, Seat.focus_of_eq hput, { d with compiled := true }, id, _, hs.ready.written⟩
  erase := by
    rintro ⟨h, store⟩ es key ⟨d, id, t, hs⟩
    obtain rfl : store = .database d := hs.store
    have herase := DatabaseStore.erase_of_connected (s := ⟨h, d⟩) hs.connected hs.present key
    rw [hs.rows] at herase
    exact ⟨_, Seat.focus_of_eq herase, d, id, _, hs.written⟩
  get := by
    rintro ⟨h, store⟩ es key ⟨d, id, t, hs⟩
    obtain rfl : store = .database d := hs.store
    have hget := DatabaseStore.get_of_connected (s := ⟨h, d⟩) hs.connected hs.present key
    rw [hs.rows] at hget
    exact Seat.focus_of_eq hget
  keys := by
    rintro ⟨h, store⟩ es ⟨d, id, t, hs⟩
    obtain rfl : store = .database d := hs.store
    have hkeys := DatabaseStore.keys_of_connected (s := ⟨h, d⟩) hs.connected hs.present
    refine ⟨_, Seat.focus_of_eq hkeys, ?_⟩
    rw [Table.sortedKeys, hs.rows]
    rfl
  reopen := by
    rintro ⟨h, store⟩ es kind threshold ⟨d, id, t, hs⟩ hmay
    obtain rfl : store = .database d := hs.store
    cases kind with
    | database =>
        have hp : DatabaseStore.isPrivate path = false := by
          by_contra hprivate
          exact hmay (by simpa using hprivate) threshold rfl
        obtain ⟨place, hf⟩ := hs.filed hp
        rw [← hs.samePath] at hp hf
        have hreopen := reopen_of_filed hs.connected hs.present hp hf threshold
        exact ⟨⟨h, .database ⟨d.path, some id, false⟩⟩, hreopen, ⟨d.path, some id, false⟩, id, t, rfl,
          hs.samePath, ⟨rfl, hs.connected.allocated, hs.connected.content⟩, hs.present, hs.admits,
          hs.rows, hs.filed⟩
    | _ => exact ⟨⟨h, .database d⟩, rfl, d, id, t, hs⟩
  done _ := rfl
  found _ := rfl

-- Stores that have just been opened

theorem logServes_of_openAt {h h' : Host} {path : PathName} {threshold : Int} {l : LogStore}
    (hd : h.disk.Sound) (hcalm : ∀ call, h.Spares call)
    (hopen : LogStore.openAt path threshold h = (.ok l, h')) : LogServes ⟨h', .log l⟩ l := by
  have hspares := (LogStore.openAt_within path threshold h).spares
  rw [hopen] at hspares
  obtain ⟨-, -, hshort, hl⟩ := LogStore.openAt_eq_ok hd hopen
  exact ⟨rfl, ⟨fun call => hspares call (hcalm call), hshort⟩, hl⟩

theorem documentServes_of_openAt {h h' : Host} {directory : PathName} {d : DocumentStore}
    (hd : h.disk.Sound) (hcalm : ∀ call, h.Spares call)
    (hopen : DocumentStore.openAt directory h = (.ok d, h')) :
    DocumentServes ⟨h', .document d⟩ d := by
  have hspares := (DocumentStore.openAt_within directory h).spares
  rw [hopen] at hspares
  obtain ⟨-, place, hkept⟩ := DocumentStore.openAt_eq_ok hd hopen
  exact ⟨rfl, fun call => hspares call (hcalm call), place, hkept⟩

theorem databaseServes_of_openAt {h h' : Host} {path : PathName} {d : DatabaseStore}
    (hd : h.disk.Sound) (hopen : DatabaseStore.openAt path h = (.ok d, h'))
    (hnew : (DatabaseStore.table ⟨h', d⟩).1 = .ok Table.empty) :
    ∃ id, DatabaseServes path ⟨h', .database d⟩ [] d id Table.empty := by
  obtain ⟨hpath, id, t, hconnected, ht, hfiled⟩ := DatabaseStore.openAt_eq_ok hd hopen
  have htable := DatabaseStore.table_of_connected (s := ⟨h', d⟩) hconnected
  rw [htable] at hnew
  obtain rfl : t = Table.empty := Except.ok.inj hnew
  exact ⟨id, rfl, hpath, hconnected, rfl, rfl, rfl, hfiled⟩

theorem sorted_of_listed {answers : List Answer}
    (hanswers : ∀ r, .listed r ∈ answers → ∃ ks, r = .ok ks ∧ ks.Nodup)
    {r : Except Failure (List String)} (hr : .listed r ∈ answers.map Answer.sorted) :
    ∃ ks, r = .ok ks ∧ ks.Nodup ∧ ks.Pairwise fun a b => Utf8.encode a ≤ Utf8.encode b := by
  obtain ⟨a, ha, hsorted⟩ := List.mem_map.mp hr
  cases a with
  | done r => cases hsorted
  | found r => cases hsorted
  | listed r' =>
      obtain ⟨ks, rfl, hks⟩ := hanswers _ ha
      cases hsorted
      exact ⟨_, rfl, (List.mergeSort_perm ks _).nodup_iff.mpr hks, Table.sorted_mergeSort ks⟩

-- With nothing planned to go wrong, new stores of the four kinds answer all requests as the map
-- does, the database with its keys sorted by their bytes, however often they are closed and opened
-- again on the way. A database that no file holds is not opened again.
theorem one_map {hm hl hl' hd hd' hb hb' : Host} {logPath directory path : PathName}
    {threshold : Int} {l : LogStore} {d : DocumentStore} {b : DatabaseStore}
    (hlog : LogStore.openAt logPath threshold hl = (.ok l, hl')) (hlogEmpty : l.records = [])
    (hlogSound : hl.disk.Sound) (hlogCalm : ∀ call, hl.Spares call)
    (hdocument : DocumentStore.openAt directory hd = (.ok d, hd')) (hdocumentEmpty : d.records = [])
    (hdocumentSound : hd.disk.Sound) (hdocumentCalm : ∀ call, hd.Spares call)
    (hdatabase : DatabaseStore.openAt path hb = (.ok b, hb'))
    (hdatabaseEmpty : (DatabaseStore.table ⟨hb', b⟩).1 = .ok Table.empty)
    (hdatabaseSound : hb.disk.Sound) (requests : List Request)
    (hfile : DatabaseStore.isPrivate path = true →
      ∀ request ∈ requests, ∀ t, request ≠ .reopen .database t) :
    answers ⟨hm, .memory MemoryStore.empty⟩ requests = Ideal.empty.answers requests ∧
    answers ⟨hl', .log l⟩ requests = Ideal.empty.answers requests ∧
    answers ⟨hd', .document d⟩ requests = Ideal.empty.answers requests ∧
    answers ⟨hb', .database b⟩ requests = (Ideal.empty.answers requests).map Answer.sorted ∧
    (∀ r, .listed r ∈ Ideal.empty.answers requests → ∃ ks, r = .ok ks ∧ ks.Nodup) ∧
    ∀ r, .listed r ∈ (Ideal.empty.answers requests).map Answer.sorted →
      ∃ ks, r = .ok ks ∧ ks.Nodup ∧ ks.Pairwise fun a b => Utf8.encode a ≤ Utf8.encode b := by
  have hmemory := memory_simulates.answers (s := ⟨hm, .memory ⟨[]⟩⟩) rfl
    requests fun _ _ => trivial
  have hlog := log_simulates.answers
    ⟨l, logServes_of_openAt hlogSound hlogCalm hlog, hlogEmpty⟩ requests fun _ _ => trivial
  have hdocument := document_simulates.answers
    ⟨d, documentServes_of_openAt hdocumentSound hdocumentCalm hdocument, hdocumentEmpty⟩ requests
    fun _ _ => trivial
  obtain ⟨id, hserves⟩ := databaseServes_of_openAt hdatabaseSound hdatabase hdatabaseEmpty
  have hdatabase := (database_simulates path).answers ⟨b, id, _, hserves⟩ requests
    fun request hr hp => hfile hp request hr
  rw [Ideal.ofEntries_nil, List.map_id] at hmemory hlog hdocument
  have hlisted : ∀ r, .listed r ∈ Ideal.empty.answers requests → ∃ ks, r = .ok ks ∧ ks.Nodup :=
    fun r hr => Ideal.nodup_of_listed List.nodup_nil requests hr
  exact ⟨hmemory, hlog, hdocument, hdatabase, hlisted, fun r hr => sorted_of_listed hlisted hr⟩

-- A key is overwritten and another one moves to the end, and all three stores that last are opened
-- again.
theorem one_map_of_four_keys :
    ∃ l hl d hd b hb requests,
      LogStore.openAt ⟨.here, ["log"]⟩ 0 Host.empty = (.ok l, hl) ∧ l.records = [] ∧
      DocumentStore.openAt ⟨.here, ["documents"]⟩ Host.empty = (.ok d, hd) ∧ d.records = [] ∧
      DatabaseStore.openAt ⟨.here, ["database"]⟩ Host.empty = (.ok b, hb) ∧
      (DatabaseStore.table ⟨hb, b⟩).1 = .ok Table.empty ∧
      requests = [.set "é" "1", .put [("c", "2"), ("b", "3"), ("a", "4")], .set "b" "5", .erase "c",
        .set "c" "6", .reopen .log 9, .reopen .document 0, .reopen .database 0, .get "b", .keys] ∧
      Ideal.empty.answers requests = [.done (.ok ()), .done (.ok ()), .done (.ok ()), .done (.ok ()),
        .done (.ok ()), .done (.ok ()), .done (.ok ()), .done (.ok ()), .found (.ok "5"),
        .listed (.ok ["é", "b", "a", "c"])] ∧
      answers ⟨Host.empty, .memory MemoryStore.empty⟩ requests = Ideal.empty.answers requests ∧
      answers ⟨hl, .log l⟩ requests = Ideal.empty.answers requests ∧
      answers ⟨hd, .document d⟩ requests = Ideal.empty.answers requests ∧
      answers ⟨hb, .database b⟩ requests = (Ideal.empty.answers requests).map Answer.sorted ∧
      (∀ r, .listed r ∈ Ideal.empty.answers requests → ∃ ks, r = .ok ks ∧ ks.Nodup) ∧
      ∀ r, .listed r ∈ (Ideal.empty.answers requests).map Answer.sorted →
        ∃ ks, r = .ok ks ∧ ks.Nodup ∧ ks.Pairwise fun a b => Utf8.encode a ≤ Utf8.encode b := by
  have hcalm : ∀ call, Host.empty.Spares call := by
    intro call plan hplan
    cases hplan
  obtain ⟨l, hl, hlog, hlogEmpty⟩ : ∃ l hl,
      LogStore.openAt ⟨.here, ["log"]⟩ 0 Host.empty = (.ok l, hl) ∧ l.records = [] :=
    ⟨_, _, rfl, rfl⟩
  obtain ⟨d, hd, hdocument, hdocumentEmpty⟩ : ∃ d hd,
      DocumentStore.openAt ⟨.here, ["documents"]⟩ Host.empty = (.ok d, hd) ∧ d.records = [] :=
    ⟨_, _, rfl, rfl⟩
  obtain ⟨b, hb, hdatabase, hdatabaseEmpty⟩ : ∃ b hb,
      DatabaseStore.openAt ⟨.here, ["database"]⟩ Host.empty = (.ok b, hb) ∧
        (DatabaseStore.table ⟨hb, b⟩).1 = .ok Table.empty :=
    ⟨_, _, rfl, rfl⟩
  refine ⟨l, hl, d, hd, b, hb, _, hlog, hlogEmpty, hdocument, hdocumentEmpty, hdatabase,
    hdatabaseEmpty, rfl, rfl, ?_⟩
  refine one_map hlog hlogEmpty Disk.empty_sound hcalm hdocument hdocumentEmpty Disk.empty_sound
    hcalm hdatabase hdatabaseEmpty Disk.empty_sound _ fun hp => ?_
  cases hp

end Coffer.Backend
