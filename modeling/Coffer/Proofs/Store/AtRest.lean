import Coffer.Proofs.Store.Replacement
import Coffer.Proofs.Store.Simulation

-- Stores as they are found on a host. Opening one keeps its records, whether it succeeds or fails,
-- and closing it gives back the lock that opening has taken, and no other.

namespace Coffer

open Disk (Reaches)

namespace LogStore

variable {h h' : Host} {path : PathName} {data : Bytes} {threshold : Int} {l : LogStore}

-- An open log holds one lock, on top of those that were held before.
theorem locks_of_openAt (hd : h.disk.Sound) (hok : openAt path threshold h = (.ok l, h')) :
    ∃ lock, l.lock = some lock ∧ h'.locks = lock :: h.locks := by
  unfold openAt at hok
  cases hsuffix : path.withSuffix? ".lock" with
  | none => simp [hsuffix] at hok
  | some lockPath =>
      simp only [hsuffix] at hok
      obtain ⟨u, h₁, hensure, hok⟩ := Action.bind_eq_ok (Action.guarded_eq_ok hok)
      obtain ⟨-, disk, rfl, hext, -⟩ := Host.ensureDirectories_eq_ok hensure
      obtain ⟨lock, h₂, hacquire, hok⟩ := Action.bind_eq_ok hok
      have hd' := hext.sound hd
      obtain ⟨-, disk', -, hext', -, -, rfl⟩ := acquire_eq_ok hd' hacquire
      obtain ⟨-, records, -, -, rfl, hlocks, -⟩ :=
        openHeld_eq_ok (hext'.sound hd') (orElse_fail_eq_ok hok)
      exact ⟨lock, rfl, hlocks⟩

-- A log whose lock cannot be had stays closed, with all that it held.
theorem openAt_of_not_unlocked (hd : h.disk.Sound) (hnull : path.hasNullByte = false)
    (hdata : h.disk.readBytes path = .ok data) (hlocked : ¬Unlocked h path) (threshold : Int) :
    ∃ e h', openAt path threshold h = (.error e, h') ∧ h'.locks = h.locks ∧
      h'.disk.readBytes path = .ok data := by
  obtain ⟨place, file, hreaches, rfl⟩ := Disk.readBytes_eq_ok hd hdata
  obtain ⟨p, hparent⟩ := hreaches.find_parent
  unfold openAt
  cases hsuffix : path.withSuffix? ".lock" with
  | none => exact ⟨_, h, rfl, rfl, hdata⟩
  | some lockPath =>
      have hlockNull := PathName.hasNullByte_withSuffix hnull rfl hsuffix
      have hensure := Host.ensureDirectories_of_find (PathName.hasNullByte_parent hnull) hparent
      suffices hacquire : ∃ e h', acquire path lockPath h = (.error e, h') ∧ h'.locks = h.locks ∧
          h'.disk.readBytes path = .ok (h.disk.bytesOf file) by
        obtain ⟨e, h', hacquire, hlocks, hbytes⟩ := hacquire
        refine ⟨e.asStorage, h', Action.guarded_of_error ?_, hlocks, hbytes⟩
        exact (Action.bind_of_ok hensure).trans (Action.bind_of_error hacquire)
      cases hobtain : h.disk.obtain lockPath with
      | error fault =>
          have hfile : Host.obtainFile lockPath h = (.error (.system fault), h) := by
            refine (Action.bind_of_ok (Host.checkName_of_not hlockNull h)).trans ?_
            simp only [hobtain]
          exact ⟨_, h, Action.bind_of_error hfile, rfl, hdata⟩
      | ok obtained =>
          obtain ⟨disk, lock⟩ := obtained
          have hheld : lock ∈ h.locks := by
            by_contra hfree
            exact hlocked ⟨lockPath, disk, lock, hsuffix, hobtain, hfree⟩
          have htry : Host.tryLock lock { h with disk } = (.ok false, { h with disk }) := by
            simp [Host.tryLock, hheld]
          have hext := Disk.obtain_extends hobtain
          refine ⟨_, { h with disk }, (Action.bind_of_ok
            (Host.obtainFile_of_obtain hlockNull hobtain)).trans (Action.bind_of_ok htry), rfl, ?_⟩
          rw [← Disk.bytesOf_of_prefix hext.files hreaches.allocated]
          exact (hreaches.of_extends hext).readBytes_eq

theorem Holds.unlocked {place : Place} {file lock : FileId} {locks : List FileId}
    (hl : Holds h l place file) (hlock : l.lock = some lock) (hlocks : h.locks = lock :: locks) :
    Unlocked { h with locks } l.path := by
  obtain ⟨lockPath, lockPlace, held, hsuffix, -, hreaches, -, hheld, hcount⟩ := hl.lock
  obtain rfl : lock = held := Option.some.inj (hlock.symm.trans hheld)
  rw [hlocks, List.count_cons_self] at hcount
  have hfree : lock ∉ locks := List.count_eq_zero.mp (by omega)
  exact ⟨lockPath, h.disk, lock, hsuffix, hreaches.obtain_eq, hfree⟩

-- With nothing planned to go wrong, only a log that is closed refuses a write.
theorem put_of_calm {s : Seat LogStore} (hs : Sane path s) (hcalm : Calm s)
    (batch : Entries String String) :
    put batch s = (.error (.storage .logClosed), s) ∨ ∃ t, put batch s = (.ok (), t) := by
  unfold put
  split
  · exact .inr ⟨s, rfl⟩
  · rcases hs.state with hclosed | ⟨place, file, hl⟩
    · exact .inl (commit_of_closed hclosed _)
    · obtain ⟨r, t, hcommit, -, hrejected | happlied⟩ := commit_cases hl ⟨batch, []⟩
      · exact absurd hcalm hrejected.cause
      · rcases happlied.result with rfl | ⟨m, -, hspares⟩
        · exact .inr ⟨t, hcommit⟩
        · exact absurd (hcalm.1 _) hspares

end LogStore

namespace DocumentStore

open Coffer.Action (Agrees)

variable {h h' : Host} {directory : PathName} {place : Place} {records : Entries String String}

-- Of the host, only the bytes of the document matter to reading it.
theorem read_congr {r : Except Failure (Entries String String)}
    (hnull : directory.hasNullByte = false)
    (hbytes :
      h'.disk.readBytes (documentPath directory) = h.disk.readBytes (documentPath directory))
    (hread : read directory h = (r, h)) : read directory h' = (r, h') := by
  have hnamed : (documentPath directory).hasNullByte = false := PathName.hasNullByte_join hnull rfl
  have hagrees : Agrees (fun a b : Host => a = h ∧ b = h') (read directory) (read directory) := by
    refine Agrees.bind (Agrees.attempt ?_) fun r => ?_
    · rintro _ _ ⟨rfl, rfl⟩
      rw [Host.readFile_eq hnamed, Host.readFile_eq hnamed, hbytes]
      exact ⟨rfl, rfl, rfl⟩
    · split
      · exact Action.agrees_ofExcept _
      · exact Action.agrees_pure _
      · exact Action.agrees_fail _
  obtain ⟨hresult, -, hstate⟩ := hagrees h h' ⟨rfl, rfl⟩
  rw [hread] at hresult
  exact Prod.ext hresult.symm hstate

-- A document that can be read is opened once its lock file is there.
theorem openAt_of_read {disk : Disk} {lock : FileId} (hd : h.disk.Sound)
    (hnull : directory.hasNullByte = false)
    (hdirectory : h.disk.find directory = .ok (place, .directory))
    (hread : read directory h = (.ok records, h))
    (hobtain : h.disk.obtain (lockPath directory) = .ok (disk, lock)) :
    openAt directory h = (.ok ⟨directory, records⟩, { h with disk }) := by
  have hlockNull : (lockPath directory).hasNullByte = false := PathName.hasNullByte_join hnull rfl
  have hread' : read directory { h with disk } = (.ok records, { h with disk }) := by
    refine read_congr hnull ?_ hread
    exact Disk.readBytes_of_obtain hd (by decide) (by decide) (by decide) (by decide) (by decide)
      hobtain
  have hload : load directory h = (.ok records, { h with disk }) :=
    (Action.bind_of_ok (Host.obtainFile_of_obtain hlockNull hobtain)).trans hread'
  rw [openAt_of_find hnull hdirectory]
  exact Action.guarded_of_ok (Action.bind_of_ok hload)

end DocumentStore

namespace DatabaseStore

variable {h : Host} {path : PathName} {place : Place} {id : FileId} {t : Table}

theorem present_of_table (htable : (h.disk.content? id).bind prepared = some t) :
    t.present = true := by
  obtain ⟨c, -, hprepared⟩ := Option.bind_eq_some_iff.mp htable
  exact present_of_prepared hprepared

theorem isLongPath_setContent (d : Disk) (id : FileId) (c : Content) (path : PathName) :
    isLongPath (d.setContent id c) path = isLongPath d path := by
  have hlocate : (d.setContent id c).locate path = d.locate path :=
    @Disk.locate_of_node d (d.setContent id c) (fun _ => rfl) path
  rw [isLongPath, isLongPath, hlocate]

-- A file that has been made a database stays one.
theorem table_setContent (hid : id < h.disk.files.length) (ht : t.present = true) :
    ((h.disk.setContent id (.table t)).content? id).bind prepared = some t := by
  rw [Disk.content?_setContent _ _ _ _ hid, if_pos rfl, Option.bind_some, prepared, if_pos ht]

theorem connected_setContent (hid : id < h.disk.files.length) (t : Table) :
    Connected { h with disk := h.disk.setContent id (.table t) } ⟨path, some id, false⟩ id t := by
  refine ⟨rfl, ?_, ?_⟩
  · rw [Disk.length_files_setContent]
    exact hid
  · rw [Disk.content?_setContent _ _ _ _ hid, if_pos rfl]

-- What opening does to a file that can hold a database: it turns it into one, or it finds the names
-- of the journals too long.
theorem openAt_of_prepared (hnull : path.hasNullByte = false) (hfile : isPrivate path = false)
    (hreaches : Reaches h.disk path place id)
    (htable : (h.disk.content? id).bind prepared = some t) :
    openAt path h =
      if isLongPath h.disk path || isLongName path then (.error (.storage .cannotOpenDatabase), h)
      else (.ok ⟨path, some id, false⟩, { h with disk := h.disk.setContent id (.table t) }) := by
  obtain ⟨p, hparent⟩ := hreaches.find_parent
  have hprepare : prepare path id h =
      (.ok ⟨path, some id, false⟩, { h with disk := h.disk.setContent id (.table t) }) := by
    rw [prepare, htable]
  have hbytes := bytesOf_eq_nil hprepare
  refine (Action.bind_of_ok (Action.guarded_of_ok
    (Host.ensureDirectories_of_find (PathName.hasNullByte_parent hnull) hparent))).trans ?_
  by_cases hlong : isLongPath h.disk path = true
  · have hconnect : connect path h = (.error (.storage .cannotOpenDatabase), h) := by
      rw [connect, if_neg (by simp [hfile]), if_pos hlong]
    rw [if_pos (by simp [hlong])]
    exact Action.bind_of_error hconnect
  · have hconnect : connect path h = (.ok id, h) := by
      rw [connect, if_neg (by simp [hfile]), if_neg hlong]
      exact Action.orElse_of_ok (Host.obtainFile_of_reaches hnull hreaches)
    refine (Action.bind_of_ok hconnect).trans ((Action.bind_of_ok rfl).trans ?_)
    by_cases hname : isLongName path = true
    · rw [if_pos (by simp [hbytes, hfile, hname]), if_pos (by simp [hname])]
      rfl
    · rw [if_neg (by simp [hname]), if_neg (by simp [hlong, hname]), hprepare]

end DatabaseStore

namespace Backend

-- Opening a store of the kind.
def openAt (path : PathName) : BackendKind → Action Host Backend
  | .memory => return .memory MemoryStore.empty
  | .log => return .log (← LogStore.openAt path LogStore.defaultThreshold)
  | .document => return .document (← DocumentStore.openAt path)
  | .database => return .database (← DatabaseStore.openAt path)

theorem create_eq_openAt {home text : String} {path : PathName}
    (hpath : (PathName.ofText text).expandHome home = .ok path) (kind : BackendKind) :
    create home kind (.text text) = openAt path kind := by
  have hname : (PathName.ofValue (.text text)).bind (PathName.expandHome home) = .ok path := hpath
  cases kind <;> simp only [create, hname] <;> rfl

-- A store of the kind that is there to be opened, and its records. The last line of a log may be
-- torn, a document may never have been written, and an empty file is a new database. In memory
-- nothing outlives its store.
inductive AtRest (h : Host) : BackendKind → PathName → Entries String String → Prop where
  | memory (path : PathName) : AtRest h .memory path []
  | log (path : PathName) (data : Bytes) (records : Entries String String)
      (hnull : path.hasNullByte = false) (hdata : h.disk.readBytes path = .ok data)
      (hreplay : Commit.replay (Commit.splitLines data).1 = .ok records) :
      AtRest h .log path records
  | document (directory : PathName) (place : Place) (records : Entries String String)
      (hnull : directory.hasNullByte = false)
      (hdirectory : h.disk.find directory = .ok (place, .directory))
      (hread : DocumentStore.read directory h = (.ok records, h)) :
      AtRest h .document directory records
  | database (path : PathName) (place : Place) (id : FileId) (t : Table)
      (hnull : path.hasNullByte = false) (hfile : DatabaseStore.isPrivate path = false)
      (hfind : h.disk.find path = .ok (place, .file id))
      (htable : (h.disk.content? id).bind DatabaseStore.prepared = some t) :
      AtRest h .database path t.rows

-- Nothing is in the way of opening the store.
def Free (h : Host) (path : PathName) : BackendKind → Prop
  | .memory => True
  | .log => LogStore.Unlocked h path
  | .document => ∃ disk lock, h.disk.obtain (DocumentStore.lockPath path) = .ok (disk, lock)
  | .database =>
      DatabaseStore.isLongPath h.disk path = false ∧ DatabaseStore.isLongName path = false

-- Nothing is planned to go wrong with the store.
structure Calm (s : Seat Backend) : Prop where
  spares : ∀ call, s.host.Spares call
  noShort : ∀ l, s.store = .log l → l.shortWrites = []

-- The lock that a store holds on its file.
def lock? : Backend → Option FileId
  | .log l => l.lock
  | _ => none

section

variable {h h' : Host} {kind : BackendKind} {path : PathName} {records : Entries String String}

theorem AtRest.of_disk (hrest : AtRest h kind path records) (hdisk : h'.disk = h.disk) :
    AtRest h' kind path records := by
  cases hrest with
  | memory => exact .memory path
  | log _ data _ hnull hdata hreplay =>
      exact .log path data records hnull (by rw [hdisk, hdata]) hreplay
  | document _ place _ hnull hdirectory hread =>
      refine .document path place records hnull (by rw [hdisk, hdirectory]) ?_
      exact DocumentStore.read_congr hnull (by rw [hdisk]) hread
  | database _ place id t hnull hfile hfind htable =>
      exact .database path place id t hnull hfile (by rw [hdisk, hfind]) (by rw [hdisk, htable])

theorem Free.of_same (hfree : Free h path kind) (hdisk : h'.disk = h.disk)
    (hlocks : h'.locks = h.locks) : Free h' path kind := by
  cases kind with
  | memory => trivial
  | log =>
      obtain ⟨lockPath, disk, lock, hsuffix, hobtain, hnot⟩ := hfree
      exact ⟨lockPath, disk, lock, hsuffix, by rw [hdisk, hobtain], by rw [hlocks]; exact hnot⟩
  | document =>
      obtain ⟨disk, lock, hobtain⟩ := hfree
      exact ⟨disk, lock, by rw [hdisk, hobtain]⟩
  | database => exact ⟨by rw [hdisk]; exact hfree.1, hfree.2⟩

-- The store that has been opened on a host shows its records, and holds its lock on top of those
-- that were held before. Without it the store could be opened again.
structure Opens (h : Host) (kind : BackendKind) (path : PathName) (records : Entries String String)
    (b : Backend) (t : Host) : Prop where
  evolves : h.Evolves t
  sound : Sound ⟨t, b⟩
  view : view ⟨t, b⟩ = records
  noShort : ∀ l, b = .log l → l.shortWrites = []
  rest : AtRest t kind path records
  locks : t.locks = b.lock?.toList ++ h.locks
  free : Free { t with locks := h.locks } path kind

theorem Opens.calm {b : Backend} {t : Host} (hopens : Opens h kind path records b t)
    (hcalm : ∀ call, h.Spares call) : Calm ⟨t, b⟩ :=
  ⟨fun call => hopens.evolves.spares call (hcalm call), hopens.noShort⟩

-- What opening a store comes to: nothing has changed for it, or it is open.
inductive Attempted (h : Host) (kind : BackendKind) (path : PathName)
    (records : Entries String String) : Except Failure Backend × Host → Prop where
  | failed (e : Failure) (t : Host) (hrest : AtRest t kind path records)
      (hlocks : t.locks = h.locks) (hblocked : ¬Free h path kind) :
      Attempted h kind path records (.error e, t)
  | opened (b : Backend) (t : Host) (hopen : Opens h kind path records b t) :
      Attempted h kind path records (.ok b, t)

-- One kind after the other.

theorem attempted_log {data : Bytes} (hd : h.disk.Sound) (hnull : path.hasNullByte = false)
    (hdata : h.disk.readBytes path = .ok data)
    (hreplay : Commit.replay (Commit.splitLines data).1 = .ok records) :
    Attempted h .log path records (openAt path .log h) := by
  by_cases hfree : LogStore.Unlocked h path
  · rcases LogStore.openAt_of_bytes hd hnull hfree hdata LogStore.defaultThreshold with
      ⟨_, l, t, hreplay', hopen, rfl⟩ | ⟨c, t, hcorrupt, -⟩
    · obtain rfl : records = l.records := Except.ok.inj (hreplay.symm.trans hreplay')
      have hsane := LogStore.sane_of_openAt hd hopen
      have hevolves := LogStore.openAt_within path LogStore.defaultThreshold h
      rw [hopen] at hevolves
      obtain ⟨rfl, -, hshort, place, file, hl⟩ := LogStore.openAt_eq_ok hd hopen
      obtain ⟨lock, hlock, hlocks⟩ := LogStore.locks_of_openAt hd hopen
      have hopen' : openAt l.path .log h = (.ok (.log l), t) := (Action.bind_of_ok hopen).trans rfl
      rw [hopen']
      refine .opened _ t ⟨hevolves, ⟨l.path, hsane⟩, rfl, ?_, ?_, ?_, hl.unlocked hlock hlocks⟩
      · rintro _ ⟨⟩
        exact hshort
      · exact .log l.path _ l.records hnull hl.reaches.readBytes_eq hl.durable.2
      · rw [hlocks, lock?, hlock]
        rfl
    · cases hreplay.symm.trans hcorrupt
  · obtain ⟨e, t, hopen, hlocks, hbytes⟩ :=
      LogStore.openAt_of_not_unlocked hd hnull hdata hfree LogStore.defaultThreshold
    have hopen' : openAt path .log h = (.error e, t) := Action.bind_of_error hopen
    rw [hopen']
    exact .failed e t (.log path data records hnull hbytes hreplay) hlocks hfree

theorem attempted_document {place : Place} (hd : h.disk.Sound) (hnull : path.hasNullByte = false)
    (hdirectory : h.disk.find path = .ok (place, .directory))
    (hread : DocumentStore.read path h = (.ok records, h)) :
    Attempted h .document path records (openAt path .document h) := by
  cases hobtain : h.disk.obtain (DocumentStore.lockPath path) with
  | error fault =>
      have hload := DocumentStore.load_of_unobtained hnull hobtain
      have hopen : DocumentStore.openAt path h = (.error (.storage (.system fault)), h) := by
        rw [DocumentStore.openAt_of_find hnull hdirectory]
        exact Action.guarded_of_error (Action.bind_of_error hload)
      have hopen' : openAt path .document h = _ := Action.bind_of_error hopen
      rw [hopen']
      refine .failed _ h (.document path place records hnull hdirectory hread) rfl ?_
      rintro ⟨disk, lock, hok⟩
      cases hobtain.symm.trans hok
  | ok obtained =>
      obtain ⟨disk, lock⟩ := obtained
      have hopen := DocumentStore.openAt_of_read hd hnull hdirectory hread hobtain
      have hevolves := DocumentStore.openAt_within path h
      rw [hopen] at hevolves
      obtain ⟨-, place', hkept⟩ := DocumentStore.openAt_eq_ok hd hopen
      have hread' := DocumentStore.read_of_document hkept.named hkept.located hkept.document
      obtain ⟨id, hlock⟩ := hkept.lock
      have hopen' : openAt path .document h = (.ok (.document ⟨path, records⟩), { h with disk }) :=
        (Action.bind_of_ok hopen).trans rfl
      rw [hopen']
      exact .opened _ _ ⟨hevolves, ⟨place', hkept⟩, rfl, by rintro _ ⟨⟩,
        .document path place' records hnull hkept.directory hread', rfl, disk, id, hlock.obtain_eq⟩

theorem attempted_database {place : Place} {id : FileId} {t : Table} (hd : h.disk.Sound)
    (hnull : path.hasNullByte = false) (hfile : DatabaseStore.isPrivate path = false)
    (hfind : h.disk.find path = .ok (place, .file id))
    (htable : (h.disk.content? id).bind DatabaseStore.prepared = some t) :
    Attempted h .database path t.rows (openAt path .database h) := by
  obtain ⟨hlocate, hnode⟩ := Disk.of_find_eq_ok hfind
  have hreaches : Reaches h.disk path place id := ⟨hlocate, hnode, hd place id hnode⟩
  have hopen := DatabaseStore.openAt_of_prepared hnull hfile hreaches htable
  cases hlong : DatabaseStore.isLongPath h.disk path || DatabaseStore.isLongName path with
  | true =>
      rw [hlong, if_pos rfl] at hopen
      have hopen' : openAt path .database h = _ := Action.bind_of_error hopen
      rw [hopen']
      refine .failed _ h (.database path place id t hnull hfile hfind htable) rfl ?_
      rintro ⟨hroom, hname⟩
      rw [hroom, hname] at hlong
      cases hlong
  | false =>
      rw [hlong, if_neg Bool.false_ne_true] at hopen
      obtain ⟨hroom, hname⟩ := Bool.or_eq_false_iff.mp hlong
      have ht := DatabaseStore.present_of_table htable
      have hconnected := @DatabaseStore.connected_setContent h path id hreaches.allocated t
      have htable' := DatabaseStore.table_setContent hreaches.allocated ht
      have hfind' := (hreaches.setContent id (.table t)).find
      have hopen' : openAt path .database h = (.ok (.database ⟨path, some id, false⟩), _) :=
        (Action.bind_of_ok hopen).trans rfl
      rw [hopen']
      refine .opened _ _ ⟨Host.evolves_of_disk (Disk.sound_setContent id _), ⟨id, t, hconnected, ht⟩,
        view_of_connected hconnected, by rintro _ ⟨⟩, ?_, rfl, ?_, hname⟩
      · exact .database path place id t hnull hfile hfind' htable'
      · rw [DatabaseStore.isLongPath_setContent]
        exact hroom

theorem attempted_of_atRest (hd : h.disk.Sound) (hrest : AtRest h kind path records) :
    Attempted h kind path records (openAt path kind h) := by
  cases hrest with
  | memory =>
      exact .opened _ h
        ⟨⟨id, fun _ => id⟩, trivial, rfl, by rintro _ ⟨⟩, .memory path, rfl, trivial⟩
  | log _ data _ hnull hdata hreplay => exact attempted_log hd hnull hdata hreplay
  | document _ place _ hnull hdirectory hread => exact attempted_document hd hnull hdirectory hread
  | database _ place id t hnull hfile hfind htable =>
      exact attempted_database hd hnull hfile hfind htable

theorem opens_of_openAt {b : Backend} {t : Host} (hd : h.disk.Sound)
    (hrest : AtRest h kind path records) (hopen : openAt path kind h = (.ok b, t)) :
    Opens h kind path records b t := by
  have hattempted := attempted_of_atRest hd hrest
  rw [hopen] at hattempted
  cases hattempted with
  | opened _ _ hopens => exact hopens

theorem atRest_of_openAt {e : Failure} {t : Host} (hd : h.disk.Sound)
    (hrest : AtRest h kind path records) (hopen : openAt path kind h = (.error e, t)) :
    AtRest t kind path records ∧ t.locks = h.locks ∧ ¬Free h path kind := by
  have hattempted := attempted_of_atRest hd hrest
  rw [hopen] at hattempted
  cases hattempted with
  | failed _ _ hrest' hlocks hblocked => exact ⟨hrest', hlocks, hblocked⟩

theorem openAt_of_free (hd : h.disk.Sound) (hrest : AtRest h kind path records)
    (hfree : Free h path kind) :
    ∃ b t, openAt path kind h = (.ok b, t) ∧ view ⟨t, b⟩ = records := by
  cases hopen : openAt path kind h with
  | mk r t =>
      cases r with
      | error e => exact absurd hfree (atRest_of_openAt hd hrest hopen).2.2
      | ok b => exact ⟨b, t, rfl, (opens_of_openAt hd hrest hopen).view⟩

end

section

variable {s t : Seat Backend} {batch : Entries String String} {e : Failure}

-- The disk and the locks are as they were, and the store holds the lock it held.
structure Stays (s t : Seat Backend) : Prop where
  disk : t.host.disk = s.host.disk
  locks : t.host.locks = s.host.locks
  lock : t.store.lock? = s.store.lock?

theorem Stays.refl (s : Seat Backend) : Stays s s := ⟨rfl, rfl, rfl⟩

theorem Stays.trans {u : Seat Backend} (hst : Stays s t) (htu : Stays t u) : Stays s u :=
  ⟨htu.disk.trans hst.disk, htu.locks.trans hst.locks, htu.lock.trans hst.lock⟩

-- A write that is refused has touched nothing.
theorem put_eq_error (hs : Sound s) (hcalm : Calm s) (hput : put batch s = (.error e, t)) :
    Stays s t := by
  obtain ⟨h, store⟩ := s
  cases store with
  | memory m => cases hput
  | log l =>
      obtain ⟨path, hl⟩ := hs
      rcases LogStore.put_of_calm hl ⟨hcalm.spares, hcalm.noShort l rfl⟩ batch with
        hput' | ⟨u, hput'⟩
      · cases hput.symm.trans (Seat.focus_of_eq hput')
        exact .refl _
      · cases hput.symm.trans (Seat.focus_of_eq hput')
  | document d =>
      obtain ⟨place, hd⟩ := hs
      rcases DocumentStore.put_cases (s := ⟨h, d⟩) hd batch with
        ⟨-, -, -, -, -, hspares⟩ | ⟨h', hput', -⟩
      · exact absurd hcalm.spares hspares
      · cases hput.symm.trans (Seat.focus_of_eq hput')
  | database d =>
      obtain ⟨id, u, hd, hu⟩ := hs
      rcases DatabaseStore.put_cases (s := ⟨h, d⟩) hd hu batch with ⟨hput', -⟩ | hput'
      · cases hput.symm.trans (Seat.focus_of_eq hput')
        exact ⟨rfl, rfl, rfl⟩
      · cases hput.symm.trans (Seat.focus_of_eq hput')

-- Closing a store gives back its lock and does nothing else.
theorem close_releases {locks : List FileId}
    (hlocks : s.host.locks = s.store.lock?.toList ++ locks) :
    ∃ t, close s = (.ok (), t) ∧ t.host.disk = s.host.disk ∧ t.host.locks = locks := by
  obtain ⟨h, store⟩ := s
  cases store with
  | log l =>
      refine ⟨_, Seat.focus_of_eq (LogStore.close_eq ⟨h, l⟩), ?_⟩
      cases hlock : l.lock with
      | none =>
          rw [lock?, hlock] at hlocks
          exact ⟨rfl, hlocks⟩
      | some lock =>
          have hlocks : h.locks = lock :: locks := by
            rw [lock?, hlock] at hlocks
            exact hlocks
          refine ⟨rfl, ?_⟩
          dsimp only [Option.elim_some, LogStore.released]
          rw [hlocks, List.erase_cons_head]
  | memory m => exact ⟨_, rfl, rfl, hlocks⟩
  | document d => exact ⟨_, rfl, rfl, hlocks⟩
  | database d => exact ⟨_, rfl, rfl, hlocks⟩

end

end Backend

end Coffer
