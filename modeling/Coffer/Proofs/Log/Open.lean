import Coffer.Store.Log
import Coffer.Proofs.Host
import Coffer.Proofs.Log.Line

namespace Coffer.LogStore

open Commit (Durable)
open Disk (Reaches Extends Replaced Grown)

-- The lock of the log is held, under a name of its own.
def HoldsLock (h : Host) (l : LogStore) (place : Place) : Prop :=
  ∃ lockPath lockPlace lock, l.path.withSuffix? ".lock" = some lockPath ∧
    lockPath.hasNullByte = false ∧ Reaches h.disk lockPath lockPlace lock ∧ lockPlace ≠ place ∧
    l.lock = some lock ∧ h.locks.count lock = 1

-- An open log: its name leads to its file, and its file replays as its records.
structure Holds (h : Host) (l : LogStore) (place : Place) (file : FileId) : Prop where
  isOpen : l.file = some file
  named : l.path.hasNullByte = false
  parentNamed : l.path.parent.hasNullByte = false
  parent : ∃ p, h.disk.find l.path.parent = .ok (p, .directory)
  reaches : Reaches h.disk l.path place file
  lock : HoldsLock h l place
  durable : Durable (h.disk.bytesOf file) l.records

theorem tryLock_eq_ok {h h' : Host} {lock : FileId} (hok : Host.tryLock lock h = (.ok true, h')) :
    lock ∉ h.locks ∧ h' = { h with locks := lock :: h.locks } := by
  unfold Host.tryLock at hok
  split at hok
  · cases hok
  · cases hok
    exact ⟨by simpa using ‹¬h.locks.contains lock = true›, rfl⟩

theorem acquire_eq_ok {h h' : Host} {path lockPath : PathName} {lock : FileId} (hd : h.disk.Sound)
    (hok : acquire path lockPath h = (.ok lock, h')) :
    lockPath.hasNullByte = false ∧ ∃ disk place, Extends h.disk disk ∧
      Reaches disk lockPath place lock ∧ lock ∉ h.locks ∧
      h' = { h with disk, locks := lock :: h.locks } := by
  obtain ⟨id, h₁, hobtain, hok⟩ := Action.bind_eq_ok hok
  obtain ⟨hnull, disk, hdisk, rfl⟩ := Host.obtainFile_eq_ok hobtain
  obtain ⟨place, hreaches⟩ := Disk.obtain_reaches hd hdisk
  obtain ⟨free, h₂, htry, hok⟩ := Action.bind_eq_ok hok
  cases free with
  | false => cases hok
  | true =>
      obtain ⟨hfree, rfl⟩ := tryLock_eq_ok htry
      cases hok
      exact ⟨hnull, disk, place, Disk.obtain_extends hdisk, hreaches, hfree, rfl⟩

-- What replaying a log does to the disk: nothing but a cut.
theorem replay_eq_ok {h h' : Host} {path : PathName} {records : Entries String String}
    (hd : h.disk.Sound) (hnull : path.hasNullByte = false)
    (hok : replay path h = (.ok records, h')) :
    (h' = h ∧ records = [] ∧ h.disk.has path = .ok false) ∨
    (∃ place file, Reaches h'.disk path place file ∧ Durable (h'.disk.bytesOf file) records ∧
      h'.locks = h.locks ∧ (∀ p, h'.disk.node? p = h.disk.node? p) ∧
      h.disk.files.length ≤ h'.disk.files.length) := by
  obtain ⟨there, h₁, hthere, hok⟩ := Action.bind_eq_ok hok
  obtain ⟨hhas, rfl⟩ : h.disk.has path = .ok there ∧ h = h₁ := by
    obtain ⟨hhas, hsame⟩ := Prod.mk.inj hthere
    exact ⟨mapError_eq_ok hhas, hsame⟩
  cases there with
  | false =>
      cases hok
      exact .inl ⟨rfl, rfl, hhas⟩
  | true =>
      obtain ⟨data, h₁, hread, hok⟩ := Action.bind_eq_ok hok
      obtain ⟨u, h₂, hcheck, hread⟩ := Action.bind_eq_ok hread
      rw [Host.checkName_of_not hnull] at hcheck
      cases hcheck
      obtain ⟨hdata, rfl⟩ := Prod.mk.inj hread
      obtain ⟨place, file, hreaches, rfl⟩ := Disk.readBytes_eq_ok hd (mapError_eq_ok hdata)
      have hcut (h' : Commit.replay (Commit.splitLines (h.disk.bytesOf file)).1 = .ok records) :=
        Durable.of_cut (h.disk.bytesOf file) h'
      unfold Durable at hcut ⊢
      cases hs : Commit.splitLines (h.disk.bytesOf file) with
      | mk lines tail =>
          simp only [hs] at hok hcut
          obtain ⟨replayed, h₂, hreplay, hok⟩ := Action.bind_eq_ok hok
          rw [Action.ofExcept_apply] at hreplay
          obtain ⟨hlines, rfl⟩ := Prod.mk.inj hreplay
          have hlines := mapError_eq_ok hlines
          split at hok
          · cases hok
            have htail : tail = [] := by simpa using ‹tail.isEmpty = true›
            refine .inr ⟨place, file, hreaches, ?_, rfl, fun _ => rfl, Nat.le_refl _⟩
            rw [hs]
            exact ⟨htail, hlines⟩
          · obtain ⟨u, h₂, hnote, hok⟩ := Action.bind_eq_ok hok
            cases hnote
            obtain ⟨id, h₃, hobtain, hok⟩ := Action.bind_eq_ok hok
            obtain ⟨-, disk, hdisk, rfl⟩ := Host.obtainFile_eq_ok hobtain
            obtain ⟨rfl, rfl⟩ := Prod.mk.inj (Except.ok.inj (hreaches.obtain_eq.symm.trans hdisk))
            cases hok
            refine .inr ⟨place, file, hreaches.setBytes file _, ?_, rfl, fun _ => rfl,
              Nat.le_of_eq (Disk.length_files_setBytes _ _ _).symm⟩
            rw [Disk.bytesOf_setBytes _ _ _ hreaches.allocated]
            exact hcut hlines

-- A path that leads nowhere gets a new file, so its file is an empty one.
theorem obtain_of_not_has {d d' : Disk} {path : PathName} {id : FileId}
    (hnull : path.hasNullByte = false) (hhas : d.has path = .ok false)
    (hok : d.obtain path = .ok (d', id)) : d'.bytesOf id = [] := by
  obtain ⟨place, hl, ⟨-, hn⟩ | ⟨-, rfl, hr⟩⟩ := Disk.obtain_eq_ok hok
  · simp [Disk.has, hnull, Disk.find_eq_ok hl hn] at hhas
  · exact hr.bytes

theorem openHeld_eq_ok {h h' : Host} {path : PathName} {threshold : Int} {lock : FileId}
    {l : LogStore} (hd : h.disk.Sound) (hok : openHeld path threshold lock h = (.ok l, h')) :
    path.hasNullByte = false ∧ ∃ records place file,
      l = ⟨path, threshold, records, some file, some lock, []⟩ ∧ h'.locks = h.locks ∧
      Reaches h'.disk path place file ∧ Durable (h'.disk.bytesOf file) records ∧
      (∀ p q i, Reaches h.disk p q i → Reaches h'.disk p q i) ∧
      ∀ p q, h.disk.find p = .ok (q, .directory) → h'.disk.find p = .ok (q, .directory) := by
  obtain ⟨records, h₁, hreplay, hok⟩ := Action.bind_eq_ok hok
  obtain ⟨file, h₂, hobtain, hok⟩ := Action.bind_eq_ok hok
  obtain ⟨hnull, disk, hdisk, rfl⟩ := Host.obtainFile_eq_ok hobtain
  cases hok
  refine ⟨hnull, records, ?_⟩
  rcases replay_eq_ok hd hnull hreplay with
    ⟨rfl, rfl, hhas⟩ | ⟨place, found, hreaches, hdurable, hlocks, hnode, hfiles⟩
  · obtain ⟨place, hreaches⟩ := Disk.obtain_reaches hd hdisk
    have hext := Disk.obtain_extends hdisk
    refine ⟨place, file, rfl, rfl, hreaches, ?_, fun p q i hr => hr.of_extends hext,
      fun p q hf => Disk.find_directory_of_keepsDirectories hext.keepsDirectories hf⟩
    rw [obtain_of_not_has hnull hhas hdisk]
    exact Durable.empty
  · rw [hreaches.obtain_eq] at hdisk
    cases hdisk
    exact ⟨place, file, rfl, hlocks, hreaches, hdurable, fun p q i hr => hr.of_node hnode hfiles,
      fun p q hf => Disk.find_directory_of_keepsDirectories (fun p hp => (hnode p).trans hp) hf⟩

theorem orElse_fail_eq_ok {σ α : Type} {x : Action σ α} {clean : Action σ Unit} {s t : σ} {a : α}
    (h : (x.orElse fun e => do clean; .fail e) s = (.ok a, t)) : x s = (.ok a, t) := by
  rw [Action.orElse] at h
  split at h
  · rw [‹x s = _›, h]
  · obtain ⟨u, v, -, h⟩ := Action.bind_eq_ok h
    cases h

-- Whatever was on the disk, a log that opens holds its file and its lock.
theorem openAt_eq_ok {h h' : Host} {path : PathName} {threshold : Int} {l : LogStore}
    (hd : h.disk.Sound) (hok : openAt path threshold h = (.ok l, h')) :
    l.path = path ∧ l.threshold = threshold ∧ l.shortWrites = [] ∧
      ∃ place file, Holds h' l place file := by
  unfold openAt at hok
  cases hsuffix : path.withSuffix? ".lock" with
  | none => simp [hsuffix] at hok
  | some lockPath =>
      simp only [hsuffix] at hok
      obtain ⟨u, h₁, hensure, hok⟩ := Action.bind_eq_ok (Action.guarded_eq_ok hok)
      obtain ⟨hparentNull, disk₁, rfl, hext₁, parent, hparent⟩ := Host.ensureDirectories_eq_ok hensure
      obtain ⟨lock, h₂, hacquire, hok⟩ := Action.bind_eq_ok hok
      have hd₁ := hext₁.sound hd
      obtain ⟨hlockNull, disk₂, lockPlace, hext₂, hlock, hfree, rfl⟩ := acquire_eq_ok hd₁ hacquire
      obtain ⟨hnull, records, place, file, rfl, hlocks, hreaches, hdurable, hreach, hfind⟩ :=
        openHeld_eq_ok (hext₂.sound hd₁) (orElse_fail_eq_ok hok)
      have hlock := hreach _ _ _ hlock
      refine ⟨rfl, rfl, rfl, place, file, rfl, hnull, hparentNull, ⟨parent, ?_⟩, hreaches, ?_,
        hdurable⟩
      · exact hfind _ _ (Disk.find_directory_of_keepsDirectories hext₂.keepsDirectories hparent)
      · refine ⟨lockPath, lockPlace, lock, hsuffix, hlockNull, hlock,
          Disk.locate_withSuffix_ne (by decide) hsuffix hreaches.locate hlock.locate, rfl, ?_⟩
        rw [hlocks, List.count_cons_self, List.count_eq_zero.mpr hfree]

-- Once the lock is held, opening a log is replaying its file.

theorem acquire_of_obtain {h : Host} {path lockPath : PathName} {disk : Disk} {lock : FileId}
    (hnull : lockPath.hasNullByte = false) (hobtain : h.disk.obtain lockPath = .ok (disk, lock))
    (hfree : lock ∉ h.locks) :
    acquire path lockPath h = (.ok lock, { h with disk, locks := lock :: h.locks }) := by
  have htry : Host.tryLock lock { h with disk } =
      (.ok true, { h with disk, locks := lock :: h.locks }) := by
    simp [Host.tryLock, hfree]
  exact (Action.bind_of_ok (Host.obtainFile_of_obtain hnull hobtain)).trans (Action.bind_of_ok htry)

theorem openAt_of_obtain {h : Host} {path lockPath : PathName} {p : Place} {disk : Disk}
    {lock : FileId} (hsuffix : path.withSuffix? ".lock" = some lockPath)
    (hparentNull : path.parent.hasNullByte = false)
    (hparent : h.disk.find path.parent = .ok (p, .directory))
    (hnull : lockPath.hasNullByte = false) (hobtain : h.disk.obtain lockPath = .ok (disk, lock))
    (hfree : lock ∉ h.locks) (threshold : Int) :
    openAt path threshold h =
      Action.guarded ((openHeld path threshold lock).orElse fun e => do
        Host.unlock lock
        .fail e) { h with disk, locks := lock :: h.locks } := by
  unfold openAt
  simp only [hsuffix]
  unfold Action.guarded
  rw [Action.orElse, Action.orElse,
    Action.bind_of_ok (Host.ensureDirectories_of_find hparentNull hparent),
    Action.bind_of_ok (acquire_of_obtain hnull hobtain hfree)]

theorem openHeld_of_replay {h h' : Host} {path : PathName} {place : Place} {file lock : FileId}
    {records : Entries String String} {threshold : Int} (hnull : path.hasNullByte = false)
    (hreplay : replay path h = (.ok records, h')) (hreaches : Reaches h'.disk path place file) :
    openHeld path threshold lock h =
      (.ok ⟨path, threshold, records, some file, some lock, []⟩, h') :=
  (Action.bind_of_ok hreplay).trans (Action.bind_of_ok (Host.obtainFile_of_reaches hnull hreaches))

-- A log is where its name says, in use or not, and has its lock file beside it.
structure Shelved (d : Disk) (path : PathName) (place : Place) (file lock : FileId) : Prop where
  named : path.hasNullByte = false
  parentNamed : path.parent.hasNullByte = false
  parent : ∃ p, d.find path.parent = .ok (p, .directory)
  reaches : Reaches d path place file
  lockFile : ∃ lockPath lockPlace, path.withSuffix? ".lock" = some lockPath ∧
    lockPath.hasNullByte = false ∧ Reaches d lockPath lockPlace lock ∧ lockPlace ≠ place

theorem Holds.shelved {h : Host} {l : LogStore} {place : Place} {file : FileId}
    (hl : Holds h l place file) :
    ∃ lock, Shelved h.disk l.path place file lock ∧ l.lock = some lock ∧ h.locks.count lock = 1 := by
  obtain ⟨lockPath, lockPlace, lock, hsuffix, hnull, hreaches, hne, hlock, hcount⟩ := hl.lock
  exact ⟨lock, ⟨hl.named, hl.parentNamed, hl.parent, hl.reaches,
    lockPath, lockPlace, hsuffix, hnull, hreaches, hne⟩, hlock, hcount⟩

namespace Shelved

variable {d : Disk} {h : Host} {path : PathName} {place : Place} {file lock : FileId}

theorem setBytes (hs : Shelved d path place file lock) (id : FileId) (b : Bytes) :
    Shelved (d.setBytes id b) path place file lock := by
  obtain ⟨p, hparent⟩ := hs.parent
  obtain ⟨lockPath, lockPlace, hsuffix, hnull, hreaches, hne⟩ := hs.lockFile
  have hkeep : Disk.KeepsDirectories d (d.setBytes id b) := fun _ hp => hp
  exact ⟨hs.named, hs.parentNamed, ⟨p, Disk.find_directory_of_keepsDirectories hkeep hparent⟩,
    hs.reaches.setBytes id b, lockPath, lockPlace, hsuffix, hnull, hreaches.setBytes id b, hne⟩

-- A log that is in use is not opened again.
theorem openAt_of_locked (hs : Shelved h.disk path place file lock) (hlocked : lock ∈ h.locks)
    (threshold : Int) :
    openAt path threshold h = (.error (.storage (.logLocked path.text)), h) := by
  obtain ⟨lockPath, lockPlace, hsuffix, hnull, hreaches, -⟩ := hs.lockFile
  obtain ⟨p, hparent⟩ := hs.parent
  have htry : Host.tryLock lock h = (.ok false, h) := by simp [Host.tryLock, hlocked]
  have hacquire : acquire path lockPath h = (.error (.storage (.logLocked path.text)), h) := by
    refine (Action.bind_of_ok (Host.obtainFile_of_reaches hnull hreaches)).trans ?_
    exact Action.bind_of_ok htry
  unfold openAt
  simp only [hsuffix]
  refine Action.guarded_of_error (e := .storage (.logLocked path.text)) ?_
  refine (Action.bind_of_ok (Host.ensureDirectories_of_find hs.parentNamed hparent)).trans ?_
  exact Action.bind_of_error hacquire

-- A log that is not in use opens with the records that its replay gives.
theorem openAt_of_free (hs : Shelved h.disk path place file lock) (hfree : lock ∉ h.locks)
    {h' : Host} {records : Entries String String}
    (hreplay : replay path { h with locks := lock :: h.locks } = (.ok records, h'))
    (hreaches' : Reaches h'.disk path place file) (threshold : Int) :
    openAt path threshold h =
      (.ok ⟨path, threshold, records, some file, some lock, []⟩, h') := by
  obtain ⟨lockPath, lockPlace, hsuffix, hnull, hreaches, -⟩ := hs.lockFile
  obtain ⟨p, hparent⟩ := hs.parent
  rw [openAt_of_obtain hsuffix hs.parentNamed hparent hnull hreaches.obtain_eq hfree threshold]
  exact Action.guarded_of_ok (Action.orElse_of_ok (openHeld_of_replay hs.named hreplay hreaches'))

end Shelved

-- While the log is held, no one else opens it.
theorem openAt_of_holds {h : Host} {l : LogStore} {place : Place} {file : FileId}
    (hl : Holds h l place file) (threshold : Int) :
    openAt l.path threshold h = (.error (.storage (.logLocked l.path.text)), h) := by
  obtain ⟨lock, hs, -, hcount⟩ := hl.shelved
  exact hs.openAt_of_locked (List.count_pos_iff.mp (by omega)) threshold

-- The host once the log's lock has been given back.
def released (h : Host) (lock : FileId) : Host := { h with locks := h.locks.erase lock }

-- The host once the lock is held again.
def retaken (h : Host) (lock : FileId) : Host := { h with locks := lock :: h.locks.erase lock }

-- The bytes of a log without its torn last line.
def wholeLines (b : Bytes) : Bytes := b.take (b.length - (Commit.splitLines b).2.length)

theorem there_of_reaches {h : Host} {path : PathName} {place : Place} {file : FileId}
    (hnull : path.hasNullByte = false) (hreaches : Reaches h.disk path place file) :
    ((h.disk.has path).mapError Failure.system, h) = (.ok true, h) := by
  rw [hreaches.has_eq hnull, mapError_ok]

theorem replay_of_reaches {h : Host} {path : PathName} {place : Place} {file : FileId}
    {records : Entries String String} (hreaches : Reaches h.disk path place file)
    (hnull : path.hasNullByte = false)
    (hreplay : Commit.replay (Commit.splitLines (h.disk.bytesOf file)).1 = .ok records) :
    replay path h =
      (.ok records,
        if (Commit.splitLines (h.disk.bytesOf file)).2.isEmpty then h
        else { h with
          notices := h.notices ++ [tornNotice path (Commit.splitLines (h.disk.bytesOf file)).2]
          disk := h.disk.setBytes file (wholeLines (h.disk.bytesOf file)) }) := by
  refine (Action.bind_of_ok (there_of_reaches hnull hreaches)).trans ?_
  refine (Action.bind_of_ok (Host.readFile_of_reaches hnull hreaches)).trans ?_
  unfold wholeLines
  cases hs : Commit.splitLines (h.disk.bytesOf file) with
  | mk lines tail =>
      rw [hs] at hreplay
      refine (Action.bind_of_ok (a := records) (t := h) ?_).trans ?_
      · rw [hreplay]
        rfl
      · split
        · rfl
        · let noted : Host := { h with notices := h.notices ++ [tornNotice path tail] }
          have hnote : Host.note (tornNotice path tail) h = (.ok (), noted) := rfl
          have hobtain : Host.obtainFile path noted = (.ok file, noted) :=
            Host.obtainFile_of_reaches hnull hreaches
          refine (Action.bind_of_ok hnote).trans ?_
          exact (Action.bind_of_ok hobtain).trans rfl

theorem replay_of_corrupt {h : Host} {path : PathName} {place : Place} {file : FileId}
    {c : Commit.Corruption} (hreaches : Reaches h.disk path place file)
    (hnull : path.hasNullByte = false)
    (hreplay : Commit.replay (Commit.splitLines (h.disk.bytesOf file)).1 = .error c) :
    replay path h = (.error (corruption path c), h) := by
  refine (Action.bind_of_ok (there_of_reaches hnull hreaches)).trans ?_
  refine (Action.bind_of_ok (Host.readFile_of_reaches hnull hreaches)).trans ?_
  cases hs : Commit.splitLines (h.disk.bytesOf file) with
  | mk lines tail =>
      rw [hs] at hreplay
      refine Action.bind_of_error ?_
      rw [hreplay]
      rfl

theorem replay_of_holds {h : Host} {l : LogStore} {place : Place} {file : FileId}
    (hreaches : Reaches h.disk l.path place file) (hnull : l.path.hasNullByte = false)
    (hdurable : Durable (h.disk.bytesOf file) l.records) :
    replay l.path h = (.ok l.records, h) := by
  rw [replay_of_reaches hreaches hnull hdurable.2, hdurable.1]
  rfl

-- A log that is closed opens again with the records it had.
theorem openAt_of_released {h : Host} {l : LogStore} {place : Place} {file lock : FileId}
    (hl : Holds h l place file) (hlock : l.lock = some lock) (threshold : Int) :
    openAt l.path threshold (released h lock) =
      (.ok ⟨l.path, threshold, l.records, some file, some lock, []⟩, retaken h lock) := by
  obtain ⟨held, hs, hheld, hcount⟩ := hl.shelved
  obtain rfl : lock = held := Option.some.inj (hlock.symm.trans hheld)
  have hfree : lock ∉ (released h lock).locks := by
    rw [released, ← List.count_eq_zero, List.count_erase_self, hcount]
  have hreplay : replay l.path (retaken h lock) = (.ok l.records, retaken h lock) :=
    replay_of_holds (h := retaken h lock) hl.reaches hl.named hl.durable
  exact Shelved.openAt_of_free (h := released h lock) hs hfree hreplay hl.reaches threshold

theorem Holds.retaken {h : Host} {l : LogStore} {place : Place} {file lock : FileId}
    (hl : Holds h l place file) (hlock : l.lock = some lock) (threshold : Int) :
    Holds (retaken h lock) ⟨l.path, threshold, l.records, some file, some lock, []⟩ place file := by
  obtain ⟨lockPath, lockPlace, held, hsuffix, hnull, hreaches, hne, hheld, hcount⟩ := hl.lock
  obtain rfl : lock = held := Option.some.inj (hlock.symm.trans hheld)
  refine ⟨rfl, hl.named, hl.parentNamed, hl.parent, hl.reaches, ?_, hl.durable⟩
  refine ⟨lockPath, lockPlace, lock, hsuffix, hnull, hreaches, hne, rfl, ?_⟩
  rw [LogStore.retaken, List.count_cons_self, List.count_erase_self, hcount]

-- A log with the start of one more line behind what replays as the records.
structure Frayed (d : Disk) (path : PathName) (place : Place) (file lock : FileId) (b torn : Bytes)
    (records : Entries String String) : Prop extends Shelved d path place file lock where
  bytes : d.bytesOf file = b ++ torn
  durable : Durable b records
  tail : Commit.newline ∉ torn

namespace Frayed

variable {h : Host} {path : PathName} {place : Place} {file lock : FileId} {b torn : Bytes}
  {records : Entries String String}

theorem splitLines_eq (hf : Frayed h.disk path place file lock b torn records) :
    Commit.splitLines (h.disk.bytesOf file) = ((Commit.splitLines b).1, torn) := by
  rw [hf.bytes]
  exact hf.durable.splitLines_append hf.tail

theorem replay_eq (hf : Frayed h.disk path place file lock b torn records) :
    ∃ h', replay path h = (.ok records, h') ∧ h'.locks = h.locks ∧ h'.plans = h.plans ∧
      Frayed h'.disk path place file lock b [] records := by
  have hsplit := hf.splitLines_eq
  have hlines : Commit.replay (Commit.splitLines (h.disk.bytesOf file)).1 = .ok records := by
    rw [hsplit]
    exact hf.durable.2
  rw [replay_of_reaches hf.reaches hf.named hlines, hsplit]
  split
  · have htorn : torn = [] := List.isEmpty_iff.mp ‹torn.isEmpty = true›
    subst htorn
    exact ⟨h, rfl, rfl, rfl, hf⟩
  · refine ⟨_, rfl, rfl, rfl, hf.setBytes file _, ?_, hf.durable, List.not_mem_nil⟩
    rw [Disk.bytesOf_setBytes _ _ _ hf.reaches.allocated, wholeLines, hsplit, hf.bytes,
      List.length_append, Nat.add_sub_cancel, List.take_left, List.append_nil]

-- A log that no one uses opens with the records of its whole lines and loses the rest.
theorem openAt_eq (hf : Frayed h.disk path place file lock b torn records) (hfree : lock ∉ h.locks)
    (threshold : Int) :
    ∃ h', openAt path threshold h = (.ok ⟨path, threshold, records, some file, some lock, []⟩, h') ∧
      h'.plans = h.plans ∧ h'.disk.bytesOf file = b ∧
      Holds h' ⟨path, threshold, records, some file, some lock, []⟩ place file := by
  obtain ⟨h', hreplay, hlocks, hplans, hf'⟩ :=
    replay_eq (h := { h with locks := lock :: h.locks }) hf
  have hbytes : h'.disk.bytesOf file = b := by
    rw [hf'.bytes, List.append_nil]
  obtain ⟨lockPath, lockPlace, hsuffix, hnull, hreaches, hne⟩ := hf'.lockFile
  refine ⟨h', hf.openAt_of_free hfree hreplay hf'.reaches threshold, hplans, hbytes,
    rfl, hf'.named, hf'.parentNamed, hf'.parent, hf'.reaches,
    ⟨lockPath, lockPlace, lock, hsuffix, hnull, hreaches, hne, rfl, ?_⟩, ?_⟩
  · rw [hlocks, List.count_cons_self, List.count_eq_zero.mpr hfree]
  · rw [hbytes]
    exact hf.durable

end Frayed

end Coffer.LogStore
