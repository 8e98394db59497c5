import Coffer.Proofs.Log.Change

-- A commit that fails and cannot be cut out of the log again. The log is closed for writing after
-- that; opened again, it has the whole commit or nothing of it.

namespace Coffer.LogStore

open Commit (Durable)

-- The line of the commit is not written, or not flushed, and then the cut fails, too.
def FailsUncut (s : Seat LogStore) (file : FileId) (c : Commit) : Prop :=
  ∃ start s₁ e s₂ e', sizeOf file s = (.ok start, s₁) ∧ append file c.line s₁ = (.error e, s₂) ∧
    (Host.interrupt .ftruncate s₂.host).1 = .error e'

namespace Change

-- The change is one that writes a commit.
def Writes (records : Entries String String) : Change → Prop
  | .put batch => batch ≠ []
  | .erase key => key ∈ records.keys

theorem run_of_writes {change : Change} {s : Seat LogStore} (h : change.Writes s.store.records) :
    change.run s = LogStore.commit change.commit s := by
  cases change with
  | put batch =>
      have hbatch : batch.isEmpty = false := by
        simpa [Writes] using h
      change LogStore.put batch s = _
      rw [LogStore.put, hbatch]
      rfl
  | erase key =>
      have hhas : s.store.records.has key = true := (Entries.has_iff _ _).mpr h
      exact (LogStore.erase_eq key s).trans (by rw [hhas]; rfl)

end Change

-- The log takes no commit and no compaction, and an attempt changes nothing.
structure Refuses (s : Seat LogStore) : Prop where
  changes : ∀ change : Change, change.Writes s.store.records →
    change.run s = (.error (.storage .logClosed), s)
  compact : compact s = (.error (.storage .logClosed), s)

theorem refuses_of_closed {s : Seat LogStore} (hfile : s.store.file = none) : Refuses s where
  changes change hwrites := by
    rw [change.run_of_writes hwrites]
    exact commit_of_closed hfile change.commit
  compact := compact_of_closed hfile

-- A log after a failed cut: closed for writing, with its lock its own or given back.
structure Poisoned (path : PathName) (records : Entries String String) (disk : Disk) (lock : FileId)
    (t : Seat LogStore) : Prop where
  path : t.store.path = path
  file : t.store.file = none
  records : t.store.records = records
  disk : t.host.disk = disk
  lock : (t.store.lock = some lock ∧ t.host.locks.count lock = 1) ∨
    (t.store.lock = none ∧ lock ∉ t.host.locks)

namespace Poisoned

variable {path : PathName} {records : Entries String String} {disk : Disk} {lock : FileId}
  {t : Seat LogStore}

theorem shows (hp : Poisoned path records disk lock t) : Shows t records := by
  rw [← hp.records]
  exact ⟨rfl, fun _ => rfl⟩

theorem close (hp : Poisoned path records disk lock t) :
    Poisoned path records disk lock (close t).2 ∧ lock ∉ (LogStore.close t).2.host.locks := by
  rw [close_eq]
  rcases hp.lock with ⟨hlock, hcount⟩ | ⟨hlock, hfree⟩
  · have hfree : lock ∉ (released t.host lock).locks := by
      rw [released, ← List.count_eq_zero, List.count_erase_self, hcount]
    rw [hlock]
    exact ⟨⟨hp.path, rfl, hp.records, hp.disk, .inr ⟨rfl, hfree⟩⟩, hfree⟩
  · rw [hlock]
    exact ⟨⟨hp.path, rfl, hp.records, hp.disk, .inr ⟨rfl, hfree⟩⟩, hfree⟩

theorem change (hp : Poisoned path records disk lock t) (change : Change) :
    (change.run t).2 = t := by
  rcases change.run_cases t with hcommit | ⟨hnothing, -⟩
  · rw [hcommit, commit_of_closed hp.file]
  · rw [hnothing]

-- Only a log that is opened anew is written to again.
theorem step (hp : Poisoned path records disk lock t) {op : Op}
    (hop : ∀ threshold, op ≠ .reopen threshold) : Poisoned path records disk lock (step t op) := by
  cases op with
  | put batch =>
      have hsame : LogStore.step t (.put batch) = t := hp.change (.put batch)
      rwa [hsame]
  | erase key =>
      have hsame : LogStore.step t (.erase key) = t := hp.change (.erase key)
      rwa [hsame]
  | compact =>
      rw [LogStore.step, compact_of_closed hp.file]
      exact hp
  | close => exact hp.close.1
  | reopen threshold => exact absurd rfl (hop threshold)
  | plan plans shortWrites => exact ⟨hp.path, hp.file, hp.records, hp.disk, hp.lock⟩

theorem run (hp : Poisoned path records disk lock t) {ops : List Op}
    (hops : ∀ threshold, .reopen threshold ∉ ops) :
    Poisoned path records disk lock (run t ops) := by
  induction ops generalizing t with
  | nil => exact hp
  | cons op rest ih =>
      have hop : ∀ threshold, op ≠ .reopen threshold := fun threshold heq =>
        hops threshold (heq ▸ List.mem_cons_self)
      exact ih (hp.step hop) fun threshold hmem => hops threshold (List.mem_cons_of_mem _ hmem)

-- Closed and opened again, the log has the records of its whole lines.
theorem openAt_eq (hp : Poisoned path records disk lock t) {place : Place} {file : FileId}
    {b torn : Bytes} {replayed : Entries String String}
    (hf : Frayed disk path place file lock b torn replayed) (threshold : Int) :
    ∃ l h, openAt path threshold (LogStore.close t).2.host = (.ok l, h) ∧ l.records = replayed ∧
      Answers ⟨h, l⟩ replayed := by
  obtain ⟨hp', hfree⟩ := hp.close
  rw [← hp'.disk] at hf
  obtain ⟨h, hopen, -, -, hl⟩ := hf.openAt_eq hfree threshold
  exact ⟨_, h, hopen, rfl, Holds.answers (s := ⟨_, _⟩) hl⟩

end Poisoned

-- What a log replays as once some of a commit's line has come behind it.
def replayedAfter (c : Commit) (written : Bytes) (records : Entries String String) :
    Entries String String :=
  if written = c.line then c.apply records else records

theorem Shelved.frayed_of_prefix {d : Disk} {path : PathName} {place : Place} {file lock : FileId}
    {records : Entries String String} {c : Commit} {written : Bytes}
    (hs : Shelved d path place file lock) (hdurable : Durable (d.bytesOf file) records)
    (hwritten : written <+: c.line) :
    ∃ b torn, Frayed (d.setBytes file (d.bytesOf file ++ written)) path place file lock b torn
      (replayedAfter c written records) := by
  have hbytes := Disk.bytesOf_setBytes d file (d.bytesOf file ++ written) hs.reaches.allocated
  unfold replayedAfter
  split
  · refine ⟨d.bytesOf file ++ c.line, [], hs.setBytes file _, ?_, hdurable.append c,
      List.not_mem_nil⟩
    rw [hbytes, List.append_nil, ‹written = c.line›]
  · have htorn := (Commit.eq_line_or_not_mem hwritten).resolve_left ‹¬written = c.line›
    exact ⟨d.bytesOf file, written, hs.setBytes file _, hbytes, hdurable, htorn⟩

section

variable {s : Seat LogStore} {place : Place} {file : FileId}

theorem commit_of_failsUncut {c : Commit} (hfile : s.store.file = some file)
    (h : FailsUncut s file c) :
    ∃ cause t, commit c s = (.error (.storage (.notRolledBack cause)), t) ∧ t.store.file = none := by
  obtain ⟨start, s₁, e, s₂, e', hsize, happend, hcut⟩ := h
  obtain ⟨t, hback, hclosed⟩ : ∃ t, rollBack file start e s₂ =
      (.error (.storage (.notRolledBack (systemFault e))), t) ∧ t.store.file = none :=
    ⟨_, rollBack_of_uncut file start e (Prod.ext hcut rfl), rfl⟩
  refine ⟨systemFault e, t, ?_, hclosed⟩
  refine (Action.bind_of_ok (Seat.current_apply s)).trans ?_
  rw [hfile]
  refine (Action.bind_of_ok (Action.guarded_of_ok hsize)).trans ?_
  exact Action.bind_of_error ((Action.orElse_of_error happend).trans hback)

-- The failed commit leaves a part of its line, or all of it, and a log that is only read.
theorem poisoned_of_failsUncut {lock : FileId} (hl : Holds s.host s.store place file)
    (hlock : s.store.lock = some lock) (hcount : s.host.locks.count lock = 1) {c : Commit}
    (h : FailsUncut s file c) :
    ∃ cause t written, commit c s = (.error (.storage (.notRolledBack cause)), t) ∧
      written <+: c.line ∧
      Poisoned s.store.path s.store.records
        (s.host.disk.setBytes file (s.host.disk.bytesOf file ++ written)) lock t := by
  obtain ⟨cause, t, hfailed, hfile⟩ := commit_of_failsUncut hl.isOpen h
  obtain ⟨r, s', hcommit, hsteps, hrejected | happlied⟩ := commit_cases hl c
  · obtain ⟨rfl, rfl⟩ := Prod.mk.inj (hfailed.symm.trans hcommit)
    obtain ⟨-, file', written, hfile', hwritten, hdisk⟩ := hrejected.closed hfile
    obtain rfl : file = file' := Option.some.inj (hl.isOpen.symm.trans hfile')
    rw [hl.content_eq] at hdisk
    refine ⟨cause, t, written, hfailed, hwritten,
      hsteps.path, hfile, hrejected.records, hdisk, .inl ⟨hsteps.lock.trans hlock, ?_⟩⟩
    rw [hsteps.keeps.locks, hcount]
  · -- a commit that has been made is never reported as one that was not taken back
    obtain ⟨rfl, rfl⟩ := Prod.mk.inj (hfailed.symm.trans hcommit)
    rcases happlied.result with hok | ⟨m, hraw, -⟩
    · cases hok
    · cases hraw

end

-- Whatever went wrong before: a commit that fails and is not cut out of the log again is an
-- error, is not seen, and closes the log for writing. From then on until the log is opened anew
-- its disk stays as it is, and it opens with the records from before the commit or, when the
-- line of the commit has come through whole, with the commit made.
theorem uncut_commit_all_or_nothing {path : PathName} {threshold : Int} {h h₀ : Host} {l : LogStore}
    (hd : h.disk.Sound) (hopen : openAt path threshold h = (.ok l, h₀)) (ops : List Op)
    {s : Seat LogStore} (hs : run ⟨h₀, l⟩ ops = s) {file : FileId}
    (hfile : s.store.file = some file) {change : Change} (hwrites : change.Writes s.store.records)
    (hfails : FailsUncut s file change.commit) :
    ∃ cause s' written, change.run s = (.error (.storage (.notRolledBack cause)), s') ∧
      written <+: change.commit.line ∧
      s'.host.disk = s.host.disk.setBytes file (s.host.disk.bytesOf file ++ written) ∧
      Shows s' s.store.records ∧
      ∀ later, (∀ threshold', .reopen threshold' ∉ later) → ∀ t, run s' later = t →
        t.host.disk = s'.host.disk ∧ Shows t s.store.records ∧ Refuses t ∧
        ∀ threshold', ∃ l' h', openAt path threshold' (close t).2.host = (.ok l', h') ∧
          l'.records =
            (if written = change.commit.line then change.apply s.store.records
              else s.store.records) ∧
          Answers ⟨h', l'⟩ l'.records := by
  have hsane := run_sane (sane_of_openAt hd hopen) ops
  rw [hs] at hsane
  obtain hclosed | ⟨place, file', hl⟩ := hsane.state
  · cases hclosed.symm.trans hfile
  obtain rfl : file = file' := Option.some.inj (hfile.symm.trans hl.isOpen)
  obtain ⟨lock, hshelved, hlock, hcount⟩ := hl.shelved
  obtain ⟨cause, s', written, hcommit, hwritten, hp⟩ :=
    poisoned_of_failsUncut hl hlock hcount hfails
  obtain ⟨b, torn, hfrayed⟩ := hshelved.frayed_of_prefix hl.durable hwritten
  rw [hsane.path] at hp hfrayed
  rw [replayedAfter, change.apply_commit] at hfrayed
  refine ⟨cause, s', written, (change.run_of_writes hwrites).trans hcommit, hwritten, hp.disk,
    hp.shows, ?_⟩
  rintro later hlater t rfl
  have ht := hp.run hlater
  refine ⟨ht.disk.trans hp.disk.symm, ht.shows, refuses_of_closed ht.file, fun threshold' => ?_⟩
  obtain ⟨l', h', hreopen, hrecords, hanswers⟩ := ht.openAt_eq hfrayed threshold'
  refine ⟨l', h', hreopen, hrecords, ?_⟩
  rw [hrecords]
  exact hanswers

-- The second put is out of space after seven bytes, and the cut fails.
theorem uncut_commit_all_or_nothing_of_torn_put :
    ∃ l h₀ s, openAt ⟨.here, ["log"]⟩ 4096 Host.empty = (.ok l, h₀) ∧
      run ⟨h₀, l⟩ [.put [("a", "1")], .plan [⟨.ftruncate, 0, 1, "io"⟩] [⟨7, some "full"⟩]] = s ∧
      s.store.file = some 1 ∧ (Change.put [("b", "2")]).Writes s.store.records ∧
      FailsUncut s 1 (Change.put [("b", "2")]).commit ∧
      ∃ cause s' written,
        (Change.put [("b", "2")]).run s = (.error (.storage (.notRolledBack cause)), s') ∧
        written <+: (Change.put [("b", "2")]).commit.line ∧
        s'.host.disk = s.host.disk.setBytes 1 (s.host.disk.bytesOf 1 ++ written) ∧
        Shows s' s.store.records ∧
        ∀ later, (∀ threshold', .reopen threshold' ∉ later) → ∀ t, run s' later = t →
          t.host.disk = s'.host.disk ∧ Shows t s.store.records ∧ Refuses t ∧
          ∀ threshold', ∃ l' h',
            openAt ⟨.here, ["log"]⟩ threshold' (close t).2.host = (.ok l', h') ∧
            l'.records =
              (if written = (Change.put [("b", "2")]).commit.line then
                (Change.put [("b", "2")]).apply s.store.records
              else s.store.records) ∧
            Answers ⟨h', l'⟩ l'.records := by
  have hwrites : (Change.put [("b", "2")]).Writes [("a", "1")] := List.cons_ne_nil _ _
  refine ⟨_, _, _, rfl, rfl, rfl, hwrites, ⟨_, _, _, _, _, rfl, rfl, rfl⟩, ?_⟩
  exact @uncut_commit_all_or_nothing ⟨.here, ["log"]⟩ 4096 Host.empty _ _ Disk.empty_sound rfl
    [.put [("a", "1")], .plan [⟨.ftruncate, 0, 1, "io"⟩] [⟨7, some "full"⟩]] _ rfl 1 rfl
    (.put [("b", "2")]) hwrites ⟨_, _, _, _, _, rfl, rfl, rfl⟩

end Coffer.LogStore
