import Coffer.Proofs.Log.Change

-- What a run leaves of a log, cut at any byte: the whole lines are there when the log is opened
-- again, the rest is gone, and the log goes on from there.

namespace Coffer.LogStore

open Commit (newline lines applyAll)
open Disk (Reaches)

-- The log on the disk is the lines of the commits and the start of one more.
structure Torn (d : Disk) (path : PathName) (place : Place) (file lock : FileId)
    (commits : List Commit) (torn : Bytes) : Prop extends Shelved d path place file lock where
  bytes : d.bytesOf file = lines commits ++ torn
  tail : newline ∉ torn

namespace Torn

variable {h : Host} {path : PathName} {place : Place} {file lock : FileId} {commits : List Commit}
  {torn : Bytes}

theorem frayed {d : Disk} (ht : Torn d path place file lock commits torn) :
    Frayed d path place file lock (lines commits) torn (applyAll commits) :=
  ⟨ht.toShelved, ht.bytes, Commit.durable_lines commits, ht.tail⟩

-- A log that no one uses opens with the records of its whole lines and loses the rest.
theorem openAt_eq (ht : Torn h.disk path place file lock commits torn) (hfree : lock ∉ h.locks)
    (threshold : Int) :
    ∃ h', openAt path threshold h =
        (.ok ⟨path, threshold, applyAll commits, some file, some lock, []⟩, h') ∧
      h'.plans = h.plans ∧ h'.disk.bytesOf file = lines commits ∧
      Holds h' ⟨path, threshold, applyAll commits, some file, some lock, []⟩ place file :=
  ht.frayed.openAt_eq hfree threshold

end Torn

-- The log of a store that may have been closed, in order or after a failed cut.
inductive Logged (path : PathName) (commits : List Commit) (s : Seat LogStore) : Prop where
  | writable (place : Place) (file : FileId) (hpath : s.store.path = path)
      (hl : Holds s.host s.store place file) (hbytes : content s = lines commits)
  | closed (place : Place) (file lock : FileId) (torn : Bytes) (hpath : s.store.path = path)
      (hfile : s.store.file = none) (ht : Torn s.host.disk path place file lock commits torn)
      (hlock : (s.store.lock = some lock ∧ s.host.locks.count lock = 1) ∨
        (s.store.lock = none ∧ lock ∉ s.host.locks))

section

variable {path : PathName} {s : Seat LogStore} {commits : List Commit}

theorem Holds.torn {place : Place} {file : FileId} (hl : Holds s.host s.store place file)
    (hbytes : content s = lines commits) :
    ∃ lock, Torn s.host.disk s.store.path place file lock commits [] ∧ s.store.lock = some lock ∧
      s.host.locks.count lock = 1 := by
  obtain ⟨lock, hs, hlock, hcount⟩ := hl.shelved
  refine ⟨lock, ⟨hs, ?_, List.not_mem_nil⟩, hlock, hcount⟩
  rw [← hl.content_eq, hbytes, List.append_nil]

theorem Logged.torn (hs : Logged path commits s) :
    ∃ place file lock torn, Torn s.host.disk path place file lock commits torn := by
  cases hs with
  | writable place file hpath hl hbytes =>
      obtain ⟨lock, ht, -⟩ := hl.torn hbytes
      rw [hpath] at ht
      exact ⟨place, file, lock, [], ht⟩
  | closed place file lock torn hpath hfile ht hlock => exact ⟨place, file, lock, torn, ht⟩

-- A log that has been compacted is one commit or none.
theorem liveLine_eq_lines (records : Entries String String) :
    ∃ commits, liveLine records = lines commits := by
  unfold liveLine
  split
  · exact ⟨[], rfl⟩
  · exact ⟨[⟨records, []⟩], (List.append_nil _).symm⟩

-- A refused commit leaves at most a part of its line behind, and that has no newline unless the
-- line is whole.
theorem commit_logged (hs : Logged path commits s) (c : Commit) :
    ∃ commits', Logged path commits' (commit c s).2 := by
  cases hs with
  | closed place file lock torn hpath hfile ht hlock =>
      rw [commit_of_closed hfile]
      exact ⟨commits, .closed place file lock torn hpath hfile ht hlock⟩
  | writable place file hpath hl hbytes =>
      obtain ⟨r, s', hcommit, hsteps, hrejected | happlied⟩ := commit_cases hl c
      · rw [hcommit]
        rcases hrejected.state with hclosed | ⟨file', hl'⟩
        · obtain ⟨-, file'', written, hfile, hwritten, hdisk⟩ := hrejected.closed hclosed
          obtain rfl : file = file'' := Option.some.inj (hl.isOpen.symm.trans hfile)
          obtain ⟨lock, ht, hlock, hcount⟩ := hl.torn hbytes
          rw [hpath] at ht
          have hstill : (s'.store.lock = some lock ∧ s'.host.locks.count lock = 1) ∨
              (s'.store.lock = none ∧ lock ∉ s'.host.locks) := by
            refine .inl ⟨hsteps.lock.trans hlock, ?_⟩
            rw [hsteps.keeps.locks, hcount]
          have hlog : s'.host.disk.bytesOf file = lines commits ++ written := by
            rw [hdisk, Disk.bytesOf_setBytes _ _ _ ht.reaches.allocated, hbytes]
          have hshelf : Shelved s'.host.disk path place file lock := by
            rw [hdisk]
            exact ht.setBytes file _
          have hpath' := hsteps.path.trans hpath
          rcases Commit.eq_line_or_not_mem hwritten with hwhole | hpart
          · refine ⟨commits ++ [c], .closed place file lock [] hpath' hclosed
              ⟨hshelf, ?_, List.not_mem_nil⟩ hstill⟩
            rw [hlog, Commit.lines_concat, List.append_nil, hwhole]
          · exact ⟨commits, .closed place file lock written hpath' hclosed ⟨hshelf, hlog, hpart⟩ hstill⟩
        · have hopen : s'.store.file ≠ none := by
            rw [hl'.isOpen]
            exact Option.some_ne_none file'
          exact ⟨commits, .writable place file' (hsteps.path.trans hpath) hl'
            ((hrejected.content hopen).trans hbytes)⟩
      · rw [hcommit]
        obtain ⟨file', hl'⟩ := happlied.state
        rcases happlied.content with happended | hcompacted
        · refine ⟨commits ++ [c], .writable place file' (hsteps.path.trans hpath) hl' ?_⟩
          rw [happended, hbytes, Commit.lines_concat]
        · obtain ⟨commits', hlive⟩ := liveLine_eq_lines s'.store.records
          exact ⟨commits', .writable place file' (hsteps.path.trans hpath) hl'
            (hcompacted.trans hlive)⟩

theorem change_logged (hs : Logged path commits s) (change : Change) :
    ∃ commits', Logged path commits' (change.run s).2 := by
  rcases change.run_cases s with hcommit | ⟨hnothing, -⟩
  · rw [hcommit]
    exact commit_logged hs change.commit
  · rw [hnothing]
    exact ⟨commits, hs⟩

theorem compact_logged (hs : Logged path commits s) :
    ∃ commits', Logged path commits' (compact s).2 := by
  cases hs with
  | closed place file lock torn hpath hfile ht hlock =>
      rw [compact_of_closed hfile]
      exact ⟨commits, .closed place file lock torn hpath hfile ht hlock⟩
  | writable place file hpath hl hbytes =>
      obtain ⟨r, s', file', hcompact, -, hsteps, hl', -, hsame | hlive⟩ := compact_cases hl
      · rw [hcompact]
        exact ⟨commits, .writable place file' (hsteps.path.trans hpath) hl' (hsame.trans hbytes)⟩
      · rw [hcompact]
        obtain ⟨commits', hlines⟩ := liveLine_eq_lines s.store.records
        exact ⟨commits', .writable place file' (hsteps.path.trans hpath) hl' (hlive.trans hlines)⟩

theorem close_logged (hs : Logged path commits s) : Logged path commits (close s).2 := by
  rw [close_eq]
  cases hs with
  | writable place file hpath hl hbytes =>
      obtain ⟨lock, ht, hlock, hcount⟩ := hl.torn hbytes
      rw [hpath] at ht
      rw [hlock]
      refine .closed place file lock [] hpath rfl ht (.inr ⟨rfl, ?_⟩)
      rw [← List.count_eq_zero]
      exact (List.count_erase_self ..).trans (by rw [hcount])
  | closed place file lock torn hpath hfile ht hlock =>
      rcases hlock with ⟨hlock, hcount⟩ | ⟨hlock, hfree⟩
      · rw [hlock]
        refine .closed place file lock torn hpath rfl ht (.inr ⟨rfl, ?_⟩)
        rw [← List.count_eq_zero]
        exact (List.count_erase_self ..).trans (by rw [hcount])
      · rw [hlock]
        exact .closed place file lock torn hpath rfl ht (.inr ⟨rfl, hfree⟩)

theorem reopen_logged (hs : Logged path commits s) (threshold : Int) :
    Logged path commits (step s (.reopen threshold)) := by
  cases hs with
  | writable place file hpath hl hbytes =>
      rw [step, openAt_of_holds hl threshold]
      exact .writable place file hpath hl hbytes
  | closed place file lock torn hpath hfile ht hlock =>
      rw [step, hpath]
      rcases hlock with ⟨hlock, hcount⟩ | ⟨hlock, hfree⟩
      · rw [ht.openAt_of_locked (List.count_pos_iff.mp (by omega)) threshold]
        exact .closed place file lock torn hpath hfile ht (.inl ⟨hlock, hcount⟩)
      · obtain ⟨h', hopen, -, hbytes, hl⟩ := ht.openAt_eq hfree threshold
        rw [hopen]
        exact .writable place file rfl hl ((Holds.content_eq (s := ⟨_, _⟩) hl).trans hbytes)

theorem step_logged (hs : Logged path commits s) (op : Op) :
    ∃ commits', Logged path commits' (step s op) := by
  cases op with
  | put batch => exact change_logged hs (.put batch)
  | erase key => exact change_logged hs (.erase key)
  | compact => exact compact_logged hs
  | close => exact ⟨commits, close_logged hs⟩
  | reopen threshold => exact ⟨commits, reopen_logged hs threshold⟩
  | plan plans shortWrites =>
      cases hs with
      | writable place file hpath hl hbytes =>
          exact ⟨commits, .writable place file hpath ⟨hl.isOpen, hl.named, hl.parentNamed,
            hl.parent, hl.reaches, hl.lock, hl.durable⟩ hbytes⟩
      | closed place file lock torn hpath hfile ht hlock =>
          exact ⟨commits, .closed place file lock torn hpath hfile ht hlock⟩

theorem run_logged (hs : Logged path commits s) (ops : List Op) :
    ∃ commits', Logged path commits' (run s ops) := by
  induction ops generalizing s commits with
  | nil => exact ⟨commits, hs⟩
  | cons op rest ih =>
      obtain ⟨commits', hs'⟩ := step_logged hs op
      exact ih hs'

-- A log that opens empty has no commits.
theorem logged_of_openAt {h h' : Host} {threshold : Int} {l : LogStore} (hd : h.disk.Sound)
    (hok : openAt path threshold h = (.ok l, h')) (hempty : h'.disk.readBytes path = .ok []) :
    Logged path [] ⟨h', l⟩ := by
  obtain ⟨hpath, -, -, place, file, hl⟩ := openAt_eq_ok hd hok
  have hread := hl.reaches.readBytes_eq
  rw [hpath, hempty] at hread
  exact .writable place file hpath hl
    ((Holds.content_eq (s := ⟨_, _⟩) hl).trans (Except.ok.inj hread).symm)

end

-- A crash leaves the first bytes of a file and no locks.
def crashed (h : Host) (file : FileId) (n : Nat) : Host :=
  { h with disk := h.disk.setBytes file ((h.disk.bytesOf file).take n), locks := [] }

-- Whatever was done to a log and whatever went wrong, its file is the lines of some commits and
-- the start of one more. Cut at any byte it opens again with exactly the commits whose line,
-- the newline included, is before the cut; the file ends there, and what is changed next adds to
-- them and stays.
theorem crash_keeps_whole_lines {path : PathName} {threshold : Int} {h h₀ : Host} {l : LogStore}
    (hd : h.disk.Sound) (hopen : openAt path threshold h = (.ok l, h₀))
    (hempty : h₀.disk.readBytes path = .ok []) (ops : List Op) {s : Seat LogStore}
    (hs : run ⟨h₀, l⟩ ops = s) :
    ∃ place file commits torn, s.host.disk.find path = .ok (place, .file file) ∧
      s.host.disk.bytesOf file = lines commits ++ torn ∧ newline ∉ torn ∧
      ∀ n ≤ (lines commits ++ torn).length, ∀ threshold', ∃ k l' h',
        (∀ i < commits.length, i < k ↔ (lines (commits.take (i + 1))).length ≤ n) ∧
        openAt path threshold' (crashed s.host file n) = (.ok l', h') ∧
        Shows ⟨h', l'⟩ (applyAll (commits.take k)) ∧
        h'.disk.readBytes path = .ok (lines (commits.take k)) ∧
        ∀ change : Change,
          ((∀ call, h'.Spares call) → (change.run ⟨h', l'⟩).1 = .ok ()) ∧
          ((change.run ⟨h', l'⟩).1 = .ok () →
            Answers (change.run ⟨h', l'⟩).2 (change.apply (applyAll (commits.take k)))) := by
  obtain ⟨commits, hlogged⟩ := run_logged (logged_of_openAt hd hopen hempty) ops
  rw [hs] at hlogged
  obtain ⟨place, file, lock, torn, ht⟩ := hlogged.torn
  refine ⟨place, file, commits, torn, ht.reaches.find, ht.bytes, ht.tail, fun n _ threshold' => ?_⟩
  obtain ⟨k, cut, htake, hcut, hwhole⟩ := Commit.take_lines commits torn ht.tail n
  have hcrashed : Torn (crashed s.host file n).disk path place file lock (commits.take k) cut := by
    refine ⟨ht.setBytes file _, ?_, hcut⟩
    rw [crashed, Disk.bytesOf_setBytes _ _ _ ht.reaches.allocated, ht.bytes, htake]
  obtain ⟨h', hreopen, -, hbytes, hl⟩ := hcrashed.openAt_eq List.not_mem_nil threshold'
  refine ⟨k, _, h', hwhole, hreopen, ⟨rfl, fun _ => rfl⟩, ?_, fun change => ⟨fun hspares => ?_,
    fun hok => ?_⟩⟩
  · rw [hl.reaches.readBytes_eq, hbytes]
  · exact change_ok_of_calm (s := ⟨_, _⟩) hl ⟨hspares, rfl⟩ change
  · exact answers_of_change_ok (s := ⟨_, _⟩) hl hok

-- The second commit could not be taken back, and seven bytes of its line are left.
theorem crash_keeps_whole_lines_of_torn_commit :
    ∃ l h₀ s, openAt ⟨.here, ["log"]⟩ 4096 Host.empty = (.ok l, h₀) ∧
      h₀.disk.readBytes ⟨.here, ["log"]⟩ = .ok [] ∧
      run ⟨h₀, l⟩ [.put [("a", "1")], .plan [⟨.ftruncate, 0, 1, "io"⟩] [⟨7, some "full"⟩],
        .put [("a", "2")]] = s ∧
      ∃ place file commits torn,
        s.host.disk.find ⟨.here, ["log"]⟩ = .ok (place, .file file) ∧
        s.host.disk.bytesOf file = lines commits ++ torn ∧ newline ∉ torn ∧
        ∀ n ≤ (lines commits ++ torn).length, ∀ threshold', ∃ k l' h',
          (∀ i < commits.length, i < k ↔ (lines (commits.take (i + 1))).length ≤ n) ∧
          openAt ⟨.here, ["log"]⟩ threshold' (crashed s.host file n) = (.ok l', h') ∧
          Shows ⟨h', l'⟩ (applyAll (commits.take k)) ∧
          h'.disk.readBytes ⟨.here, ["log"]⟩ = .ok (lines (commits.take k)) ∧
          ∀ change : Change,
            ((∀ call, h'.Spares call) → (change.run ⟨h', l'⟩).1 = .ok ()) ∧
            ((change.run ⟨h', l'⟩).1 = .ok () →
              Answers (change.run ⟨h', l'⟩).2 (change.apply (applyAll (commits.take k)))) :=
  ⟨_, _, _, rfl, rfl, rfl,
    @crash_keeps_whole_lines ⟨.here, ["log"]⟩ 4096 Host.empty _ _ Disk.empty_sound rfl rfl _ _ rfl⟩

end Coffer.LogStore
