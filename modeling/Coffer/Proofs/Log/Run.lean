import Coffer.Proofs.Log.Commit

namespace Coffer.LogStore

open Coffer.Action (Within within_fail within_pure within_reading within_ofExcept)
open Host (Evolves)

-- Operations keep the disk sound, however they end

theorem acquire_within (path lockPath : PathName) : Within Evolves (acquire path lockPath) := by
  refine (Host.obtainFile_within lockPath).bind fun id => (Host.tryLock_within id).bind fun free => ?_
  split
  · exact within_pure id
  · exact within_fail _

theorem replay_within (path : PathName) : Within Evolves (replay path) := by
  refine Within.bind (within_reading _) fun there => ?_
  split
  · refine (Host.readFile_within path).bind fun data => ?_
    dsimp only
    refine (within_ofExcept _).bind fun records => ?_
    split
    · exact within_pure records
    · exact (Host.note_within _).bind fun _ => (Host.obtainFile_within path).bind fun id =>
        (Host.setFileBytes_within id _).bind fun _ => within_pure records
  · exact within_pure []

theorem openAt_within (path : PathName) (threshold : Int) : Within Evolves (openAt path threshold) := by
  unfold openAt
  split
  · exact within_fail _
  · refine Within.guarded ?_
    refine (Host.ensureDirectories_within path.parent).bind fun _ =>
      (acquire_within path _).bind fun lock => Within.orElse ?_ fun e => ?_
    · exact (replay_within path).bind fun _ => (Host.obtainFile_within path).bind fun _ =>
        within_pure _
    · exact (Host.unlock_within lock).bind fun _ => within_fail e

theorem sizeOf_within (file : FileId) : Within Seat.Evolves (sizeOf file) :=
  Seat.onHost_within ((Host.interrupt_within .fstat).bind fun _ =>
    (within_reading _).bind fun b => within_pure b.length)

theorem append_within (file : FileId) (data : Bytes) : Within Seat.Evolves (append file data) := by
  refine Seat.current_within.bind fun l => ?_
  dsimp only
  refine (Seat.setStore_within _).bind fun _ => Seat.onHost_within ?_
  refine Within.bind (within_reading _) fun b => (Host.setFileBytes_within file _).bind fun _ => ?_
  split
  · exact within_fail _
  · exact Host.interrupt_within .fsync

theorem rollBack_within (file : FileId) (start : Nat) (cause : Failure) :
    Within Seat.Evolves (rollBack file start cause) := by
  refine Within.bind (Within.orElse (Seat.onHost_within ?_) fun e => ?_) fun _ => within_fail _
  · exact (Host.interrupt_within .ftruncate).bind fun _ => Within.bind (within_reading _) fun b =>
      Host.setFileBytes_within file _
  · exact Seat.current_within.bind fun l => (Seat.onHost_within (Host.note_within _)).bind fun _ =>
      (Seat.setStore_within _).bind fun _ => within_fail _

theorem reopen_within : Within Seat.Evolves reopen :=
  Seat.current_within.bind fun l => (Seat.onHost_within (Host.obtainFile_within l.path)).bind fun file =>
    (Seat.setStore_within _).bind fun _ => within_pure file

theorem compact_within : Within Seat.Evolves compact := by
  refine Seat.current_within.bind fun l => ?_
  split
  · exact within_fail _
  · refine (sizeOf_within _).bind fun before => ?_
    refine ((Seat.onHost_within (Host.stage_within _ _)).orElse fun e => within_fail _).bind
      fun temporary => ?_
    refine (Seat.onHost_within (Host.install_within _ _)).attempt.bind fun installed =>
      reopen_within.bind fun file => ?_
    split
    · exact within_fail _
    · exact (sizeOf_within _).bind fun after => Seat.onHost_within (Host.note_within _)

theorem compactOrDefer_within : Within Seat.Evolves compactOrDefer := by
  refine compact_within.orElse fun e => ?_
  split
  · exact Seat.current_within.bind fun l => Seat.onHost_within (Host.note_within _)
  · exact within_fail _

theorem commit_within (c : Commit) : Within Seat.Evolves (commit c) := by
  refine Seat.current_within.bind fun l => ?_
  split
  · exact within_fail _
  · refine (sizeOf_within _).guarded.bind fun start => ?_
    refine ((append_within _ _).orElse fun e => rollBack_within _ start e).bind fun _ => ?_
    refine Seat.current_within.bind fun l => (Seat.setStore_within _).bind fun _ => ?_
    split
    · exact compactOrDefer_within
    · exact within_pure ()

theorem close_within : Within Seat.Evolves close := by
  refine Seat.current_within.bind fun l => ?_
  dsimp only
  split
  · exact (Seat.onHost_within (Host.unlock_within _)).bind fun _ => Seat.setStore_within _
  · exact Seat.setStore_within _

-- Runs

-- What can be done to a log, and what may be planned to go wrong with it.
inductive Op where
  | put (batch : Entries String String)
  | erase (key : String)
  | compact
  | close
  | reopen (threshold : Int)
  | plan (plans : List FaultPlan) (shortWrites : List ShortWrite)

-- An operation that fails leaves what it had changed; a log that does not open leaves the
-- store there was.
def step (s : Seat LogStore) : Op → Seat LogStore
  | .put batch => (put batch s).2
  | .erase key => (erase key s).2
  | .compact => (compact s).2
  | .close => (close s).2
  | .reopen threshold =>
      match openAt s.store.path threshold s.host with
      | (.ok l, h) => ⟨h, l⟩
      | (.error _, h) => ⟨h, s.store⟩
  | .plan plans shortWrites =>
      ⟨{ s.host with plans }, { s.store with shortWrites }⟩

def run (s : Seat LogStore) (ops : List Op) : Seat LogStore := ops.foldl step s

-- Either the log is closed for writing, or its file replays as its records.
structure Sane (path : PathName) (s : Seat LogStore) : Prop where
  sound : s.host.disk.Sound
  path : s.store.path = path
  state : s.store.file = none ∨ ∃ place file, Holds s.host s.store place file

theorem commit_of_closed {s : Seat LogStore} (h : s.store.file = none) (c : Commit) :
    commit c s = (.error (.storage .logClosed), s) := by
  refine (Action.bind_of_ok (Seat.current_apply s)).trans ?_
  rw [h]
  rfl

theorem compact_of_closed {s : Seat LogStore} (h : s.store.file = none) :
    compact s = (.error (.storage .logClosed), s) := by
  refine (Action.bind_of_ok (Seat.current_apply s)).trans ?_
  rw [h]
  rfl

theorem erase_eq (key : String) (s : Seat LogStore) :
    erase key s = if s.store.records.has key then commit ⟨[], [key]⟩ s else (.ok (), s) := by
  refine (Action.bind_of_ok (Seat.current_apply s)).trans ?_
  split <;> rfl

theorem close_eq (s : Seat LogStore) :
    close s = (.ok (), ⟨(s.store.lock.elim s.host fun lock => released s.host lock),
      { s.store with file := none, lock := none, shortWrites := [] }⟩) := by
  refine (Action.bind_of_ok (Seat.current_apply s)).trans ?_
  cases s.store.lock <;> rfl

section

variable {path : PathName} {s : Seat LogStore}

theorem commit_sane (hs : Sane path s) (c : Commit) : Sane path (commit c s).2 := by
  have hsound := (commit_within c s).sound hs.sound
  rcases hs.state with hclosed | ⟨place, file, hl⟩
  · rw [commit_of_closed hclosed]
    exact hs
  · obtain ⟨r, s', hcommit, hsteps, hrejected | happlied⟩ := commit_cases hl c
    · rw [hcommit] at hsound ⊢
      exact ⟨hsound, hsteps.path.trans hs.path, hrejected.state.imp id fun h => ⟨place, h⟩⟩
    · rw [hcommit] at hsound ⊢
      exact ⟨hsound, hsteps.path.trans hs.path, .inr ⟨place, happlied.state⟩⟩

theorem put_sane (hs : Sane path s) (batch : Entries String String) : Sane path (put batch s).2 := by
  unfold put
  split
  · exact hs
  · exact commit_sane hs _

theorem erase_sane (hs : Sane path s) (key : String) : Sane path (erase key s).2 := by
  rw [erase_eq]
  split
  · exact commit_sane hs _
  · exact hs

theorem compact_sane (hs : Sane path s) : Sane path (compact s).2 := by
  have hsound := (compact_within s).sound hs.sound
  rcases hs.state with hclosed | ⟨place, file, hl⟩
  · rw [compact_of_closed hclosed]
    exact hs
  · obtain ⟨r, s', file', hcompact, -, hsteps, hl', -⟩ := compact_cases hl
    rw [hcompact] at hsound ⊢
    exact ⟨hsound, hsteps.path.trans hs.path, .inr ⟨place, file', hl'⟩⟩

theorem close_sane (hs : Sane path s) : Sane path (close s).2 := by
  have hsound := (close_within s).sound hs.sound
  rw [close_eq] at hsound ⊢
  exact ⟨hsound, hs.path, .inl rfl⟩

theorem sane_of_openAt {h h' : Host} {threshold : Int} {l : LogStore} (hd : h.disk.Sound)
    (hok : openAt path threshold h = (.ok l, h')) : Sane path ⟨h', l⟩ := by
  have hsound := (openAt_within path threshold h).sound hd
  rw [hok] at hsound
  obtain ⟨hpath, -, -, hl⟩ := openAt_eq_ok hd hok
  exact ⟨hsound, hpath, .inr hl⟩

theorem reopen_sane (hs : Sane path s) (threshold : Int) :
    Sane path (step s (.reopen threshold)) := by
  have hsound := (openAt_within s.store.path threshold s.host).sound hs.sound
  rw [step]
  cases ho : openAt s.store.path threshold s.host with
  | mk r h =>
      rw [ho] at hsound
      cases r with
      | ok l =>
          rw [hs.path] at ho
          exact sane_of_openAt hs.sound ho
      | error e =>
          refine ⟨hsound, hs.path, hs.state.imp id fun ⟨place, file, hl⟩ => ?_⟩
          have hheld := ho.symm.trans (openAt_of_holds hl threshold)
          rw [(Prod.mk.inj hheld).2]
          exact ⟨place, file, hl⟩

theorem plan_sane (hs : Sane path s) (plans : List FaultPlan) (shortWrites : List ShortWrite) :
    Sane path (step s (.plan plans shortWrites)) := by
  refine ⟨hs.sound, hs.path, hs.state.imp id fun ⟨place, file, hl⟩ => ⟨place, file, ?_⟩⟩
  exact ⟨hl.isOpen, hl.named, hl.parentNamed, hl.parent, hl.reaches, hl.lock, hl.durable⟩

theorem step_sane (hs : Sane path s) (op : Op) : Sane path (step s op) := by
  cases op with
  | put batch => exact put_sane hs batch
  | erase key => exact erase_sane hs key
  | compact => exact compact_sane hs
  | close => exact close_sane hs
  | reopen threshold => exact reopen_sane hs threshold
  | plan plans shortWrites => exact plan_sane hs plans shortWrites

theorem run_sane (hs : Sane path s) (ops : List Op) : Sane path (run s ops) := by
  induction ops generalizing s with
  | nil => exact hs
  | cons op rest ih => exact ih (step_sane hs op)

end

-- Whatever was done and whatever went wrong: as long as the log is open for writing, its file
-- is whole lines that replay as the records, and closing and opening it again loses nothing.
theorem durable_eq_visible {path : PathName} {threshold : Int} {h h₀ : Host} {l : LogStore}
    (hd : h.disk.Sound) (hopen : openAt path threshold h = (.ok l, h₀)) (ops : List Op)
    {s : Seat LogStore} (hs : run ⟨h₀, l⟩ ops = s) {file : FileId}
    (hfile : s.store.file = some file) :
    s.host.disk.readBytes path = .ok (s.host.disk.bytesOf file) ∧
    (s.host.disk.bytesOf file = [] ∨
      (s.host.disk.bytesOf file).getLast? = some Commit.newline) ∧
    Commit.replay (Commit.splitLines (s.host.disk.bytesOf file)).1 = .ok s.store.records ∧
    ∀ threshold', ∃ l' h', openAt path threshold' (close s).2.host = (.ok l', h') ∧
      l'.records.keys = s.store.records.keys ∧
      ∀ key, (get key ⟨h', l'⟩).1 = (get key s).1 := by
  have hsane := run_sane (sane_of_openAt hd hopen) ops
  rw [hs] at hsane
  obtain hclosed | ⟨place, file', hl⟩ := hsane.state
  · rw [hclosed] at hfile
    cases hfile
  obtain rfl : file = file' := Option.some.inj (hfile.symm.trans hl.isOpen)
  obtain ⟨-, -, lock, -, -, -, -, hlock, -⟩ := hl.lock
  refine ⟨?_, hl.durable.empty_or_newline, hl.durable.2, fun threshold' => ?_⟩
  · rw [← hsane.path]
    exact hl.reaches.readBytes_eq
  · refine ⟨⟨s.store.path, threshold', s.store.records, some file, some lock, []⟩,
      retaken s.host lock, ?_, rfl, fun key => rfl⟩
    rw [close_eq, hlock, ← hsane.path]
    exact openAt_of_released hl hlock threshold'

-- A compaction at every commit, and a commit that is taken back after its second write.
theorem durable_eq_visible_after_roll_back :
    ∃ l h₀ s, openAt ⟨.here, ["log"]⟩ 0 Host.empty = (.ok l, h₀) ∧
      run ⟨h₀, l⟩ [.put [("a", "1"), ("b", "2")], .plan [⟨.fsync, 0, 1, "full"⟩] [⟨3, none⟩],
        .put [("a", "3")]] = s ∧
      s.store.file = some 2 ∧
      s.host.disk.readBytes ⟨.here, ["log"]⟩ = .ok (s.host.disk.bytesOf 2) ∧
      (s.host.disk.bytesOf 2 = [] ∨ (s.host.disk.bytesOf 2).getLast? = some Commit.newline) ∧
      Commit.replay (Commit.splitLines (s.host.disk.bytesOf 2)).1 = .ok s.store.records ∧
      ∀ threshold', ∃ l' h', openAt ⟨.here, ["log"]⟩ threshold' (close s).2.host = (.ok l', h') ∧
        l'.records.keys = s.store.records.keys ∧
        ∀ key, (get key ⟨h', l'⟩).1 = (get key s).1 :=
  ⟨_, _, _, rfl, rfl, rfl,
    @durable_eq_visible _ 0 Host.empty _ _ Disk.empty_sound rfl _ _ rfl _ rfl⟩

end Coffer.LogStore
