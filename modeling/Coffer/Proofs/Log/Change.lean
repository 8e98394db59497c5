import Coffer.Proofs.Log.Run

-- A change that an open log refuses has left no trace, and one that it accepts is there now and
-- after the log has been opened again. Past the threshold a commit is followed by a compaction,
-- and the size queries of that one are not guarded: their failure is reported for a change that
-- has been made.

namespace Coffer.LogStore

-- What a caller can ask of a log that changes it.
inductive Change where
  | put (batch : Entries String String)
  | erase (key : String)

namespace Change

def run : Change → Action (Seat LogStore) Unit
  | .put batch => LogStore.put batch
  | .erase key => LogStore.erase key

def apply : Change → Entries String String → Entries String String
  | .put batch, records => records.putAll batch
  | .erase key, records => records.erase key

def commit : Change → Commit
  | .put batch => ⟨batch, []⟩
  | .erase key => ⟨[], [key]⟩

theorem apply_commit (change : Change) (records : Entries String String) :
    change.commit.apply records = change.apply records := by
  cases change with
  | put batch => exact Entries.eraseAll_nil _
  | erase key => rfl

-- The changes that are written as a line of the log.
def Appends : Change → Entries String String → Prop
  | .put batch, _ => batch ≠ []
  | .erase key, records => key ∈ records.keys

variable {change : Change} {s : Seat LogStore}

theorem run_of_appends (h : change.Appends s.store.records) :
    change.run s = LogStore.commit change.commit s := by
  cases change with
  | put batch =>
      obtain ⟨e, rest, rfl⟩ := List.exists_cons_of_ne_nil h
      rfl
  | erase key => exact (LogStore.erase_eq key s).trans (if_pos (Entries.has_iff _ _ |>.mpr h))

theorem run_of_not_appends (h : ¬change.Appends s.store.records) : change.run s = (.ok (), s) := by
  cases change with
  | put batch =>
      obtain rfl : batch = [] := not_not.mp h
      rfl
  | erase key =>
      exact (LogStore.erase_eq key s).trans (if_neg fun hhas => h (Entries.has_iff _ _ |>.mp hhas))

-- The others would change nothing.
theorem apply_of_not_appends {records : Entries String String} (h : ¬change.Appends records) :
    change.apply records = records := by
  cases change with
  | put batch =>
      obtain rfl : batch = [] := not_not.mp h
      rfl
  | erase key => exact Entries.erase_of_not_mem _ _ h

theorem run_cases (change : Change) (s : Seat LogStore) :
    change.run s = LogStore.commit change.commit s ∨
      change.run s = (.ok (), s) ∧ change.apply s.store.records = s.store.records := by
  by_cases h : change.Appends s.store.records
  · exact .inl (run_of_appends h)
  · exact .inr ⟨run_of_not_appends h, apply_of_not_appends h⟩

end Change

-- What get and keys answer on a log.
def Shows (s : Seat LogStore) (records : Entries String String) : Prop :=
  s.store.records.keys = records.keys ∧ ∀ key, (get key s).1 = MemoryStore.lookup records key

-- The log answers with the records, now and after it has been closed and opened again.
structure Answers (s : Seat LogStore) (records : Entries String String) : Prop where
  now : Shows s records
  later : ∀ threshold, ∃ l h, openAt s.store.path threshold (close s).2.host = (.ok l, h) ∧
    Shows ⟨h, l⟩ records

theorem Holds.answers {s : Seat LogStore} {place : Place} {file : FileId}
    (hl : Holds s.host s.store place file) : Answers s s.store.records := by
  obtain ⟨-, -, lock, -, -, -, -, hlock, -⟩ := hl.lock
  refine ⟨⟨rfl, fun _ => rfl⟩, fun threshold => ?_⟩
  refine ⟨⟨s.store.path, threshold, s.store.records, some file, some lock, []⟩,
    LogStore.retaken s.host lock, ?_, rfl, fun _ => rfl⟩
  rw [close_eq, hlock]
  exact openAt_of_released hl hlock threshold

-- All ways a change to an open log can end. It is open after a refusal, too, unless the cut of
-- the failed commit failed.
theorem change_cases {s : Seat LogStore} {place : Place} {file : FileId}
    (hl : Holds s.host s.store place file) (change : Change) {r : Except Failure Unit}
    {s' : Seat LogStore} (hrun : change.run s = (r, s')) :
    (r = .ok () ∧ s'.store.records = change.apply s.store.records ∧
        ∃ file', Holds s'.host s'.store place file') ∨
      (∃ f, r = .error (.storage f) ∧ ¬Calm s ∧ s'.store.records = s.store.records ∧
        (s.host.Spares .ftruncate → ∃ file', Holds s'.host s'.store place file')) ∨
      ∃ m, r = .error (.system (.injected m)) ∧ ¬s.host.Spares .fstat ∧
        s.store.threshold < ((content s).length + change.commit.line.length : Nat) ∧
        s'.store.records = change.apply s.store.records ∧
        ∃ file', Holds s'.host s'.store place file' := by
  rcases change.run_cases s with hcommit | ⟨hnothing, hsame⟩
  · obtain ⟨r', t, hcommit', -, hrejected | happlied⟩ := commit_cases hl change.commit
    · obtain ⟨rfl, rfl⟩ := Prod.mk.inj ((hrun.symm.trans hcommit).trans hcommit')
      obtain ⟨f, hf⟩ := hrejected.failed
      refine .inr (.inl ⟨f, hf, hrejected.cause, hrejected.records, fun hcut => ?_⟩)
      exact hrejected.state.resolve_left fun hclosed => (hrejected.closed hclosed).1 hcut
    · obtain ⟨rfl, rfl⟩ := Prod.mk.inj ((hrun.symm.trans hcommit).trans hcommit')
      have hrecords := happlied.records.trans (change.apply_commit s.store.records)
      rcases happlied.result with hok | ⟨m, hraw, hspares⟩
      · exact .inl ⟨hok, hrecords, happlied.state⟩
      · have hpast := happlied.past.resolve_left fun hok => by cases hraw.symm.trans hok
        exact .inr (.inr ⟨m, hraw, hspares, hpast, hrecords, happlied.state⟩)
  · obtain ⟨rfl, rfl⟩ := Prod.mk.inj (hrun.symm.trans hnothing)
    exact .inl ⟨rfl, hsame.symm, file, hl⟩

-- A change to a log that nothing interferes with is made.
theorem change_ok_of_calm {s : Seat LogStore} {place : Place} {file : FileId}
    (hl : Holds s.host s.store place file) (hcalm : Calm s) (change : Change) :
    (change.run s).1 = .ok () := by
  rcases change_cases hl change rfl with ⟨hok, -⟩ | ⟨f, -, hcause, -⟩ | ⟨m, -, hspares, -⟩
  · exact hok
  · exact absurd hcalm hcause
  · exact absurd (hcalm.1 .fstat) hspares

theorem holds_of_change_ok {s : Seat LogStore} {place : Place} {file : FileId}
    (hl : Holds s.host s.store place file) {change : Change} (hok : (change.run s).1 = .ok ()) :
    (change.run s).2.store.records = change.apply s.store.records ∧
      ∃ file', Holds (change.run s).2.host (change.run s).2.store place file' := by
  rcases change_cases hl change rfl with ⟨-, hrecords, hl'⟩ | ⟨f, hf, -⟩ | ⟨m, hraw, -⟩
  · exact ⟨hrecords, hl'⟩
  · cases hok.symm.trans hf
  · cases hok.symm.trans hraw

theorem answers_of_change_ok {s : Seat LogStore} {place : Place} {file : FileId}
    (hl : Holds s.host s.store place file) {change : Change} (hok : (change.run s).1 = .ok ()) :
    Answers (change.run s).2 (change.apply s.store.records) := by
  obtain ⟨hrecords, file', hl'⟩ := holds_of_change_ok hl hok
  rw [← hrecords]
  exact hl'.answers

-- Whatever went wrong before and goes wrong now: unless the cut itself fails, a refused change
-- is nowhere to be seen and an accepted one is seen everywhere. A raw failure comes only from a
-- size query of the compaction after the commit, and the change has been made then.
theorem change_outcome {path : PathName} {threshold : Int} {h h₀ : Host} {l : LogStore}
    (hd : h.disk.Sound) (hopen : openAt path threshold h = (.ok l, h₀)) (ops : List Op)
    {s : Seat LogStore} (hs : run ⟨h₀, l⟩ ops = s) {file : FileId}
    (hfile : s.store.file = some file) (hcut : s.host.Spares .ftruncate) (change : Change)
    {r : Except Failure Unit} {s' : Seat LogStore} (hrun : change.run s = (r, s')) :
    Answers s s.store.records ∧
    ((r = .ok () ∧ Answers s' (change.apply s.store.records)) ∨
      (∃ f, r = .error (.storage f) ∧ Answers s' s.store.records) ∨
      ∃ m, r = .error (.system (.injected m)) ∧ ¬s.host.Spares .fstat ∧
        s.store.threshold < ((content s).length + change.commit.line.length : Nat) ∧
        Answers s' (change.apply s.store.records)) := by
  have hsane := run_sane (sane_of_openAt hd hopen) ops
  rw [hs] at hsane
  have hwritable : s.store.file ≠ none := by
    rw [hfile]
    exact Option.some_ne_none file
  obtain ⟨place, file, hl⟩ := hsane.state.resolve_left hwritable
  refine ⟨hl.answers, ?_⟩
  rcases change_cases hl change hrun with ⟨hok, hrecords, file', hl'⟩ |
    ⟨f, hf, -, hrecords, hstate⟩ | ⟨m, hraw, hspares, hpast, hrecords, file', hl'⟩
  · rw [← hrecords]
    exact .inl ⟨hok, hl'.answers⟩
  · obtain ⟨file', hl'⟩ := hstate hcut
    rw [← hrecords]
    exact .inr (.inl ⟨f, hf, hl'.answers⟩)
  · rw [← hrecords]
    exact .inr (.inr ⟨m, hraw, hspares, hpast, hl'.answers⟩)

-- A commit that fails after its second write, on a log that was compacted before.
theorem change_outcome_of_failed_sync :
    ∃ l h₀ s r s', openAt ⟨.here, ["log"]⟩ 0 Host.empty = (.ok l, h₀) ∧
      run ⟨h₀, l⟩ [.put [("a", "1"), ("b", "2")], .plan [⟨.fsync, 0, 1, "full"⟩] [⟨3, none⟩]] = s ∧
      s.store.file = some 2 ∧ s.host.Spares .ftruncate ∧ (Change.erase "a").run s = (r, s') ∧
      Answers s s.store.records ∧
      ((r = .ok () ∧ Answers s' ((Change.erase "a").apply s.store.records)) ∨
        (∃ f, r = .error (.storage f) ∧ Answers s' s.store.records) ∨
        ∃ m, r = .error (.system (.injected m)) ∧ ¬s.host.Spares .fstat ∧
          s.store.threshold <
            ((content s).length + (Change.erase "a").commit.line.length : Nat) ∧
          Answers s' ((Change.erase "a").apply s.store.records)) := by
  have hcut : ∀ plan ∈ [(⟨.fsync, 0, 1, "full"⟩ : FaultPlan)],
      plan.call = .ftruncate → plan.count = 0 := by decide
  refine ⟨_, _, _, _, _, rfl, rfl, rfl, hcut, rfl, ?_⟩
  exact @change_outcome ⟨.here, ["log"]⟩ 0 Host.empty _ _ Disk.empty_sound rfl
    [.put [("a", "1"), ("b", "2")], .plan [⟨.fsync, 0, 1, "full"⟩] [⟨3, none⟩]] _ rfl 2 rfl hcut
    (.erase "a") _ _ rfl

-- The second size query fails: the put ends in a raw failure, and its record is there.
theorem failed_put_is_seen :
    ∃ l h₀ s s' l' h', openAt ⟨.here, ["log"]⟩ 0 Host.empty = (.ok l, h₀) ∧
      run ⟨h₀, l⟩ [.plan [⟨.fstat, 1, 1, "stat failed"⟩] []] = s ∧
      s.host.plans = [⟨.fstat, 1, 1, "stat failed"⟩] ∧
      (get "a" s).1 = .error (.notFound "a") ∧
      (Change.put [("a", "1")]).run s = (.error (.system (.injected "stat failed")), s') ∧
      (get "a" s').1 = .ok "1" ∧
      openAt ⟨.here, ["log"]⟩ 0 (close s').2.host = (.ok l', h') ∧
      (get "a" ⟨h', l'⟩).1 = .ok "1" :=
  ⟨_, _, _, _, _, _, rfl, rfl, rfl, rfl, rfl, rfl, rfl, rfl⟩

end Coffer.LogStore
