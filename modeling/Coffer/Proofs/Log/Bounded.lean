import Coffer.Proofs.Log.Change
import Coffer.Proofs.Store.Call

-- A log that nothing interferes with stays bounded: a commit that would take it past its threshold
-- is followed by a compaction, which leaves one line with the live records.

namespace Coffer

namespace LogStore

-- The bytes of a log after a commit.
inductive Bounded (threshold : Int) (records : Entries String String) (b : Bytes) : Prop where
  | within (h : (b.length : Int) ≤ threshold)
  | rewritten (hrecords : records ≠ []) (h : b = Commit.line ⟨records, []⟩)
  | emptied (hrecords : records = []) (h : b = [])

theorem bounded_liveLine (threshold : Int) (records : Entries String String) :
    Bounded threshold records (liveLine records) := by
  unfold liveLine
  split
  · exact .emptied (List.isEmpty_iff.mp ‹_›) rfl
  · refine .rewritten ?_ rfl
    rintro rfl
    exact absurd rfl ‹_›

theorem Bounded.length_le {threshold : Int} {records : Entries String String} {b : Bytes}
    (h : Bounded threshold records b) :
    (b.length : Int) ≤ max threshold (Commit.line ⟨records, []⟩).length := by
  cases h with
  | within h => exact Int.le_trans h (Int.le_max_left _ _)
  | rewritten hrecords h => exact h ▸ Int.le_max_right _ _
  | emptied hrecords h =>
      rw [h]
      exact Int.le_trans (Int.natCast_nonneg _) (Int.le_max_right _ _)

section

variable {s : Seat LogStore} {place : Place} {file : FileId}

theorem compact_of_calm (hl : Holds s.host s.store place file) (hcalm : Calm s) :
    ∃ s' file', compact s = (.ok (), s') ∧ Steps s s' ∧ s'.store.records = s.store.records ∧
      Holds s'.host s'.store place file' ∧ content s' = liveLine s.store.records := by
  obtain ⟨r, s', hcompact, hsteps, hrecords, hended⟩ := compact_ended hl
  cases hended with
  | kept hcause hdisk hl' =>
      rcases hcause with ⟨m, -, hbusy⟩ | ⟨m, -, hspares⟩
      · exact absurd hcalm hbusy
      · exact absurd (hcalm.1 .fstat) hspares
  | renewed hresult hdisk hl' =>
      obtain rfl : r = .ok () := hresult.resolve_right fun ⟨_, _, hspares⟩ => hspares (hcalm.1 .fstat)
      exact ⟨s', _, hcompact, hsteps, hrecords, hl', Ended.content_of_renewed hdisk hl'⟩

-- What a commit leaves in the file, by the size that the file would have without a compaction.
theorem commit_of_calm (hl : Holds s.host s.store place file) (hcalm : Calm s) (c : Commit) :
    ∃ s' file', commit c s = (.ok (), s') ∧ Steps s s' ∧ Holds s'.host s'.store place file' ∧
      s'.store.records = c.apply s.store.records ∧
      content s' =
        if s.store.threshold < ((content s).length + c.line.length : Nat) then
          liveLine (c.apply s.store.records)
        else content s ++ c.line := by
  obtain ⟨plans, hk, hsize | ⟨m, -, hspares⟩⟩ := sizeOf_cases file s
  case inr => exact absurd (hcalm.1 .fstat) hspares
  have hs₁ := steps_withPlans hk
  obtain ⟨plans₂, written, left, -, -, -, ⟨happend, -⟩ | ⟨m, -, hbusy⟩⟩ :=
    append_cases file c.line (withPlans s plans)
  case inr => exact absurd (hs₁.calm hcalm) hbusy
  obtain ⟨hstart, hs₂, hl₂, hcontent, hrecords⟩ := committed_of_append hl hsize happend
  have hcommit : commit c s =
      (if s.store.threshold < ((content s).length + c.line.length : Nat) then compactOrDefer
        else pure ()) (committed (appended (withPlans s plans) file plans₂ written left) c) := by
    rw [← hstart]
    exact commit_of_append hl.isOpen hsize happend
  rw [hcommit, ← hcontent]
  split
  · obtain ⟨s', file', hcompact, hs', hrecords', hl', hcontent'⟩ :=
      compact_of_calm hl₂ (hs₂.calm hcalm)
    exact ⟨s', file', Action.orElse_of_ok hcompact, hs₂.trans hs', hl', hrecords', hcontent'⟩
  · exact ⟨_, file, rfl, hs₂, hl₂, rfl, rfl⟩

theorem change_of_calm (hl : Holds s.host s.store place file) (hcalm : Calm s) {change : Change}
    (h : change.Appends s.store.records) :
    ∃ s' file', change.run s = (.ok (), s') ∧ Steps s s' ∧ Holds s'.host s'.store place file' ∧
      s'.store.records = change.apply s.store.records ∧
      Bounded s.store.threshold s'.store.records (content s') := by
  obtain ⟨s', file', hcommit, hsteps, hl', hrecords, hcontent⟩ :=
    commit_of_calm hl hcalm change.commit
  refine ⟨s', file', (Change.run_of_appends h).trans hcommit, hsteps, hl',
    hrecords.trans (change.apply_commit _), ?_⟩
  rw [hcontent, hrecords]
  split
  · exact bounded_liveLine _ _
  · refine .within ?_
    rw [List.length_append]
    exact Int.not_lt.mp ‹_›

end

end LogStore

namespace Backend

open LogStore (Bounded)

def runAll (s : Seat Backend) (calls : List Call) : Seat Backend :=
  calls.foldl (fun s call => (call.run s).2) s

-- The calls that add a line to a log.
def Call.Appends (call : Call) (records : Entries String String) : Prop :=
  ∃ change, call.change? = some change ∧ change.Appends records

-- An open log that nothing is planned to go wrong with.
structure ServesLog (path : PathName) (threshold : Int) (s : Seat Backend) (l : LogStore) :
    Prop where
  store : s.store = .log l
  path : l.path = path
  threshold : l.threshold = threshold
  holds : ∃ place file, LogStore.Holds s.host l place file
  calm : LogStore.Calm ⟨s.host, l⟩

-- The file of the log is within its bounds.
def InBounds (path : PathName) (threshold : Int) (s : Seat Backend) : Prop :=
  ∃ b, s.host.disk.readBytes path = .ok b ∧ Bounded threshold (view s) b

section

variable {path : PathName} {threshold : Int} {s : Seat Backend} {l : LogStore} {call : Call}

theorem ServesLog.appends (hs : ServesLog path threshold s l) (h : call.Appends (view s)) :
    ∃ s' l', call.run s = (.ok (), s') ∧ ServesLog path threshold s' l' ∧
      InBounds path threshold s' := by
  obtain ⟨host, store⟩ := s
  obtain rfl : store = .log l := hs.store
  obtain ⟨change, hchange, happends⟩ := h
  obtain ⟨place, file, hl⟩ := hs.holds
  obtain ⟨t, file', hrun, hsteps, hl', -, hbounded⟩ :=
    LogStore.change_of_calm (s := ⟨host, l⟩) hl hs.calm happends
  have hcall : call.run ⟨host, .log l⟩ = (.ok (), ⟨t.host, .log t.store⟩) := by
    rw [Call.run_of_some hchange]
    cases change <;> exact Seat.focus_of_eq hrun
  have hpath := hsteps.path.trans hs.path
  refine ⟨_, t.store, hcall, ⟨rfl, hpath, hsteps.threshold.trans hs.threshold, ⟨place, file', hl'⟩,
    hsteps.calm hs.calm⟩, LogStore.content t, ?_, ?_⟩
  · rw [← hpath, LogStore.Holds.content_eq (s := t) hl']
    exact hl'.reaches.readBytes_eq
  · rw [← hs.threshold]
    exact hbounded

theorem ServesLog.skips (hs : ServesLog path threshold s l) (h : ¬call.Appends (view s)) :
    (call.run s).2 = s := by
  obtain ⟨host, store⟩ := s
  obtain rfl : store = .log l := hs.store
  cases hchange : call.change? with
  | some change =>
      have hrun := LogStore.Change.run_of_not_appends (s := ⟨host, l⟩)
        fun happends => h ⟨change, hchange, happends⟩
      rw [Call.run_of_some hchange]
      cases change <;> exact congrArg Prod.snd (Seat.focus_of_eq hrun)
  | none =>
      rcases Call.run_of_none hchange ⟨host, .log l⟩ with ⟨e, hrun⟩ | ⟨key, rfl, hkey⟩
      · rw [hrun]
      · cases key with
        | text k => exact absurd rfl (hkey k)
        | _ => rfl

theorem ServesLog.step (hs : ServesLog path threshold s l) (call : Call) :
    ∃ l', ServesLog path threshold (call.run s).2 l' ∧
      (InBounds path threshold s → InBounds path threshold (call.run s).2) := by
  by_cases h : call.Appends (view s)
  · obtain ⟨s', l', hrun, hs', hbounds⟩ := hs.appends h
    rw [hrun]
    exact ⟨l', hs', fun _ => hbounds⟩
  · rw [hs.skips h]
    exact ⟨l, hs, id⟩

theorem ServesLog.runAll (hs : ServesLog path threshold s l) (calls : List Call) :
    ∃ l', ServesLog path threshold (runAll s calls) l' ∧
      (InBounds path threshold s → InBounds path threshold (Backend.runAll s calls)) := by
  induction calls generalizing s l with
  | nil => exact ⟨l, hs, id⟩
  | cons call rest ih =>
      obtain ⟨l', hs', hbounds⟩ := hs.step call
      obtain ⟨l'', hs'', hbounds'⟩ := ih hs'
      exact ⟨l'', hs'', hbounds' ∘ hbounds⟩

theorem servesLog_of_openAt {h h₀ : Host} (hd : h.disk.Sound) (hcalm : ∀ call, h.Spares call)
    (hopen : LogStore.openAt path threshold h = (.ok l, h₀)) :
    ServesLog path threshold ⟨h₀, .log l⟩ l := by
  have hspares := (LogStore.openAt_within path threshold h).spares
  rw [hopen] at hspares
  obtain ⟨hpath, hthreshold, hshort, hl⟩ := LogStore.openAt_eq_ok hd hopen
  exact ⟨rfl, hpath, hthreshold, hl, fun call => hspares call (hcalm call), hshort⟩

end

-- Whatever log there was to be opened: a call that adds a line to it leaves it within its threshold,
-- or with one line for all live records, or with none if there are no live records, and so it
-- stays. All other calls leave it as it is.
theorem log_stays_bounded {path : PathName} {threshold : Int} {h h₀ : Host} {l : LogStore}
    (hd : h.disk.Sound) (hcalm : ∀ call, h.Spares call)
    (hopen : LogStore.openAt path threshold h = (.ok l, h₀)) (before : List Call) (call : Call)
    {s : Seat Backend} (hs : runAll ⟨h₀, .log l⟩ before = s) :
    (¬call.Appends (view s) → (call.run s).2 = s) ∧
    (call.Appends (view s) → (call.run s).1 = .ok () ∧
      ∀ after : List Call, ∃ b,
        (runAll s (call :: after)).host.disk.readBytes path = .ok b ∧
        Bounded threshold (view (runAll s (call :: after))) b ∧
        (b.length : Int) ≤
          max threshold (Commit.line ⟨view (runAll s (call :: after)), []⟩).length) := by
  subst hs
  obtain ⟨l', hs, -⟩ := (servesLog_of_openAt hd hcalm hopen).runAll before
  refine ⟨hs.skips, fun happends => ?_⟩
  obtain ⟨s', l'', hrun, hs', hbounds⟩ := hs.appends happends
  rw [hrun]
  refine ⟨rfl, fun after => ?_⟩
  obtain ⟨-, -, hkept⟩ := hs'.runAll after
  obtain ⟨b, hread, hbounded⟩ := hkept hbounds
  have hsame : runAll (runAll ⟨h₀, .log l⟩ before) (call :: after) = runAll s' after := by
    rw [runAll, List.foldl_cons, hrun]
    rfl
  rw [hsame]
  exact ⟨b, hread, hbounded, hbounded.length_le⟩

-- A log of nineteen bytes that is opened again with a threshold of five.
theorem log_stays_bounded_of_long_log :
    ∃ l₀ h₁ t l h₀ s, LogStore.openAt ⟨.here, ["log"]⟩ 4096 Host.empty = (.ok l₀, h₁) ∧
      LogStore.run ⟨h₁, l₀⟩ [.put [("a", "1")]] = t ∧ (LogStore.content t).length = 19 ∧
      LogStore.openAt ⟨.here, ["log"]⟩ 5 (LogStore.close t).2.host = (.ok l, h₀) ∧
      runAll ⟨h₀, .log l⟩ [.remove (.text "b"), .set (.text "c") (.int 1)] = s ∧
      (Call.set (.text "b") (.text "2")).Appends (view s) ∧
      ((Call.set (.text "b") (.text "2")).run s).1 = .ok () ∧
      ∀ after : List Call, ∃ b,
        (runAll s (.set (.text "b") (.text "2") :: after)).host.disk.readBytes
          ⟨.here, ["log"]⟩ = .ok b ∧
        Bounded 5 (view (runAll s (.set (.text "b") (.text "2") :: after))) b ∧
        (b.length : Int) ≤ max (5 : Int) (Commit.line
          ⟨view (runAll s (.set (.text "b") (.text "2") :: after)), []⟩).length := by
  obtain ⟨l₀, h₁, hopen⟩ :
      ∃ l₀ h₁, LogStore.openAt ⟨.here, ["log"]⟩ 4096 Host.empty = (.ok l₀, h₁) := ⟨_, _, rfl⟩
  obtain ⟨t, hrun, hcontent, hfile, hplans⟩ : ∃ t, LogStore.run ⟨h₁, l₀⟩ [.put [("a", "1")]] = t ∧
      (LogStore.content t).length = 19 ∧ t.store.file ≠ none ∧
      (LogStore.close t).2.host.plans = [] := by
    cases hopen
    exact ⟨_, rfl, rfl, Option.some_ne_none _, rfl⟩
  have hsane := LogStore.run_sane (LogStore.sane_of_openAt Disk.empty_sound hopen) [.put [("a", "1")]]
  rw [hrun] at hsane
  obtain ⟨place, file, hl⟩ := hsane.state.resolve_left hfile
  obtain ⟨l, h₀, hreopen, -⟩ := hl.answers.later 5
  rw [hsane.path] at hreopen
  have hcalm : ∀ call, (LogStore.close t).2.host.Spares call := by
    intro call plan hplan
    rw [hplans] at hplan
    cases hplan
  have happends : ∀ records, (Call.set (.text "b") (.text "2")).Appends records :=
    fun records => ⟨_, rfl, List.cons_ne_nil _ _⟩
  obtain ⟨hok, hbounded⟩ := (log_stays_bounded (LogStore.close_sane hsane).sound hcalm hreopen
    [.remove (.text "b"), .set (.text "c") (.int 1)] (.set (.text "b") (.text "2")) rfl).2 (happends _)
  exact ⟨l₀, h₁, t, l, h₀, _, hopen, hrun, hcontent, hreopen, rfl, happends _, hok, hbounded⟩

end Backend

end Coffer
