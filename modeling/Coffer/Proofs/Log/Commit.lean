import Coffer.Proofs.Log.Open

namespace Coffer.LogStore

open Commit (Durable)
open Disk (Reaches Replaced Grown)

-- No call fails and no write falls short from here on.
def Calm (s : Seat LogStore) : Prop := (∀ call, s.host.Spares call) ∧ s.store.shortWrites = []

-- What no operation on an open log changes.
structure Steps (s s' : Seat LogStore) : Prop where
  path : s'.store.path = s.store.path
  threshold : s'.store.threshold = s.store.threshold
  lock : s'.store.lock = s.store.lock
  keeps : s.host.Keeps s'.host
  shortWrites : s.store.shortWrites = [] → s'.store.shortWrites = []

theorem Steps.trans {a b c : Seat LogStore} (hab : Steps a b) (hbc : Steps b c) : Steps a c :=
  ⟨hbc.path.trans hab.path, hbc.threshold.trans hab.threshold, hbc.lock.trans hab.lock,
    hab.keeps.trans hbc.keeps, hbc.shortWrites ∘ hab.shortWrites⟩

theorem Steps.calm {s s' : Seat LogStore} (h : Steps s s') (hc : Calm s) : Calm s' :=
  ⟨fun call => h.keeps.spares call (hc.1 call), h.shortWrites hc.2⟩

theorem Steps.not_calm {s s' : Seat LogStore} (h : Steps s s') (hc : ¬Calm s') : ¬Calm s :=
  fun hs => hc (h.calm hs)

theorem not_calm_of_not_spares {s : Seat LogStore} {call : SystemCall}
    (h : ¬s.host.Spares call) : ¬Calm s := fun hs => h (hs.1 call)

namespace Holds

variable {h h' : Host} {l : LogStore} {place : Place} {file : FileId}

theorem grown (hl : Holds h l place file) (hk : h.Keeps h') (hg : Grown h.disk h'.disk) :
    Holds h' l place file := by
  obtain ⟨parent, hparent⟩ := hl.parent
  obtain ⟨lockPath, lockPlace, lock, hsuffix, hnull, hreaches, hne, hlock, hcount⟩ := hl.lock
  have hext := hg.toExtends
  refine ⟨hl.isOpen, hl.named, hl.parentNamed,
    ⟨parent, Disk.find_directory_of_keepsDirectories hext.keepsDirectories hparent⟩,
    hl.reaches.of_extends hext,
    ⟨lockPath, lockPlace, lock, hsuffix, hnull, hreaches.of_extends hext, hne, hlock, ?_⟩, ?_⟩
  · rw [hk.locks, hcount]
  · rw [Disk.bytesOf_of_prefix hg.files hl.reaches.allocated]
    exact hl.durable

theorem replaced (hl : Holds h l place file) (hk : h.Keeps h') {b : Bytes}
    (hr : Replaced h.disk h'.disk place b) (hb : Durable b l.records) :
    Holds h' { l with file := some h.disk.files.length, shortWrites := [] } place
      h.disk.files.length := by
  obtain ⟨parent, hparent⟩ := hl.parent
  obtain ⟨lockPath, lockPlace, lock, hsuffix, hnull, hreaches, hne, hlock, hcount⟩ := hl.lock
  have hplace : h.disk.node? place ≠ some .directory := by simp [hl.reaches.node]
  refine ⟨rfl, hl.named, hl.parentNamed,
    ⟨parent, Disk.find_directory_of_keepsDirectories (hr.keepsDirectories hplace) hparent⟩,
    hr.reaches hl.reaches.locate hplace,
    ⟨lockPath, lockPlace, lock, hsuffix, hnull, hreaches.replaced hr hplace hne, hne, hlock, ?_⟩, ?_⟩
  · rw [hk.locks, hcount]
  · rw [hr.bytes]
    exact hb

theorem setBytes (hl : Holds h l place file) {b : Bytes} {records : Entries String String}
    (hb : Durable b records) :
    Holds { h with disk := h.disk.setBytes file b } { l with records } place file := by
  obtain ⟨parent, hparent⟩ := hl.parent
  obtain ⟨lockPath, lockPlace, lock, hsuffix, hnull, hreaches, hne, hlock, hcount⟩ := hl.lock
  have hkeep : Disk.KeepsDirectories h.disk (h.disk.setBytes file b) := fun _ hp => hp
  refine ⟨hl.isOpen, hl.named, hl.parentNamed,
    ⟨parent, Disk.find_directory_of_keepsDirectories hkeep hparent⟩, hl.reaches.setBytes file b,
    ⟨lockPath, lockPlace, lock, hsuffix, hnull, hreaches.setBytes file b, hne, hlock, hcount⟩, ?_⟩
  change Durable ((h.disk.setBytes file b).bytesOf file) records
  rw [Disk.bytesOf_setBytes _ _ _ hl.reaches.allocated]
  exact hb

end Holds

section

variable {s : Seat LogStore} {place : Place} {file : FileId}

def withPlans (s : Seat LogStore) (plans : List FaultPlan) : Seat LogStore :=
  { s with host := { s.host with plans } }

theorem steps_withPlans {plans : List FaultPlan} (hk : s.host.Keeps { s.host with plans }) :
    Steps s (withPlans s plans) := ⟨rfl, rfl, rfl, hk, id⟩

theorem Holds.withPlans {plans : List FaultPlan} (hl : Holds s.host s.store place file)
    (hk : s.host.Keeps { s.host with plans }) :
    Holds (withPlans s plans).host (withPlans s plans).store place file :=
  hl.grown hk (Grown.refl _)

theorem sizeOf_cases (file : FileId) (s : Seat LogStore) :
    ∃ plans, s.host.Keeps { s.host with plans } ∧
      (sizeOf file s = (.ok (s.host.disk.bytesOf file).length, withPlans s plans) ∨
        ∃ m, sizeOf file s = (.error (.system (.injected m)), withPlans s plans) ∧
          ¬s.host.Spares .fstat) := by
  obtain ⟨plans, hkeeps, hok | ⟨m, herror, hspares⟩⟩ := Host.interrupt_cases .fstat s.host
  · refine ⟨plans, hkeeps, .inl (Seat.onHost_of_eq ?_)⟩
    exact (Action.bind_of_ok hok).trans rfl
  · refine ⟨plans, hkeeps, .inr ⟨m, Seat.onHost_of_eq ?_, hspares⟩⟩
    exact Action.bind_of_error herror

-- What is in the file of an open log.
def content (s : Seat LogStore) : Bytes := s.store.file.elim [] s.host.disk.bytesOf

theorem Holds.content_eq (hl : Holds s.host s.store place file) :
    content s = s.host.disk.bytesOf file := by
  rw [content, hl.isOpen, Option.elim_some]

theorem write_prefix (faults : List ShortWrite) (data : Bytes) :
    (write faults data).1 <+: data := by
  induction faults generalizing data with
  | nil => exact List.prefix_rfl
  | cons fault rest ih =>
      rw [write]
      split
      · exact List.nil_prefix
      · cases fault.message with
        | some m => exact List.take_prefix _ _
        | none =>
            have hrest := List.prefix_append_right_inj (data.take fault.keep) |>.mpr
              (ih (data.drop fault.keep))
            rwa [List.take_append_drop] at hrest

-- A write that reports no fault has written everything, in however many pieces.
theorem write_eq_data (faults : List ShortWrite) (data : Bytes)
    (h : (write faults data).2.1 = none) : (write faults data).1 = data := by
  induction faults generalizing data with
  | nil => rfl
  | cons fault rest ih =>
      rw [write] at h ⊢
      split at h
      · rw [if_pos ‹_›]
        simpa using Eq.symm ‹data.isEmpty = true›
      · rw [if_neg ‹_›]
        cases hm : fault.message with
        | some m => simp [hm] at h
        | none =>
            simp only [hm] at h ⊢
            rw [ih _ h, List.take_append_drop]

-- The seat once part of some data has been appended.
def appended (s : Seat LogStore) (file : FileId) (plans : List FaultPlan) (written : Bytes)
    (left : List ShortWrite) : Seat LogStore :=
  ⟨{ s.host with
      plans, disk := s.host.disk.setBytes file (s.host.disk.bytesOf file ++ written) },
    { s.store with shortWrites := left }⟩

theorem append_cases (file : FileId) (data : Bytes) (s : Seat LogStore) :
    ∃ plans written left, s.host.Keeps { s.host with plans } ∧
      (s.store.shortWrites = [] → left = []) ∧ written <+: data ∧
      ((append file data s = (.ok (), appended s file plans written left) ∧ written = data) ∨
        ∃ m, append file data s =
          (.error (.system (.injected m)), appended s file plans written left) ∧ ¬Calm s) := by
  have hdata := write_eq_data s.store.shortWrites data
  have hprefix := write_prefix s.store.shortWrites data
  have hnil : s.store.shortWrites = [] → (write s.store.shortWrites data).2 = (none, []) := by
    intro h
    rw [h]
    rfl
  cases hw : write s.store.shortWrites data with
  | mk written rest =>
      obtain ⟨failed, left⟩ := rest
      rw [hw] at hdata hprefix hnil
      have hleft : s.store.shortWrites = [] → left = [] := fun h => (Prod.mk.inj (hnil h)).2
      let host : Host :=
        { s.host with disk := s.host.disk.setBytes file (s.host.disk.bytesOf file ++ written) }
      cases failed with
      | some m =>
          refine ⟨s.host.plans, written, left, Host.Keeps.refl _, hleft, hprefix, .inr ⟨m, ?_, ?_⟩⟩
          · refine (Action.bind_of_ok (Seat.current_apply s)).trans ?_
            rw [hw]
            rfl
          · intro hc
            cases (Prod.mk.inj (hnil hc.2)).1
      | none =>
          have happend : append file data s =
              Seat.onHost (Host.interrupt .fsync) ⟨host, { s.store with shortWrites := left }⟩ := by
            refine (Action.bind_of_ok (Seat.current_apply s)).trans ?_
            rw [hw]
            rfl
          obtain ⟨plans, hkeeps, hok | ⟨m, herror, hspares⟩⟩ := Host.interrupt_cases .fsync host
          · refine ⟨plans, written, left, ⟨rfl, hkeeps.spares⟩, hleft, hprefix,
              .inl ⟨?_, hdata rfl⟩⟩
            exact happend.trans (Seat.onHost_of_eq hok)
          · refine ⟨plans, written, left, ⟨rfl, hkeeps.spares⟩, hleft, hprefix, .inr ⟨m, ?_, ?_⟩⟩
            · exact happend.trans (Seat.onHost_of_eq herror)
            · exact not_calm_of_not_spares (s := s) hspares

theorem rollBack_of_uncut {e : Failure} {h : Host} (file : FileId) (start : Nat) (cause : Failure)
    (hcut : Host.interrupt .ftruncate s.host = (.error e, h)) :
    rollBack file start cause s =
      (.error (.storage (.notRolledBack (systemFault cause))),
        ⟨{ h with notices := h.notices ++ [⟨.error,
            s!"Could not roll back failed commit in {s.store.path.text}: " ++ e.message⟩] },
          { s.store with file := none, shortWrites := [] }⟩) := by
  refine Action.bind_of_error ?_
  exact (Action.orElse_of_error (Seat.onHost_of_eq (Action.bind_of_error hcut))).trans rfl

-- Either the log is as long as it was, or the cut failed and it is closed for writing.
theorem rollBack_cases (file : FileId) (start : Nat) (cause : Failure) (s : Seat LogStore) :
    (∃ plans, s.host.Keeps { s.host with plans } ∧
      rollBack file start cause s = (.error cause.asStorage,
        { s with host := { s.host with
            plans, disk := s.host.disk.setBytes file ((s.host.disk.bytesOf file).take start) } })) ∨
    (∃ plans notices, s.host.Keeps { s.host with plans } ∧ ¬s.host.Spares .ftruncate ∧
      rollBack file start cause s = (.error (.storage (.notRolledBack (systemFault cause))),
        ⟨{ s.host with plans, notices }, { s.store with file := none, shortWrites := [] }⟩)) := by
  obtain ⟨plans, hkeeps, hok | ⟨m, herror, hspares⟩⟩ := Host.interrupt_cases .ftruncate s.host
  · refine .inl ⟨plans, hkeeps, ?_⟩
    refine (Action.bind_of_ok (Action.orElse_of_ok (Seat.onHost_of_eq
      ((Action.bind_of_ok hok).trans rfl)))).trans rfl
  · exact .inr ⟨plans, _, hkeeps, hspares, rollBack_of_uncut file start cause herror⟩

theorem durable_liveLine {b : Bytes} {records : Entries String String} (h : Durable b records) :
    Durable (liveLine records) records := by
  unfold liveLine
  split
  · have hempty : records = [] := by simpa using ‹records.isEmpty = true›
    rw [hempty]
    exact Durable.empty
  · exact Durable.of_line h.nodup

-- The seat once the log has been opened anew.
def renewed (s : Seat LogStore) (host : Host) (file : FileId) : Seat LogStore :=
  ⟨host, { s.store with file := some file, shortWrites := [] }⟩

theorem reopen_of_reaches {host : Host} (hnull : s.store.path.hasNullByte = false)
    (hr : Reaches host.disk s.store.path place file) :
    reopen { s with host } = (.ok file, renewed s host file) := by
  have hobtain : Seat.onHost (Host.obtainFile s.store.path) { s with host } =
      (.ok file, { s with host }) :=
    Seat.onHost_of_eq (s := { s with host }) (Host.obtainFile_of_reaches hnull hr)
  exact (Action.bind_of_ok (Seat.current_apply _)).trans ((Action.bind_of_ok hobtain).trans rfl)

-- What is left to do once the staged log has been given the name, or has not.
def finish (path : PathName) (before : Nat) (installed : Except Failure Unit) (file : FileId) :
    Action (Seat LogStore) Unit :=
  match installed with
  | .error e => .fail (compactionFailure e)
  | .ok () => do
      let after ← sizeOf file
      Seat.onHost (Host.note ⟨.info, s!"Compacted {path.text}: {before} -> {after} bytes"⟩)

theorem compact_of_staged {before : Nat} {temporary : Place} {h₁ h₂ h₃ : Host}
    {installed : Except Failure Unit} {file' : FileId} {s₃ : Seat LogStore}
    (hfile : s.store.file = some file) (hsize : sizeOf file s = (.ok before, { s with host := h₁ }))
    (hstage : Host.stage s.store.path.parent (liveLine s.store.records) h₁ = (.ok temporary, h₂))
    (hinstall : Host.install temporary s.store.path h₂ = (installed, h₃))
    (hreopen : reopen { s with host := h₃ } = (.ok file', s₃)) :
    compact s = finish s.store.path before installed file' s₃ := by
  refine (Action.bind_of_ok (Seat.current_apply s)).trans ?_
  rw [hfile]
  refine (Action.bind_of_ok hsize).trans ?_
  refine (Action.bind_of_ok (Action.orElse_of_ok (Seat.onHost_of_eq hstage))).trans ?_
  refine (Action.bind_of_ok (Action.attempt_of_eq (Seat.onHost_of_eq hinstall))).trans ?_
  refine (Action.bind_of_ok hreopen).trans ?_
  unfold finish
  cases installed <;> rfl

theorem finish_cases (path : PathName) (before : Nat) (hl : Holds s.host s.store place file) :
    ∃ r s', finish path before (.ok ()) file s = (r, s') ∧
      (r = .ok () ∨ ∃ m, r = .error (.system (.injected m)) ∧ ¬s.host.Spares .fstat) ∧
      Steps s s' ∧ Holds s'.host s'.store place file ∧ s'.store.records = s.store.records ∧
      s'.host.disk = s.host.disk := by
  obtain ⟨plans, hk, hafter | ⟨m, hafter, hspares⟩⟩ := sizeOf_cases file s
  · let after := (s.host.disk.bytesOf file).length
    let notice : Notice := ⟨.info, s!"Compacted {path.text}: {before} -> {after} bytes"⟩
    let host : Host := { s.host with plans, notices := s.host.notices ++ [notice] }
    have hkeeps : s.host.Keeps host := ⟨hk.locks, hk.spares⟩
    refine ⟨.ok (), { s with host }, ?_, .inl rfl, ⟨rfl, rfl, rfl, hkeeps, id⟩,
      hl.grown hkeeps (Grown.refl _), rfl, rfl⟩
    exact (Action.bind_of_ok hafter).trans rfl
  · exact ⟨_, withPlans s plans, Action.bind_of_error hafter, .inr ⟨m, rfl, hspares⟩,
      steps_withPlans hk, hl.withPlans hk, rfl, rfl⟩

-- All ways a compaction can end: a call has failed, and the name stands for the file it stood for;
-- or it stands for a new one.
inductive Ended (s : Seat LogStore) (place : Place) (file : FileId) :
    Except Failure Unit → Seat LogStore → Prop where
  | kept {e : Failure} {s' : Seat LogStore}
      (hcause : (∃ m, e = .storage (.compaction (.injected m)) ∧ ¬Calm s) ∨
        ∃ m, e = .system (.injected m) ∧ ¬s.host.Spares .fstat)
      (hdisk : Grown s.host.disk s'.host.disk) (hl : Holds s'.host s'.store place file) :
      Ended s place file (.error e) s'
  | renewed {r : Except Failure Unit} {s' : Seat LogStore}
      (hresult : r = .ok () ∨ ∃ m, r = .error (.system (.injected m)) ∧ ¬s.host.Spares .fstat)
      (hdisk : Replaced s.host.disk s'.host.disk place (liveLine s.store.records))
      (hl : Holds s'.host s'.store place s.host.disk.files.length) : Ended s place file r s'

-- However a compaction ends, the log stays open and replays as the same records.
theorem compact_ended (hl : Holds s.host s.store place file) :
    ∃ r s', compact s = (r, s') ∧ Steps s s' ∧ s'.store.records = s.store.records ∧
      Ended s place file r s' := by
  obtain ⟨plans, hkeeps, hsize | ⟨m, hsize, hspares⟩⟩ := sizeOf_cases file s
  case inr =>
    refine ⟨_, withPlans s plans, ?_, steps_withPlans hkeeps, rfl,
      .kept (.inr ⟨m, rfl, hspares⟩) (Grown.refl _) (hl.withPlans hkeeps)⟩
    refine (Action.bind_of_ok (Seat.current_apply s)).trans ?_
    rw [hl.isOpen]
    exact Action.bind_of_error hsize
  have hl₁ := hl.withPlans hkeeps
  have hs₁ := steps_withPlans hkeeps
  obtain ⟨parent, hparent⟩ := hl₁.parent
  obtain ⟨m, h₂, hstage, hk₂, hg₂, hspares⟩ | ⟨temporary, h₂, hstage, hk₂, hfresh, hr₂⟩ :=
    Host.stage_cases s.store.path.parent (liveLine s.store.records) (withPlans s plans).host hparent
  · refine ⟨_, ⟨h₂, s.store⟩, ?_, hs₁.trans ⟨rfl, rfl, rfl, hk₂, id⟩, rfl,
      .kept (.inl ⟨m, rfl, ?_⟩) hg₂ (hl₁.grown hk₂ hg₂)⟩
    · refine (Action.bind_of_ok (Seat.current_apply s)).trans ?_
      rw [hl.isOpen]
      refine (Action.bind_of_ok hsize).trans (Action.bind_of_error ?_)
      exact (Action.orElse_of_error (Seat.onHost_of_eq hstage)).trans rfl
    · exact hs₁.not_calm fun hc => hspares ⟨hc.1 _, hc.1 _⟩
  have hplace : (withPlans s plans).host.disk.node? place ≠ some .directory := by
    simp [hl₁.reaches.node]
  obtain ⟨m, h₃, hinstall, hk₃, hg₃, hspares⟩ | ⟨h₃, hinstall, hk₃, hr₃⟩ :=
    Host.install_cases s.store.path h₂ hr₂ hfresh hl₁.reaches.locate hplace
  · have hl₃ : Holds h₃ s.store place file := hl₁.grown (hk₂.trans hk₃) hg₃
    have hreopen := reopen_of_reaches hl.named hl₃.reaches
    refine ⟨_, renewed s h₃ file,
      compact_of_staged hl.isOpen hsize hstage hinstall hreopen,
      hs₁.trans ⟨rfl, rfl, rfl, hk₂.trans hk₃, fun _ => rfl⟩, rfl,
      .kept (.inl ⟨m, rfl, ?_⟩) hg₃ ⟨rfl, hl₃.named, hl₃.parentNamed, hl₃.parent, hl₃.reaches,
        hl₃.lock, hl₃.durable⟩⟩
    exact hs₁.not_calm fun hc => hspares (hk₂.spares _ (hc.1 _))
  · have hl₃ := hl₁.replaced (hk₂.trans hk₃) hr₃ (durable_liveLine hl.durable)
    have hreopen := reopen_of_reaches hl.named hl₃.reaches
    have hs₃ : Steps s (renewed s h₃ s.host.disk.files.length) :=
      ⟨rfl, rfl, rfl, hs₁.keeps.trans (hk₂.trans hk₃), fun _ => rfl⟩
    obtain ⟨r, s', hfinish, hr, hsteps, hl', hrecords, hdisk⟩ :=
      finish_cases s.store.path (s.host.disk.bytesOf file).length (s := renewed s h₃ _) hl₃
    refine ⟨r, s', (compact_of_staged hl.isOpen hsize hstage hinstall hreopen).trans hfinish,
      hs₃.trans hsteps, hrecords, .renewed ?_ ?_ hl'⟩
    · exact hr.imp id fun ⟨m, hr, hspares⟩ =>
        ⟨m, hr, fun hs => hspares (hs₃.keeps.spares _ hs)⟩
    · rw [hdisk]
      exact hr₃

theorem Ended.content_of_renewed {s' : Seat LogStore}
    (hdisk : Replaced s.host.disk s'.host.disk place (liveLine s.store.records))
    (hl : Holds s'.host s'.store place s.host.disk.files.length) :
    content s' = liveLine s.store.records := by
  rw [hl.content_eq, hdisk.bytes]

theorem Ended.content_of_kept {s' : Seat LogStore} (hl : Holds s.host s.store place file)
    (hdisk : Grown s.host.disk s'.host.disk) (hl' : Holds s'.host s'.store place file) :
    content s' = content s := by
  rw [hl'.content_eq, hl.content_eq, Disk.bytesOf_of_prefix hdisk.files hl.reaches.allocated]

-- A raw fault can only come from asking for the size of the log.
def Compacts (s : Seat LogStore) (r : Except Failure Unit) : Prop :=
  r = .ok () ∨ (∃ f, r = .error (.storage f) ∧ ¬Calm s) ∨
    ∃ m, r = .error (.system (.injected m)) ∧ ¬s.host.Spares .fstat

-- A compaction leaves the log as it was or writes it anew.
def Compacted (s s' : Seat LogStore) : Prop :=
  content s' = content s ∨ content s' = liveLine s.store.records

theorem compact_cases (hl : Holds s.host s.store place file) :
    ∃ r s' file', compact s = (r, s') ∧ Compacts s r ∧ Steps s s' ∧
      Holds s'.host s'.store place file' ∧ s'.store.records = s.store.records ∧ Compacted s s' := by
  obtain ⟨r, s', hcompact, hsteps, hrecords, hended⟩ := compact_ended hl
  cases hended with
  | kept hcause hdisk hl' =>
      refine ⟨_, s', file, hcompact, .inr ?_, hsteps, hl', hrecords,
        .inl (Ended.content_of_kept hl hdisk hl')⟩
      rcases hcause with ⟨m, rfl, hcalm⟩ | ⟨m, rfl, hspares⟩
      · exact .inl ⟨_, rfl, hcalm⟩
      · exact .inr ⟨m, rfl, hspares⟩
  | renewed hresult hdisk hl' =>
      refine ⟨r, s', _, hcompact, ?_, hsteps, hl', hrecords,
        .inr (Ended.content_of_renewed hdisk hl')⟩
      rcases hresult with hok | hraw
      · exact .inl hok
      · exact .inr (.inr hraw)

-- The seat once a failed compaction has been put off.
def deferred (s : Seat LogStore) (f : StorageFault) : Seat LogStore :=
  { s with host := { s.host with notices := s.host.notices ++ [⟨.warning,
      s!"Deferred compaction of {s.store.path.text}: " ++ (Failure.storage f).message⟩] } }

theorem keeps_deferred (s : Seat LogStore) (f : StorageFault) : s.host.Keeps (deferred s f).host :=
  ⟨rfl, fun _ hs => hs⟩

theorem Holds.deferred (hl : Holds s.host s.store place file) (f : StorageFault) :
    Holds (deferred s f).host (deferred s f).store place file :=
  hl.grown (keeps_deferred s f) (Grown.refl _)

theorem compactOrDefer_of_error {f : StorageFault} {t : Seat LogStore}
    (hcompact : compact s = (.error (.storage f), t)) :
    compactOrDefer s = (.ok (), LogStore.deferred t f) := (Action.orElse_of_error hcompact).trans rfl

theorem compactOrDefer_cases (hl : Holds s.host s.store place file) :
    ∃ r t file', compactOrDefer s = (r, t) ∧
      (r = .ok () ∨ ∃ m, r = .error (.system (.injected m)) ∧ ¬s.host.Spares .fstat) ∧
      Steps s t ∧ Holds t.host t.store place file' ∧ t.store.records = s.store.records ∧
      Compacted s t := by
  obtain ⟨r, t, file', hcompact, hr, hsteps, hl', hrecords, hcontent⟩ := compact_cases hl
  rcases hr with rfl | ⟨f, rfl, -⟩ | ⟨m, rfl, hspares⟩
  · exact ⟨_, t, file', Action.orElse_of_ok hcompact, .inl rfl, hsteps, hl', hrecords,
      hcontent⟩
  · exact ⟨.ok (), LogStore.deferred t f, file', compactOrDefer_of_error hcompact, .inl rfl,
      hsteps.trans ⟨rfl, rfl, rfl, keeps_deferred t f, id⟩, hl'.deferred f, hrecords, hcontent⟩
  · exact ⟨_, t, file', (Action.orElse_of_error hcompact).trans rfl, .inr ⟨m, rfl, hspares⟩,
      hsteps, hl', hrecords, hcontent⟩

-- The seat once a commit is in its records.
def committed (s : Seat LogStore) (c : Commit) : Seat LogStore :=
  { s with store := { s.store with records := c.apply s.store.records } }

-- A commit whose line has been written is made, and past the threshold it is followed by a
-- compaction.
theorem commit_of_append {c : Commit} {start : Nat} {s₁ s₂ : Seat LogStore}
    (hfile : s.store.file = some file) (hsize : sizeOf file s = (.ok start, s₁))
    (happend : append file c.line s₁ = (.ok (), s₂)) :
    commit c s = (if s₂.store.threshold < (start + c.line.length : Nat) then compactOrDefer
      else pure ()) (committed s₂ c) := by
  refine (Action.bind_of_ok (Seat.current_apply s)).trans ?_
  rw [hfile]
  refine (Action.bind_of_ok (Action.guarded_of_ok hsize)).trans ?_
  exact (Action.bind_of_ok (Action.orElse_of_ok happend)).trans rfl

-- The commit failed and nothing is left of it, at the worst because the log is closed now with
-- the first part of the commit's line behind the log.
structure Rejected (c : Commit) (s : Seat LogStore) (r : Except Failure Unit) (s' : Seat LogStore)
    (place : Place) : Prop where
  failed : ∃ f, r = .error (.storage f)
  cause : ¬Calm s
  records : s'.store.records = s.store.records
  state : s'.store.file = none ∨ ∃ file, Holds s'.host s'.store place file
  closed : s'.store.file = none → ¬s.host.Spares .ftruncate ∧ ∃ file written,
    s.store.file = some file ∧ written <+: c.line ∧
      s'.host.disk = s.host.disk.setBytes file (content s ++ written)
  content : s'.store.file ≠ none → content s' = content s

-- The commit is in the log and in the records. The compaction after it, if there was one, may
-- still have failed with a raw fault.
structure Applied (c : Commit) (s : Seat LogStore) (r : Except Failure Unit) (s' : Seat LogStore)
    (place : Place) : Prop where
  result : r = .ok () ∨ ∃ m, r = .error (.system (.injected m)) ∧ ¬s.host.Spares .fstat
  records : s'.store.records = c.apply s.store.records
  state : ∃ file, Holds s'.host s'.store place file
  past : r = .ok () ∨ s.store.threshold < ((content s).length + c.line.length : Nat)
  content : content s' = content s ++ c.line ∨ content s' = liveLine s'.store.records

-- What an append and its failed or successful end leave of an open log.
theorem Holds.rewritten (hl : Holds s.host s.store place file) {plans : List FaultPlan} {b : Bytes}
    {records : Entries String String} (left : List ShortWrite)
    (hk : s.host.Keeps { s.host with plans }) (hb : Durable b records) :
    Holds { s.host with plans, disk := s.host.disk.setBytes file b }
      { s.store with records, shortWrites := left } place file := by
  have hset : Holds { s.host with plans, disk := s.host.disk.setBytes file b }
      { s.store with records } place file :=
    (hl.setBytes hb).grown ⟨hk.locks, hk.spares⟩ (Grown.refl _)
  exact ⟨hset.isOpen, hset.named, hset.parentNamed, hset.parent, hset.reaches, hset.lock,
    hset.durable⟩

theorem committed_of_append {c : Commit} {start : Nat} {s₁ s₂ : Seat LogStore}
    (hl : Holds s.host s.store place file) (hsize : sizeOf file s = (.ok start, s₁))
    (happend : append file c.line s₁ = (.ok (), s₂)) :
    start = (content s).length ∧ Steps s (committed s₂ c) ∧
      Holds (committed s₂ c).host (committed s₂ c).store place file ∧
      content (committed s₂ c) = content s ++ c.line ∧ s₂.store.records = s.store.records := by
  obtain ⟨plans, hk, hsize' | ⟨m, hsize', -⟩⟩ := sizeOf_cases file s
  case inr => cases hsize'.symm.trans hsize
  cases hsize'.symm.trans hsize
  obtain ⟨plans₂, written, left, hk₂, hleft, -, ⟨happend', rfl⟩ | ⟨m, happend', -⟩⟩ :=
    append_cases file c.line (withPlans s plans)
  case inr => cases happend'.symm.trans happend
  cases happend'.symm.trans happend
  have hl₂ := (hl.withPlans hk).rewritten left hk₂ (hl.durable.append c)
  refine ⟨by rw [hl.content_eq], ⟨rfl, rfl, rfl, ⟨rfl, fun call hs => ?_⟩, hleft⟩, hl₂, ?_, rfl⟩
  · exact hk₂.spares call (hk.spares call hs)
  · rw [hl.content_eq]
    refine (Holds.content_eq (s := ⟨_, _⟩) hl₂).trans ?_
    exact Disk.bytesOf_setBytes _ _ _ hl.reaches.allocated

theorem rejected_of_append_error {plans : List FaultPlan} {written : Bytes}
    {left : List ShortWrite} {m : String} {c : Commit} (hl : Holds s.host s.store place file)
    (hk : s.host.Keeps { s.host with plans }) (hleft : s.store.shortWrites = [] → left = [])
    (hwritten : written <+: c.line) (hcalm : ¬Calm s) :
    ∃ r s', rollBack file (s.host.disk.bytesOf file).length (.system (.injected m))
        (appended s file plans written left) = (r, s') ∧ Steps s s' ∧ Rejected c s r s' place := by
  have hbytes := Disk.bytesOf_setBytes s.host.disk file (s.host.disk.bytesOf file ++ written)
    hl.reaches.allocated
  obtain ⟨plans', hk', hback⟩ | ⟨plans', notices, hk', hspares, hback⟩ :=
    rollBack_cases file (s.host.disk.bytesOf file).length (.system (.injected m))
      (appended s file plans written left)
  · have hcut : (appended s file plans written left).host.disk.setBytes file
        (((appended s file plans written left).host.disk.bytesOf file).take
          (s.host.disk.bytesOf file).length) =
        s.host.disk.setBytes file (s.host.disk.bytesOf file) := by
      change (s.host.disk.setBytes file _).setBytes file
        (((s.host.disk.setBytes file _).bytesOf file).take _) = _
      rw [Disk.setBytes_setBytes, hbytes, List.take_left]
    rw [hcut] at hback
    have hkeeps : s.host.Keeps { s.host with plans := plans' } :=
      ⟨rfl, fun call hs => hk'.spares call (hk.spares call hs)⟩
    have hl' := hl.rewritten left hkeeps hl.durable
    refine ⟨_, _, hback, ⟨rfl, rfl, rfl, ⟨rfl, hkeeps.spares⟩, hleft⟩, ⟨.system (.injected m), rfl⟩,
      hcalm, rfl, .inr ⟨file, hl'⟩, fun hclosed => ?_, fun _ => ?_⟩
    · cases hl.isOpen.symm.trans hclosed
    · rw [hl.content_eq]
      refine (Holds.content_eq (s := ⟨_, _⟩) hl').trans ?_
      exact Disk.bytesOf_setBytes _ _ _ hl.reaches.allocated
  · refine ⟨_, _, hback, ⟨rfl, rfl, rfl, ⟨rfl, fun call hs => ?_⟩, fun _ => rfl⟩,
      ⟨.notRolledBack (.injected m), rfl⟩, hcalm, rfl, .inl rfl,
      fun _ => ⟨fun hs => hspares (hk.spares _ hs), file, written, hl.isOpen, hwritten, ?_⟩,
      fun hopen => absurd rfl hopen⟩
    · exact hk'.spares call (hk.spares call hs)
    · rw [hl.content_eq]
      rfl

theorem commit_cases (hl : Holds s.host s.store place file) (c : Commit) :
    ∃ r s', commit c s = (r, s') ∧ Steps s s' ∧
      (Rejected c s r s' place ∨ Applied c s r s' place) := by
  obtain ⟨plans, hk, hsize | ⟨m, hsize, hspares⟩⟩ := sizeOf_cases file s
  case inr =>
    refine ⟨_, withPlans s plans, ?_, steps_withPlans hk, .inl ⟨⟨.system (.injected m), rfl⟩,
      not_calm_of_not_spares hspares, rfl, .inr ⟨file, hl.withPlans hk⟩, fun hclosed => ?_,
      fun _ => rfl⟩⟩
    · refine (Action.bind_of_ok (Seat.current_apply s)).trans ?_
      rw [hl.isOpen]
      exact Action.bind_of_error (Action.guarded_of_error hsize)
    · cases hl.isOpen.symm.trans hclosed
  have hl₁ := hl.withPlans hk
  have hs₁ := steps_withPlans hk
  obtain ⟨plans₂, written, left, hk₂, hleft, hwritten, ⟨happend, rfl⟩ | ⟨m, happend, hcalm⟩⟩ :=
    append_cases file c.line (withPlans s plans)
  · let s₂ := appended (withPlans s plans) file plans₂ c.line left
    obtain ⟨-, hs₂, hl₂, hcontent, -⟩ := committed_of_append hl hsize happend
    have hcommit : commit c s =
        (if s.store.threshold < ((s.host.disk.bytesOf file).length + c.line.length : Nat) then
          compactOrDefer else pure ()) (committed s₂ c) := commit_of_append hl.isOpen hsize happend
    rw [hcommit]
    split
    · obtain ⟨r, s', file', hcompact, hr, hsteps, hl', hrecords, hcompacted⟩ :=
        compactOrDefer_cases hl₂
      refine ⟨r, s', hcompact, hs₂.trans hsteps, .inr ⟨?_, hrecords, ⟨file', hl'⟩, .inr ?_, ?_⟩⟩
      · rcases hr with hr | ⟨m, hr, hspares⟩
        · exact .inl hr
        · exact .inr ⟨m, hr, fun hs => hspares (hs₂.keeps.spares _ hs)⟩
      · rw [hl.content_eq]
        assumption
      · rw [← hcontent, hrecords]
        exact hcompacted
    · exact ⟨_, committed s₂ c, rfl, hs₂,
        .inr ⟨.inl rfl, rfl, ⟨file, hl₂⟩, .inl rfl, .inl hcontent⟩⟩
  · obtain ⟨r, s', hback, hsteps, hrejected⟩ :=
      rejected_of_append_error (m := m) hl₁ hk₂ hleft hwritten hcalm
    obtain ⟨f, rfl⟩ := hrejected.failed
    refine ⟨_, s', ?_, hs₁.trans hsteps, .inl ⟨hrejected.failed, hs₁.not_calm hcalm,
      hrejected.records, hrejected.state, fun hclosed => ?_, hrejected.content⟩⟩
    rotate_left
    · obtain ⟨hspares, hdisk⟩ := hrejected.closed hclosed
      exact ⟨fun hs => hspares (hs₁.keeps.spares _ hs), hdisk⟩
    refine (Action.bind_of_ok (Seat.current_apply s)).trans ?_
    rw [hl.isOpen]
    refine (Action.bind_of_ok (Action.guarded_of_ok hsize)).trans ?_
    exact Action.bind_of_error ((Action.orElse_of_error happend).trans hback)

end

end Coffer.LogStore
