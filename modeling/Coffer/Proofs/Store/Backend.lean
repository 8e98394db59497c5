import Coffer.Store.Backend
import Coffer.Proofs.Log.Run
import Coffer.Proofs.Store.Database
import Coffer.Proofs.Store.Document
import Coffer.Proofs.Store.Reliable

-- A store of any of the four kinds is reliable, except that a log may report a commit as failed
-- that it has made.

namespace Coffer

theorem Seat.focus_of_eq {α β γ : Type} {inject : β → γ} {b : β} {c : γ} {x : Action (Seat β) α}
    {h : Host} {r : Except Failure α} {t : Seat β} (hx : x ⟨h, b⟩ = (r, t)) :
    Seat.focus inject b x ⟨h, c⟩ = (r, ⟨t.host, inject t.store⟩) := by
  rw [Seat.focus, hx]

theorem Ends.mono {ρ : Type} {refusal late late' : Failure → Prop} {old new seen : ρ}
    {r : Except Failure Unit} (h : Ends refusal late old new r seen) (hlate : ∀ e, late e → late' e) :
    Ends refusal late' old new r seen := by
  cases h with
  | made => exact .made
  | refused e he => exact .refused e he
  | reported e he => exact .reported e (hlate e he)

-- Every store refuses a write with a failure of its own.
def Refused (e : Failure) : Prop := ∃ f, e = .storage f

namespace LogStore

-- The failures that a commit may be reported with after it has been made.
def Late (s : Seat LogStore) (e : Failure) : Prop :=
  (∃ m, e = .system (.injected m)) ∧ ¬s.host.Spares .fstat

section

variable {path : PathName} {s : Seat LogStore}

theorem commit_ends (hs : Sane path s) (c : Commit) :
    ∃ r s', commit c s = (r, s') ∧ Sane path s' ∧
      Ends Refused (Late s) s.store.records (c.apply s.store.records) r s'.store.records := by
  have hsane := commit_sane hs c
  rcases hs.state with hclosed | ⟨place, file, hl⟩
  · rw [commit_of_closed hclosed] at hsane ⊢
    exact ⟨_, _, rfl, hsane, .refused _ ⟨_, rfl⟩⟩
  · obtain ⟨r, s', hcommit, -, hrejected | happlied⟩ := commit_cases hl c
    · rw [hcommit] at hsane
      refine ⟨r, s', hcommit, hsane, ?_⟩
      obtain ⟨f, rfl⟩ := hrejected.failed
      rw [hrejected.records]
      exact .refused _ ⟨_, rfl⟩
    · rw [hcommit] at hsane
      refine ⟨r, s', hcommit, hsane, ?_⟩
      rw [happlied.records]
      rcases happlied.result with rfl | ⟨m, rfl, hspares⟩
      · exact .made
      · exact .reported _ ⟨⟨m, rfl⟩, hspares⟩

theorem put_ends (hs : Sane path s) (batch : Entries String String) :
    ∃ r s', put batch s = (r, s') ∧ Sane path s' ∧
      Ends Refused (Late s) s.store.records (s.store.records.putAll batch) r s'.store.records := by
  unfold put
  split
  · have hnil : batch = [] := List.isEmpty_iff.mp ‹batch.isEmpty = true›
    subst hnil
    exact ⟨_, _, rfl, hs, .made⟩
  · exact commit_ends hs ⟨batch, []⟩

theorem erase_ends (hs : Sane path s) (key : String) :
    ∃ r s', erase key s = (r, s') ∧ Sane path s' ∧
      Ends Refused (Late s) s.store.records (s.store.records.erase key) r s'.store.records := by
  rw [erase_eq]
  split
  · exact commit_ends hs ⟨[], [key]⟩
  · have habsent : key ∉ s.store.records.keys := by
      rw [← Entries.has_iff]
      assumption
    rw [Entries.erase_of_not_mem _ _ habsent]
    exact ⟨_, _, rfl, hs, .made⟩

theorem Sane.of_host {host : Host} (hs : Sane path s) (hdisk : host.disk = s.host.disk)
    (hk : s.host.Keeps host) : Sane path { s with host } := by
  refine ⟨?_, hs.path, hs.state.imp id fun ⟨place, file, hl⟩ => ⟨place, file, hl.grown hk ?_⟩⟩
  · rw [hdisk]
    exact hs.sound
  · rw [hdisk]
    exact Disk.Grown.refl _

end

end LogStore

namespace Backend

def Sound (s : Seat Backend) : Prop :=
  match s.store with
  | .memory _ => True
  | .log l => ∃ path, LogStore.Sane path ⟨s.host, l⟩
  | .document d => ∃ place, DocumentStore.Kept s.host d place
  | .database d => ∃ id t, DatabaseStore.Connected s.host d id t ∧ t.present = true

def view (s : Seat Backend) : Entries String String :=
  match s.store with
  | .memory m => m.records
  | .log l => l.records
  | .document d => d.records
  | .database d => d.file.elim [] fun id => (DatabaseStore.tableOf ⟨s.host, d⟩ id).rows

def Late (s : Seat Backend) (e : Failure) : Prop :=
  match s.store with
  | .log l => LogStore.Late ⟨s.host, l⟩ e
  | _ => False

theorem view_of_connected {h : Host} {d : DatabaseStore} {id : FileId} {t : Table}
    (hd : DatabaseStore.Connected h d id t) : view ⟨h, .database d⟩ = t.rows := by
  simp only [view, hd.isOpen, Option.elim_some, DatabaseStore.tableOf, hd.content]

variable {s : Seat Backend}

theorem get_eq (hs : Sound s) (key : String) :
    get key s = (MemoryStore.lookup (view s) key, s) := by
  obtain ⟨h, store⟩ := s
  cases store with
  | memory m => rfl
  | log l => rfl
  | document d => rfl
  | database d =>
      obtain ⟨id, t, hd, ht⟩ := hs
      rw [view_of_connected hd]
      exact Seat.focus_of_eq (DatabaseStore.get_of_connected (s := ⟨h, d⟩) hd ht key)

theorem put_ends (hs : Sound s) (batch : Entries String String) :
    ∃ r s', put batch s = (r, s') ∧ Sound s' ∧
      Ends Refused (Late s) (view s) ((view s).putAll batch) r (view s') := by
  obtain ⟨h, store⟩ := s
  cases store with
  | memory m => exact ⟨_, ⟨h, .memory ⟨m.records.putAll batch⟩⟩, rfl, trivial, .made⟩
  | log l =>
      obtain ⟨path, hl⟩ := hs
      obtain ⟨r, s', hput, hl', hends⟩ := LogStore.put_ends hl batch
      exact ⟨r, ⟨s'.host, .log s'.store⟩, Seat.focus_of_eq hput, ⟨path, hl'⟩, hends⟩
  | document d =>
      obtain ⟨place, hd⟩ := hs
      rcases DocumentStore.put_cases (s := ⟨h, d⟩) hd batch with
        ⟨f, h', hput, -, hd', -⟩ | ⟨h', hput, -, hd'⟩
      · exact ⟨_, ⟨h', .document d⟩, Seat.focus_of_eq hput, ⟨place, hd'⟩,
          .refused _ ⟨_, rfl⟩⟩
      · exact ⟨_, ⟨h', .document { d with records := d.records.putAll batch }⟩,
          Seat.focus_of_eq hput, ⟨place, hd'⟩, .made⟩
  | database d =>
      obtain ⟨id, t, hd, ht⟩ := hs
      rw [view_of_connected hd]
      rcases DatabaseStore.put_cases (s := ⟨h, d⟩) hd ht batch with ⟨hput, -⟩ | hput
      · have hd' := DatabaseStore.Connected.ready (s := ⟨h, d⟩) hd
        refine ⟨_, _, Seat.focus_of_eq hput, ⟨id, t, hd', ht⟩, ?_⟩
        rw [view_of_connected hd']
        exact .refused _ ⟨_, rfl⟩
      · have hd' := (DatabaseStore.Connected.ready (s := ⟨h, d⟩) hd).written
          { t with rows := t.rows.putAll batch }
        refine ⟨_, _, Seat.focus_of_eq hput, ⟨id, _, hd', ht⟩, ?_⟩
        rw [view_of_connected hd']
        exact .made

theorem erase_ends (hs : Sound s) (key : String) :
    ∃ r s', erase key s = (r, s') ∧ Sound s' ∧
      Ends Refused (Late s) (view s) ((view s).erase key) r (view s') := by
  obtain ⟨h, store⟩ := s
  cases store with
  | memory m => exact ⟨_, ⟨h, .memory ⟨m.records.erase key⟩⟩, rfl, trivial, .made⟩
  | log l =>
      obtain ⟨path, hl⟩ := hs
      obtain ⟨r, s', herase, hl', hends⟩ := LogStore.erase_ends hl key
      exact ⟨r, ⟨s'.host, .log s'.store⟩, Seat.focus_of_eq herase, ⟨path, hl'⟩, hends⟩
  | document d =>
      obtain ⟨place, hd⟩ := hs
      rcases DocumentStore.erase_cases (s := ⟨h, d⟩) hd key with
        ⟨f, h', herase, -, hd', -⟩ | ⟨h', herase, -, hd'⟩
      · exact ⟨_, ⟨h', .document d⟩, Seat.focus_of_eq herase, ⟨place, hd'⟩,
          .refused _ ⟨_, rfl⟩⟩
      · exact ⟨_, ⟨h', .document { d with records := d.records.erase key }⟩,
          Seat.focus_of_eq herase, ⟨place, hd'⟩, .made⟩
  | database d =>
      obtain ⟨id, t, hd, ht⟩ := hs
      have herase := DatabaseStore.erase_of_connected (s := ⟨h, d⟩) hd ht key
      have hd' := DatabaseStore.Connected.written (s := ⟨h, d⟩) hd
        { t with rows := t.rows.erase key }
      refine ⟨_, _, Seat.focus_of_eq herase, ⟨id, _, hd', ht⟩, ?_⟩
      rw [view_of_connected hd, view_of_connected hd']
      exact .made

-- Only the disk, the locks and the planned faults of a host matter to a store.
theorem same_of_host {host : Host} (hs : Sound s) (hdisk : host.disk = s.host.disk)
    (hk : s.host.Keeps host) :
    Sound { s with host } ∧ view { s with host } = view s ∧
      ∀ e, Late { s with host } e → Late s e := by
  obtain ⟨h, store⟩ := s
  cases store with
  | memory m => exact ⟨trivial, rfl, fun e he => he⟩
  | log l =>
      obtain ⟨path, hl⟩ := hs
      exact ⟨⟨path, hl.of_host hdisk hk⟩, rfl, fun e he => ⟨he.1, fun h => he.2 (hk.spares _ h)⟩⟩
  | document d =>
      obtain ⟨place, hd⟩ := hs
      have hg : Disk.Grown h.disk host.disk := by
        rw [hdisk]
        exact Disk.Grown.refl _
      exact ⟨⟨place, hd.grown hg⟩, rfl, fun e he => he⟩
  | database d =>
      obtain ⟨id, t, hd, ht⟩ := hs
      have hd' := hd.of_disk hdisk
      refine ⟨⟨id, t, hd', ht⟩, ?_, fun e he => he⟩
      rw [view_of_connected hd, view_of_connected hd']

-- Planning what is to go wrong changes no records.

theorem planned (hs : Sound s) (plans : List FaultPlan) :
    Sound { s with host := { s.host with plans } } ∧
      view { s with host := { s.host with plans } } = view s := by
  obtain ⟨h, store⟩ := s
  cases store with
  | memory m => exact ⟨trivial, rfl⟩
  | log l =>
      obtain ⟨path, hl⟩ := hs
      exact ⟨⟨path, LogStore.plan_sane hl plans l.shortWrites⟩, rfl⟩
  | document d =>
      obtain ⟨place, hd⟩ := hs
      exact ⟨⟨place, hd.grown (Disk.Grown.refl _)⟩, rfl⟩
  | database d =>
      obtain ⟨id, t, hd, ht⟩ := hs
      exact ⟨⟨id, t, hd.of_disk rfl, ht⟩, rfl⟩

theorem plan_same (hs : Sound s) (fault : ShortWrite) :
    Sound (plan fault s).2 ∧ view (plan fault s).2 = view s := by
  obtain ⟨h, store⟩ := s
  cases store with
  | log l =>
      obtain ⟨path, hl⟩ := hs
      exact ⟨⟨path, LogStore.plan_sane hl h.plans (l.shortWrites ++ [fault])⟩, rfl⟩
  | memory m => exact ⟨hs, rfl⟩
  | document d => exact ⟨hs, rfl⟩
  | database d => exact ⟨hs, rfl⟩

theorem deny_same (hs : Sound s) (key : String) :
    Sound (deny key s).2 ∧ view (deny key s).2 = view s := by
  obtain ⟨h, store⟩ := s
  cases store with
  | database d =>
      obtain ⟨id, t, hd, ht⟩ := hs
      have hdeny : deny key ⟨h, .database d⟩ = _ :=
        Seat.focus_of_eq (DatabaseStore.deny_of_connected (s := ⟨h, d⟩) hd ht key)
      have hd' := DatabaseStore.Connected.written (s := ⟨h, d⟩) hd
        { t with denied := key :: t.denied }
      rw [hdeny]
      exact ⟨⟨id, _, hd', ht⟩, (view_of_connected hd').trans (view_of_connected hd).symm⟩
  | memory m => exact ⟨hs, rfl⟩
  | log l => exact ⟨hs, rfl⟩
  | document d => exact ⟨hs, rfl⟩

-- A store that has just been opened, of any kind.
inductive Opened : Seat Backend → Prop where
  | memory (h : Host) : Opened ⟨h, .memory MemoryStore.empty⟩
  | log (h h' : Host) (path : PathName) (threshold : Int) (l : LogStore) (hd : h.disk.Sound)
      (hopen : LogStore.openAt path threshold h = (.ok l, h')) : Opened ⟨h', .log l⟩
  | document (h h' : Host) (directory : PathName) (d : DocumentStore) (hd : h.disk.Sound)
      (hopen : DocumentStore.openAt directory h = (.ok d, h')) : Opened ⟨h', .document d⟩
  | database (h h' : Host) (path : PathName) (d : DatabaseStore) (hd : h.disk.Sound)
      (hopen : DatabaseStore.openAt path h = (.ok d, h')) : Opened ⟨h', .database d⟩

theorem Opened.sound (h : Opened s) : Sound s := by
  cases h with
  | memory h => trivial
  | log h h' path threshold l hd hopen => exact ⟨path, LogStore.sane_of_openAt hd hopen⟩
  | document h h' directory d hd hopen => exact (DocumentStore.openAt_eq_ok hd hopen).2
  | database h h' path d hd hopen =>
      obtain ⟨-, id, t, hconnected, ht, -⟩ := DatabaseStore.openAt_eq_ok hd hopen
      exact ⟨id, t, hconnected, ht⟩

def reliable : Reliable (Seat Backend) where
  sound := Sound
  view := view
  refusal := Refused
  late := Late
  get_eq _ key hs := get_eq hs key
  put_ends _ batch hs := put_ends hs batch
  erase_ends _ key hs := erase_ends hs key
  draw_eq s hs := ⟨s.host.drawn + 1, { s with host := { s.host with drawn := s.host.drawn + 1 } }, rfl,
    same_of_host hs rfl ⟨rfl, fun _ h => h⟩⟩
  note_eq s n hs := ⟨{ s with host := { s.host with notices := s.host.notices ++ [n] } }, rfl,
    same_of_host hs rfl ⟨rfl, fun _ h => h⟩⟩

-- Stores of the other kinds say that a write has failed only if it has.

def IsLog (s : Seat Backend) : Prop := ∃ l, s.store = .log l

theorem not_late_of_not_isLog (h : ¬IsLog s) (e : Failure) : ¬Late s e := by
  obtain ⟨host, store⟩ := s
  cases store with
  | log l => exact absurd ⟨l, rfl⟩ h
  | _ => exact id

theorem isLog_put (batch : Entries String String) : IsLog (put batch s).2 ↔ IsLog s := by
  obtain ⟨host, store⟩ := s
  cases store <;> simp [IsLog, put, Seat.focus]

theorem isLog_erase (key : String) : IsLog (erase key s).2 ↔ IsLog s := by
  obtain ⟨host, store⟩ := s
  cases store <;> simp [IsLog, erase, Seat.focus]

def withoutLog : Reliable (Seat Backend) where
  sound s := Sound s ∧ ¬IsLog s
  view := view
  refusal := Refused
  late _ _ := False
  get_eq _ key hs := get_eq hs.1 key
  put_ends s batch hs := by
    obtain ⟨r, s', hput, hs', hends⟩ := put_ends hs.1 batch
    have hkind := (isLog_put (s := s) batch).not.mpr hs.2
    rw [hput] at hkind
    exact ⟨r, s', hput, ⟨hs', hkind⟩, hends.mono (not_late_of_not_isLog hs.2)⟩
  erase_ends s key hs := by
    obtain ⟨r, s', herase, hs', hends⟩ := erase_ends hs.1 key
    have hkind := (isLog_erase (s := s) key).not.mpr hs.2
    rw [herase] at hkind
    exact ⟨r, s', herase, ⟨hs', hkind⟩, hends.mono (not_late_of_not_isLog hs.2)⟩
  draw_eq s hs := by
    obtain ⟨n, s', hdraw, hs', hview, -⟩ := reliable.draw_eq s hs.1
    cases hdraw
    exact ⟨_, _, rfl, ⟨hs', hs.2⟩, hview, fun _ h => h⟩
  note_eq s n hs := by
    obtain ⟨s', hnote, hs', hview, -⟩ := reliable.note_eq s n hs.1
    cases hnote
    exact ⟨_, rfl, ⟨hs', hs.2⟩, hview, fun _ h => h⟩

end Backend

end Coffer
