import Coffer.Proofs.Log.Change

-- A compaction writes the live records anew or changes nothing, whichever call fails on the way,
-- and the log goes on from there.

namespace Coffer.LogStore

open Commit (Durable newline)

-- No bytes for no records, else one line: the commit of all of them.
inductive IsCompact (records : Entries String String) : Bytes → Prop where
  | empty (hrecords : records = []) : IsCompact records []
  | line {encoded : Bytes} (hrecords : records ≠ []) (hline : newline ∉ encoded)
      (hdecode : Commit.decode encoded = .ok ⟨records, []⟩) :
      IsCompact records (encoded ++ [newline])

theorem isCompact_liveLine {records : Entries String String} (h : records.keys.Nodup) :
    IsCompact records (liveLine records) := by
  unfold liveLine
  split
  · exact .empty (List.isEmpty_iff.mp ‹_›)
  · refine .line ?_ (Commit.newline_not_mem_encode _) ?_
    · rintro rfl
      exact absurd rfl ‹_›
    · rw [Commit.decode_encode, Entries.putAll_nil_of_nodup _ h]

-- The log takes changes, and what it has taken is in the file that its path leads to.
structure Writable (path : PathName) (s : Seat LogStore) : Prop where
  file : ∃ place file, s.store.file = some file ∧ s.host.disk.find path = .ok (place, .file file)
  takes : Calm s → ∀ change : Change, (change.run s).1 = .ok ()
  lands : ∀ change : Change, (change.run s).1 = .ok () →
    Answers (change.run s).2 (change.apply s.store.records) ∧
    ∃ b, (change.run s).2.host.disk.readBytes path = .ok b ∧
      Durable b (change.apply s.store.records)

-- What a compaction of an open log comes to.
structure Compacting (path : PathName) (s : Seat LogStore) (r : Except Failure Unit)
    (s' : Seat LogStore) : Prop where
  records : s'.store.records = s.store.records
  outcome : (r = .ok () ∧ ∃ b, s'.host.disk.readBytes path = .ok b ∧
      IsCompact s.store.records b ∧ Durable b s.store.records) ∨
    ∃ fault, r = .error (.storage (.compaction fault)) ∧
      s'.host.disk.readBytes path = s.host.disk.readBytes path
  names : ∃ place, s.host.disk.locate path = .ok place ∧
    ∀ p, p ≠ place → s'.host.disk.node? p = s.host.disk.node? p
  writable : Writable path s'
  later : ∀ ops, (run s' ops).store.file ≠ none → Writable path (run s' ops)
  again : ∀ r₂ t, compact s' = (r₂, t) →
    t.host.disk.readBytes path = s'.host.disk.readBytes path ∨
      r ≠ .ok () ∧ r₂ = .ok () ∧ ∃ b, t.host.disk.readBytes path = .ok b ∧
        IsCompact s.store.records b

section

variable {path : PathName} {s s' : Seat LogStore} {place : Place} {file : FileId}

theorem Holds.readBytes (hl : Holds s.host s.store place file) (hpath : s.store.path = path) :
    s.host.disk.readBytes path = .ok (content s) := by
  rw [← hpath, hl.reaches.readBytes_eq, hl.content_eq]

theorem Sane.change (hs : Sane path s) (change : Change) : Sane path (change.run s).2 := by
  cases change with
  | put batch => exact put_sane hs batch
  | erase key => exact erase_sane hs key

theorem Sane.writable (hs : Sane path s) (hopen : s.store.file ≠ none) : Writable path s := by
  obtain ⟨place, file, hl⟩ := hs.state.resolve_left hopen
  refine ⟨⟨place, file, hl.isOpen, ?_⟩, change_ok_of_calm hl, fun change hok =>
    ⟨answers_of_change_ok hl hok, ?_⟩⟩
  · rw [← hs.path]
    exact hl.reaches.find
  · obtain ⟨hrecords, file', hl'⟩ := holds_of_change_ok hl hok
    refine ⟨_, hl'.readBytes (hs.change change).path, ?_⟩
    rw [hl'.content_eq, ← hrecords]
    exact hl'.durable

-- With the size of the log at hand a compaction returns or fails as a compaction.
theorem compact_result {r : Except Failure Unit} (hl : Holds s.host s.store place file)
    (hstat : s.host.Spares .fstat) (hcompact : compact s = (r, s')) :
    Steps s s' ∧ s'.store.records = s.store.records ∧
      (∃ file', Holds s'.host s'.store place file') ∧
      (∀ p, p ≠ place → s'.host.disk.node? p = s.host.disk.node? p) ∧
      ((r = .ok () ∧ content s' = liveLine s.store.records) ∨
        ∃ m, r = .error (.storage (.compaction (.injected m))) ∧ content s' = content s) := by
  obtain ⟨r', t, hcompact', hsteps, hrecords, hended⟩ := compact_ended hl
  obtain ⟨rfl, rfl⟩ := Prod.mk.inj (hcompact.symm.trans hcompact')
  refine ⟨hsteps, hrecords, ?_⟩
  cases hended with
  | kept hcause hdisk hl' =>
      refine ⟨⟨file, hl'⟩, fun p _ => hdisk.node p, .inr ?_⟩
      rcases hcause with ⟨m, rfl, -⟩ | ⟨m, -, hspares⟩
      · exact ⟨m, rfl, Ended.content_of_kept hl hdisk hl'⟩
      · exact absurd hstat hspares
  | renewed hresult hdisk hl' =>
      refine ⟨⟨_, hl'⟩, hdisk.others, .inl ⟨?_, Ended.content_of_renewed hdisk hl'⟩⟩
      rcases hresult with hok | ⟨m, -, hspares⟩
      · exact hok
      · exact absurd hstat hspares

-- A compaction of a log that has been written anew writes the same again.
theorem content_of_compact_again {r r₂ : Except Failure Unit} {t : Seat LogStore}
    (hl : Holds s.host s.store place file) (hstat : s.host.Spares .fstat)
    (hcompact : compact s = (r, s')) (hagain : compact s' = (r₂, t)) :
    content t = content s' ∨ r ≠ .ok () ∧ r₂ = .ok () ∧ content t = liveLine s.store.records := by
  obtain ⟨hsteps, hrecords, ⟨file', hl'⟩, -, hresult⟩ := compact_result hl hstat hcompact
  obtain ⟨-, -, -, -, hresult'⟩ := compact_result hl' (hsteps.keeps.spares _ hstat) hagain
  rcases hresult' with ⟨hok', hlive'⟩ | ⟨m', -, hsame'⟩
  · rw [hrecords] at hlive'
    rcases hresult with ⟨-, hlive⟩ | ⟨m, hfailed, -⟩
    · exact .inl (hlive'.trans hlive.symm)
    · refine .inr ⟨?_, hok', hlive'⟩
      rw [hfailed]
      exact nofun
  · exact .inl hsame'

theorem compacting_of_sane {r : Except Failure Unit} (hs : Sane path s)
    (hl : Holds s.host s.store place file) (hstat : s.host.Spares .fstat)
    (hcompact : compact s = (r, s')) : Compacting path s r s' := by
  have hs' := compact_sane hs
  rw [hcompact] at hs'
  obtain ⟨hsteps, hrecords, ⟨file', hl'⟩, hnames, hresult⟩ := compact_result hl hstat hcompact
  have hopen : s'.store.file ≠ none := by
    rw [hl'.isOpen]
    exact Option.some_ne_none file'
  have hcompact' := isCompact_liveLine hl.durable.nodup
  refine ⟨hrecords, ?_, ⟨place, ?_, hnames⟩, hs'.writable hopen,
    fun ops => (run_sane hs' ops).writable, fun r₂ t hagain => ?_⟩
  · rw [hl'.readBytes hs'.path, hl.readBytes hs.path]
    rcases hresult with ⟨hok, hlive⟩ | ⟨m, hfailed, hsame⟩
    · rw [hlive]
      exact .inl ⟨hok, _, rfl, hcompact', durable_liveLine hl.durable⟩
    · rw [hsame]
      exact .inr ⟨_, hfailed, rfl⟩
  · rw [← hs.path]
    exact hl.reaches.locate
  · have ht := compact_sane hs'
    rw [hagain] at ht
    obtain ⟨-, -, ⟨file'', hl''⟩, -, -⟩ := compact_result hl' (hsteps.keeps.spares _ hstat) hagain
    rw [hl''.readBytes ht.path, hl'.readBytes hs'.path]
    rcases content_of_compact_again hl hstat hcompact hagain with hsame | ⟨hfailed, hok, hlive⟩
    · rw [hsame]
      exact .inl rfl
    · rw [hlive]
      exact .inr ⟨hfailed, hok, _, rfl, hcompact'⟩

-- A commit whose line is in the log returns, also when the compaction after it fails.
theorem commit_of_failed_compaction {c : Commit} {start : Nat} {s₁ s₂ t : Seat LogStore}
    {e : Failure} (hl : Holds s.host s.store place file) (hstat : s.host.Spares .fstat)
    (hsize : sizeOf file s = (.ok start, s₁)) (happend : append file c.line s₁ = (.ok (), s₂))
    (hpast : s₂.store.threshold < (start + c.line.length : Nat))
    (hcompact : compact (committed s₂ c) = (.error e, t)) :
    ∃ fault, e = .storage (.compaction fault) ∧
      commit c s = (.ok (), deferred t (.compaction fault)) ∧
      Answers (deferred t (.compaction fault)) (c.apply s.store.records) := by
  obtain ⟨-, hsteps, hl₂, -, hrecords⟩ := committed_of_append hl hsize happend
  obtain ⟨-, hrecords', ⟨file', hl'⟩, -, ⟨hok, -⟩ | ⟨m, hfailed, -⟩⟩ :=
    compact_result hl₂ (hsteps.keeps.spares _ hstat) hcompact
  · cases hok
  · obtain rfl := Except.error.inj hfailed
    refine ⟨_, rfl, ?_, ?_⟩
    · rw [commit_of_append hl.isOpen hsize happend, if_pos hpast]
      exact compactOrDefer_of_error hcompact
    · have hanswers := (hl'.deferred (.compaction (.injected m))).answers
      have hdeferred : (deferred t (.compaction (.injected m))).store.records =
          c.apply s.store.records := by
        rw [← hrecords]
        exact hrecords'
      rwa [hdeferred] at hanswers

end

-- Whatever was done to a log and whatever calls fail, as long as its size can be asked for: a
-- compaction leaves the live records as the whole of the log, or the log as it was. It leaves no
-- file beside the log, the log is open and takes changes, and a second compaction changes nothing
-- that the first has written. A commit does not fail because of it.
theorem compact_all_or_nothing {path : PathName} {threshold : Int} {h h₀ : Host} {l : LogStore}
    (hd : h.disk.Sound) (hopen : openAt path threshold h = (.ok l, h₀)) (ops : List Op)
    {s : Seat LogStore} (hs : run ⟨h₀, l⟩ ops = s) {file : FileId}
    (hfile : s.store.file = some file) (hstat : s.host.Spares .fstat) {r : Except Failure Unit}
    {s' : Seat LogStore} (hcompact : compact s = (r, s')) :
    Compacting path s r s' ∧
    ∀ (c : Commit) (start : Nat) (s₁ s₂ t : Seat LogStore) (e : Failure),
      sizeOf file s = (.ok start, s₁) → append file c.line s₁ = (.ok (), s₂) →
      s₂.store.threshold < (start + c.line.length : Nat) →
      compact (committed s₂ c) = (.error e, t) →
      ∃ fault, e = .storage (.compaction fault) ∧
        commit c s = (.ok (), deferred t (.compaction fault)) ∧
        Answers (deferred t (.compaction fault)) (c.apply s.store.records) := by
  have hsane := run_sane (sane_of_openAt hd hopen) ops
  rw [hs] at hsane
  obtain hclosed | ⟨place, file', hl⟩ := hsane.state
  · cases hclosed.symm.trans hfile
  obtain rfl : file = file' := Option.some.inj (hfile.symm.trans hl.isOpen)
  exact ⟨compacting_of_sane hsane hl hstat hcompact,
    fun c start s₁ s₂ t e hsize happend hpast => commit_of_failed_compaction hl hstat hsize happend hpast⟩

-- The new file is written, and taking over the name fails once.
theorem compact_all_or_nothing_of_failed_replace :
    ∃ l h₀ s s', openAt ⟨.here, ["log"]⟩ 4096 Host.empty = (.ok l, h₀) ∧
      run ⟨h₀, l⟩ [.put [("a", "1"), ("b", "2")], .erase "a",
        .plan [⟨.replace, 0, 1, "busy"⟩] []] = s ∧
      s.store.file = some 1 ∧ s.host.Spares .fstat ∧
      compact s = (.error (.storage (.compaction (.injected "busy"))), s') ∧
      Compacting ⟨.here, ["log"]⟩ s (.error (.storage (.compaction (.injected "busy")))) s' ∧
      ∀ (c : Commit) (start : Nat) (s₁ s₂ t : Seat LogStore) (e : Failure),
        sizeOf 1 s = (.ok start, s₁) → append 1 c.line s₁ = (.ok (), s₂) →
        s₂.store.threshold < (start + c.line.length : Nat) →
        compact (committed s₂ c) = (.error e, t) →
        ∃ fault, e = .storage (.compaction fault) ∧
          commit c s = (.ok (), deferred t (.compaction fault)) ∧
          Answers (deferred t (.compaction fault)) (c.apply s.store.records) := by
  have hstat : ∀ plan ∈ [(⟨.replace, 0, 1, "busy"⟩ : FaultPlan)],
      plan.call = .fstat → plan.count = 0 := by decide
  refine ⟨_, _, _, _, rfl, rfl, rfl, hstat, rfl, ?_⟩
  exact @compact_all_or_nothing ⟨.here, ["log"]⟩ 4096 Host.empty _ _ Disk.empty_sound rfl
    [.put [("a", "1"), ("b", "2")], .erase "a", .plan [⟨.replace, 0, 1, "busy"⟩] []] _ rfl 1 rfl
    hstat _ _ rfl

end Coffer.LogStore
