import Coffer.Proofs.Store.Call
import Coffer.Proofs.Store.Corrupt

-- A document is replaced as a whole or left alone. A call that fails, wherever it does, leaves the
-- disk and the store as they were; one that changes no record writes nothing.

namespace Coffer

namespace DocumentStore

open Coffer.Action (Agrees)
open Backend (Call)
open LogStore (Change)

-- The records of the document on the disk; one that is not there holds none.
inductive Reads (d : Disk) (directory : PathName) : Entries String String → Prop where
  | document {b : Bytes} {records : Entries String String}
      (hread : d.readBytes (documentPath directory) = .ok b) (hdecode : decode b = .ok records) :
      Reads d directory records
  | absent {path : String} (hread : d.readBytes (documentPath directory) = .error (.missing path)) :
      Reads d directory []

-- No file has changed, and none is new but for an empty lock file.
structure Unwritten (directory : PathName) (h h' : Host) : Prop where
  disk : Disk.Untouched h.disk h'.disk (lockPath directory)
  document : h'.disk.readBytes (documentPath directory) = h.disk.readBytes (documentPath directory)

-- How a call can end. Once the document has been loaded, only a call of the system that is planned
-- to fail keeps it from being written, and what is planned plays no part if it need not be.
inductive Outcome (call : Call) (h : Host) (d : DocumentStore) :
    Except Failure Unit → Seat Backend → Prop where
  | failed {e : Failure} {host : Host} (hunwritten : Unwritten d.directory h host)
      (hcause : ∀ current h₁, call.change? ≠ none → load d.directory h = (.ok current, h₁) →
        (call.apply current).sameMap current = false ∧ ¬∀ c, h.Spares c) :
      Outcome call h d (.error e) ⟨host, .document d⟩
  | same {current : Entries String String} {disk : Disk} (hreads : Reads h.disk d.directory current)
      (hsame : (call.apply current).sameMap current = true)
      (hunwritten : Unwritten d.directory h { h with disk })
      (hplans : ∀ plans, call.run ⟨{ h with plans }, .document d⟩ =
        (.ok (), ⟨{ h with disk, plans }, .document ⟨d.directory, call.apply current⟩⟩)) :
      Outcome call h d (.ok ()) ⟨{ h with disk }, .document ⟨d.directory, call.apply current⟩⟩
  | replaced {current : Entries String String} {host : Host}
      (hreads : Reads h.disk d.directory current)
      (hsame : (call.apply current).sameMap current = false)
      (hread : host.disk.readBytes (documentPath d.directory) = .ok (encode (call.apply current))) :
      Outcome call h d (.ok ()) ⟨host, .document ⟨d.directory, call.apply current⟩⟩

section

variable {h : Host} {directory : PathName} {place : Place}

theorem Unwritten.refl (directory : PathName) (h : Host) : Unwritten directory h h :=
  ⟨.refl _ _, rfl⟩

theorem Unwritten.grown {h' h'' : Host} (hu : Unwritten directory h h') (hd : h'.disk.Sound)
    (hg : Disk.Grown h'.disk h''.disk) : Unwritten directory h h'' :=
  ⟨hu.disk.grown hg, (hg.readBytes_eq hd _).trans hu.document⟩

theorem Unwritten.reads {h' : Host} {records : Entries String String}
    (hu : Unwritten directory h h') (hr : Reads h'.disk directory records) :
    Reads h.disk directory records := by
  cases hr with
  | document hread hdecode => exact .document (hu.document.symm.trans hread) hdecode
  | absent hread => exact .absent (hu.document.symm.trans hread)

theorem Kept.reads {s : DocumentStore} (hs : Kept h s place) : Reads h.disk s.directory s.records := by
  rcases hs.document with ⟨hn, hrecords⟩ | ⟨id, hn, hid, hdecode⟩
  · rw [hrecords]
    refine @Reads.absent _ _ (documentPath s.directory).text ?_
    simp only [Disk.readBytes, Disk.find, hs.located, bind, Except.bind, hn, Obstacle.fault]
  · exact .document (Disk.Reaches.readBytes_eq ⟨hs.located, hn, hid⟩) hdecode

-- Loading

-- What is planned to fail makes no difference to it.
theorem load_agrees (directory : PathName) (plans : List FaultPlan) :
    Agrees (fun h t : Host => t = { h with plans }) (load directory) (load directory) := by
  have hname : ∀ path, Agrees (fun h t : Host => t = { h with plans }) (Host.checkName path)
      (Host.checkName path) := by
    rintro path h _ rfl
    rw [Host.checkName_apply, Host.checkName_apply]
    exact ⟨rfl, rfl⟩
  have hobtain : Agrees (fun h t : Host => t = { h with plans })
      (Host.obtainFile (lockPath directory)) (Host.obtainFile (lockPath directory)) := by
    refine (hname _).bind fun _ => ?_
    rintro h _ rfl
    dsimp only
    cases h.disk.obtain (lockPath directory) <;> exact ⟨rfl, rfl⟩
  have hread : Agrees (fun h t : Host => t = { h with plans })
      (Host.readFile (documentPath directory)) (Host.readFile (documentPath directory)) :=
    (hname _).bind fun _ h t ht => by subst ht; exact ⟨rfl, rfl⟩
  refine hobtain.bind fun _ => hread.attempt.bind fun r => ?_
  split
  · exact Action.agrees_ofExcept _
  · exact Action.agrees_pure _
  · exact Action.agrees_fail _

theorem read_state (directory : PathName) (h : Host) : (read directory h).2 = h := by
  obtain ⟨r, hread⟩ : ∃ r, Host.readFile (documentPath directory) h = (r, h) := by
    have hcheck := Host.checkName_apply (documentPath directory) h
    split at hcheck
    · exact ⟨_, Action.bind_of_error hcheck⟩
    · exact ⟨_, Action.bind_of_ok hcheck⟩
  rw [read, Action.bind_of_ok (Action.attempt_of_eq hread)]
  split <;> rfl

-- Whether the document can be read or not, loading it makes the lock file at the most.
theorem load_cases (hd : h.disk.Sound) (directory : PathName) :
    ∃ r disk, (∀ plans, load directory { h with plans } = (r, { h with disk, plans })) ∧
      disk.Sound ∧ Unwritten directory h { h with disk } := by
  obtain ⟨r, disk, hload, hsound, hunwritten⟩ : ∃ r disk,
      load directory h = (r, { h with disk }) ∧ disk.Sound ∧ Unwritten directory h { h with disk } := by
    cases hobtain : Host.obtainFile (lockPath directory) h with
    | mk r h₁ =>
        cases r with
        | ok lock =>
            obtain ⟨-, disk, hdisk, rfl⟩ := Host.obtainFile_eq_ok hobtain
            refine ⟨_, disk, (Action.bind_of_ok hobtain).trans (Prod.ext rfl (read_state _ _)),
              (Disk.obtain_extends hdisk).sound hd, Disk.untouched_of_obtain hdisk, ?_⟩
            exact Disk.readBytes_of_obtain hd (by decide) (by decide) (by decide) (by decide)
              (by decide) hdisk
        | error e =>
            obtain rfl := Host.obtainFile_eq_error hobtain
            exact ⟨_, h₁.disk, Action.bind_of_error hobtain, hd, .refl _ _⟩
  refine ⟨r, disk, fun plans => ?_, hsound, hunwritten⟩
  obtain ⟨hresult, hstate⟩ := load_agrees directory plans h { h with plans } rfl
  rw [hload] at hresult hstate
  exact Prod.ext hresult.symm hstate

-- Committing

theorem Kept.readBytes_replaced {h' : Host} {s : DocumentStore} {records : Entries String String}
    (hs : Kept h s place)
    (hr : Disk.Replaced h.disk h'.disk (place ++ ["store.json"]) (encode records)) :
    h'.disk.readBytes (documentPath s.directory) = .ok (encode records) := by
  have hkeep := hr.keepsDirectories hs.document.not_directory
  have hreaches : Disk.Reaches h'.disk (documentPath s.directory) (place ++ ["store.json"])
      h.disk.files.length :=
    ⟨Disk.locate_of_keepsDirectories hkeep hs.located, hr.target, hr.length_lt⟩
  rw [hreaches.readBytes_eq, hr.bytes]

variable {call : Call} {change : Change} {d : DocumentStore}

theorem change_eq (change : Change) (h : Host) (d : DocumentStore) :
    Backend.change change ⟨h, .document d⟩ =
      Seat.focus .document d (commit change.commit.puts change.commit.deletes) ⟨h, .document d⟩ := by
  cases change <;> rfl

theorem run_of_merge_ok (hchange : call.change? = some change) {h h' : Host}
    {records : Entries String String}
    (hmerge : merge d.directory change.commit.puts change.commit.deletes h = (.ok records, h')) :
    call.run ⟨h, .document d⟩ = (.ok (), ⟨h', .document ⟨d.directory, records⟩⟩) := by
  rw [Call.run_of_some hchange, change_eq]
  exact Seat.focus_of_eq (commit_of_merge_ok (s := ⟨h, d⟩) hmerge)

theorem run_of_merge_error (hchange : call.change? = some change) {h h' : Host} {e : Failure}
    (hmerge : merge d.directory change.commit.puts change.commit.deletes h = (.error e, h')) :
    call.run ⟨h, .document d⟩ = (.error e.asStorage, ⟨h', .document d⟩) := by
  rw [Call.run_of_some hchange, change_eq]
  exact Seat.focus_of_eq (commit_of_merge_error (s := ⟨h, d⟩) hmerge)

theorem outcome_of_change (hd : h.disk.Sound) (hchange : call.change? = some change) :
    ∃ r s', call.run ⟨h, .document d⟩ = (r, s') ∧ Outcome call h d r s' := by
  obtain ⟨r, disk, hload, hsound, hunwritten⟩ := load_cases hd d.directory
  cases r with
  | error e =>
      refine ⟨_, _, run_of_merge_error hchange (Action.bind_of_error (hload h.plans)),
        .failed hunwritten fun current h₁ _ hok => ?_⟩
      cases hok.symm.trans (hload h.plans)
  | ok current =>
      obtain ⟨place, hkept⟩ := kept_of_load hd (hload h.plans)
      have hreads := hunwritten.reads hkept.reads
      have happly : call.apply current =
          (current.putAll change.commit.puts).eraseAll change.commit.deletes := by
        rw [Call.apply_of_some hchange, ← Change.apply_commit]
        rfl
      have hmerge := fun plans =>
        merge_of_load (hload plans) change.commit.puts change.commit.deletes
      rw [← happly] at hmerge
      by_cases hsame : (call.apply current).sameMap current = true
      · simp only [hsame, if_true] at hmerge
        exact ⟨_, _, run_of_merge_ok hchange (hmerge h.plans), .same hreads hsame hunwritten
          fun plans => run_of_merge_ok hchange (hmerge plans)⟩
      · simp only [hsame, Bool.false_eq_true, if_false] at hmerge
        obtain ⟨m, h₂, hwrite, -, hg, hspares⟩ | ⟨h₂, hwrite, -, hr⟩ :=
          write_ends hkept (call.apply current)
        · refine ⟨_, _, run_of_merge_error hchange ((hmerge h.plans).trans (Action.bind_of_error hwrite)),
            .failed (hunwritten.grown hsound hg) fun current' h₁ _ hok => ?_⟩
          cases hok.symm.trans (hload h.plans)
          exact ⟨by simpa using hsame, hspares⟩
        · exact ⟨_, _, run_of_merge_ok hchange ((hmerge h.plans).trans (Action.bind_of_ok hwrite)),
            .replaced hreads (by simpa using hsame) (hkept.readBytes_replaced hr)⟩

-- A key that is no text has no record to be erased.

theorem eraseAbsent_of_load_error {h h' : Host} {e : Failure}
    (hload : load d.directory h = (.error e, h')) (key : Value) :
    eraseAbsent key ⟨h, d⟩ = (.error e.asStorage, ⟨h', d⟩) :=
  (Action.bind_of_ok (Seat.current_apply _)).trans
    (Action.bind_of_error (Seat.onHost_of_eq (Action.guarded_of_error hload)))

theorem eraseAbsent_of_refused {h h' : Host} {current : Entries String String} {key : Value}
    {e : Failure} (hload : load d.directory h = (.ok current, h'))
    (hsome : current.isEmpty = false) (hkey : checkKey key = .error e) :
    eraseAbsent key ⟨h, d⟩ = (.error e, ⟨h', d⟩) := by
  refine (Action.bind_of_ok (Seat.current_apply _)).trans ?_
  refine (Action.bind_of_ok (Seat.onHost_of_eq (Action.guarded_of_ok hload))).trans ?_
  rw [hsome, hkey]
  rfl

theorem eraseAbsent_of_allowed {h h' : Host} {current : Entries String String} {key : Value}
    (hload : load d.directory h = (.ok current, h'))
    (hallowed : current.isEmpty = true ∨ checkKey key = .ok ()) :
    eraseAbsent key ⟨h, d⟩ = (.ok (), ⟨h', ⟨d.directory, current⟩⟩) := by
  refine (Action.bind_of_ok (Seat.current_apply _)).trans ?_
  refine (Action.bind_of_ok (Seat.onHost_of_eq (Action.guarded_of_ok hload))).trans ?_
  rcases hallowed with hempty | hkey
  · rw [hempty]
    rfl
  · rw [hkey]
    cases current.isEmpty <;> rfl

theorem run_of_absent {key : Value} (hkey : ∀ k, key ≠ .text k) (h : Host) :
    (Call.remove key).run ⟨h, .document d⟩ =
      Seat.focus .document d (eraseAbsent key) ⟨h, .document d⟩ := by
  cases key with
  | text k => exact absurd rfl (hkey k)
  | _ => rfl

theorem outcome_of_absent (hd : h.disk.Sound) {key : Value} (hchange : (Call.remove key).change? = none)
    (hkey : ∀ k, key ≠ .text k) :
    ∃ r s', (Call.remove key).run ⟨h, .document d⟩ = (r, s') ∧
      Outcome (.remove key) h d r s' := by
  have hnever : ∀ {P : Prop}, (Call.remove key).change? ≠ none → P := fun hsome => absurd hchange hsome
  obtain ⟨r, disk, hload, hsound, hunwritten⟩ := load_cases hd d.directory
  cases r with
  | error e =>
      exact ⟨_, _, (run_of_absent hkey h).trans
        (Seat.focus_of_eq (eraseAbsent_of_load_error (hload h.plans) key)),
        .failed hunwritten fun _ _ hsome _ => hnever hsome⟩
  | ok current =>
      by_cases hallowed : current.isEmpty = true ∨ checkKey key = .ok ()
      · obtain ⟨place, hkept⟩ := kept_of_load hd (hload h.plans)
        have hcurrent := Call.apply_of_none hchange current
        have hsame : ((Call.remove key).apply current).sameMap current = true := by
          rw [hcurrent]
          exact Entries.sameMap_self hkept.nodup
        have hrun := fun plans => (run_of_absent hkey { h with plans }).trans
          (Seat.focus_of_eq (eraseAbsent_of_allowed (hload plans) hallowed))
        rw [← hcurrent] at hrun
        exact ⟨_, _, hrun h.plans, .same (hunwritten.reads hkept.reads) hsame hunwritten hrun⟩
      · obtain ⟨hsome, hodd⟩ := not_or.mp hallowed
        cases hcheck : checkKey key with
        | ok u => exact absurd hcheck hodd
        | error e =>
            exact ⟨_, _, (run_of_absent hkey h).trans (Seat.focus_of_eq
              (eraseAbsent_of_refused (hload h.plans) (by simpa using hsome) hcheck)),
              .failed hunwritten fun _ _ hsome _ => hnever hsome⟩

theorem run_outcome (hd : h.disk.Sound) (d : DocumentStore) (call : Call) :
    ∃ r s', call.run ⟨h, .document d⟩ = (r, s') ∧ Outcome call h d r s' := by
  cases hchange : call.change? with
  | some change => exact outcome_of_change hd hchange
  | none =>
      rcases Call.run_of_none hchange ⟨h, .document d⟩ with ⟨e, hrun⟩ | ⟨key, rfl, hkey⟩
      · exact ⟨_, _, hrun, .failed (.refl _ _) fun _ _ hsome _ => absurd hchange hsome⟩
      · exact outcome_of_absent hd hchange hkey

end

end DocumentStore

namespace Backend

open DocumentStore (Reads Unwritten Outcome load encode documentPath)

-- A call that fails leaves the directory and what the store answers as they were. One that returns
-- has merged its change into the records on the disk, and if that leaves them the same, it has
-- written nothing and asked for nothing that could have failed. Records that could be loaded are
-- always merged, if no call of the system that is needed is planned to fail.
theorem failed_commit_changes_nothing {h : Host} (hd : h.disk.Sound) (d : DocumentStore)
    (call : Call) :
    ∃ r s', call.run ⟨h, .document d⟩ = (r, s') ∧
      (∀ e, r = .error e → s'.store = .document d ∧ Unwritten d.directory h s'.host ∧
        (keys s').1 = (keys ⟨h, .document d⟩).1 ∧
        ∀ key, (getAt key s').1 = (getAt key ⟨h, .document d⟩).1) ∧
      (r = .ok () → ∃ current, Reads h.disk d.directory current ∧
        s'.store = .document ⟨d.directory, call.apply current⟩ ∧
        if (call.apply current).sameMap current then
          Unwritten d.directory h s'.host ∧
          ∀ plans, call.run ⟨{ h with plans }, .document d⟩ =
            (.ok (), ⟨{ s'.host with plans }, s'.store⟩)
        else
          s'.host.disk.readBytes (documentPath d.directory) = .ok (encode (call.apply current))) ∧
      ∀ current h₁, call.change? ≠ none → load d.directory h = (.ok current, h₁) →
        ((call.apply current).sameMap current = true ∨ ∀ c, h.Spares c) → r = .ok () := by
  obtain ⟨r, s', hrun, houtcome⟩ := DocumentStore.run_outcome hd d call
  refine ⟨r, s', hrun, ?_⟩
  cases houtcome with
  | failed hunwritten hcause =>
      refine ⟨fun _ _ => ⟨rfl, hunwritten, rfl, fun key => ?_⟩, nofun,
        fun current h₁ hchange hload hfree => ?_⟩
      · cases key <;> rfl
      · obtain ⟨hdiffers, hfails⟩ := hcause current h₁ hchange hload
        rcases hfree with hsame | hspares
        · cases hdiffers.symm.trans hsame
        · exact absurd hspares hfails
  | same hreads hsame hunwritten hplans =>
      refine ⟨nofun, fun _ => ⟨_, hreads, rfl, ?_⟩, fun _ _ _ _ _ => rfl⟩
      rw [if_pos hsame]
      exact ⟨hunwritten, hplans⟩
  | replaced hreads hdiffers hread =>
      refine ⟨nofun, fun _ => ⟨_, hreads, rfl, ?_⟩, fun _ _ _ _ _ => rfl⟩
      rw [hdiffers, if_neg Bool.false_ne_true]
      exact hread

-- The document has a record that the store has not seen, and the new one cannot take its place.
theorem failed_commit_changes_nothing_of_failed_replace :
    ∃ document h e s', document = Utf8.encode "\x7b\"a\":\"1\"\x7d" ∧
      h = { Host.ofFile "store.json" document with plans := [⟨.replace, 0, 1, "no space"⟩] } ∧
      (Call.set (.text "b") (.text "2")).run ⟨h, .document ⟨⟨.here, []⟩, []⟩⟩ = (.error e, s') ∧
      s'.store = .document ⟨⟨.here, []⟩, []⟩ ∧ Unwritten ⟨.here, []⟩ h s'.host := by
  let document := Utf8.encode "\x7b\"a\":\"1\"\x7d"
  let h : Host :=
    { Host.ofFile "store.json" document with plans := [⟨.replace, 0, 1, "no space"⟩] }
  obtain ⟨r, s', hrun, hfailed, -⟩ := failed_commit_changes_nothing (h := h)
    (Host.ofFile_sound "store.json" document) ⟨⟨.here, []⟩, []⟩ (.set (.text "b") (.text "2"))
  cases r with
  | error e =>
      obtain ⟨hstore, hunwritten, -⟩ := hfailed e rfl
      exact ⟨document, h, e, s', rfl, rfl, hrun, hstore, hunwritten⟩
  | ok u =>
      have hok : ((Call.set (.text "b") (.text "2")).run ⟨h, .document ⟨⟨.here, []⟩, []⟩⟩).1.isOk =
          false := by decide +kernel
      rw [hrun] at hok
      cases hok

end Backend

end Coffer
