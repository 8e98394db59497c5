import Coffer.Store.Document
import Coffer.Proofs.Host
import Coffer.Proofs.Json.Texts

namespace Coffer.DocumentStore

open Coffer.Action (Within)
open Disk (Reaches Replaced Grown)

-- The document at a place holds the records; none that is there holds none.
def Document (d : Disk) (place : Place) (records : Entries String String) : Prop :=
  (d.node? place = none ∧ records = []) ∨
    ∃ id, d.node? place = some (.file id) ∧ id < d.files.length ∧
      decode (d.bytesOf id) = .ok records

-- An open store: its directory is there with the lock file in it, and the document holds its
-- records.
structure Kept (h : Host) (s : DocumentStore) (place : Place) : Prop where
  directoryNamed : s.directory.hasNullByte = false
  named : (documentPath s.directory).hasNullByte = false
  lockNamed : (lockPath s.directory).hasNullByte = false
  directory : h.disk.find s.directory = .ok (place, .directory)
  lock : ∃ id, Reaches h.disk (lockPath s.directory) (place ++ ["store.lock"]) id
  located : h.disk.locate (documentPath s.directory) = .ok (place ++ ["store.json"])
  document : Document h.disk (place ++ ["store.json"]) s.records
  nodup : s.records.keys.Nodup

-- The document as bytes

theorem decode_encode {records : Entries String String} (h : records.keys.Nodup) :
    decode (encode records) = .ok records := by
  have hread := Json.reads_textMembers 969 records
  rw [decode, encode, Json.decodeBytes_of_reads (.dict .text) _ _ hread, ok_map,
    Json.textEntries_textValues, Entries.putAll_nil_of_nodup _ h]

theorem nodup_of_decode {b : Bytes} {records : Entries String String} (h : decode b = .ok records) :
    records.keys.Nodup := by
  obtain ⟨v, hv, rfl⟩ := map_eq_ok h
  exact Json.nodup_textEntries hv

-- Reading

theorem read_of_document {h : Host} {s : DocumentStore} {place : Place}
    {records : Entries String String} (hnull : (documentPath s.directory).hasNullByte = false)
    (hl : h.disk.locate (documentPath s.directory) = .ok place)
    (hdoc : Document h.disk place records) : read s.directory h = (.ok records, h) := by
  rcases hdoc with ⟨hn, rfl⟩ | ⟨id, hn, hid, hdecode⟩
  · have hread : Host.readFile (documentPath s.directory) h =
        (.error (.system (.missing (documentPath s.directory).text)), h) := by
      rw [Host.readFile_eq hnull]
      simp only [Disk.readBytes, Disk.find, hl, bind, Except.bind, hn]
      rfl
    exact Action.bind_of_ok (Action.attempt_of_eq hread)
  · have hread : Host.readFile (documentPath s.directory) h = (.ok (h.disk.bytesOf id), h) :=
      Host.readFile_of_reaches hnull ⟨hl, hn, hid⟩
    refine (Action.bind_of_ok (Action.attempt_of_eq hread)).trans ?_
    simp only [hdecode]
    rfl

theorem load_of_kept {h : Host} {s : DocumentStore} {place : Place} (hs : Kept h s place) :
    load s.directory h = (.ok s.records, h) := by
  obtain ⟨id, hlock⟩ := hs.lock
  refine (Action.bind_of_ok (Host.obtainFile_of_reaches hs.lockNamed hlock)).trans ?_
  exact read_of_document hs.named hs.located hs.document

-- Writing

theorem Document.grown {d d' : Disk} {place : Place} {records : Entries String String}
    (h : Document d place records) (hg : Grown d d') : Document d' place records := by
  rcases h with ⟨hn, rfl⟩ | ⟨id, hn, hid, hdecode⟩
  · exact .inl ⟨(hg.node place).trans hn, rfl⟩
  · refine .inr ⟨id, (hg.node place).trans hn, Nat.lt_of_lt_of_le hid hg.files.length_le, ?_⟩
    rw [Disk.bytesOf_of_prefix hg.files hid]
    exact hdecode

theorem Document.replaced {d d' : Disk} {place : Place} {records : Entries String String}
    (hr : Replaced d d' place (encode records)) (hnodup : records.keys.Nodup) :
    Document d' place records := by
  refine .inr ⟨d.files.length, hr.target, hr.length_lt, ?_⟩
  rw [hr.bytes, decode_encode hnodup]

theorem Document.not_directory {d : Disk} {place : Place} {records : Entries String String}
    (h : Document d place records) : d.node? place ≠ some .directory := by
  rcases h with ⟨hn, -⟩ | ⟨id, hn, -⟩ <;> simp [hn]

theorem Kept.grown {h h' : Host} {s : DocumentStore} {place : Place} (hs : Kept h s place)
    (hg : Grown h.disk h'.disk) : Kept h' s place := by
  obtain ⟨id, hlock⟩ := hs.lock
  have hkeep := hg.toExtends.keepsDirectories
  exact ⟨hs.directoryNamed, hs.named, hs.lockNamed, Disk.find_directory_of_keepsDirectories hkeep hs.directory,
    ⟨id, hlock.of_extends hg.toExtends⟩, Disk.locate_of_keepsDirectories hkeep hs.located,
    hs.document.grown hg, hs.nodup⟩

theorem Kept.replaced {h h' : Host} {s : DocumentStore} {place : Place}
    {records : Entries String String} (hs : Kept h s place) (hnodup : records.keys.Nodup)
    (hr : Replaced h.disk h'.disk (place ++ ["store.json"]) (encode records)) :
    Kept h' { s with records } place := by
  obtain ⟨id, hlock⟩ := hs.lock
  have hdir := hs.document.not_directory
  have hkeep := hr.keepsDirectories hdir
  exact ⟨hs.directoryNamed, hs.named, hs.lockNamed, Disk.find_directory_of_keepsDirectories hkeep hs.directory,
    ⟨id, hlock.replaced hr hdir (by simp)⟩, Disk.locate_of_keepsDirectories hkeep hs.located,
    Document.replaced hr hnodup, hnodup⟩

-- Every store on the document finds the new records where it would have found the old ones.
def Follows (h h' : Host) (place : Place) (old new : Entries String String) : Prop :=
  ∀ directory, Kept h ⟨directory, old⟩ place → Kept h' ⟨directory, new⟩ place

theorem follows_of_grown {h h' : Host} {place : Place} {records : Entries String String}
    (hg : Grown h.disk h'.disk) : Follows h h' place records records :=
  fun _ hs => hs.grown hg

-- A new document is in place, or the old one is, nothing has been left beside it, and a call has
-- failed.
theorem write_ends {h : Host} {s : DocumentStore} {place : Place} (hs : Kept h s place)
    (records : Entries String String) :
    (∃ m h', write s.directory records h = (.error (.system (.injected m)), h') ∧ h.Keeps h' ∧
      Grown h.disk h'.disk ∧ ¬∀ call, h.Spares call) ∨
    (∃ h', write s.directory records h = (.ok (), h') ∧ h.Keeps h' ∧
      Replaced h.disk h'.disk (place ++ ["store.json"]) (encode records)) := by
  obtain ⟨m, h₁, hstage, hk, hg, hspares⟩ | ⟨temporary, h₁, hstage, hk₁, hfresh, hr₁⟩ :=
    Host.stage_cases s.directory (encode records) h hs.directory
  · exact .inl ⟨m, h₁, Action.bind_of_error hstage, hk, hg, fun hc => hspares ⟨hc _, hc _⟩⟩
  · obtain ⟨m, h₂, hinstall, hk₂, hg, hspares⟩ | ⟨h₂, hinstall, hk₂, hr₂⟩ :=
      Host.install_cases (documentPath s.directory) h₁ hr₁ hfresh hs.located hs.document.not_directory
    · exact .inl ⟨m, h₂, (Action.bind_of_ok hstage).trans hinstall, hk₁.trans hk₂, hg,
        fun hc => hspares (hk₁.spares _ (hc _))⟩
    · exact .inr ⟨h₂, (Action.bind_of_ok hstage).trans hinstall, hk₁.trans hk₂, hr₂⟩

theorem write_cases {h : Host} {s : DocumentStore} {place : Place} (hs : Kept h s place)
    {records : Entries String String} (hnodup : records.keys.Nodup) :
    (∃ m h', write s.directory records h = (.error (.system (.injected m)), h') ∧ h.Keeps h' ∧
      Follows h h' place s.records s.records ∧ ¬∀ call, h.Spares call) ∨
    (∃ h', write s.directory records h = (.ok (), h') ∧ h.Keeps h' ∧
      Follows h h' place s.records records) := by
  obtain ⟨m, h', hwrite, hk, hg, hspares⟩ | ⟨h', hwrite, hk, hr⟩ := write_ends hs records
  · exact .inl ⟨m, h', hwrite, hk, follows_of_grown hg, hspares⟩
  · exact .inr ⟨h', hwrite, hk, fun _ ht => ht.replaced hnodup hr⟩

theorem merge_of_load {h h₁ : Host} {directory : PathName} {current : Entries String String}
    (hload : load directory h = (.ok current, h₁)) (puts : Entries String String)
    (deletes : List String) :
    merge directory puts deletes h =
      (if ((current.putAll puts).eraseAll deletes).sameMap current then
        return (current.putAll puts).eraseAll deletes
      else do
        write directory ((current.putAll puts).eraseAll deletes)
        return (current.putAll puts).eraseAll deletes) h₁ :=
  Action.bind_of_ok hload

-- Merging changes that leave the document the same is told from merging others by comparing
-- them as maps; that they are then equal is what the caller has to know.
theorem merge_cases {h : Host} {s : DocumentStore} {place : Place} (hs : Kept h s place)
    {puts : Entries String String} {deletes : List String}
    (hsame : ((s.records.putAll puts).eraseAll deletes).sameMap s.records = true →
      (s.records.putAll puts).eraseAll deletes = s.records) :
    (∃ m h', merge s.directory puts deletes h = (.error (.system (.injected m)), h') ∧ h.Keeps h' ∧
      Follows h h' place s.records s.records ∧ ¬∀ call, h.Spares call) ∨
    (∃ h', merge s.directory puts deletes h =
        (.ok ((s.records.putAll puts).eraseAll deletes), h') ∧ h.Keeps h' ∧
      Follows h h' place s.records ((s.records.putAll puts).eraseAll deletes)) := by
  have hload := load_of_kept hs
  have hnodup : ((s.records.putAll puts).eraseAll deletes).keys.Nodup :=
    Entries.nodup_eraseAll _ _ (Entries.nodup_putAll _ _ hs.nodup)
  rw [merge_of_load hload]
  split
  · have hrecords := hsame ‹_›
    refine .inr ⟨h, rfl, Host.Keeps.refl h, ?_⟩
    rw [hrecords]
    exact fun _ ht => ht
  · rcases write_cases hs hnodup with ⟨m, h', hwrite, hk, hs', hspares⟩ | ⟨h', hwrite, hk, hs'⟩
    · exact .inl ⟨m, h', Action.bind_of_error hwrite, hk, hs', hspares⟩
    · exact .inr ⟨h', (Action.bind_of_ok hwrite).trans rfl, hk, hs'⟩

theorem commit_of_merge_ok {s : Seat DocumentStore} {puts records : Entries String String}
    {deletes : List String} {host : Host}
    (hmerge : merge s.store.directory puts deletes s.host = (.ok records, host)) :
    commit puts deletes s = (.ok (), ⟨host, { s.store with records }⟩) := by
  refine (Action.bind_of_ok (Seat.current_apply s)).trans ?_
  exact (Action.bind_of_ok (Seat.onHost_of_eq (Action.guarded_of_ok hmerge))).trans rfl

theorem commit_of_merge_error {s : Seat DocumentStore} {puts : Entries String String}
    {deletes : List String} {host : Host} {e : Failure}
    (hmerge : merge s.store.directory puts deletes s.host = (.error e, host)) :
    commit puts deletes s = (.error e.asStorage, { s with host }) :=
  (Action.bind_of_ok (Seat.current_apply s)).trans
    (Action.bind_of_error (Seat.onHost_of_eq (Action.guarded_of_error hmerge)))

-- A commit goes into the latest document, whatever the store last saw of it, and then into the
-- records; or nothing has changed.
theorem commit_follows {s : Seat DocumentStore} {place : Place} {records : Entries String String}
    (hs : Kept s.host ⟨s.store.directory, records⟩ place) (puts : Entries String String)
    (deletes : List String)
    (hsame : ((records.putAll puts).eraseAll deletes).sameMap records = true →
      (records.putAll puts).eraseAll deletes = records) :
    (∃ f h', commit puts deletes s = (.error (.storage f), { s with host := h' }) ∧
      s.host.Keeps h' ∧ Follows s.host h' place records records ∧
      ¬∀ call, s.host.Spares call) ∨
    (∃ h', commit puts deletes s =
        (.ok (), ⟨h', ⟨s.store.directory, (records.putAll puts).eraseAll deletes⟩⟩) ∧
      s.host.Keeps h' ∧
      Follows s.host h' place records ((records.putAll puts).eraseAll deletes)) := by
  rcases merge_cases hs hsame with ⟨m, h', hmerge, hk, hs', hspares⟩ | ⟨h', hmerge, hk, hs'⟩
  · exact .inl ⟨.system (.injected m), h', commit_of_merge_error hmerge, hk, hs', hspares⟩
  · exact .inr ⟨h', commit_of_merge_ok hmerge, hk, hs'⟩

theorem put_follows {s : Seat DocumentStore} {place : Place} {records : Entries String String}
    (hs : Kept s.host ⟨s.store.directory, records⟩ place) (batch : Entries String String) :
    (∃ f h', put batch s = (.error (.storage f), { s with host := h' }) ∧
      s.host.Keeps h' ∧ Follows s.host h' place records records ∧
      ¬∀ call, s.host.Spares call) ∨
    (∃ h', put batch s = (.ok (), ⟨h', ⟨s.store.directory, records.putAll batch⟩⟩) ∧
      s.host.Keeps h' ∧ Follows s.host h' place records (records.putAll batch)) :=
  commit_follows hs batch [] fun h => Entries.eq_of_sameMap_putAll hs.nodup h

theorem erase_follows {s : Seat DocumentStore} {place : Place} {records : Entries String String}
    (hs : Kept s.host ⟨s.store.directory, records⟩ place) (key : String) :
    (∃ f h', erase key s = (.error (.storage f), { s with host := h' }) ∧
      s.host.Keeps h' ∧ Follows s.host h' place records records ∧
      ¬∀ call, s.host.Spares call) ∨
    (∃ h', erase key s = (.ok (), ⟨h', ⟨s.store.directory, records.erase key⟩⟩) ∧
      s.host.Keeps h' ∧ Follows s.host h' place records (records.erase key)) :=
  commit_follows hs [] [key] fun h => Entries.eq_of_sameMap_erase h

-- A store that has seen the latest document still has.

theorem put_cases {s : Seat DocumentStore} {place : Place} (hs : Kept s.host s.store place)
    (batch : Entries String String) :
    (∃ f h', put batch s = (.error (.storage f), { s with host := h' }) ∧
      s.host.Keeps h' ∧ Kept h' s.store place ∧ ¬∀ call, s.host.Spares call) ∨
    (∃ h', put batch s =
        (.ok (), ⟨h', { s.store with records := s.store.records.putAll batch }⟩) ∧
      s.host.Keeps h' ∧ Kept h' { s.store with records := s.store.records.putAll batch } place) := by
  rcases put_follows hs batch with ⟨f, h', hput, hk, hfollows, hspares⟩ | ⟨h', hput, hk, hfollows⟩
  · exact .inl ⟨f, h', hput, hk, hfollows _ hs, hspares⟩
  · exact .inr ⟨h', hput, hk, hfollows _ hs⟩

theorem erase_cases {s : Seat DocumentStore} {place : Place} (hs : Kept s.host s.store place)
    (key : String) :
    (∃ f h', erase key s = (.error (.storage f), { s with host := h' }) ∧
      s.host.Keeps h' ∧ Kept h' s.store place ∧ ¬∀ call, s.host.Spares call) ∨
    (∃ h', erase key s =
        (.ok (), ⟨h', { s.store with records := s.store.records.erase key }⟩) ∧
      s.host.Keeps h' ∧ Kept h' { s.store with records := s.store.records.erase key } place) := by
  rcases erase_follows hs key with
    ⟨f, h', herase, hk, hfollows, hspares⟩ | ⟨h', herase, hk, hfollows⟩
  · exact .inl ⟨f, h', herase, hk, hfollows _ hs, hspares⟩
  · exact .inr ⟨h', herase, hk, hfollows _ hs⟩

theorem reload_of_kept {s : Seat DocumentStore} {place : Place} {records : Entries String String}
    (hs : Kept s.host ⟨s.store.directory, records⟩ place) :
    reload s = (.ok (), ⟨s.host, ⟨s.store.directory, records⟩⟩) := by
  refine (Action.bind_of_ok (Seat.current_apply s)).trans ?_
  have hload := load_of_kept hs
  exact (Action.bind_of_ok (Seat.onHost_of_eq (Action.guarded_of_ok hload))).trans rfl

-- Opening

theorem document_of_read {h h' : Host} {directory : PathName} {place : Place}
    {records : Entries String String} (hd : h.disk.Sound)
    (hf : h.disk.find directory = .ok (place, .directory))
    (hok : read directory h = (.ok records, h')) :
    h' = h ∧ (documentPath directory).hasNullByte = false ∧
      h.disk.locate (documentPath directory) = .ok (place ++ ["store.json"]) ∧
      Document h.disk (place ++ ["store.json"]) records := by
  obtain ⟨r, h₁, hattempt, hok⟩ := Action.bind_eq_ok hok
  by_cases hnull : (documentPath directory).hasNullByte = true
  · have hread : Host.readFile (documentPath directory) h = (.error (.unusable .nullByte), h) := by
      refine Action.bind_of_error ?_
      rw [Host.checkName_apply, if_pos hnull]
    rw [Action.attempt_of_eq hread] at hattempt
    cases hattempt
    cases hok
  have hnull : (documentPath directory).hasNullByte = false := by simpa using hnull
  rw [Action.attempt_of_eq (Host.readFile_eq hnull)] at hattempt
  cases hattempt
  have hjoin : h.disk.locate (documentPath directory) = .ok (place ++ ["store.json"]) ∨
      h.disk.locate (documentPath directory) = .error .nameTooLong :=
    Disk.locate_join hf (by decide) (by decide)
  cases hr : h.disk.readBytes (documentPath directory) with
  | ok data =>
      rw [hr] at hok
      obtain ⟨place', id, hreaches, rfl⟩ := Disk.readBytes_eq_ok hd hr
      obtain ⟨hdecode, rfl⟩ := Prod.mk.inj hok
      have hplace : place' = place ++ ["store.json"] := by
        rcases hjoin with hjoin | hjoin
        · exact Except.ok.inj (hreaches.locate.symm.trans hjoin)
        · cases hreaches.locate.symm.trans hjoin
      subst hplace
      exact ⟨rfl, hnull, hreaches.locate,
        .inr ⟨id, hreaches.node, hreaches.allocated, mapError_eq_ok hdecode⟩⟩
  | error fault =>
      rw [hr] at hok
      cases fault with
      | missing path =>
          cases hok
          rcases hjoin with hjoin | hjoin
          · refine ⟨rfl, hnull, hjoin, .inl ⟨?_, rfl⟩⟩
            cases hn : h.disk.node? (place ++ ["store.json"]) with
            | none => rfl
            | some node =>
                simp only [Disk.readBytes, Disk.find_eq_ok hjoin hn] at hr
                cases node <;> cases hr
          · simp only [Disk.readBytes, Disk.find, hjoin, bind, Except.bind, Obstacle.fault] at hr
            cases hr
      | _ => cases hok

theorem kept_of_load {h h' : Host} {directory : PathName} {records : Entries String String}
    (hd : h.disk.Sound) (hok : load directory h = (.ok records, h')) :
    ∃ place, Kept h' ⟨directory, records⟩ place := by
  obtain ⟨lock, h₁, hobtain, hread⟩ := Action.bind_eq_ok hok
  obtain ⟨hlockNull, disk, hdisk, rfl⟩ := Host.obtainFile_eq_ok hobtain
  have hdirNull := PathName.hasNullByte_parent hlockNull
  obtain ⟨lockPlace, hlock⟩ := Disk.obtain_reaches hd hdisk
  obtain ⟨place, hfind⟩ := hlock.find_parent
  rw [lockPath, PathName.parent_join] at hdirNull hfind
  obtain ⟨rfl, hnull, hlocated, hdocument⟩ :=
    document_of_read ((Disk.obtain_extends hdisk).sound hd) hfind hread
  have hlockPlace : lockPlace = place ++ ["store.lock"] := by
    have hjoin : disk.locate (lockPath directory) = .ok (place ++ ["store.lock"]) ∨
        disk.locate (lockPath directory) = .error .nameTooLong :=
      Disk.locate_join hfind (by decide) (by decide)
    rcases hjoin with hjoin | hjoin
    · exact Except.ok.inj (hlock.locate.symm.trans hjoin)
    · cases hlock.locate.symm.trans hjoin
  subst hlockPlace
  refine ⟨place, hdirNull, hnull, hlockNull, hfind, ⟨lock, hlock⟩, hlocated, hdocument, ?_⟩
  rcases hdocument with ⟨-, rfl⟩ | ⟨id, -, -, hdecode⟩
  · exact List.nodup_nil
  · exact nodup_of_decode hdecode

theorem openAt_eq_ok {h h' : Host} {directory : PathName} {s : DocumentStore} (hd : h.disk.Sound)
    (hok : openAt directory h = (.ok s, h')) :
    s.directory = directory ∧ ∃ place, Kept h' s place := by
  obtain ⟨u, h₁, hensure, hok⟩ := Action.bind_eq_ok (Action.guarded_eq_ok hok)
  obtain ⟨-, disk, rfl, hext, -⟩ := Host.ensureDirectories_eq_ok hensure
  obtain ⟨records, h₂, hload, hok⟩ := Action.bind_eq_ok hok
  cases hok
  exact ⟨rfl, kept_of_load (hext.sound hd) hload⟩

theorem openAt_of_kept {h : Host} {s : DocumentStore} {place : Place} (hs : Kept h s place) :
    openAt s.directory h = (.ok s, h) := by
  refine Action.guarded_of_ok ?_
  refine (Action.bind_of_ok (Host.ensureDirectories_of_find hs.directoryNamed hs.directory)).trans ?_
  exact Action.bind_of_ok (load_of_kept hs)

theorem openAt_within (directory : PathName) : Within Host.Evolves (openAt directory) := by
  refine Within.guarded ((Host.ensureDirectories_within directory).bind fun _ => ?_)
  refine Within.bind ((Host.obtainFile_within (lockPath directory)).bind fun _ => ?_) fun _ =>
    Action.within_pure _
  refine (Host.readFile_within _).attempt.bind fun r => ?_
  split
  · exact Action.within_ofExcept _
  · exact Action.within_pure _
  · exact Action.within_fail _

end Coffer.DocumentStore
