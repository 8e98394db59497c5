import Coffer.Store.Database
import Coffer.Proofs.Host

namespace Coffer

namespace Table

-- The order of the keys

theorem keyOrder_trans (a b c : String) (hab : keyOrder a b = true) (hbc : keyOrder b c = true) :
    keyOrder a c = true := by
  simp only [keyOrder, decide_eq_true_eq] at hab hbc ⊢
  exact List.le_trans hab hbc

theorem keyOrder_total (a b : String) : (keyOrder a b || keyOrder b a) = true := by
  simp only [keyOrder, Bool.or_eq_true, decide_eq_true_eq]
  exact List.le_total _ _

theorem sorted_mergeSort (ks : List String) :
    (ks.mergeSort keyOrder).Pairwise fun a b => Utf8.encode a ≤ Utf8.encode b := by
  have h := List.pairwise_mergeSort keyOrder_trans keyOrder_total ks
  simpa only [keyOrder, decide_eq_true_eq] using h

end Table

namespace DatabaseStore

open Disk (Reaches)

-- An open connection to a file with a table.
structure Connected (h : Host) (d : DatabaseStore) (id : FileId) (t : Table) : Prop where
  isOpen : d.file = some id
  allocated : id < h.disk.files.length
  content : h.disk.content? id = some (.table t)

-- The file of a database has a name, and there is room beside it.
structure Filed (h : Host) (path : PathName) (place : Place) (id : FileId) : Prop where
  named : path.hasNullByte = false
  parentNamed : path.parent.hasNullByte = false
  parent : ∃ p, h.disk.find path.parent = .ok (p, .directory)
  reaches : Reaches h.disk path place id
  room : Disk.byteLength (PathName.joinParts place) ≤ maxPathLength
  shortName : isLongName path = false

-- The seat once the table has other rows or admits other keys.
def written (s : Seat DatabaseStore) (id : FileId) (t : Table) : Seat DatabaseStore :=
  { s with host := { s.host with disk := s.host.disk.setContent id (.table t) } }

-- The seat once the statement that inserts a row has been compiled.
def ready (s : Seat DatabaseStore) : Seat DatabaseStore :=
  { s with store := { s.store with compiled := true } }

section

variable {s : Seat DatabaseStore} {id : FileId} {t : Table} {place : Place}

theorem Connected.of_disk {h h' : Host} {d : DatabaseStore} (hd : Connected h d id t)
    (hdisk : h'.disk = h.disk) : Connected h' d id t :=
  ⟨hd.isOpen, by rw [hdisk]; exact hd.allocated, by rw [hdisk]; exact hd.content⟩

theorem Connected.written (hs : Connected s.host s.store id t) (u : Table) :
    Connected (written s id u).host (written s id u).store id u := by
  refine ⟨hs.isOpen, ?_, ?_⟩
  · rw [DatabaseStore.written, Disk.length_files_setContent]
    exact hs.allocated
  · rw [DatabaseStore.written, Disk.content?_setContent _ _ _ _ hs.allocated, if_pos rfl]

theorem Connected.ready (hs : Connected s.host s.store id t) :
    Connected (ready s).host (ready s).store id t :=
  ⟨hs.isOpen, hs.allocated, hs.content⟩

theorem written_written (s : Seat DatabaseStore) (id : FileId) (t u : Table) :
    written (written s id t) id u = written s id u := by
  simp only [written, Disk.setContent_setContent]

theorem Filed.written {path : PathName} (hs : Filed s.host path place id) (u : Table) :
    Filed (written s id u).host path place id := by
  obtain ⟨p, hp⟩ := hs.parent
  have hkeep : Disk.KeepsDirectories s.host.disk (DatabaseStore.written s id u).host.disk :=
    fun _ h => h
  exact ⟨hs.named, hs.parentNamed, ⟨p, Disk.find_directory_of_keepsDirectories hkeep hp⟩,
    hs.reaches.setContent id _, hs.room, hs.shortName⟩

-- Statements

theorem connection_of_open (hopen : s.store.file = some id) : connection s = (.ok id, s) := by
  rw [connection, hopen]

theorem connection_of_connected (hs : Connected s.host s.store id t) :
    connection s = (.ok id, s) :=
  connection_of_open hs.isOpen

theorem table_of_connected (hs : Connected s.host s.store id t) : table s = (.ok t, s) := by
  refine (Action.bind_of_ok (connection_of_connected hs)).trans ?_
  rw [tableOf, hs.content]

theorem presentTable_of_connected (hs : Connected s.host s.store id t) (ht : t.present = true) :
    presentTable s = (.ok t, s) := by
  refine (Action.bind_of_ok (table_of_connected hs)).trans ?_
  rw [if_pos ht]
  rfl

theorem setTable_of_connected (hs : Connected s.host s.store id t) (t' : Table) :
    setTable t' s = (.ok (), written s id t') :=
  (Action.bind_of_ok (connection_of_connected hs)).trans rfl

theorem get_of_connected (hs : Connected s.host s.store id t) (ht : t.present = true)
    (key : String) : get key s = (MemoryStore.lookup t.rows key, s) :=
  Action.bind_of_ok (presentTable_of_connected hs ht)

theorem keys_of_connected (hs : Connected s.host s.store id t) (ht : t.present = true) :
    keys s = (.ok t.sortedKeys, s) :=
  Action.bind_of_ok (presentTable_of_connected hs ht)

theorem written_self (hs : Connected s.host s.store id t) : written s id t = s := by
  rw [written, Disk.setContent_self hs.content]

theorem ready_of_compiled (h : s.store.compiled = true) : ready s = s := by
  obtain ⟨host, path, file, compiled⟩ := s
  subst h
  rfl

theorem compileInsert_of_compiled (h : s.store.compiled = true) : compileInsert s = (.ok (), s) :=
  (Action.bind_of_ok rfl).trans (by rw [if_pos h]; rfl)

theorem compileInsert_of_connected (hs : Connected s.host s.store id t) (ht : t.present = true) :
    compileInsert s = (.ok (), ready s) := by
  by_cases hcompiled : s.store.compiled = true
  · rw [compileInsert_of_compiled hcompiled, ready_of_compiled hcompiled]
  · refine (Action.bind_of_ok rfl).trans ?_
    rw [if_neg hcompiled]
    exact Action.bind_of_ok (presentTable_of_connected hs ht)

theorem insert_of_admitted (hs : Connected s.host s.store id t) (ht : t.present = true)
    {key : String} (hkey : key ∉ t.denied) (value : String) :
    insert key value s = (.ok (), written s id { t with rows := t.rows.put key value }) := by
  refine (Action.bind_of_ok (presentTable_of_connected hs ht)).trans ?_
  rw [if_neg (by simpa using hkey)]
  exact setTable_of_connected hs _

theorem insert_of_denied (hs : Connected s.host s.store id t) (ht : t.present = true)
    {key : String} (hkey : key ∈ t.denied) (value : String) :
    insert key value s = (.error (.storage .rejected), s) := by
  refine (Action.bind_of_ok (presentTable_of_connected hs ht)).trans ?_
  rw [if_pos (by simpa using hkey)]
  rfl

theorem insertAll_of_admitted (hs : Connected s.host s.store id t) (ht : t.present = true)
    {batch : Entries String String} (hbatch : ∀ key ∈ batch.keys, key ∉ t.denied) :
    insertAll batch s = (.ok (), written s id { t with rows := t.rows.putAll batch }) := by
  induction batch generalizing s t with
  | nil =>
      rw [Entries.putAll_nil, written_self hs]
      rfl
  | cons e rest ih =>
      obtain ⟨key, value⟩ := e
      have hkey : key ∉ t.denied := hbatch key List.mem_cons_self
      have hrest : ∀ k ∈ Entries.keys rest, k ∉ t.denied := fun k hk =>
        hbatch k (List.mem_cons_of_mem _ hk)
      refine (Action.bind_of_ok (insert_of_admitted hs ht hkey value)).trans ?_
      refine (ih (hs.written { t with rows := t.rows.put key value }) ht hrest).trans ?_
      rw [written_written]
      rfl

-- The rows before the first key that is shut out have been written by the time it is met.
theorem insertAll_of_denied (hs : Connected s.host s.store id t) (ht : t.present = true)
    {batch : Entries String String} (hbatch : ∃ key ∈ batch.keys, key ∈ t.denied) :
    ∃ rows, insertAll batch s = (.error (.storage .rejected), written s id { t with rows }) := by
  induction batch generalizing s t with
  | nil => exact absurd hbatch (by simp [Entries.keys])
  | cons e rest ih =>
      obtain ⟨key, value⟩ := e
      by_cases hkey : key ∈ t.denied
      · refine ⟨t.rows, (Action.bind_of_error (insert_of_denied hs ht hkey value)).trans ?_⟩
        rw [written_self hs]
      · obtain ⟨denied, hmem, hdenied⟩ := hbatch
        have hrest : ∃ k ∈ Entries.keys rest, k ∈ t.denied := by
          refine ⟨denied, (List.mem_cons.mp hmem).resolve_left ?_, hdenied⟩
          rintro rfl
          exact hkey hdenied
        obtain ⟨rows, hinsert⟩ := ih (hs.written { t with rows := t.rows.put key value }) ht hrest
        refine ⟨rows, (Action.bind_of_ok (insert_of_admitted hs ht hkey value)).trans ?_⟩
        refine hinsert.trans ?_
        rw [written_written]

-- A transaction

theorem transaction_of_ok {x : Action (Seat DatabaseStore) Unit} {s' : Seat DatabaseStore}
    (h : x s = (.ok (), s')) : transaction x s = (.ok (), s') := by
  rw [transaction, h]

theorem transaction_of_error {x : Action (Seat DatabaseStore) Unit} {s' : Seat DatabaseStore}
    {e : Failure} (h : x s = (.error e, s')) :
    transaction x s = (.error e, { s' with host := { s'.host with disk := s.host.disk } }) := by
  rw [transaction, h]

theorem put_of_admitted (hs : Connected s.host s.store id t) (ht : t.present = true)
    {batch : Entries String String} (hbatch : ∀ key ∈ batch.keys, key ∉ t.denied) :
    put batch s = (.ok (), written (ready s) id { t with rows := t.rows.putAll batch }) := by
  refine (Action.bind_of_ok (connection_of_connected hs)).trans (transaction_of_ok ?_)
  refine (Action.bind_of_ok (compileInsert_of_connected hs ht)).trans ?_
  exact insertAll_of_admitted hs.ready ht hbatch

theorem put_of_denied (hs : Connected s.host s.store id t) (ht : t.present = true)
    {batch : Entries String String} (hbatch : ∃ key ∈ batch.keys, key ∈ t.denied) :
    put batch s = (.error (.storage .rejected), ready s) := by
  obtain ⟨rows, hinsert⟩ := insertAll_of_denied hs.ready ht hbatch
  have hrows : (do compileInsert; insertAll batch) s =
      (.error (.storage .rejected), written (ready s) id { t with rows }) :=
    (Action.bind_of_ok (compileInsert_of_connected hs ht)).trans hinsert
  exact (Action.bind_of_ok (connection_of_connected hs)).trans (transaction_of_error hrows)

theorem put_of_closed (h : s.store.file = none) (batch : Entries String String) :
    put batch s = (.error (.storage .databaseClosed), s) := by
  refine Action.bind_of_error ?_
  rw [connection, h]

-- The table is where it is looked for, or it has been dropped.
theorem connected_of_present (hopen : s.store.file = some id) (ht : (tableOf s id).present = true) :
    Connected s.host s.store id (tableOf s id) := by
  have hcontent : s.host.disk.content? id = some (.table (tableOf s id)) := by
    unfold tableOf at ht ⊢
    split at ht
    · assumption
    · cases ht
  exact ⟨hopen, (List.getElem?_eq_some_iff.mp hcontent).1, hcontent⟩

theorem presentTable_of_dropped (hopen : s.store.file = some id)
    (ht : (tableOf s id).present = false) :
    presentTable s = (.error (.storage (.noTable tableName)), s) := by
  have htable : table s = (.ok (tableOf s id), s) := Action.bind_of_ok (connection_of_open hopen)
  refine (Action.bind_of_ok htable).trans ?_
  rw [ht]
  rfl

theorem put_of_dropped (hopen : s.store.file = some id) (ht : (tableOf s id).present = false)
    {batch : Entries String String} (hneeded : batch ≠ [] ∨ s.store.compiled = false) :
    put batch s = (.error (.storage (.noTable tableName)), s) := by
  have hpresent := presentTable_of_dropped hopen ht
  refine (Action.bind_of_ok (connection_of_open hopen)).trans (transaction_of_error ?_)
  by_cases hcompiled : s.store.compiled = true
  · obtain ⟨⟨key, value⟩, rest, rfl⟩ :=
      List.exists_cons_of_ne_nil (hneeded.resolve_right (by simp [hcompiled]))
    refine (Action.bind_of_ok (compileInsert_of_compiled hcompiled)).trans ?_
    exact Action.bind_of_error (Action.bind_of_error hpresent)
  · refine Action.bind_of_error ((Action.bind_of_ok rfl).trans ?_)
    rw [if_neg hcompiled]
    exact Action.bind_of_error hpresent

-- Once the statement has been compiled, nothing has to be done for a batch without entries.
theorem put_nil_of_compiled (hopen : s.store.file = some id) (hcompiled : s.store.compiled = true) :
    put [] s = (.ok (), s) := by
  refine (Action.bind_of_ok (connection_of_open hopen)).trans (transaction_of_ok ?_)
  exact Action.bind_of_ok (compileInsert_of_compiled hcompiled)

-- A batch is written as a whole, or it is refused for a key that is shut out.
theorem put_cases (hs : Connected s.host s.store id t) (ht : t.present = true)
    (batch : Entries String String) :
    (put batch s = (.error (.storage .rejected), ready s) ∧ ∃ key ∈ batch.keys, key ∈ t.denied) ∨
    put batch s = (.ok (), written (ready s) id { t with rows := t.rows.putAll batch }) := by
  by_cases hdenied : ∃ key ∈ batch.keys, key ∈ t.denied
  · exact .inl ⟨put_of_denied hs ht hdenied, hdenied⟩
  · exact .inr (put_of_admitted hs ht (by simpa using hdenied))

theorem erase_of_connected (hs : Connected s.host s.store id t) (ht : t.present = true)
    (key : String) :
    erase key s = (.ok (), written s id { t with rows := t.rows.erase key }) :=
  (Action.bind_of_ok (presentTable_of_connected hs ht)).trans (setTable_of_connected hs _)

theorem deny_of_connected (hs : Connected s.host s.store id t) (ht : t.present = true)
    (key : String) :
    deny key s = (.ok (), written s id { t with denied := key :: t.denied }) :=
  (Action.bind_of_ok (presentTable_of_connected hs ht)).trans (setTable_of_connected hs _)

end

-- Opening

theorem present_of_prepared {c : Content} {t : Table} (h : prepared c = some t) :
    t.present = true := by
  unfold prepared at h
  split at h
  · cases h
    split
    · assumption
    · rfl
  · cases h
    rfl
  · cases h

theorem prepare_eq_ok {h h' : Host} {path : PathName} {id : FileId} {d : DatabaseStore}
    (hok : prepare path id h = (.ok d, h')) :
    d = ⟨path, some id, false⟩ ∧ id < h.disk.files.length ∧
      ∃ t, t.present = true ∧ h' = { h with disk := h.disk.setContent id (.table t) } := by
  unfold prepare at hok
  cases hc : h.disk.content? id with
  | none => simp [hc] at hok
  | some c =>
      obtain ⟨hid, -⟩ := List.getElem?_eq_some_iff.mp hc
      rw [hc, Option.bind_some] at hok
      cases ht : prepared c with
      | none => simp [ht] at hok
      | some t =>
          rw [ht] at hok
          cases hok
          exact ⟨rfl, hid, t, present_of_prepared ht, rfl⟩

theorem connect_eq_ok {h h' : Host} {path : PathName} {id : FileId} (hp : isPrivate path = false)
    (hok : connect path h = (.ok id, h')) :
    isLongPath h.disk path = false ∧ Host.obtainFile path h = (.ok id, h') := by
  unfold connect at hok
  rw [if_neg (by simp [hp])] at hok
  split at hok
  · cases hok
  · refine ⟨by simpa using ‹¬isLongPath h.disk path = true›, ?_⟩
    rw [Action.orElse] at hok
    split at hok
    · rw [‹Host.obtainFile path h = _›, hok]
    · split at hok <;> cases hok

-- A file that is not empty is no table.
theorem bytesOf_eq_nil {h h' : Host} {path : PathName} {id : FileId} {d : DatabaseStore}
    (hok : prepare path id h = (.ok d, h')) : h.disk.bytesOf id = [] := by
  unfold prepare at hok
  unfold Disk.bytesOf
  cases hc : h.disk.content? id with
  | none => rfl
  | some c =>
      rw [hc, Option.bind_some] at hok
      cases c with
      | table t => rfl
      | bytes b =>
          cases b with
          | nil => rfl
          | cons x rest => cases hok

theorem openAt_eq_ok {h h' : Host} {path : PathName} {d : DatabaseStore} (hd : h.disk.Sound)
    (hok : openAt path h = (.ok d, h')) :
    d.path = path ∧ ∃ id t, Connected h' d id t ∧ t.present = true ∧
      (isPrivate path = false → ∃ place, Filed h' path place id) := by
  obtain ⟨u, h₁, hensure, hok⟩ := Action.bind_eq_ok hok
  obtain ⟨hparentNull, disk₁, rfl, hext₁, parent, hparent⟩ :=
    Host.ensureDirectories_eq_ok (Action.guarded_eq_ok hensure)
  obtain ⟨id, h₂, hconnect, hok⟩ := Action.bind_eq_ok hok
  obtain ⟨isNew, h₃, hnew, hok⟩ := Action.bind_eq_ok hok
  cases hnew
  split at hok
  · cases hok
  have hlong : isPrivate path = false → isLongName path = false := by
    have h : ¬((h₂.disk.bytesOf id).isEmpty && !isPrivate path && isLongName path) = true := ‹¬_›
    simpa [bytesOf_eq_nil hok] using h
  obtain ⟨rfl, hid, t, ht, rfl⟩ := prepare_eq_ok hok
  refine ⟨rfl, id, t, ⟨rfl, ?_, ?_⟩, ht, fun hp => ?_⟩
  · rw [Disk.length_files_setContent]
    exact hid
  · rw [Disk.content?_setContent _ _ _ _ hid, if_pos rfl]
  · obtain ⟨hlongPath, hobtain⟩ := connect_eq_ok hp hconnect
    obtain ⟨hnull, disk₂, hdisk₂, rfl⟩ := Host.obtainFile_eq_ok hobtain
    obtain ⟨place, hlocate, -⟩ := Disk.obtain_eq_ok hdisk₂
    obtain ⟨place', hreaches⟩ := Disk.obtain_reaches (hext₁.sound hd) hdisk₂
    have hext₂ := Disk.obtain_extends hdisk₂
    have hkeep : Disk.KeepsDirectories disk₁ (disk₂.setContent id (.table t)) :=
      fun p hp => hext₂.keepsDirectories p hp
    obtain rfl : place = place' := Except.ok.inj
      ((Disk.locate_of_keepsDirectories hext₂.keepsDirectories hlocate).symm.trans hreaches.locate)
    refine ⟨place, hnull, hparentNull,
      ⟨parent, Disk.find_directory_of_keepsDirectories hkeep hparent⟩, hreaches.setContent id _, ?_, ?_⟩
    · simpa [isLongPath, hlocate] using hlongPath
    · exact hlong hp

-- A database that has a file opens again with the table it had.
theorem openAt_of_filed {h : Host} {d : DatabaseStore} {place : Place} {id : FileId} {t : Table}
    (hd : Connected h d id t) (ht : t.present = true) (hp : isPrivate d.path = false)
    (hf : Filed h d.path place id) : openAt d.path h = (.ok ⟨d.path, some id, false⟩, h) := by
  obtain ⟨parent, hparent⟩ := hf.parent
  have hroom : isLongPath h.disk d.path = false := by
    simpa [isLongPath, hf.reaches.locate] using hf.room
  have hconnect : connect d.path h = (.ok id, h) := by
    unfold connect
    rw [if_neg (by simp [hp]), if_neg (by simp [hroom])]
    exact Action.orElse_of_ok (Host.obtainFile_of_reaches hf.named hf.reaches)
  have hprepare : prepare d.path id h = (.ok ⟨d.path, some id, false⟩, h) := by
    unfold prepare
    rw [hd.content, Option.bind_some, prepared, if_pos ht]
    simp only [Disk.setContent_self hd.content]
  refine (Action.bind_of_ok (Action.guarded_of_ok
    (Host.ensureDirectories_of_find hf.parentNamed hparent))).trans ?_
  refine (Action.bind_of_ok hconnect).trans ?_
  refine (Action.bind_of_ok rfl).trans ?_
  rw [if_neg (by simp [hf.shortName])]
  exact hprepare

end DatabaseStore

end Coffer
