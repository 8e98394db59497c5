import Coffer.Proofs.Store.Alike
import Coffer.Proofs.Store.Call
import Coffer.Proofs.Store.Simulation

-- A batch for a store in memory or in a database is written as a whole, or it is refused and
-- nothing is written, wherever in the batch the entry stands that it is refused for.

namespace Coffer

open Coffer.Action (Agrees)

namespace DatabaseStore

variable {s : Seat DatabaseStore} {id : FileId}

-- What is read of a database does not depend on whether the statement has been compiled.

def Readied (s t : Seat DatabaseStore) : Prop := t = ready s

theorem presentTable_agrees : Agrees Readied presentTable presentTable := by
  have hconnection : Agrees Readied connection connection := by
    rintro s t rfl
    obtain ⟨h, path, file, compiled⟩ := s
    cases file <;> exact ⟨rfl, rfl⟩
  have htable : Agrees Readied table table := by
    refine hconnection.bind fun id => ?_
    rintro s t rfl
    exact ⟨rfl, rfl⟩
  refine htable.bind fun t => ?_
  split
  · exact Action.agrees_pure t
  · exact Action.agrees_fail _

theorem keys_agrees : Agrees Readied keys keys :=
  Agrees.bind presentTable_agrees fun t => Action.agrees_pure t.sortedKeys

theorem get_agrees (key : String) : Agrees Readied (get key) (get key) :=
  Agrees.bind presentTable_agrees fun _ => Action.agrees_ofExcept _

theorem getAt_agrees (key : Value) : Agrees Readied (getAt key) (getAt key) :=
  Agrees.bind presentTable_agrees fun _ => (Action.agrees_ofExcept _).bind fun _ => Action.agrees_ofExcept _

end DatabaseStore

namespace Backend

variable {s s' : Seat Backend} {entries : Entries Value Value} {batch : Entries String String}

def IsTransactional (s : Seat Backend) : Prop :=
  match s.store with
  | .memory _ | .database _ => True
  | .log _ | .document _ => False

-- What a batch can be refused for, with the failure that tells of it.
inductive Offence (s : Seat Backend) (entries : Entries Value Value) : Failure → Prop where
  | notText (key value : Value) (hentry : (key, value) ∈ entries) (hodd : ¬IsText key value) :
      Offence s entries (.mistyped (.notText key value))
  | closed (d : DatabaseStore) (hstore : s.store = .database d) (hclosed : d.file = none) :
      Offence s entries (.storage .databaseClosed)
  | dropped (d : DatabaseStore) (id : FileId) (hstore : s.store = .database d)
      (hopen : d.file = some id) (habsent : (DatabaseStore.tableOf ⟨s.host, d⟩ id).present = false)
      (hneeded : entries ≠ [] ∨ d.compiled = false) :
      Offence s entries (.storage (.noTable DatabaseStore.tableName))
  | rejected (d : DatabaseStore) (id : FileId) (key : String) (hstore : s.store = .database d)
      (hopen : d.file = some id) (hkey : .text key ∈ entries.keys)
      (hdenied : key ∈ (DatabaseStore.tableOf ⟨s.host, d⟩ id).denied) :
      Offence s entries (.storage .rejected)

-- Nothing that is read tells the two apart, also not once the database is closed and opened again.
structure Unchanged (s s' : Seat Backend) : Prop where
  host : s'.host = s.host
  gets : ∀ key, (getAt key s').1 = (getAt key s).1
  keys : (keys s').1 = (keys s).1
  reopened : ∀ threshold, reopen .database threshold s' = reopen .database threshold s

def Lists (s : Seat Backend) (key : String) : Prop := ∃ ks, (keys s).1 = .ok ks ∧ key ∈ ks

-- The records of a batch, and no others, have been written.
structure Written (batch : Entries String String) (s s' : Seat Backend) : Prop where
  view : view s' = (view s).putAll batch
  gets : ∀ key, (getAt (.text key) s').1 =
    ((Entries.putAll [] batch).get? key).elim (getAt (.text key) s).1 .ok
  keys : ∀ key, Lists s' key ↔ Lists s key ∨ key ∈ batch.keys
  reopened : Sound s → Lasting s → ∀ threshold,
    ∃ t, reopen .database threshold s' = (.ok (), t) ∧ Backend.view t = Backend.view s'

theorem Unchanged.refl (s : Seat Backend) : Unchanged s s :=
  ⟨rfl, fun _ => rfl, rfl, fun _ => rfl⟩

theorem unchanged_ready (h : Host) (d : DatabaseStore) :
    Unchanged ⟨h, .database d⟩ ⟨h, .database { d with compiled := true }⟩ := by
  refine ⟨rfl, fun key => ?_, ?_, fun _ => rfl⟩
  · cases key with
    | text k => exact (DatabaseStore.get_agrees k ⟨h, d⟩ _ rfl).1.symm
    | _ => exact (DatabaseStore.getAt_agrees _ ⟨h, d⟩ _ rfl).1.symm
  · exact (DatabaseStore.keys_agrees ⟨h, d⟩ _ rfl).1.symm

theorem lookup_putAll (es batch : Entries String String) (key : String) :
    MemoryStore.lookup (es.putAll batch) key =
      ((Entries.putAll [] batch).get? key).elim (MemoryStore.lookup es key) .ok := by
  rw [MemoryStore.lookup, Entries.get?_putAll]
  cases (Entries.putAll [] batch).get? key <;> rfl

theorem lists_iff (hs : Sound s) (hkind : IsTransactional s) (key : String) :
    Lists s key ↔ key ∈ (view s).keys := by
  obtain ⟨h, store⟩ := s
  cases store with
  | memory m => simp [Lists, keys, view]
  | log l => exact hkind.elim
  | document d => exact hkind.elim
  | database d =>
      obtain ⟨id, t, hd, ht⟩ := hs
      have hkeys : keys ⟨h, .database d⟩ = _ :=
        Seat.focus_of_eq (DatabaseStore.keys_of_connected (s := ⟨h, d⟩) hd ht)
      rw [Lists, hkeys, view_of_connected hd]
      simp [Table.sortedKeys]

-- Of stores that can be read, it is enough that the one holds the records of the other with those
-- of the batch.
theorem Written.of_view (hs : Sound s) (hs' : Sound s') (hkind : IsTransactional s)
    (hkind' : IsTransactional s') (hlasting : Lasting s → Lasting s')
    (hview : Backend.view s' = (Backend.view s).putAll batch) : Written batch s s' := by
  refine ⟨hview, fun key => ?_, fun key => ?_, fun _ hlasts threshold => ?_⟩
  · have hget : getAt (.text key) s = _ := get_eq hs key
    have hget' : getAt (.text key) s' = _ := get_eq hs' key
    rw [hget, hget', hview]
    exact lookup_putAll _ _ _
  · rw [lists_iff hs hkind, lists_iff hs' hkind', hview, Entries.mem_keys_putAll]
  · obtain ⟨t, hreopen, -, hviews⟩ := reopen_same hs' (hlasting hlasts) .database threshold
    exact ⟨t, hreopen, hviews⟩

theorem Written.nil (h : ¬Sound s) : Written [] s s := by
  refine ⟨rfl, fun _ => rfl, fun key => ?_, fun hs => absurd hs h⟩
  simp [Entries.keys]

-- How a batch of texts ends.
inductive Ended (batch : Entries String String) (s : Seat Backend) : Except Failure Unit → Seat Backend →
    Prop where
  | written (s' : Seat Backend) (h : ∀ e, ¬Offence s batch.asValues e) (hwritten : Written batch s s') :
      Ended batch s (.ok ()) s'
  | refused (e : Failure) (s' : Seat Backend) (h : Offence s batch.asValues e)
      (hunchanged : Unchanged s s') : Ended batch s (.error e) s'

theorem memory_ended (h : Host) (m : MemoryStore) (batch : Entries String String) :
    ∃ r s', put batch ⟨h, .memory m⟩ = (r, s') ∧ Ended batch ⟨h, .memory m⟩ r s' := by
  refine ⟨_, ⟨h, .memory ⟨m.records.putAll batch⟩⟩, rfl, .written _ (fun e he => ?_) ?_⟩
  · cases he with
    | notText key value hentry hodd => exact hodd (Entries.mem_asValues hentry)
    | closed d hstore | dropped d id hstore | rejected d id key hstore => cases hstore
  · exact .of_view trivial trivial trivial trivial (fun _ => trivial) rfl

section

variable {h : Host} {d : DatabaseStore} {id : FileId}

theorem not_offence_of_open (hopen : d.file = some id)
    (htable : (DatabaseStore.tableOf ⟨h, d⟩ id).present = true ∨ batch = [] ∧ d.compiled = true)
    (hbatch : ∀ key ∈ batch.keys, key ∉ (DatabaseStore.tableOf ⟨h, d⟩ id).denied) (e : Failure) :
    ¬Offence ⟨h, .database d⟩ batch.asValues e := by
  intro he
  cases he with
  | notText key value hentry hodd => exact hodd (Entries.mem_asValues hentry)
  | closed d' hstore hclosed =>
      cases hstore
      cases hopen.symm.trans hclosed
  | dropped d' id' hstore hopen' habsent hneeded =>
      cases hstore
      cases hopen.symm.trans hopen'
      rcases htable with hpresent | ⟨rfl, hcompiled⟩
      · cases hpresent.symm.trans habsent
      · exact hneeded.elim (fun hne => hne rfl) (by simp [hcompiled])
  | rejected d' id' key hstore hopen' hkey hdenied =>
      cases hstore
      cases hopen.symm.trans hopen'
      exact hbatch key (Entries.text_mem_keys_asValues.mp hkey) hdenied

theorem closed_ended (hclosed : d.file = none) (batch : Entries String String) :
    ∃ r s', put batch ⟨h, .database d⟩ = (r, s') ∧ Ended batch ⟨h, .database d⟩ r s' := by
  have hput := DatabaseStore.put_of_closed (s := ⟨h, d⟩) hclosed batch
  exact ⟨_, _, Seat.focus_of_eq hput, .refused _ _ (.closed d rfl hclosed) (.refl _)⟩

theorem dropped_ended (hopen : d.file = some id)
    (habsent : (DatabaseStore.tableOf ⟨h, d⟩ id).present = false) (batch : Entries String String) :
    ∃ r s', put batch ⟨h, .database d⟩ = (r, s') ∧ Ended batch ⟨h, .database d⟩ r s' := by
  by_cases hneeded : batch ≠ [] ∨ d.compiled = false
  · have hput := DatabaseStore.put_of_dropped (s := ⟨h, d⟩) hopen habsent hneeded
    have hentries : batch.asValues ≠ [] ∨ d.compiled = false :=
      hneeded.imp_left fun hne hnil => hne (List.map_eq_nil_iff.mp hnil)
    exact ⟨_, _, Seat.focus_of_eq hput,
      .refused _ _ (.dropped d id rfl hopen habsent hentries) (.refl _)⟩
  · obtain ⟨hnil, hcompiled⟩ := not_or.mp hneeded
    obtain rfl : batch = [] := not_not.mp hnil
    have hcompiled : d.compiled = true := by simpa using hcompiled
    have hput := DatabaseStore.put_nil_of_compiled (s := ⟨h, d⟩) hopen hcompiled
    have hunsound : ¬Sound ⟨h, .database d⟩ := by
      rintro ⟨id', t, hd, hpresent⟩
      cases hopen.symm.trans hd.isOpen
      rw [DatabaseStore.tableOf, hd.content, hpresent] at habsent
      cases habsent
    exact ⟨_, _, Seat.focus_of_eq hput, .written _
      (not_offence_of_open hopen (.inr ⟨rfl, hcompiled⟩) (by simp [Entries.keys])) (.nil hunsound)⟩

theorem present_ended (hopen : d.file = some id)
    (hpresent : (DatabaseStore.tableOf ⟨h, d⟩ id).present = true) (batch : Entries String String) :
    ∃ r s', put batch ⟨h, .database d⟩ = (r, s') ∧ Ended batch ⟨h, .database d⟩ r s' := by
  have hd := DatabaseStore.connected_of_present (s := ⟨h, d⟩) hopen hpresent
  by_cases hdenied : ∃ key ∈ batch.keys, key ∈ (DatabaseStore.tableOf ⟨h, d⟩ id).denied
  · have hput := DatabaseStore.put_of_denied (s := ⟨h, d⟩) hd hpresent hdenied
    obtain ⟨key, hkey, hdenied⟩ := hdenied
    have hkey := Entries.text_mem_keys_asValues.mpr hkey
    exact ⟨_, _, Seat.focus_of_eq hput,
      .refused _ _ (.rejected d id key rfl hopen hkey hdenied) (unchanged_ready h d)⟩
  · have hbatch : ∀ key ∈ batch.keys, key ∉ (DatabaseStore.tableOf ⟨h, d⟩ id).denied := by
      simpa using hdenied
    have hput := DatabaseStore.put_of_admitted (s := ⟨h, d⟩) hd hpresent hbatch
    have hd' := (DatabaseStore.Connected.ready (s := ⟨h, d⟩) hd).written
      { DatabaseStore.tableOf ⟨h, d⟩ id with
        rows := (DatabaseStore.tableOf ⟨h, d⟩ id).rows.putAll batch }
    refine ⟨_, _, Seat.focus_of_eq hput,
      .written _ (not_offence_of_open hopen (.inl hpresent) hbatch) ?_⟩
    refine .of_view ⟨id, _, hd, hpresent⟩ ⟨id, _, hd', hpresent⟩ trivial trivial ?_ ?_
    · rintro ⟨hp, place, id', hid, hf⟩
      cases hopen.symm.trans hid
      exact ⟨hp, place, id, hid, DatabaseStore.Filed.written (s := DatabaseStore.ready ⟨h, d⟩) hf _⟩
    · rw [view_of_connected hd, view_of_connected hd']

end

theorem put_ended (hkind : IsTransactional s) (batch : Entries String String) :
    ∃ r s', put batch s = (r, s') ∧ Ended batch s r s' := by
  obtain ⟨h, store⟩ := s
  cases store with
  | memory m => exact memory_ended h m batch
  | log l => exact hkind.elim
  | document d => exact hkind.elim
  | database d =>
      cases hfile : d.file with
      | none => exact closed_ended hfile batch
      | some id =>
          cases hpresent : (DatabaseStore.tableOf ⟨h, d⟩ id).present with
          | false => exact dropped_ended hfile hpresent batch
          | true => exact present_ended hfile hpresent batch

theorem putBatch_of_records {v : Value} {r : Except Failure (Entries String String)}
    (hv : batchOf v = .ok entries) (hentries : textRecords entries = r) :
    putBatch v s = (Action.ofExcept r >>= put) s := by
  rw [putBatch, hv, ← hentries]
  rfl

-- A batch with anything to refuse it for is refused, for a first entry that is not text if there
-- is one, and nothing has changed; every other batch is written.
theorem batch_written_or_refused (hkind : IsTransactional s) {v : Value}
    (hv : batchOf v = .ok entries) :
    (∀ e, Offence s entries e → ∃ e' s', putBatch v s = (.error e', s') ∧ Offence s entries e' ∧
      Unchanged s s' ∧
      ∀ before key value after, entries = Entries.asValues before ++ (key, value) :: after →
        ¬IsText key value → e' = .mistyped (.notText key value)) ∧
    ((∀ e, ¬Offence s entries e) → ∃ batch s', entries = batch.asValues ∧
      putBatch v s = (.ok (), s') ∧ Written batch s s') := by
  rcases texts_or_odd entries with ⟨batch, rfl⟩ | ⟨before, key, value, after, rfl, hodd⟩
  · obtain ⟨r, s', hput, hended⟩ := put_ended hkind batch
    have hputBatch : putBatch v s = (r, s') :=
      (putBatch_of_records hv (Storage.textRecords_texts batch)).trans hput
    refine ⟨fun e he => ?_, fun hnone => ?_⟩
    · cases hended with
      | written _ hnone => exact absurd he (hnone e)
      | refused e' _ he' hunchanged =>
          refine ⟨e', s', hputBatch, he', hunchanged, fun before key value after h hodd => ?_⟩
          exact absurd (Entries.mem_asValues (h ▸ List.mem_append_right _ List.mem_cons_self)) hodd
    · cases hended with
      | written _ _ hwritten => exact ⟨batch, s', rfl, hputBatch, hwritten⟩
      | refused e _ he => exact absurd he (hnone e)
  · have hputBatch : putBatch v s = (.error (.mistyped (.notText key value)), s) :=
      putBatch_of_records hv (textRecords_of_odd hodd after)
    have he : Offence s (before.asValues ++ (key, value) :: after) (.mistyped (.notText key value)) :=
      .notText key value (List.mem_append_right _ List.mem_cons_self) hodd
    refine ⟨fun _ _ => ⟨_, s, hputBatch, he, .refl s, fun before' key' value' after' h hodd' => ?_⟩,
      fun hnone => absurd he (hnone _)⟩
    have hfirst : putBatch v s = (.error (.mistyped (.notText key' value')), s) :=
      putBatch_of_records hv (h ▸ textRecords_of_odd hodd' after')
    cases hputBatch.symm.trans hfirst
    rfl

-- A record is overwritten before the key is met that the table does not admit.
theorem batch_refused_for_second_key :
    ∃ d h s v,
      DatabaseStore.openAt ⟨.here, ["w.db"]⟩ Host.empty = (.ok d, h) ∧
      deny "b" (put [("a", "0")] ⟨h, .database d⟩).2 = (.ok (), s) ∧
      v = .dict [(.text "a", .text "1"), (.text "b", .text "2")] ∧
      ∃ e s', putBatch v s = (.error e, s') ∧
        Offence s [(.text "a", .text "1"), (.text "b", .text "2")] e ∧ Unchanged s s' ∧
        (getAt (.text "a") s').1 = .ok "0" := by
  obtain ⟨d, h, s, hopen, hdeny, ⟨d', id, hstore, hopened, hdenied⟩, hkind, hget⟩ : ∃ d h s,
      DatabaseStore.openAt ⟨.here, ["w.db"]⟩ Host.empty = (.ok d, h) ∧
      deny "b" (put [("a", "0")] ⟨h, .database d⟩).2 = (.ok (), s) ∧
      (∃ d' id, s.store = .database d' ∧ d'.file = some id ∧
        "b" ∈ (DatabaseStore.tableOf ⟨s.host, d'⟩ id).denied) ∧
      IsTransactional s ∧ (getAt (.text "a") s).1 = .ok "0" :=
    ⟨_, _, _, rfl, rfl, ⟨_, _, rfl, rfl, List.mem_cons_self⟩, trivial, rfl⟩
  obtain ⟨e, s', hput, he, hunchanged, -⟩ := (batch_written_or_refused hkind
    (v := .dict [(.text "a", .text "1"), (.text "b", .text "2")]) rfl).1 _
    (.rejected d' id "b" hstore hopened (by simp [Entries.keys]) hdenied)
  exact ⟨d, h, s, _, hopen, hdeny, rfl, e, s', hput, he, hunchanged,
    (hunchanged.gets _).trans hget⟩

-- Even a batch without entries is refused if the table is gone before the first insert.
theorem empty_batch_refused_without_table :
    ∃ d h s, DatabaseStore.openAt ⟨.here, ["w.db"]⟩ Host.empty = (.ok d, h) ∧
      dropTable ⟨h, .database d⟩ = (.ok (), s) ∧
      (∃ d' id, s.store = .database d' ∧ d'.file = some id) ∧
      putBatch (.dict []) s = (.error (.storage (.noTable "records")), s) :=
  ⟨_, _, _, rfl, rfl, ⟨_, _, rfl, rfl⟩, rfl⟩

end Backend

end Coffer
