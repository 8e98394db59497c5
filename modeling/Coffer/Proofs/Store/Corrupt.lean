import Coffer.Proofs.Log.Open
import Coffer.Proofs.Store.Document

-- Files with any bytes in them. What cannot be decoded is a failure of the store that says where
-- it was found, except for two errors of the decoder that come through as they are.

namespace Coffer

-- What becomes of an error of the decoder.
inductive Surfaces (error : Json.Error) (fault : StorageFault) : Failure → Prop where
  | wrapped (hbytes : ∀ f, error ≠ .undecodable f) (hdepth : error ≠ .tooDeep) :
      Surfaces error fault (.storage fault)
  | undecodable {f : Utf8.Fault} (h : error = .undecodable f) :
      Surfaces error fault (.undecodable f)
  | tooDeep (h : error = .tooDeep) : Surfaces error fault .readTooDeep

theorem Surfaces.asStorage_eq {error : Json.Error} {fault : StorageFault} {e : Failure}
    (h : Surfaces error fault e) : e.asStorage = e := by
  cases h <;> rfl

theorem LogStore.surfaces_corruption (path : PathName) (c : Commit.Corruption) :
    Surfaces c.error (.corruptCommit c.number path.text c.size c.error) (corruption path c) := by
  unfold corruption
  split
  · exact .undecodable ‹_›
  · exact .tooDeep ‹_›
  · exact .wrapped ‹_› ‹_›

theorem DocumentStore.surfaces_corruption (path : PathName) (size : Nat) (error : Json.Error) :
    Surfaces error (.corruptDocument path.text size error) (corruption path size error) := by
  unfold corruption
  split
  · exact .undecodable rfl
  · exact .tooDeep rfl
  · exact .wrapped ‹_› ‹_›

namespace Commit

-- Replaying goes on past a line that is blank or a commit.
def Passes (line : Bytes) : Prop := line.all isBlankByte = true ∨ ∃ c, decode line = .ok c

-- The first line that is neither, where the lines are counted from a number on.
def FirstCorrupt (number : Nat) (lines : List Bytes) (c : Corruption) : Prop :=
  ∃ before line after, lines = before ++ line :: after ∧ (∀ l ∈ before, Passes l) ∧
    line.all isBlankByte = false ∧ decode line = .error c.error ∧
    c.number = number + before.length ∧ c.size = line.length

-- All lines pass, or replaying stops at the first one that does not.
inductive Replayed (number : Nat) (lines : List Bytes) :
    Except Corruption (Entries String String) → Prop where
  | all {records : Entries String String} (h : ∀ line ∈ lines, Passes line) :
      Replayed number lines (.ok records)
  | stopped {c : Corruption} (h : FirstCorrupt number lines c) : Replayed number lines (.error c)

theorem Replayed.cons {number : Nat} {line : Bytes} {lines : List Bytes}
    {r : Except Corruption (Entries String String)} (hline : Passes line)
    (h : Replayed (number + 1) lines r) : Replayed number (line :: lines) r := by
  cases h with
  | all hlines => exact .all (List.forall_mem_cons.mpr ⟨hline, hlines⟩)
  | stopped hfirst =>
      obtain ⟨before, bad, after, rfl, hbefore, hblank, hdecode, hnumber, hsize⟩ := hfirst
      refine .stopped ⟨line :: before, bad, after, rfl,
        List.forall_mem_cons.mpr ⟨hline, hbefore⟩, hblank, hdecode, ?_, hsize⟩
      rw [hnumber, List.length_cons]
      omega

end Commit

namespace LogStore

open Disk (Reaches)

-- The lock of a log can be had: nothing is in the way of its file, and no one holds it.
def Unlocked (h : Host) (path : PathName) : Prop :=
  ∃ lockPath disk lock, path.withSuffix? ".lock" = some lockPath ∧
    h.disk.obtain lockPath = .ok (disk, lock) ∧ lock ∉ h.locks

section

variable {h : Host} {path : PathName} {data : Bytes}

-- A log that does not replay gives its lock back.
theorem openHeld_of_corrupt {place : Place} {file lock : FileId} {c : Commit.Corruption}
    (hreaches : Reaches h.disk path place file) (hnull : path.hasNullByte = false)
    (hreplay : Commit.replay (Commit.splitLines (h.disk.bytesOf file)).1 = .error c)
    (threshold : Int) :
    Action.guarded ((openHeld path threshold lock).orElse fun e => do
      Host.unlock lock
      .fail e) { h with locks := lock :: h.locks } = (.error (corruption path c), h) := by
  have hheld : openHeld path threshold lock { h with locks := lock :: h.locks } =
      (.error (corruption path c), { h with locks := lock :: h.locks }) :=
    Action.bind_of_error (replay_of_corrupt hreaches hnull hreplay)
  have hunlock : Host.unlock lock { h with locks := lock :: h.locks } = (.ok (), h) := by
    simp [Host.unlock]
  refine (Action.guarded_of_error
    ((Action.orElse_of_error hheld).trans (Action.bind_of_ok hunlock))).trans ?_
  rw [(surfaces_corruption path c).asStorage_eq]

-- Opening a log of any bytes: what its whole lines replay as decides.
theorem openAt_of_bytes (hd : h.disk.Sound) (hnull : path.hasNullByte = false)
    (hfree : Unlocked h path) (hdata : h.disk.readBytes path = .ok data) (threshold : Int) :
    (∃ records l h', Commit.replay (Commit.splitLines data).1 = .ok records ∧
      openAt path threshold h = (.ok l, h') ∧ l.records = records) ∨
    ∃ c h', Commit.replay (Commit.splitLines data).1 = .error c ∧
      openAt path threshold h = (.error (corruption path c), h') ∧
      h'.disk.readBytes path = .ok data ∧ Unlocked h' path := by
  obtain ⟨lockPath, disk, lock, hsuffix, hobtain, hfree⟩ := hfree
  obtain ⟨place, file, hreaches, rfl⟩ := Disk.readBytes_eq_ok hd hdata
  obtain ⟨p, hparent⟩ := hreaches.find_parent
  have hlockNull := PathName.hasNullByte_withSuffix hnull rfl hsuffix
  have hopen := openAt_of_obtain hsuffix (PathName.hasNullByte_parent hnull) hparent hlockNull
    hobtain hfree threshold
  have hext := Disk.obtain_extends hobtain
  obtain ⟨lockPlace, hlock⟩ := Disk.obtain_reaches hd hobtain
  have hreaches' : Reaches disk path place file := hreaches.of_extends hext
  rw [← Disk.bytesOf_of_prefix hext.files hreaches.allocated]
  cases hreplay : Commit.replay (Commit.splitLines (disk.bytesOf file)).1 with
  | ok records =>
      let held : Host := { h with disk, locks := lock :: h.locks }
      have hreplayed := replay_of_reaches (h := held) hreaches' hnull hreplay
      refine .inl ⟨records, _, _, rfl, hopen.trans (Action.guarded_of_ok (Action.orElse_of_ok
        (openHeld_of_replay hnull hreplayed (?_ : Reaches _ path place file)))), rfl⟩
      split
      · exact hreaches'
      · exact hreaches'.setBytes file _
  | error c =>
      have hreleased := @openHeld_of_corrupt { h with disk } path place file lock c hreaches' hnull
        hreplay threshold
      exact .inr ⟨c, _, rfl, hopen.trans hreleased, hreaches'.readBytes_eq, lockPath, disk, lock,
        hsuffix, hlock.obtain_eq, hfree⟩

end

end LogStore

namespace DocumentStore

open Disk (Reaches)

-- How an operation may end that loads a document of some bytes first.
inductive Ends {α : Type} (h : Host) (directory : PathName) (data : Bytes) :
    Except Failure α → Prop where
  | done {a : α} {records : Entries String String} (hread : decode data = .ok records) :
      Ends h directory data (.ok a)
  | unwritten {fault : StorageFault} {records : Entries String String}
      (hread : decode data = .ok records) (hcause : ¬∀ call, h.Spares call) :
      Ends h directory data (.error (.storage fault))
  | unlocked {fault : SystemFault} (hlock : h.disk.obtain (lockPath directory) = .error fault) :
      Ends h directory data (.error (.storage (.system fault)))
  | corrupt {error : Json.Error} {e : Failure} (hread : decode data = .error error)
      (hsurfaces :
        Surfaces error (.corruptDocument (documentPath directory).text data.length error) e) :
      Ends h directory data (.error e)

-- All operations of a store that load its document, and what they may come to.
structure Serves (s : Seat DocumentStore) (data : Bytes) : Prop where
  opening : Ends s.host s.store.directory data (openAt s.store.directory s.host).1
  reloading : Ends s.host s.store.directory data (reload s).1
  putting : ∀ batch, Ends s.host s.store.directory data (put batch s).1
  erasing : ∀ key, Ends s.host s.store.directory data (erase key s).1

section

variable {h h' : Host} {directory : PathName} {place : Place} {data : Bytes}

-- A store of which the directory is there is opened by loading.
theorem openAt_of_find (hnull : directory.hasNullByte = false)
    (hf : h.disk.find directory = .ok (place, .directory)) :
    openAt directory h = Action.guarded (do return ⟨directory, ← load directory⟩) h := by
  unfold openAt Action.guarded
  rw [Action.orElse, Action.orElse, Action.bind_of_ok (Host.ensureDirectories_of_find hnull hf)]

theorem load_of_unobtained {fault : SystemFault} (hnull : directory.hasNullByte = false)
    (hlock : h.disk.obtain (lockPath directory) = .error fault) :
    load directory h = (.error (.system fault), h) := by
  refine Action.bind_of_error ((Action.bind_of_ok (Host.checkName_of_not ?_ h)).trans ?_)
  · exact PathName.hasNullByte_join hnull rfl
  · simp only [hlock]

end

end DocumentStore

-- A disk with nothing on it but a file of some bytes in its top directory.
def Host.ofFile (name : String) (b : Bytes) : Host :=
  { Host.empty with disk := (Disk.empty.allocate (.bytes b)).1.link [name] 0 }

theorem Host.ofFile_sound (name : String) (b : Bytes) : (Host.ofFile name b).disk.Sound :=
  (Disk.replaced_link Disk.empty [name] b (List.cons_ne_nil _ _)).sound Disk.empty_sound

end Coffer
