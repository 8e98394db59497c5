import Coffer.Disk.Basic
import Coffer.Proofs.Entries
import Coffer.Proofs.Except
import Coffer.Proofs.PathName
import Coffer.Proofs.Text.Utf8
import Mathlib.Data.List.Perm.Subperm

namespace Coffer.Disk

-- Every named file is there.
def Sound (d : Disk) : Prop := ∀ place id, d.node? place = some (.file id) → id < d.files.length

def KeepsDirectories (d d' : Disk) : Prop :=
  ∀ place, d.node? place = some .directory → d'.node? place = some .directory

-- All that was there is there unchanged.
structure Extends (d d' : Disk) : Prop where
  node : ∀ place node, d.node? place = some node → d'.node? place = some node
  files : d.files <+: d'.files
  sound : d.Sound → d'.Sound

-- The same names for the same files, and maybe files without a name besides.
structure Grown (d d' : Disk) : Prop where
  node : ∀ place, d'.node? place = d.node? place
  files : d.files <+: d'.files

-- A new file holds the bytes, and the place names it.
structure Replaced (d d' : Disk) (place : Place) (b : Bytes) : Prop where
  target : d'.node? place = some (.file d.files.length)
  others : ∀ p, p ≠ place → d'.node? p = d.node? p
  files : d'.files = d.files ++ [.bytes b]

structure Reaches (d : Disk) (path : PathName) (place : Place) (id : FileId) : Prop where
  locate : d.locate path = .ok place
  node : d.node? place = some (.file id)
  allocated : id < d.files.length

-- Places

theorem node?_nil (d : Disk) : d.node? [] = some .directory := rfl

theorem ne_nil_of_none {d : Disk} {place : Place} (h : d.node? place = none) : place ≠ [] := by
  rintro rfl
  cases h

theorem node?_put (d : Disk) (place p : Place) (node : Node) (hplace : place ≠ []) :
    ({ d with nodes := d.nodes.put place node } : Disk).node? p =
      if p = place then some node else d.node? p := by
  by_cases hp : p = []
  · simp [node?, hp, Ne.symm hplace]
  · simp only [node?, hp, if_false, Entries.get?_put, beq_iff_eq, eq_comm (a := place)]

theorem node?_link (d : Disk) (place p : Place) (id : FileId) (hplace : place ≠ []) :
    (d.link place id).node? p = if p = place then some (.file id) else d.node? p :=
  node?_put d place p (.file id) hplace

theorem node?_unlink (d : Disk) (place p : Place) (hplace : place ≠ []) :
    (d.unlink place).node? p = if p = place then none else d.node? p := by
  by_cases hp : p = []
  · simp [node?, hp, Ne.symm hplace]
  · simp only [node?, unlink, hp, if_false, Entries.get?_erase, beq_iff_eq, eq_comm (a := place)]

-- Contents

@[simp] theorem length_files_setContent (d : Disk) (id : FileId) (c : Content) :
    (d.setContent id c).files.length = d.files.length := by simp [setContent]

@[simp] theorem length_files_setBytes (d : Disk) (id : FileId) (b : Bytes) :
    (d.setBytes id b).files.length = d.files.length := by simp [setBytes]

theorem content?_setContent (d : Disk) (id i : FileId) (c : Content) (h : id < d.files.length) :
    (d.setContent id c).content? i = if i = id then some c else d.content? i := by
  by_cases hi : i = id
  · subst hi
    simp [content?, setContent, h]
  · simp [content?, setContent, hi, Ne.symm hi]

theorem bytesOf_setBytes (d : Disk) (id : FileId) (b : Bytes) (h : id < d.files.length) :
    (d.setBytes id b).bytesOf id = b := by
  simp [bytesOf, setBytes, content?_setContent d id id _ h]

theorem setBytes_setBytes (d : Disk) (id : FileId) (b b' : Bytes) :
    (d.setBytes id b).setBytes id b' = d.setBytes id b' := by
  simp [setBytes, setContent]

theorem setContent_self {d : Disk} {id : FileId} {c : Content} (h : d.content? id = some c) :
    d.setContent id c = d := by
  obtain ⟨hid, hc⟩ := List.getElem?_eq_some_iff.mp h
  rw [setContent, ← hc, List.set_getElem_self]

theorem setContent_setContent (d : Disk) (id : FileId) (c c' : Content) :
    (d.setContent id c).setContent id c' = d.setContent id c' := by simp [setContent]

theorem sound_setContent {d : Disk} (id : FileId) (c : Content) (h : d.Sound) :
    (d.setContent id c).Sound := by
  intro place i hi
  rw [length_files_setContent]
  exact h place i hi

theorem sound_setBytes {d : Disk} (id : FileId) (b : Bytes) (h : d.Sound) :
    (d.setBytes id b).Sound := sound_setContent id _ h

theorem sound_link {d : Disk} (place : Place) {id : FileId} (hid : id < d.files.length)
    (h : d.Sound) : (d.link place id).Sound := by
  intro p i hi
  by_cases hp : p = []
  · subst hp
    cases hi
  · have hi : (d.nodes.put place (.file id)).get? p = some (.file i) := by
      simpa [node?, link, hp] using hi
    rw [Entries.get?_put] at hi
    split at hi
    · cases hi
      exact hid
    · exact h p i (by simpa [node?, hp] using hi)

theorem sound_unlink {d : Disk} (place : Place) (h : d.Sound) : (d.unlink place).Sound := by
  intro p i hi
  by_cases hp : p = []
  · subst hp
    cases hi
  · have hi : (d.nodes.erase place).get? p = some (.file i) := by
      simpa [node?, unlink, hp] using hi
    rw [Entries.get?_erase] at hi
    split at hi
    · cases hi
    · exact h p i (by simpa [node?, hp] using hi)

theorem sound_rename {d : Disk} (source target : Place) (h : d.Sound) :
    (d.rename source target).Sound := by
  unfold rename
  split
  · exact sound_link target (h source _ ‹_›) (sound_unlink source h)
  · exact h

theorem content?_of_prefix {d d' : Disk} (h : d.files <+: d'.files) {id : FileId}
    (hid : id < d.files.length) : d'.content? id = d.content? id := by
  obtain ⟨more, hmore⟩ := h
  simp [content?, ← hmore, List.getElem?_append_left hid]

theorem bytesOf_of_prefix {d d' : Disk} (h : d.files <+: d'.files) {id : FileId}
    (hid : id < d.files.length) : d'.bytesOf id = d.bytesOf id := by
  rw [bytesOf, bytesOf, content?_of_prefix h hid]

theorem empty_sound : Disk.empty.Sound := by
  intro place id h
  by_cases hp : place = [] <;> simp [node?, empty, hp, Entries.get?] at h

-- The relations between disks

theorem Extends.refl (d : Disk) : Extends d d := ⟨fun _ _ h => h, List.prefix_rfl, id⟩

theorem Extends.trans {a b c : Disk} (hab : Extends a b) (hbc : Extends b c) : Extends a c :=
  ⟨fun p n h => hbc.node p n (hab.node p n h), hab.files.trans hbc.files, hbc.sound ∘ hab.sound⟩

theorem Extends.keepsDirectories {d d' : Disk} (h : Extends d d') : KeepsDirectories d d' :=
  fun place => h.node place .directory

theorem Grown.refl (d : Disk) : Grown d d := ⟨fun _ => rfl, List.prefix_rfl⟩

theorem Grown.sound {d d' : Disk} (h : Grown d d') (hd : d.Sound) : d'.Sound := by
  intro place id hid
  rw [h.node] at hid
  exact Nat.lt_of_lt_of_le (hd place id hid) h.files.length_le

theorem Grown.toExtends {d d' : Disk} (h : Grown d d') : Extends d d' :=
  ⟨fun place _ hn => (h.node place).trans hn, h.files, h.sound⟩

namespace Replaced

variable {d d' : Disk} {place : Place} {b : Bytes}

theorem isPrefix (h : Replaced d d' place b) : d.files <+: d'.files :=
  ⟨[.bytes b], h.files.symm⟩

theorem length_lt (h : Replaced d d' place b) : d.files.length < d'.files.length := by
  simp [h.files]

theorem content (h : Replaced d d' place b) : d'.content? d.files.length = some (.bytes b) := by
  simp [content?, h.files]

theorem bytes (h : Replaced d d' place b) : d'.bytesOf d.files.length = b := by
  simp [bytesOf, h.content]

theorem sound (h : Replaced d d' place b) (hd : d.Sound) : d'.Sound := by
  intro p id hid
  by_cases hp : p = place
  · rw [hp, h.target] at hid
    cases hid
    exact h.length_lt
  · rw [h.others p hp] at hid
    exact Nat.lt_trans (hd p id hid) h.length_lt

theorem keepsDirectories (h : Replaced d d' place b) (hplace : d.node? place ≠ some .directory) :
    KeepsDirectories d d' := by
  intro p hp
  rw [h.others p (by rintro rfl; exact hplace hp)]
  exact hp

theorem toExtends (h : Replaced d d' place b) (hplace : d.node? place = none) : Extends d d' := by
  refine ⟨fun p node hp => ?_, h.isPrefix, h.sound⟩
  rw [h.others p (by rintro rfl; rw [hplace] at hp; cases hp)]
  exact hp

end Replaced

theorem replaced_link (d : Disk) (place : Place) (b : Bytes) (hplace : place ≠ []) :
    Replaced d ((d.allocate (.bytes b)).1.link place d.files.length) place b := by
  refine ⟨?_, fun p hp => ?_, rfl⟩
  · rw [node?_link _ _ _ _ hplace, if_pos rfl]
  · rw [node?_link _ _ _ _ hplace, if_neg hp]
    rfl

-- Paths

theorem walk_of_keepsDirectories {d d' : Disk} (h : KeepsDirectories d d') (start : Place)
    (parts : List String) (place : Place) (hw : d.walk start parts = .ok place) :
    d'.walk start parts = .ok place := by
  induction parts generalizing start with
  | nil => exact hw
  | cons part rest ih =>
      rw [walk] at hw ⊢
      cases hn : d.node? start with
      | none => simp [hn] at hw
      | some node =>
          cases node with
          | file id => simp [hn] at hw
          | directory =>
              simp only [hn, h start hn] at hw ⊢
              split at hw
              · rw [if_pos ‹_›]
                exact ih _ hw
              · rw [if_neg ‹_›]
                split at hw
                · cases hw
                · rw [if_neg ‹_›]
                  exact ih _ hw

theorem locate_eq_ok_iff {d : Disk} {path : PathName} {place : Place} :
    d.locate path = .ok place ↔
      byteLength path.chars ≤ maxPathLength ∧ path.anchor = .here ∧
        d.walk [] path.parts = .ok place := by
  unfold locate
  split
  · exact ⟨nofun, fun h => absurd h.1 (Nat.not_le.mpr ‹_›)⟩
  · split
    · exact ⟨fun h => ⟨Nat.not_lt.mp ‹_›, ‹_›, h⟩, fun h => h.2.2⟩
    · exact ⟨nofun, fun h => absurd h.2.1 ‹_›⟩

theorem locate_of_keepsDirectories {d d' : Disk} (h : KeepsDirectories d d') {path : PathName}
    {place : Place} (hl : d.locate path = .ok place) : d'.locate path = .ok place := by
  obtain ⟨hlength, hanchor, hwalk⟩ := locate_eq_ok_iff.mp hl
  exact locate_eq_ok_iff.mpr
    ⟨hlength, hanchor, walk_of_keepsDirectories h [] path.parts place hwalk⟩

theorem byteLength_parent_le {path : PathName} (h : byteLength path.chars ≤ maxPathLength) :
    byteLength path.parent.chars ≤ maxPathLength := by
  rcases path.parent_chars with hdot | ⟨rest, hrest⟩
  · rw [hdot]
    decide
  · rw [byteLength, ← hrest, Utf8.encodeChars_append, List.length_append] at h
    rw [byteLength]
    omega

theorem find_eq_ok {d : Disk} {path : PathName} {place : Place} {node : Node}
    (hl : d.locate path = .ok place) (hn : d.node? place = some node) :
    d.find path = .ok (place, node) := by
  simp only [find, hl, bind, Except.bind, hn]

theorem of_find_eq_ok {d : Disk} {path : PathName} {place : Place} {node : Node}
    (h : d.find path = .ok (place, node)) :
    d.locate path = .ok place ∧ d.node? place = some node := by
  simp only [find, bind, Except.bind] at h
  split at h
  · cases h
  · split at h
    · cases h
      exact ⟨‹_›, ‹_›⟩
    · cases h

theorem find_directory_of_keepsDirectories {d d' : Disk} (h : KeepsDirectories d d')
    {path : PathName} {place : Place} (hf : d.find path = .ok (place, .directory)) :
    d'.find path = .ok (place, .directory) := by
  obtain ⟨hl, hn⟩ := of_find_eq_ok hf
  exact find_eq_ok (locate_of_keepsDirectories h hl) (h place hn)

-- A part leads up, or to a name in the directory it starts from.
theorem walk_append (d : Disk) (start : Place) (first second : List String) :
    d.walk start (first ++ second) = d.walk start first >>= fun p => d.walk p second := by
  induction first generalizing start with
  | nil => rfl
  | cons part rest ih =>
      rw [List.cons_append, walk, walk]
      split
      · rfl
      · rfl
      · split
        · exact ih _
        · split
          · rfl
          · exact ih _

theorem walk_singleton {d : Disk} {start place : Place} {part : String}
    (h : d.walk start [part] = .ok place) :
    d.node? start = some .directory ∧
      ((part = ".." ∧ place = start.dropLast) ∨ (part ≠ ".." ∧ place = start ++ [part])) := by
  simp only [walk] at h
  split at h
  · cases h
  · cases h
  · refine ⟨‹_›, ?_⟩
    split at h
    · cases h
      exact .inl ⟨‹_›, rfl⟩
    · split at h <;> cases h
      exact .inr ⟨‹_›, rfl⟩

-- A name in a directory that is there is located, unless the whole path is too long.
theorem locate_join {d : Disk} {directory : PathName} {place : Place} {name : String}
    (hf : d.find directory = .ok (place, .directory)) (hup : name ≠ "..")
    (hlength : byteLength name.toList ≤ maxNameLength) :
    d.locate (directory.join name) = .ok (place ++ [name]) ∨
      d.locate (directory.join name) = .error .nameTooLong := by
  obtain ⟨hl, hn⟩ := of_find_eq_ok hf
  obtain ⟨-, hanchor, hstart⟩ := locate_eq_ok_iff.mp hl
  have hwalk : d.walk place [name] = .ok (place ++ [name]) := by
    simp only [walk, hn, hup, if_false, Nat.not_lt.mpr hlength]
  unfold locate
  split
  · exact .inr rfl
  · left
    rw [if_pos (show (directory.join name).anchor = .here from hanchor), PathName.join, walk_append,
      hstart]
    exact hwalk

-- What can be located by a name of its own is in a directory, if it is there.
theorem find_parent_of_locate {d : Disk} {path : PathName} {place : Place}
    (hl : d.locate path = .ok place) (hparts : path.parts ≠ []) :
    ∃ p, d.find path.parent = .ok (p, .directory) := by
  obtain ⟨hlength, hanchor, hwalk⟩ := locate_eq_ok_iff.mp hl
  obtain ⟨init, name, hsplit⟩ := (List.eq_nil_or_concat' path.parts).resolve_left hparts
  have hinit : path.parent.parts = init := by
    rw [PathName.parent, hsplit, List.dropLast_concat]
  rw [hsplit, walk_append] at hwalk
  obtain ⟨start, hstart, hname⟩ := bind_eq_ok hwalk
  refine ⟨start, find_eq_ok (locate_eq_ok_iff.mpr ⟨byteLength_parent_le hlength, hanchor, ?_⟩) ?_⟩
  · rw [hinit, hstart]
  · exact (walk_singleton hname).1

-- In a directory that both disks have, a name is located in the same way.
theorem locate_join_of_find {d d' : Disk} {directory : PathName} {place : Place}
    (hf : d.find directory = .ok (place, .directory))
    (hf' : d'.find directory = .ok (place, .directory)) (name : String) :
    d'.locate (directory.join name) = d.locate (directory.join name) := by
  obtain ⟨hl, hn⟩ := of_find_eq_ok hf
  obtain ⟨hl', hn'⟩ := of_find_eq_ok hf'
  obtain ⟨-, hanchor, hwalk⟩ := locate_eq_ok_iff.mp hl
  obtain ⟨-, -, hwalk'⟩ := locate_eq_ok_iff.mp hl'
  have hjoin (e : Disk) (he : e.walk [] directory.parts = .ok place) :
      e.walk [] (directory.join name).parts = e.walk place [name] := by
    rw [PathName.join, walk_append, he]
    rfl
  simp only [locate, hjoin d hwalk, hjoin d' hwalk', walk, hn, hn']

-- A file and the one whose name continues its name are never at one place.
theorem locate_withSuffix_ne {d : Disk} {path suffixed : PathName} {suffix : String}
    {place place' : Place} (hsuffix : 2 < suffix.length)
    (hs : path.withSuffix? suffix = some suffixed) (hl : d.locate path = .ok place)
    (hl' : d.locate suffixed = .ok place') : place' ≠ place := by
  obtain ⟨name, hname, rfl⟩ := Option.map_eq_some_iff.mp hs
  obtain ⟨init, hparts⟩ := List.getLast?_eq_some_iff.mp hname
  have hwalk := (locate_eq_ok_iff.mp hl).2.2
  have hwalk' := (locate_eq_ok_iff.mp hl').2.2
  simp only [PathName.join, PathName.parent, hparts, List.dropLast_concat] at hwalk hwalk'
  rw [walk_append] at hwalk hwalk'
  cases hinit : d.walk [] init with
  | error o => simp [hinit, bind, Except.bind] at hwalk
  | ok start =>
      simp only [hinit, bind, Except.bind] at hwalk hwalk'
      have hlength : (name ++ suffix).length = name.length + suffix.length :=
        String.length_append name suffix
      rcases (walk_singleton hwalk').2 with ⟨hup, -⟩ | ⟨-, rfl⟩
      · have h2 : (name ++ suffix).length = 2 := by rw [hup]; rfl
        omega
      · rcases (walk_singleton hwalk).2 with ⟨-, rfl⟩ | ⟨-, rfl⟩
        · intro h
          have := congrArg List.length h
          simp at this
          omega
        · intro h
          have hname : name ++ suffix = name := List.singleton_inj.mp (List.append_cancel_left h)
          rw [hname] at hlength
          omega

namespace Reaches

variable {d d' : Disk} {path : PathName} {place : Place} {id : FileId}

-- Only names matter to what a path reaches.
theorem of_node (h : Reaches d path place id) (hnode : ∀ p, d'.node? p = d.node? p)
    (hfiles : d.files.length ≤ d'.files.length) : Reaches d' path place id := by
  have hkeep : KeepsDirectories d d' := fun p hp => (hnode p).trans hp
  exact ⟨locate_of_keepsDirectories hkeep h.locate, (hnode place).trans h.node,
    Nat.lt_of_lt_of_le h.allocated hfiles⟩

theorem find (h : Reaches d path place id) : d.find path = .ok (place, .file id) :=
  find_eq_ok h.locate h.node

theorem of_extends (h : Reaches d path place id) (hd : Extends d d') : Reaches d' path place id :=
  ⟨locate_of_keepsDirectories hd.keepsDirectories h.locate, hd.node _ _ h.node,
    Nat.lt_of_lt_of_le h.allocated hd.files.length_le⟩

theorem setContent (h : Reaches d path place id) (i : FileId) (c : Content) :
    Reaches (d.setContent i c) path place id :=
  h.of_node (fun _ => rfl) (Nat.le_of_eq (length_files_setContent d i c).symm)

theorem setBytes (h : Reaches d path place id) (i : FileId) (b : Bytes) :
    Reaches (d.setBytes i b) path place id := h.setContent i (.bytes b)

-- A file at another place is still reached; at the place itself it is the new file.

theorem replaced {other : Place} {b : Bytes} (h : Reaches d path place id)
    (hr : Replaced d d' other b) (hother : d.node? other ≠ some .directory) (hne : place ≠ other) :
    Reaches d' path place id :=
  ⟨locate_of_keepsDirectories (hr.keepsDirectories hother) h.locate,
    (hr.others place hne).trans h.node, Nat.lt_trans h.allocated hr.length_lt⟩

theorem obtain_eq (h : Reaches d path place id) : d.obtain path = .ok (d, id) := by
  simp only [Disk.obtain, h.locate, h.node]

theorem readBytes_eq (h : Reaches d path place id) : d.readBytes path = .ok (d.bytesOf id) := by
  simp only [Disk.readBytes, h.find]

theorem has_eq (h : Reaches d path place id) (hnull : path.hasNullByte = false) :
    d.has path = .ok true := by
  simp [Disk.has, hnull, h.find]

-- A file is in a directory.
theorem find_parent (h : Reaches d path place id) :
    ∃ p, d.find path.parent = .ok (p, .directory) := by
  refine find_parent_of_locate h.locate fun hnil => ?_
  have hwalk := (locate_eq_ok_iff.mp h.locate).2.2
  rw [hnil] at hwalk
  cases hwalk
  cases h.node

end Reaches

theorem readBytes_eq_ok {d : Disk} {path : PathName} {data : Bytes} (hd : d.Sound)
    (h : d.readBytes path = .ok data) :
    ∃ place id, Reaches d path place id ∧ data = d.bytesOf id := by
  unfold readBytes at h
  split at h
  · cases h
  · cases h
  · cases h
    obtain ⟨hl, hn⟩ := of_find_eq_ok ‹_›
    exact ⟨_, _, ⟨hl, hn, hd _ _ hn⟩, rfl⟩

theorem Replaced.reaches {d d' : Disk} {path : PathName} {place : Place} {b : Bytes}
    (h : Replaced d d' place b) (hl : d.locate path = .ok place)
    (hplace : d.node? place ≠ some .directory) : Reaches d' path place d.files.length :=
  ⟨locate_of_keepsDirectories (h.keepsDirectories hplace) hl, h.target, h.length_lt⟩

-- The file at a path is found, or there was none and the place gets an empty one.
theorem obtain_eq_ok {d d' : Disk} {path : PathName} {id : FileId}
    (h : d.obtain path = .ok (d', id)) :
    ∃ place, d.locate path = .ok place ∧
      ((d' = d ∧ d.node? place = some (.file id)) ∨
        (d.node? place = none ∧ id = d.files.length ∧ Replaced d d' place [])) := by
  unfold Disk.obtain at h
  cases hl : d.locate path with
  | error o => simp [hl] at h
  | ok place =>
      refine ⟨place, rfl, ?_⟩
      cases hn : d.node? place with
      | some node =>
          cases node with
          | directory => simp [hl, hn] at h
          | file i =>
              simp only [hl, hn, Except.ok.injEq, Prod.mk.injEq] at h
              obtain ⟨rfl, rfl⟩ := h
              exact .inl ⟨rfl, rfl⟩
      | none =>
          simp only [hl, hn] at h
          split at h <;> cases h
          exact .inr ⟨rfl, rfl, replaced_link d place [] (ne_nil_of_none hn)⟩

theorem obtain_extends {d d' : Disk} {path : PathName} {id : FileId}
    (h : d.obtain path = .ok (d', id)) : Extends d d' := by
  obtain ⟨place, -, ⟨rfl, -⟩ | ⟨hn, -, hr⟩⟩ := obtain_eq_ok h
  · exact Extends.refl _
  · exact hr.toExtends hn

theorem obtain_reaches {d d' : Disk} {path : PathName} {id : FileId} (hd : d.Sound)
    (h : d.obtain path = .ok (d', id)) : ∃ place, Reaches d' path place id := by
  obtain ⟨place, hl, ⟨rfl, hn⟩ | ⟨hn, rfl, hr⟩⟩ := obtain_eq_ok h
  · exact ⟨place, hl, hn, hd place id hn⟩
  · exact ⟨place, hr.reaches hl (by simp [hn])⟩

-- Names and contents that stay

theorem walk_of_node {d d' : Disk} (h : ∀ p, d'.node? p = d.node? p) (start : Place)
    (parts : List String) : d'.walk start parts = d.walk start parts := by
  induction parts generalizing start with
  | nil => rfl
  | cons part rest ih => simp only [walk, h, ih]

theorem locate_of_node {d d' : Disk} (h : ∀ p, d'.node? p = d.node? p) (path : PathName) :
    d'.locate path = d.locate path := by
  simp only [locate, walk_of_node h]

theorem readBytes_congr {d d' : Disk} {path : PathName} (hd : d.Sound)
    (hlocate : d'.locate path = d.locate path)
    (hnode : ∀ place, d.locate path = .ok place → d'.node? place = d.node? place)
    (hfiles : d.files <+: d'.files) : d'.readBytes path = d.readBytes path := by
  cases hl : d.locate path with
  | error o => simp only [readBytes, find, hlocate, hl, bind, Except.bind]
  | ok place =>
      rw [hl] at hlocate
      have hnode := hnode place hl
      cases hn : d.node? place with
      | none => simp only [readBytes, find, hlocate, hl, bind, Except.bind, hnode, hn]
      | some node =>
          rw [hn] at hnode
          simp only [readBytes, find_eq_ok hl hn, find_eq_ok hlocate hnode]
          cases node with
          | directory => rfl
          | file id => exact congrArg Except.ok <| bytesOf_of_prefix hfiles (hd place id hn)

theorem Grown.readBytes_eq {d d' : Disk} (hd : d.Sound) (h : Grown d d') (path : PathName) :
    d'.readBytes path = d.readBytes path :=
  readBytes_congr hd (locate_of_node h.node path) (fun place _ => h.node place) h.files

-- A file that is made beside another one does not get in its way.
theorem readBytes_of_obtain {d d' : Disk} {directory : PathName} {name other : String} {id : FileId}
    (hd : d.Sound) (hne : other ≠ name) (hup : other ≠ "..")
    (hlength : byteLength other.toList ≤ maxNameLength) (hnameUp : name ≠ "..")
    (hnameLength : byteLength name.toList ≤ maxNameLength)
    (h : d.obtain (directory.join name) = .ok (d', id)) :
    d'.readBytes (directory.join other) = d.readBytes (directory.join other) := by
  have hext := obtain_extends h
  obtain ⟨place, hl, ⟨rfl, -⟩ | ⟨-, -, hr⟩⟩ := obtain_eq_ok h
  · rfl
  obtain ⟨p, hf⟩ := find_parent_of_locate hl (by simp [PathName.join])
  rw [PathName.parent_join] at hf
  have hf' := find_directory_of_keepsDirectories hext.keepsDirectories hf
  refine readBytes_congr hd (locate_join_of_find hf hf' other) (fun q hq => ?_) hr.isPrefix
  have hplace : place = p ++ [name] := by
    rcases locate_join hf hnameUp hnameLength with hjoin | hjoin
    · exact Except.ok.inj (hl.symm.trans hjoin)
    · cases hl.symm.trans hjoin
  have hother : q = p ++ [other] := by
    rcases locate_join hf hup hlength with hjoin | hjoin
    · exact Except.ok.inj (hq.symm.trans hjoin)
    · cases hq.symm.trans hjoin
  refine hr.others q ?_
  rw [hplace, hother]
  simpa using hne

-- Nothing has changed, but that there may be a new empty file at the path.
structure Untouched (d d' : Disk) (path : PathName) : Prop where
  files : d.files <+: d'.files
  names : ∀ p, d'.node? p = d.node? p ∨ d.locate path = .ok p ∧ d.node? p = none ∧
    ∃ id, d'.node? p = some (.file id) ∧ d'.content? id = some (.bytes [])

theorem Untouched.refl (d : Disk) (path : PathName) : Untouched d d path :=
  ⟨List.prefix_rfl, fun _ => .inl rfl⟩

theorem untouched_of_obtain {d d' : Disk} {path : PathName} {id : FileId}
    (h : d.obtain path = .ok (d', id)) : Untouched d d' path := by
  obtain ⟨place, hl, ⟨rfl, -⟩ | ⟨hn, -, hr⟩⟩ := obtain_eq_ok h
  · exact .refl d' path
  · refine ⟨hr.isPrefix, fun p => ?_⟩
    by_cases hp : p = place
    · subst hp
      exact .inr ⟨hl, hn, _, hr.target, hr.content⟩
    · exact .inl (hr.others p hp)

theorem Untouched.grown {d d' d'' : Disk} {path : PathName} (h : Untouched d d' path)
    (hg : Grown d' d'') : Untouched d d'' path := by
  refine ⟨h.files.trans hg.files, fun p => ?_⟩
  rw [hg.node]
  refine (h.names p).imp_right fun ⟨hl, hn, id, hid, hcontent⟩ => ⟨hl, hn, id, hid, ?_⟩
  have hsame := content?_of_prefix hg.files (List.getElem?_eq_some_iff.mp hcontent).1
  rw [hsame, hcontent]

-- Directories

theorem makeDirectory_eq_ok {d d' : Disk} {path : PathName} (h : d.makeDirectory path = .ok d') :
    ∃ place, d.locate path = .ok place ∧ d.node? place = none ∧
      d' = { d with nodes := d.nodes.put place .directory } := by
  unfold makeDirectory at h
  cases hl : d.locate path with
  | error o => simp [hl] at h
  | ok place =>
      simp only [hl] at h
      split at h <;> cases h
      exact ⟨place, rfl, ‹_›, rfl⟩

theorem extends_putDirectory (d : Disk) (place : Place) (hn : d.node? place = none) :
    Extends d { d with nodes := d.nodes.put place .directory } := by
  have hplace := ne_nil_of_none hn
  refine ⟨fun p node hp => ?_, List.prefix_rfl, fun hd p id hid => ?_⟩
  · rw [node?_put d place p _ hplace, if_neg (by rintro rfl; rw [hn] at hp; cases hp)]
    exact hp
  · rw [node?_put d place p _ hplace] at hid
    split at hid
    · cases hid
    · exact hd p id hid

theorem makeDirectory_ok {d d' : Disk} {path : PathName} (h : d.makeDirectory path = .ok d') :
    Extends d d' ∧ ∃ place, d'.find path = .ok (place, .directory) := by
  obtain ⟨place, hl, hn, rfl⟩ := makeDirectory_eq_ok h
  have hext := extends_putDirectory d place hn
  refine ⟨hext, place, find_eq_ok (locate_of_keepsDirectories hext.keepsDirectories hl) ?_⟩
  rw [node?_put d place place _ (ne_nil_of_none hn), if_pos rfl]

theorem find_of_isDirectory {d : Disk} {path : PathName} (h : d.isDirectory path = true) :
    ∃ place, d.find path = .ok (place, .directory) := by
  unfold isDirectory at h
  split at h
  · exact ⟨_, ‹_›⟩
  · cases h

theorem ensureDirectory_ok {d d' : Disk} {path : PathName} (h : d.ensureDirectory path = .ok d') :
    Extends d d' ∧ ∃ place, d'.find path = .ok (place, .directory) := by
  unfold ensureDirectory at h
  split at h
  · split at h
    · cases h
      exact ⟨Extends.refl d, find_of_isDirectory ‹_›⟩
    · cases h
  · exact makeDirectory_ok h

theorem settle_spec (d : Disk) {path : PathName} {r : Except SystemFault Unit} {d' : Disk}
    (h : d.settle (d.ensureDirectory path) = (r, d')) :
    Extends d d' ∧ (r = .ok () → ∃ place, d'.find path = .ok (place, .directory)) := by
  cases he : d.ensureDirectory path with
  | error e =>
      simp only [he, settle, Prod.mk.injEq] at h
      obtain ⟨rfl, rfl⟩ := h
      exact ⟨Extends.refl d, by intro h; cases h⟩
  | ok new =>
      simp only [he, settle, Prod.mk.injEq] at h
      obtain ⟨rfl, rfl⟩ := h
      have hok := ensureDirectory_ok he
      exact ⟨hok.1, fun _ => hok.2⟩

theorem ensureDirectoriesFrom_spec (fuel : Nat) (d : Disk) (path : PathName)
    {r : Except SystemFault Unit} {d' : Disk} (h : d.ensureDirectoriesFrom fuel path = (r, d')) :
    Extends d d' ∧ (r = .ok () → ∃ place, d'.find path = .ok (place, .directory)) := by
  induction fuel generalizing path r d' with
  | zero => exact settle_spec d h
  | succ fuel ih =>
      rw [ensureDirectoriesFrom] at h
      split at h
      · cases h
        have hok := makeDirectory_ok ‹_›
        exact ⟨hok.1, fun _ => hok.2⟩
      · split at h
        · cases h
          exact ⟨Extends.refl d, by intro h; cases h⟩
        · cases hup : d.ensureDirectoriesFrom fuel path.parent with
          | mk r₁ d₁ =>
              have hext := (ih path.parent hup).1
              simp only [hup] at h
              cases r₁ with
              | ok u =>
                  obtain ⟨hset, hfind⟩ := settle_spec d₁ h
                  exact ⟨hext.trans hset, hfind⟩
              | error e =>
                  cases h
                  exact ⟨hext, by intro h; cases h⟩
      · split at h <;> cases h
        · exact ⟨Extends.refl d, fun _ => find_of_isDirectory ‹_›⟩
        · exact ⟨Extends.refl d, by intro h; cases h⟩

theorem ensureDirectories_of_find {d : Disk} {path : PathName} {place : Place}
    (h : d.find path = .ok (place, .directory)) : d.ensureDirectories path = (.ok (), d) := by
  obtain ⟨hl, hn⟩ := of_find_eq_ok h
  have hmake : d.makeDirectory path = .error (.exists path.text) := by
    simp only [makeDirectory, hl, hn]
  have hdir : d.isDirectory path = true := by simp only [isDirectory, h]
  unfold ensureDirectories
  cases path.parts.length with
  | zero => simp only [ensureDirectoriesFrom, ensureDirectory, hmake, hdir, if_true, settle]
  | succ n => simp only [ensureDirectoriesFrom, hmake, hdir, if_true]

-- Fresh names

-- There are more names to try than there are names on the disk.
theorem node?_freshPlace (d : Disk) (directory : Place) :
    d.node? (d.freshPlace directory) = none := by
  let name (n : Nat) : Place := directory ++ [s!"tmp{n}.tmp"]
  have hname : Function.Injective name := by
    intro m n h
    have htext := congrArg String.toList (List.singleton_inj.mp (List.append_cancel_left h))
    have hdigits : Nat.toDigits 10 m = Nat.toDigits 10 n := by simpa [toString] using htext
    rw [← Nat.ofDigitChars_ten_toDigits (n := m), hdigits, Nat.ofDigitChars_ten_toDigits]
  have hfree : ∃ place ∈ (List.range (d.nodes.length + 1)).map name, !d.nodes.has place := by
    by_contra hall
    have hsub : (List.range (d.nodes.length + 1)).map name ⊆ d.nodes.keys := by
      intro p hp
      rw [← Entries.has_iff]
      by_contra hfree
      exact hall ⟨p, hp, by simpa using hfree⟩
    have hlength := ((List.nodup_range.map hname).subperm hsub).length_le
    simp only [Entries.keys, List.length_map, List.length_range] at hlength
    omega
  obtain ⟨place, hplace⟩ := Option.isSome_iff_exists.mp (List.find?_isSome.mpr hfree)
  have hfresh : d.freshPlace directory = place := by
    change (List.find? _ ((List.range (d.nodes.length + 1)).map name)).getD directory = place
    rw [hplace, Option.getD_some]
  obtain ⟨n, -, rfl⟩ := List.mem_map.mp (List.mem_of_find?_eq_some hplace)
  have hhas := List.find?_some hplace
  rw [hfresh]
  simpa [node?, name, Entries.has] using hhas

end Coffer.Disk
