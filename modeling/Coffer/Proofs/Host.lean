import Coffer.Proofs.Action
import Coffer.Proofs.Disk
import Coffer.Proofs.Except

namespace Coffer.Host

open Disk (Grown Replaced Reaches Extends)

-- No plan is left that makes a call of the kind fail.
def Spares (h : Host) (call : SystemCall) : Prop := ∀ plan ∈ h.plans, plan.call = call → plan.count = 0

theorem empty_spares (call : SystemCall) : empty.Spares call := by
  intro plan hplan
  cases hplan

-- The locks stay as they are, and calls that passed still pass.
structure Keeps (h h' : Host) : Prop where
  locks : h'.locks = h.locks
  spares : ∀ call, h.Spares call → h'.Spares call

theorem Keeps.refl (h : Host) : Keeps h h := ⟨rfl, fun _ hs => hs⟩

theorem Keeps.trans {a b c : Host} (hab : Keeps a b) (hbc : Keeps b c) : Keeps a c :=
  ⟨hbc.locks.trans hab.locks, fun call hs => hbc.spares call (hab.spares call hs)⟩

theorem keeps_disk (h : Host) (disk : Disk) : Keeps h { h with disk } := ⟨rfl, fun _ hs => hs⟩

theorem consult_spec (call : SystemCall) (plans : List FaultPlan) :
    ((FaultPlan.consult call plans).1 ≠ none → ∃ plan ∈ plans, plan.call = call ∧ plan.count ≠ 0) ∧
    ∀ c, (∀ plan ∈ plans, plan.call = c → plan.count = 0) →
      ∀ plan ∈ (FaultPlan.consult call plans).2, plan.call = c → plan.count = 0 := by
  induction plans with
  | nil => simp [FaultPlan.consult]
  | cons plan rest ih =>
      obtain ⟨hfires, hspares⟩ := ih
      have hrest : (FaultPlan.consult call rest).1 ≠ none →
          ∃ p ∈ plan :: rest, p.call = call ∧ p.count ≠ 0 := by
        intro h
        obtain ⟨p, hp, hc⟩ := hfires h
        exact ⟨p, List.mem_cons_of_mem _ hp, hc⟩
      rw [FaultPlan.consult]
      split
      · refine ⟨hrest, fun c hc => ?_⟩
        simp only [List.forall_mem_cons] at hc ⊢
        exact ⟨hc.1, hspares c hc.2⟩
      · split
        · have hfire : plan.call = call ∧ 0 < plan.count := ‹_›
          refine ⟨fun _ => ⟨plan, List.mem_cons_self, hfire.1, by omega⟩, fun c hc => ?_⟩
          simp only [List.forall_mem_cons] at hc ⊢
          refine ⟨fun h => ?_, hc.2⟩
          rw [hc.1 h]
        · refine ⟨hrest, fun c hc => ?_⟩
          simp only [List.forall_mem_cons] at hc ⊢
          exact ⟨hc.1, hspares c hc.2⟩

theorem interrupt_cases (call : SystemCall) (h : Host) :
    ∃ plans, Keeps h { h with plans } ∧
      (interrupt call h = (.ok (), { h with plans }) ∨
        ∃ m, interrupt call h = (.error (.system (.injected m)), { h with plans }) ∧
          ¬h.Spares call) := by
  obtain ⟨hfires, hspares⟩ := consult_spec call h.plans
  unfold interrupt
  cases hc : FaultPlan.consult call h.plans with
  | mk m plans =>
      refine ⟨plans, ⟨rfl, fun c hs => ?_⟩, ?_⟩
      · have hs := hspares c hs
        rwa [hc] at hs
      · cases m with
        | none => exact .inl rfl
        | some m =>
            refine .inr ⟨m, rfl, fun hs => ?_⟩
            obtain ⟨plan, hp, hcall, hcount⟩ := hfires (by simp [hc])
            exact hcount (hs plan hp hcall)

-- Obtaining a file and a directory

theorem checkName_apply (path : PathName) (h : Host) :
    checkName path h = (if path.hasNullByte then .error (.unusable .nullByte) else .ok (), h) := by
  unfold checkName
  split <;> rfl

theorem checkName_of_not {path : PathName} (hnull : path.hasNullByte = false) (h : Host) :
    checkName path h = (.ok (), h) := by simp [checkName_apply, hnull]

theorem obtainFile_of_obtain {h : Host} {path : PathName} {disk : Disk} {id : FileId}
    (hnull : path.hasNullByte = false) (hobtain : h.disk.obtain path = .ok (disk, id)) :
    obtainFile path h = (.ok id, { h with disk }) := by
  refine (Action.bind_of_ok (checkName_of_not hnull h)).trans ?_
  simp only [hobtain]

theorem obtainFile_of_reaches {h : Host} {path : PathName} {place : Place} {id : FileId}
    (hnull : path.hasNullByte = false) (hr : Reaches h.disk path place id) :
    obtainFile path h = (.ok id, h) := obtainFile_of_obtain hnull hr.obtain_eq

theorem readFile_eq {h : Host} {path : PathName} (hnull : path.hasNullByte = false) :
    readFile path h = ((h.disk.readBytes path).mapError .system, h) :=
  Action.bind_of_ok (checkName_of_not hnull h)

theorem readFile_of_reaches {h : Host} {path : PathName} {place : Place} {id : FileId}
    (hnull : path.hasNullByte = false) (hr : Reaches h.disk path place id) :
    readFile path h = (.ok (h.disk.bytesOf id), h) := by
  rw [readFile_eq hnull, hr.readBytes_eq, mapError_ok]

theorem obtainFile_eq_ok {h h' : Host} {path : PathName} {id : FileId}
    (hok : obtainFile path h = (.ok id, h')) :
    path.hasNullByte = false ∧ ∃ disk, h.disk.obtain path = .ok (disk, id) ∧ h' = { h with disk } := by
  obtain ⟨u, h₁, hcheck, hok⟩ := Action.bind_eq_ok hok
  rw [checkName_apply] at hcheck
  split at hcheck
  · cases hcheck
  · cases hcheck
    refine ⟨by simpa using ‹¬path.hasNullByte = true›, ?_⟩
    split at hok <;> cases hok
    exact ⟨_, ‹_›, rfl⟩

theorem obtainFile_eq_error {h h' : Host} {path : PathName} {e : Failure}
    (herror : obtainFile path h = (.error e, h')) : h' = h := by
  have hcheck := checkName_apply path h
  split at hcheck
  · exact (Prod.mk.inj (herror.symm.trans (Action.bind_of_error hcheck))).2
  · have hobtain := herror.symm.trans (Action.bind_of_ok hcheck)
    split at hobtain <;> cases hobtain
    rfl

theorem ensureDirectories_eq_ok {h h' : Host} {path : PathName}
    (hok : ensureDirectories path h = (.ok (), h')) :
    path.hasNullByte = false ∧ ∃ disk, h' = { h with disk } ∧ Extends h.disk disk ∧
      ∃ place, disk.find path = .ok (place, .directory) := by
  obtain ⟨u, h₁, hcheck, hok⟩ := Action.bind_eq_ok hok
  rw [checkName_apply] at hcheck
  split at hcheck
  · cases hcheck
  · cases hcheck
    refine ⟨by simpa using ‹¬path.hasNullByte = true›, ?_⟩
    cases he : h.disk.ensureDirectories path with
    | mk r disk =>
        obtain ⟨hext, hfind⟩ := Disk.ensureDirectoriesFrom_spec _ h.disk path he
        cases r with
        | ok u =>
            simp only [he, mapError_ok, Prod.mk.injEq] at hok
            exact ⟨disk, hok.2.symm, hext, hfind rfl⟩
        | error e => simp [he, mapError_error] at hok

theorem ensureDirectories_of_find {h : Host} {path : PathName} {place : Place}
    (hnull : path.hasNullByte = false) (hf : h.disk.find path = .ok (place, .directory)) :
    ensureDirectories path h = (.ok (), h) := by
  refine (Action.bind_of_ok (checkName_of_not hnull h)).trans ?_
  simp only [Disk.ensureDirectories_of_find hf, mapError_ok]

-- Writing a new file and giving it a name

theorem grown_unlink {d d' : Disk} {temporary : Place} {b : Bytes}
    (hr : Replaced d d' temporary b) (hfresh : d.node? temporary = none) :
    Grown d (d'.unlink temporary) := by
  refine ⟨fun p => ?_, hr.isPrefix⟩
  rw [Disk.node?_unlink _ _ _ (Disk.ne_nil_of_none hfresh)]
  split
  · rw [‹p = temporary›, hfresh]
  · exact hr.others p ‹_›

theorem writeAt_apply {d : Disk} {temporary : Place} (hplace : temporary ≠ []) (h : Host)
    (hd : h.disk = (d.allocate (.bytes [])).1.link temporary d.files.length) (b : Bytes) :
    writeAt temporary b h =
      (.ok (), { h with disk := (d.allocate (.bytes b)).1.link temporary d.files.length }) := by
  have hnode : h.disk.node? temporary = some (.file d.files.length) := by
    rw [hd, Disk.node?_link _ _ _ _ hplace, if_pos rfl]
  rw [writeAt, changeDisk, Action.update_apply]
  simp only [hnode]
  rw [hd]
  simp [Disk.setBytes, Disk.setContent, Disk.allocate, Disk.link]

theorem stage_cases (directory : PathName) (b : Bytes) (h : Host) {place : Place}
    (hfind : h.disk.find directory = .ok (place, .directory)) :
    (∃ m h', stage directory b h = (.error (.system (.injected m)), h') ∧ h.Keeps h' ∧
      Grown h.disk h'.disk ∧ ¬(h.Spares .mkstemp ∧ h.Spares .fsync)) ∨
    (∃ temporary h', stage directory b h = (.ok temporary, h') ∧ h.Keeps h' ∧
      h.disk.node? temporary = none ∧ Replaced h.disk h'.disk temporary b) := by
  have hfresh := Disk.node?_freshPlace h.disk place
  have hplace := Disk.ne_nil_of_none hfresh
  obtain ⟨plans, hkeeps, hmake | ⟨m, hmake, hspares⟩⟩ := interrupt_cases .mkstemp h
  · let linked : Host := { h with
      plans, disk := (h.disk.allocate (.bytes [])).1.link (h.disk.freshPlace place) h.disk.files.length }
    let written : Host := { h with
      plans, disk := (h.disk.allocate (.bytes b)).1.link (h.disk.freshPlace place) h.disk.files.length }
    have htemporary : makeTemporary directory h = (.ok (h.disk.freshPlace place), linked) := by
      refine (Action.bind_of_ok hmake).trans ?_
      simp only [hfind]
      rfl
    have hwrite : writeAt (h.disk.freshPlace place) b linked = (.ok (), written) :=
      writeAt_apply hplace linked rfl b
    have hreplaced := Disk.replaced_link h.disk (h.disk.freshPlace place) b hplace
    have hwritten : h.Keeps written := hkeeps.trans (keeps_disk _ _)
    rw [stage, Action.bind_of_ok htemporary, Action.bind_of_ok hwrite]
    obtain ⟨plans', hkeeps', hsync | ⟨m, hsync, hspares⟩⟩ := interrupt_cases .fsync written
    · refine .inr ⟨_, _, ?_, hwritten.trans hkeeps', hfresh, hreplaced⟩
      rw [Action.bind_of_ok (Action.orElse_of_ok hsync)]
      rfl
    · refine .inl ⟨m, { written with plans := plans', disk := written.disk.unlink _ }, ?_,
        hwritten.trans (hkeeps'.trans (keeps_disk _ _)), grown_unlink hreplaced hfresh,
        fun hs => hspares (hwritten.spares _ hs.2)⟩
      apply Action.bind_of_error
      rw [Action.orElse_of_error hsync]
      rfl
  · refine .inl ⟨m, { h with plans }, ?_, hkeeps, Grown.refl _, fun hs => hspares hs.1⟩
    exact Action.bind_of_error (Action.bind_of_error hmake)

theorem replaced_rename {d d' : Disk} {temporary place : Place} {b : Bytes}
    (hr : Replaced d d' temporary b) (hfresh : d.node? temporary = none) (hplace : place ≠ []) :
    Replaced d (d'.rename temporary place) place b := by
  have htemporary := Disk.ne_nil_of_none hfresh
  simp only [Disk.rename, hr.target]
  refine ⟨?_, fun p hp => ?_, hr.files⟩
  · rw [Disk.node?_link _ _ _ _ hplace, if_pos rfl]
  · rw [Disk.node?_link _ _ _ _ hplace, if_neg hp, Disk.node?_unlink _ _ _ htemporary]
    split
    · rw [‹p = temporary›, hfresh]
    · exact hr.others p ‹_›

-- The disk as it was before the staged file was made is the one to compare with.
theorem install_cases {d : Disk} {temporary place : Place} {b : Bytes} (path : PathName) (h : Host)
    (hr : Replaced d h.disk temporary b) (hfresh : d.node? temporary = none)
    (hl : d.locate path = .ok place) (hplace : d.node? place ≠ some .directory) :
    (∃ m h', install temporary path h = (.error (.system (.injected m)), h') ∧ h.Keeps h' ∧
      Grown d h'.disk ∧ ¬h.Spares .replace) ∨
    (∃ h', install temporary path h = (.ok (), h') ∧ h.Keeps h' ∧ Replaced d h'.disk place b) := by
  obtain ⟨plans, hkeeps, hrep | ⟨m, hrep, hspares⟩⟩ := interrupt_cases .replace h
  · have hnil : place ≠ [] := by
      rintro rfl
      exact hplace (Disk.node?_nil d)
    have hlocate : h.disk.locate path = .ok place :=
      Disk.locate_of_keepsDirectories (hr.keepsDirectories (by simp [hfresh])) hl
    have hnode : h.disk.node? place ≠ some .directory := by
      by_cases hp : place = temporary
      · simp [hp, hr.target]
      · rw [hr.others place hp]
        exact hplace
    refine .inr ⟨{ h with plans, disk := h.disk.rename temporary place }, ?_,
      hkeeps.trans (keeps_disk _ _), replaced_rename hr hfresh hnil⟩
    apply Action.orElse_of_ok
    rw [Action.bind_of_ok hrep, onDisk]
    simp only [hlocate, hnode, if_false]
  · refine .inl ⟨m, { h with plans, disk := h.disk.unlink temporary }, ?_,
      hkeeps.trans (keeps_disk _ _), grown_unlink hr hfresh, hspares⟩
    rw [install, Action.orElse_of_error (Action.bind_of_error hrep)]
    rfl

-- What holds of every action, whatever becomes of it

-- Names still name files, and calls that passed still pass.
structure Evolves (h h' : Host) : Prop where
  sound : h.disk.Sound → h'.disk.Sound
  spares : ∀ call, h.Spares call → h'.Spares call

instance : IsPreorder Host Evolves where
  refl _ := ⟨id, fun _ hs => hs⟩
  trans _ _ _ hab hbc := ⟨hbc.sound ∘ hab.sound, fun call hs => hbc.spares call (hab.spares call hs)⟩

theorem evolves_of_disk {h : Host} {disk : Disk} (hd : h.disk.Sound → disk.Sound) :
    Evolves h { h with disk } := ⟨hd, fun _ hs => hs⟩

open Coffer.Action (Within within_pure within_fail within_reading)

theorem interrupt_within (call : SystemCall) : Within Evolves (interrupt call) := by
  intro h
  obtain ⟨plans, hkeeps, hok | ⟨m, herror, -⟩⟩ := interrupt_cases call h
  · rw [hok]
    exact ⟨id, hkeeps.spares⟩
  · rw [herror]
    exact ⟨id, hkeeps.spares⟩

theorem note_within (n : Notice) : Within Evolves (note n) := fun _ => ⟨id, fun _ hs => hs⟩

theorem tryLock_within (id : FileId) : Within Evolves (tryLock id) := by
  intro h
  unfold tryLock
  split <;> exact ⟨fun hd => hd, fun _ hs => hs⟩

theorem unlock_within (id : FileId) : Within Evolves (unlock id) :=
  fun _ => ⟨fun hd => hd, fun _ hs => hs⟩

theorem setFileBytes_within (id : FileId) (b : Bytes) : Within Evolves (setFileBytes id b) :=
  fun _ => evolves_of_disk (Disk.sound_setBytes id b)

theorem checkName_within (path : PathName) : Within Evolves (checkName path) := by
  intro h
  rw [checkName_apply]
  exact Std.Refl.refl h

theorem obtainFile_within (path : PathName) : Within Evolves (obtainFile path) := by
  refine (checkName_within path).bind fun _ h => ?_
  cases ho : h.disk.obtain path with
  | error fault => exact Std.Refl.refl h
  | ok found => exact evolves_of_disk (Disk.obtain_extends ho).sound

theorem readFile_within (path : PathName) : Within Evolves (readFile path) :=
  (checkName_within path).bind fun _ => within_reading _

theorem ensureDirectories_within (path : PathName) : Within Evolves (ensureDirectories path) := by
  refine (checkName_within path).bind fun _ h => ?_
  cases he : h.disk.ensureDirectories path with
  | mk r disk => exact evolves_of_disk (Disk.ensureDirectoriesFrom_spec _ h.disk path he).1.sound

theorem makeTemporary_within (directory : PathName) : Within Evolves (makeTemporary directory) := by
  refine (interrupt_within .mkstemp).bind fun _ h => ?_
  cases hf : h.disk.find directory with
  | error o => exact Std.Refl.refl h
  | ok found =>
      obtain ⟨place, node⟩ := found
      cases node with
      | file id => exact Std.Refl.refl h
      | directory =>
          have hplace := Disk.ne_nil_of_none (Disk.node?_freshPlace h.disk place)
          exact evolves_of_disk (Disk.replaced_link h.disk (h.disk.freshPlace place) [] hplace).sound

theorem removeFile_within (place : Place) : Within Evolves (removeFile place) :=
  fun _ => evolves_of_disk (Disk.sound_unlink place)

theorem writeAt_within (place : Place) (b : Bytes) : Within Evolves (writeAt place b) := by
  refine fun h => evolves_of_disk fun hd => ?_
  dsimp only
  split
  · exact Disk.sound_setBytes _ b hd
  · exact hd

theorem stage_within (directory : PathName) (b : Bytes) : Within Evolves (stage directory b) :=
  (makeTemporary_within directory).bind fun temporary =>
    (writeAt_within temporary b).bind fun _ =>
      ((interrupt_within .fsync).orElse fun e =>
        (removeFile_within temporary).bind fun _ => within_fail e).bind fun _ => within_pure temporary

theorem install_within (temporary : Place) (path : PathName) :
    Within Evolves (install temporary path) := by
  refine ((interrupt_within .replace).bind fun _ h => ?_).orElse fun e =>
    (removeFile_within temporary).bind fun _ => within_fail e
  unfold onDisk
  split
  · rename_i disk hdisk
    refine evolves_of_disk fun hd => ?_
    dsimp only at hdisk
    split at hdisk
    · cases hdisk
    · split at hdisk <;> cases hdisk
      exact Disk.sound_rename temporary _ hd
  · exact Std.Refl.refl h

end Coffer.Host

namespace Coffer.Seat

open Coffer.Action (Within)

variable {β α : Type}

def Evolves (s s' : Seat β) : Prop := Host.Evolves s.host s'.host

instance : IsPreorder (Seat β) Evolves where
  refl s := Std.Refl.refl (r := Host.Evolves) s.host
  trans _ _ _ hab hbc := IsTrans.trans (r := Host.Evolves) _ _ _ hab hbc

theorem onHost_within {x : Action Host α} (hx : Within Host.Evolves x) :
    Within Evolves (onHost x : Action (Seat β) α) := fun s => hx s.host

theorem setStore_within (b : β) : Within Evolves (setStore b) :=
  fun s => Std.Refl.refl (r := Host.Evolves) s.host

theorem current_within : Within Evolves (current : Action (Seat β) β) := Action.within_reading _

end Coffer.Seat
