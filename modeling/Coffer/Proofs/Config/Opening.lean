import Coffer.Config.Opening
import Coffer.Proofs.Config.KeyFile
import Coffer.Proofs.Store.AtRest
import Coffer.Proofs.Wallet.Gate

-- A wallet that is not opened. Its key may be missing, its store may be shut, or the store may not
-- pass the gate; the store is left as it was found, and whoever could open it still can.

namespace Coffer

open Backend (AtRest Calm Opens Sound Stays)
open Coffer.Action (Within within_ofExcept within_pure within_reading)

-- The gate

section

variable {s t : Seat Backend} {storage : Storage} {e : Failure}

theorem Storage.set_eq_error (hs : Sound s) (hcalm : Calm s) {key : String} {v : Value}
    (hset : storage.set key v s = (.error e, t)) : Stays s t := by
  cases hencode : encode key v with
  | error e' =>
      have hfailed : storage.set key v s = (.error e', s) :=
        Action.bind_of_error (by rw [hencode]; rfl)
      cases hset.symm.trans hfailed
      exact .refl s
  | ok text =>
      have hdraws : Draws fun u : Seat Backend => Sound u ∧ Calm u ∧ Stays s u := by
        rintro u ⟨hu, hucalm, hstays⟩
        let host : Host := { u.host with drawn := u.host.drawn + 1 }
        have hsame := @Backend.same_of_host u host hu rfl ⟨rfl, fun _ h => h⟩
        exact ⟨u.host.drawn + 1, { u with host }, rfl, hsame.1, ⟨hucalm.spares, hucalm.noShort⟩,
          hstays.trans ⟨rfl, rfl, rfl⟩⟩
      obtain ⟨sealedText, u, hprotect, ⟨hu, hucalm, hstays⟩, -⟩ :=
        protect_of_draws storage hdraws ⟨hs, hcalm, .refl s⟩ key text
      have hput : storage.set key v s = Backend.put [(key, sealedText)] u := by
        refine (Action.bind_of_ok (a := text) (t := s) (by rw [hencode]; rfl)).trans ?_
        exact Action.bind_of_ok hprotect
      exact hstays.trans (Backend.put_eq_error hu hucalm (hput.symm.trans hset))

namespace Wallet.Session

theorem afterReading_eq_error (hs : Sound s) (hcalm : Calm s) (version : Value) (label : String)
    (r : Except Failure Value) (hfail : afterReading storage version label r s = (.error e, t)) :
    Stays s t := by
  unfold afterReading at hfail
  split at hfail
  · split at hfail <;> cases hfail
    exact ⟨rfl, rfl, rfl⟩
  · let notice : Notice :=
      ⟨.info, s!"Initializing {label} store with schema version " ++ version.asText⟩
    let host : Host := { s.host with notices := s.host.notices ++ [notice] }
    have hsame := @Backend.same_of_host s host hs rfl ⟨rfl, fun _ h => h⟩
    have hstays : Stays { s with host } t :=
      Storage.set_eq_error hsame.1 ⟨hcalm.spares, hcalm.noShort⟩ hfail
    exact ⟨hstays.disk, hstays.locks, hstays.lock⟩
  · cases hfail
    exact .refl s
  · cases hfail
    exact .refl s

-- Whatever the gate refuses a store for, nothing has been written to it.
theorem gate_eq_error (hs : Sound s) (hcalm : Calm s) (version : Int)
    (hgate : gate storage (.int version) s = (.error e, t)) : Stays s t := by
  by_cases hrange : 0 ≤ version ∧ version ≤ maxSchemaVersion
  · rw [gate_eq (B := Backend.reliable) hs storage hrange] at hgate
    exact afterReading_eq_error hs hcalm _ _ _ hgate
  · rw [gate_of_not_inRange storage hrange] at hgate
    cases hgate
    exact .refl s

end Wallet.Session

end

namespace Config

variable {env : Environment} {options : Options} {h h' t : Host} {e : Failure} {storage : Storage}
  {b : Backend} {path : PathName} {records : Entries String String}

-- The store that the options are about: where a path is needed, theirs is given and leads there.
def Options.Names (home : String) (options : Options) (path : PathName) : Prop :=
  options.backend = .memory ∨
    ∃ text, options.path = some text ∧ (PathName.ofText text).expandHome home = .ok path

theorem Options.Names.create_eq {home : String} (hnames : options.Names home path) :
    Backend.create home options.backend (Options.textOrNull options.path) =
      Backend.openAt path options.backend := by
  rcases hnames with hmemory | ⟨text, htext, hpath⟩
  · rw [hmemory]
    rfl
  · rw [htext]
    exact Backend.create_eq_openAt hpath options.backend

-- Reading a key leaves no trace, whatever the key file holds.
theorem readKey_within (home : String) (keyFile : Option String) :
    Within Eq (readKey home keyFile) := by
  have hread (name : PathName) : Within Eq (Host.readFile name) := by
    refine Within.bind (fun h => ?_) fun _ => within_reading _
    rw [Host.checkName_apply]
  have hload (text : String) : Within Eq (KeyFile.load home text) :=
    (within_ofExcept _).bind fun name => (hread name).bind fun content => within_ofExcept _
  unfold readKey
  split
  · exact (hload _).bind fun key => within_pure _
  · exact within_pure _

-- A store that is refused is closed again, and gives back the lock it held.

theorem passGate_of_gate_error {s : Seat Backend} {locks : List FileId} (hs : Sound ⟨t, b⟩)
    (hcalm : Calm ⟨t, b⟩) (hlocks : t.locks = b.lock?.toList ++ locks)
    (hgate : Wallet.Session.gate storage (.int Wallet.schemaVersion) (⟨t, b⟩ : Seat Backend) =
      (.error e, s)) :
    ∃ h', passGate storage b t = (.error e, h') ∧ h'.disk = t.disk ∧ h'.locks = locks := by
  have hstays := Wallet.Session.gate_eq_error hs hcalm _ hgate
  have hheld : s.host.locks = s.store.lock?.toList ++ locks := by
    rw [hstays.locks, hstays.lock, hlocks]
  obtain ⟨u, hclose, hdisk, hreleased⟩ := Backend.close_releases hheld
  refine ⟨u.host, ?_, hdisk.trans hstays.disk, hreleased⟩
  simp only [passGate, hgate, hclose]

theorem passGate_eq_error {locks : List FileId} (hs : Sound ⟨t, b⟩) (hcalm : Calm ⟨t, b⟩)
    (hlocks : t.locks = b.lock?.toList ++ locks) (hfail : passGate storage b t = (.error e, h')) :
    h'.disk = t.disk ∧ h'.locks = locks := by
  cases hgate : Wallet.Session.gate storage (.int Wallet.schemaVersion) (⟨t, b⟩ : Seat Backend) with
  | mk r s =>
      cases r with
      | ok u =>
          rw [passGate, hgate] at hfail
          cases hfail
      | error e' =>
          obtain ⟨u, hpass, hdisk, hreleased⟩ := passGate_of_gate_error hs hcalm hlocks hgate
          cases hfail.symm.trans hpass
          exact ⟨hdisk, hreleased⟩

-- It is the key, the store or the gate that a wallet is not opened for.
theorem openWallet_eq_error (hfail : openWallet env (some options) h = (.error e, h')) :
    h' = h ∨
    Backend.create env.home options.backend (Options.textOrNull options.path) h = (.error e, h') ∨
    ∃ storage b t,
      Backend.create env.home options.backend (Options.textOrNull options.path) h = (.ok b, t) ∧
      passGate storage b t = (.error e, h') := by
  obtain hoptions | ⟨_, h₁, hoptions, hfail⟩ := Action.bind_eq_error hfail
  · cases hoptions
  cases hoptions
  have hstate := readKey_within env.home options.keyFile h
  obtain hkey | ⟨storage, h₁, hkey, hfail⟩ := Action.bind_eq_error hfail
  · rw [hkey] at hstate
    exact .inl hstate.symm
  rw [hkey] at hstate
  obtain rfl : h = h₁ := hstate
  obtain hcreate | ⟨b, t, hcreate, hfail⟩ := Action.bind_eq_error hfail
  · exact .inr (.inl hcreate)
  obtain hpass | ⟨b', u, -, hfail⟩ := Action.bind_eq_error hfail
  · exact .inr (.inr ⟨storage, b, t, hcreate, hpass⟩)
  · cases hfail

-- A store that can be opened, but is of another version, is refused.
theorem openWallet_of_other_version {found : Value} (hd : h.disk.Sound)
    (hcalm : ∀ call, h.Spares call) (hnames : options.Names env.home path)
    (hrest : AtRest h options.backend path records)
    (hkey : readKey env.home options.keyFile h = (.ok storage, h))
    (hopen : Backend.openAt path options.backend h = (.ok b, t))
    (hread : storage.read records Wallet.versionKey .any = .ok found)
    (hother : found ≠ .int Wallet.schemaVersion) :
    ∃ h', openWallet env (some options) h =
      (.error (.schemaVersion found (.int Wallet.schemaVersion)), h') := by
  have hopens := Backend.opens_of_openAt hd hrest hopen
  rw [← hopens.view] at hread
  obtain ⟨s, hgate, -⟩ :=
    Wallet.Session.gate_of_other (B := Backend.reliable) hopens.sound (by decide) hread hother
  obtain ⟨h', hpass, -⟩ :=
    passGate_of_gate_error hopens.sound (hopens.calm hcalm) hopens.locks hgate
  refine ⟨h', (Action.bind_of_ok rfl).trans ((Action.bind_of_ok hkey).trans ?_)⟩
  rw [hnames.create_eq]
  exact (Action.bind_of_ok hopen).trans (Action.bind_of_error hpass)

-- A wallet that is not opened leaves its store with the records it had, and the locks with those
-- who held them. If the store could be opened before, it can be opened again.
theorem failed_opening_leaves_store (hd : h.disk.Sound) (hcalm : ∀ call, h.Spares call)
    (hnames : options.Names env.home path) (hrest : AtRest h options.backend path records)
    (hfail : openWallet env (some options) h = (.error e, h')) :
    AtRest h' options.backend path records ∧ h'.locks = h.locks ∧
    ((∃ b t, Backend.create env.home options.backend (Options.textOrNull options.path) h =
        (.ok b, t)) →
      ∃ b t, Backend.create env.home options.backend (Options.textOrNull options.path) h' =
          (.ok b, t) ∧ Backend.view ⟨t, b⟩ = records) := by
  have hcases := openWallet_eq_error hfail
  rw [hnames.create_eq] at hcases ⊢
  rcases hcases with rfl | hopen | ⟨storage, b, t, hopen, hpass⟩
  · refine ⟨hrest, rfl, ?_⟩
    rintro ⟨b, t, hopen⟩
    exact ⟨b, t, hopen, (Backend.opens_of_openAt hd hrest hopen).view⟩
  · obtain ⟨hrest', hlocks, -⟩ := Backend.atRest_of_openAt hd hrest hopen
    refine ⟨hrest', hlocks, ?_⟩
    rintro ⟨b, t, hok⟩
    cases hopen.symm.trans hok
  · have hopens := Backend.opens_of_openAt hd hrest hopen
    obtain ⟨hdisk, hlocks⟩ :=
      passGate_eq_error hopens.sound (hopens.calm hcalm) hopens.locks hpass
    have hrest' := hopens.rest.of_disk hdisk
    refine ⟨hrest', hlocks, fun _ => Backend.openAt_of_free ?_ hrest' ?_⟩
    · rw [hdisk]
      exact hopens.evolves.sound hd
    · exact hopens.free.of_same hdisk hlocks

-- A log of the next version.
theorem failed_opening_leaves_store_of_next_version :
    ∃ h h' records text options, Json.encode (.int 2) = .ok text ∧
      records = [(Wallet.versionKey, text)] ∧ h = Host.ofFile "w.log" (Commit.line ⟨records, []⟩) ∧
      options = ⟨.log, some "w.log", none⟩ ∧
      openWallet ⟨[]⟩ (some options) h = (.error (.schemaVersion (.int 2) (.int 1)), h') ∧
      AtRest h' .log ⟨.here, ["w.log"]⟩ records ∧ h'.locks = [] ∧
      ∃ b t, Backend.create (Environment.home ⟨[]⟩) .log (.text "w.log") h' = (.ok b, t) ∧
        Backend.view ⟨t, b⟩ = records := by
  obtain ⟨text, htext⟩ := Wallet.Session.encode_int 2
  let records : Entries String String := [(Wallet.versionKey, text)]
  obtain ⟨log, hlog, hdurable⟩ :
      ∃ log, log = Commit.line ⟨records, []⟩ ∧ Commit.Durable log records :=
    ⟨_, rfl, Commit.Durable.of_line (List.nodup_singleton _)⟩
  let h : Host := Host.ofFile "w.log" log
  let options : Options := ⟨.log, some "w.log", none⟩
  have hd : h.disk.Sound := Host.ofFile_sound "w.log" log
  have hnames : options.Names (Environment.home ⟨[]⟩) ⟨.here, ["w.log"]⟩ := .inr ⟨"w.log", rfl, rfl⟩
  have hrest : AtRest h .log ⟨.here, ["w.log"]⟩ records := .log _ log _ rfl rfl hdurable.2
  obtain ⟨b, t, hopen, -⟩ :=
    Backend.openAt_of_free hd hrest ⟨_, _, _, rfl, rfl, List.not_mem_nil⟩
  have hread : Storage.read ⟨none⟩ records Wallet.versionKey .any = .ok (.int 2) :=
    Storage.read_of_protected rfl rfl (by rw [Storage.encode, htext]; rfl)
      (Wallet.Session.fits_version (by decide))
  obtain ⟨h', hfail⟩ : ∃ h', openWallet ⟨[]⟩ (some options) h =
      (.error (.schemaVersion (.int 2) (.int 1)), h') :=
    openWallet_of_other_version hd Host.empty_spares hnames hrest rfl hopen hread (by rintro ⟨⟩)
  obtain ⟨hrest', hlocks, hagain⟩ :=
    failed_opening_leaves_store hd Host.empty_spares hnames hrest hfail
  have hcreate := (congrFun hnames.create_eq h).trans hopen
  exact ⟨h, h', records, text, options, htext, rfl, by rw [← hlog], rfl, hfail, hrest', hlocks,
    hagain ⟨b, t, hcreate⟩⟩

end Config

end Coffer
