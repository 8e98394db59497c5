import Coffer.Proofs.Store.Calm
import Coffer.Proofs.Store.Sharing

-- A document that stores share, as one of them uses it that may have missed commits: it reads what it
-- has seen, and writes into what is there.

namespace Coffer.Sharing

open DocumentStore (Kept Follows)

variable {names : PathName → Prop} {place : Place} {h : Host} {d : DocumentStore}
  {document : Entries String String} {storage : Storage}

-- The document is there under all the names of its directory, and no call is planned to fail.
structure Common (names : PathName → Prop) (place : Place) (h : Host)
    (document : Entries String String) : Prop where
  calm : ∀ call, h.Spares call
  kept : ∀ directory, names directory → Kept h ⟨directory, document⟩ place

-- Nonces and notices leave the disk and the planned faults as they are.
theorem Common.of_disk {h' : Host} (hc : Common names place h document) (hdisk : h'.disk = h.disk)
    (hplans : h'.plans = h.plans) : Common names place h' document := by
  refine ⟨fun call => ?_, fun directory hname => (hc.kept directory hname).grown ?_⟩
  · have hcalm := hc.calm call
    unfold Host.Spares at hcalm ⊢
    rw [hplans]
    exact hcalm
  · rw [hdisk]
    exact Disk.Grown.refl _

theorem reads_seen (d : DocumentStore) (h : Host) (key : String) (schema : Json.Schema) :
    storage.get key schema (⟨h, .document d⟩ : Seat Backend) =
      (storage.read d.records key schema, ⟨h, .document d⟩) := by
  have hget : RecordStore.get key (⟨h, .document d⟩ : Seat Backend) =
      (MemoryStore.lookup d.records key, ⟨h, .document d⟩) := rfl
  exact Storage.get_of_lookup hget schema

-- The store as it was, over the same document.
structure Beside (names : PathName → Prop) (place : Place) (d : DocumentStore)
    (document : Entries String String) (s : Seat Backend) : Prop where
  store : s.store = .document d
  common : Common names place s.host document

theorem Beside.draws : Storage.Draws (Beside names place d document) := by
  intro s hs
  exact ⟨_, _, rfl, hs.store, hs.common.of_disk rfl rfl⟩

theorem Beside.noted {s : Seat Backend} (hs : Beside names place d document s) (notice : Notice) :
    ∃ t, RecordStore.note notice s = (.ok (), t) ∧ Beside names place d document t :=
  ⟨_, rfl, hs.store, hs.common.of_disk rfl rfl⟩

-- After a write the store has seen the document.
theorem Beside.put {s : Seat Backend} (hs : Beside names place d document s) (hname : names d.directory)
    (batch : Entries String String) :
    ∃ t, Backend.put batch s = (.ok (), t) ∧
      Beside names place ⟨d.directory, document.putAll batch⟩ (document.putAll batch) t := by
  obtain ⟨h, store⟩ := s
  obtain rfl : store = .document d := hs.store
  have hkept := hs.common.kept d.directory hname
  rcases DocumentStore.put_follows (s := ⟨h, d⟩) hkept batch with
    ⟨-, -, -, -, -, hspares⟩ | ⟨h', hput, hk, hfollows⟩
  · exact absurd hs.common.calm hspares
  · refine ⟨_, Seat.focus_of_eq hput, rfl, fun call => hk.spares call (hs.common.calm call), ?_⟩
    exact fun directory hdirectory => hfollows directory (hs.common.kept directory hdirectory)

theorem Beside.setAll {s : Seat Backend} (hs : Beside names place d document s) (storage : Storage)
    (hname : names d.directory) (records : Entries String Value)
    (hrecords : ∀ r ∈ records, ∃ text, Json.encode r.2 = .ok text)
    (hnodup : records.keys.Nodup) :
    ∃ t document', storage.setAll records s = (.ok (), t) ∧
      Beside names place ⟨d.directory, document'⟩ document' t ∧ storage.Wrote records document document' := by
  obtain ⟨plain, hplain⟩ := Storage.encodeAll_ok hrecords
  obtain ⟨s₁, hs₁, hprotect⟩ := Storage.protectAll_of_draws storage Beside.draws hs records
  rw [hplain] at hprotect
  obtain ⟨batch, hprotect, hbatch⟩ := hprotect
  obtain ⟨t, hput, ht⟩ := hs₁.put hname batch
  have hprotects := Storage.protects_of_holds hplain hbatch
  exact ⟨t, _, (Action.bind_of_ok hprotect).trans hput, ht, hprotects.wrote hnodup⟩

-- A store that has seen the document is one that nothing goes wrong with.
theorem Common.calm_sound (hc : Common names place h document) {directory : PathName}
    (hname : names directory) :
    (Backend.calm True).sound ⟨h, .document ⟨directory, document⟩⟩ ∧
      (Backend.calm True).view ⟨h, .document ⟨directory, document⟩⟩ = document := by
  have hserves : Backend.Serves True ⟨h, .document ⟨directory, document⟩⟩ document :=
    .document ⟨_, ⟨rfl, hc.calm, place, hc.kept directory hname⟩, rfl⟩
  have hview := hserves.view_eq
  refine ⟨?_, hview⟩
  rw [← hview] at hserves
  exact hserves

-- The document of a directory that has been opened, under all of its names.
theorem common_of_openAt {h h₀ : Host} {directory : PathName} {d : DocumentStore} (hd : h.disk.Sound)
    (hcalm : ∀ call, h.Spares call) (hopen : DocumentStore.openAt directory h = (.ok d, h₀)) :
    ∃ place, Common (IsName h₀ directory) place h₀ d.records ∧ IsName h₀ directory directory := by
  obtain ⟨hdirectory, place, hkept⟩ := DocumentStore.openAt_eq_ok hd hopen
  have hevolves := DocumentStore.openAt_within directory h
  rw [hopen] at hevolves
  have hagain := DocumentStore.openAt_of_kept hkept
  rw [hdirectory] at hagain
  refine ⟨place, ⟨fun call => hevolves.spares call (hcalm call), fun other hother => ?_⟩,
    rfl, d, h₀, hagain⟩
  refine kept_of_isName (hevolves.sound hd) hkept ?_
  rw [hdirectory]
  exact hother

end Coffer.Sharing
