import Coffer.Proofs.Store.Keeping

-- A store, open or closed, of which a write is made as a whole or not at all, whatever is answered
-- to it. What is written under some keys leaves the records under all other keys as they are.

namespace Coffer

open Coffer.Action (Within)

-- Whatever is answered, what there was before is still there or what was to be written is.
theorem Ends.seen_eq {ρ : Type} {refusal late : Failure → Prop} {old new seen : ρ}
    {r : Except Failure Unit} (h : Ends refusal late old new r seen) : seen = old ∨ seen = new := by
  cases h with
  | made => exact .inr rfl
  | refused _ _ => exact .inl rfl
  | reported _ _ => exact .inr rfl

structure Atomic (σ : Type) [RecordStore σ] where
  sound : σ → Prop
  view : σ → Entries String String
  get_eq : ∀ s key, sound s → (RecordStore.get key s).2 = s
  put_view : ∀ s batch, sound s → sound (RecordStore.put batch s).2 ∧
    (view (RecordStore.put batch s).2 = view s ∨
      view (RecordStore.put batch s).2 = (view s).putAll batch)
  erase_view : ∀ s key, sound s → sound (RecordStore.erase key s).2 ∧
    (view (RecordStore.erase key s).2 = view s ∨
      view (RecordStore.erase key s).2 = (view s).erase key)
  draw_view : ∀ s, sound s → sound (RecordStore.draw s).2 ∧ view (RecordStore.draw s).2 = view s

namespace Atomic

variable {σ α : Type} [RecordStore σ] {A : Atomic σ} {keys keys' : List String} {s t : σ}

-- The records under other keys are the same texts in the same order.
def TouchesOnly (A : Atomic σ) (keys : List String) (s t : σ) : Prop :=
  A.sound s → A.sound t ∧ (A.view t).eraseAll keys = (A.view s).eraseAll keys

instance : IsPreorder σ (A.TouchesOnly keys) where
  refl _ hs := ⟨hs, rfl⟩
  trans _ _ _ hab hbc hs := by
    obtain ⟨hb, hview⟩ := hab hs
    obtain ⟨hc, hview'⟩ := hbc hb
    exact ⟨hc, hview'.trans hview⟩

theorem TouchesOnly.get? (h : A.TouchesOnly keys s t) (hs : A.sound s) {key : String}
    (hkey : key ∉ keys) : (A.view t).get? key = (A.view s).get? key := by
  rw [← Entries.get?_eraseAll _ hkey, (h hs).2, Entries.get?_eraseAll _ hkey]

theorem TouchesOnly.mono (h : A.TouchesOnly keys s t) (hsub : keys ⊆ keys') : A.TouchesOnly keys' s t := by
  refine fun hs => ⟨(h hs).1, ?_⟩
  rw [← Entries.eraseAll_eraseAll _ hsub, (h hs).2, Entries.eraseAll_eraseAll _ hsub]

theorem put_touchesOnly {batch : Entries String String} (hbatch : ∀ e ∈ batch, e.1 ∈ keys) :
    Within (A.TouchesOnly keys) (RecordStore.put batch) := by
  intro s hs
  obtain ⟨ht, hview | hview⟩ := A.put_view s batch hs
  · exact ⟨ht, by rw [hview]⟩
  · exact ⟨ht, by rw [hview, Entries.eraseAll_putAll _ _ hbatch]⟩

theorem erase_touchesOnly {key : String} (hkey : key ∈ keys) :
    Within (A.TouchesOnly keys) (RecordStore.erase key) := by
  intro s hs
  obtain ⟨ht, hview | hview⟩ := A.erase_view s key hs
  · exact ⟨ht, by rw [hview]⟩
  · exact ⟨ht, by rw [hview, Entries.eraseAll_erase _ hkey]⟩

theorem draw_touchesOnly : Within (A.TouchesOnly keys) (RecordStore.draw : Action σ Nat) := by
  intro s hs
  obtain ⟨ht, hview⟩ := A.draw_view s hs
  exact ⟨ht, by rw [hview]⟩

end Atomic

namespace Storage

variable {σ : Type} [RecordStore σ] {A : Atomic σ} {keys : List String} {storage : Storage}

theorem protect_touchesOnly (storage : Storage) (key text : String) :
    Within (A.TouchesOnly keys) (storage.protect key text) := by
  obtain ⟨key?⟩ := storage
  cases key? with
  | none => exact Action.within_pure text
  | some k => exact Atomic.draw_touchesOnly.bind fun n => Action.within_pure _

theorem protectAll_touchesOnly (storage : Storage) (records : Entries String Value) :
    Within (A.TouchesOnly keys) (storage.protectAll records) := by
  induction records with
  | nil => exact Action.within_pure []
  | cons r rest ih =>
      refine (Action.within_ofExcept _).bind fun text => ?_
      exact (protect_touchesOnly storage _ _).bind fun _ => ih.bind fun _ => Action.within_pure _

-- What is protected keeps its key.
theorem protectAll_keys {records : Entries String Value} {batch : Entries String String} {s t : σ}
    (h : storage.protectAll records s = (.ok batch, t)) : batch.keys = records.keys := by
  induction records generalizing batch s with
  | nil =>
      cases h
      rfl
  | cons r rest ih =>
      obtain ⟨text, s₁, -, h⟩ := Action.bind_eq_ok h
      obtain ⟨sealedText, s₂, -, h⟩ := Action.bind_eq_ok h
      obtain ⟨batch, s₃, hrest, h⟩ := Action.bind_eq_ok h
      cases h
      exact congrArg (r.1 :: ·) (ih hrest)

theorem setAll_touchesOnly (storage : Storage) {records : Entries String Value}
    (hrecords : records.keys ⊆ keys) : Within (A.TouchesOnly keys) (storage.setAll records) := by
  intro s
  have hprotect : A.TouchesOnly keys s (storage.protectAll records s).2 :=
    protectAll_touchesOnly storage records s
  rw [setAll, Action.bind_apply]
  split <;> rw [‹storage.protectAll records s = _›] at hprotect
  · refine IsTrans.trans _ _ _ hprotect (Atomic.put_touchesOnly (fun e he => hrecords ?_) _)
    rw [← protectAll_keys ‹storage.protectAll records s = _›]
    exact List.mem_map_of_mem he
  · exact hprotect

theorem set_touchesOnly (storage : Storage) {key : String} (hkey : key ∈ keys) (v : Value) :
    Within (A.TouchesOnly keys) (storage.set key v) := by
  rw [Reliable.set_eq_setAll]
  exact setAll_touchesOnly storage (by simpa [Entries.keys] using hkey)

end Storage

namespace Backend

variable {s : Seat Backend}

theorem draw_eq (s : Seat Backend) :
    RecordStore.draw s =
      (.ok (s.host.drawn + 1), { s with host := { s.host with drawn := s.host.drawn + 1 } }) := rfl

def atomic : Atomic (Seat Backend) where
  sound s := Sound s ∨ IsClosed s
  view := view
  get_eq := keeping.get_eq
  put_view s batch hs := by
    rcases hs with hs | hs
    · obtain ⟨r, t, hput, ht, hends⟩ := put_ends hs batch
      change (Sound (put batch s).2 ∨ _) ∧ (view (put batch s).2 = _ ∨ view (put batch s).2 = _)
      rw [hput]
      exact ⟨.inl ht, hends.seen_eq⟩
    · change (_ ∨ IsClosed (put batch s).2) ∧ (view (put batch s).2 = _ ∨ _)
      rw [put_of_isClosed hs]
      exact ⟨.inr hs, .inl rfl⟩
  erase_view s key hs := by
    rcases hs with hs | hs
    · obtain ⟨r, t, herase, ht, hends⟩ := erase_ends hs key
      change (Sound (erase key s).2 ∨ _) ∧ (view (erase key s).2 = _ ∨ view (erase key s).2 = _)
      rw [herase]
      exact ⟨.inl ht, hends.seen_eq⟩
    · change (_ ∨ IsClosed (erase key s).2) ∧ (view (erase key s).2 = _ ∨ _)
      rw [erase_of_isClosed hs]
      exact ⟨.inr hs, .inl rfl⟩
  draw_view s hs := by
    rw [draw_eq]
    rcases hs with hs | hs
    · let host : Host := { s.host with drawn := s.host.drawn + 1 }
      have hdisk : host.disk = s.host.disk := rfl
      obtain ⟨ht, hview, -⟩ := same_of_host hs hdisk ⟨rfl, fun _ h => h⟩
      exact ⟨.inl ht, hview⟩
    · obtain ⟨host, store⟩ := s
      obtain ⟨⟨path, file, compiled⟩, rfl, rfl⟩ := hs
      exact ⟨.inr ⟨_, rfl, rfl⟩, rfl⟩

end Backend

end Coffer
