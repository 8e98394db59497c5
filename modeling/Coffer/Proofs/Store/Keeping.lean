import Coffer.Proofs.Store.Backend

-- A store, open or closed, that comes to hold no text but those that are written to it. What is
-- read of a store, and whether a write of it succeeds, does not matter here.

namespace Coffer

structure Keeping (σ : Type) [RecordStore σ] where
  sound : σ → Prop
  view : σ → Entries String String
  get_eq : ∀ s key, sound s → (RecordStore.get key s).2 = s
  put_view : ∀ s batch, sound s → sound (RecordStore.put batch s).2 ∧
    ∀ e ∈ view (RecordStore.put batch s).2, e ∈ view s ∨ e ∈ batch
  erase_view : ∀ s key, sound s → sound (RecordStore.erase key s).2 ∧
    view (RecordStore.erase key s).2 ⊆ view s
  close_view : ∀ s, sound s → sound (RecordStore.close s).2 ∧ view (RecordStore.close s).2 ⊆ view s
  draw_eq : ∀ s, sound s → ∃ n t, RecordStore.draw s = (.ok n, t) ∧ sound t ∧ view t ⊆ view s
  note_view : ∀ s notice, sound s → sound (RecordStore.note notice s).2 ∧
    view (RecordStore.note notice s).2 ⊆ view s

theorem Ends.mem_or_mem {ρ : Type} {refusal late : Failure → Prop} {old new seen : List ρ}
    {r : Except Failure Unit} (h : Ends refusal late old new r seen) {e : ρ} (he : e ∈ seen) :
    e ∈ old ∨ e ∈ new := by
  cases h with
  | made => exact .inr he
  | refused _ _ => exact .inl he
  | reported _ _ => exact .inr he

namespace Storage

variable {σ : Type} [RecordStore σ] {storage : Storage} {s : σ} {key : String}

theorem getText_state (h : (RecordStore.get key s).2 = s) : (storage.getText key s).2 = s := by
  rw [getText, Action.bind_apply]
  split <;> rw [‹RecordStore.get key s = _›] at h <;> exact h

theorem get_state (h : (RecordStore.get key s).2 = s) (schema : Json.Schema) :
    (storage.get key schema s).2 = s := by
  have htext : (storage.getText key s).2 = s := getText_state h
  rw [get, Action.bind_apply]
  split <;> rw [‹storage.getText key s = _›] at htext <;> exact htext

end Storage

namespace Backend

variable {s : Seat Backend}

def IsClosed (s : Seat Backend) : Prop := ∃ d, s.store = .database d ∧ d.file = none

-- Whatever is asked of a closed database fails at the connection.
theorem put_of_isClosed (h : IsClosed s) (batch : Entries String String) : (put batch s).2 = s := by
  obtain ⟨host, store⟩ := s
  obtain ⟨⟨path, file, compiled⟩, rfl, rfl⟩ := h
  rfl

theorem get_of_isClosed (h : IsClosed s) (key : String) : (get key s).2 = s := by
  obtain ⟨host, store⟩ := s
  obtain ⟨⟨path, file, compiled⟩, rfl, rfl⟩ := h
  rfl

theorem erase_of_isClosed (h : IsClosed s) (key : String) : (erase key s).2 = s := by
  obtain ⟨host, store⟩ := s
  obtain ⟨⟨path, file, compiled⟩, rfl, rfl⟩ := h
  rfl

theorem IsClosed.of_host (h : IsClosed s) (host : Host) :
    IsClosed { s with host } ∧ view { s with host } ⊆ view s := by
  obtain ⟨host', store⟩ := s
  obtain ⟨⟨path, file, compiled⟩, rfl, rfl⟩ := h
  exact ⟨⟨_, rfl, rfl⟩, fun e he => he⟩

theorem close_view (hs : Sound s ∨ IsClosed s) :
    (Sound (close s).2 ∨ IsClosed (close s).2) ∧ view (close s).2 ⊆ view s := by
  obtain ⟨host, store⟩ := s
  cases store with
  | memory m => exact ⟨hs, fun e he => he⟩
  | document d => exact ⟨hs, fun e he => he⟩
  | database d => exact ⟨.inr ⟨_, rfl, rfl⟩, List.nil_subset _⟩
  | log l =>
      obtain ⟨path, hl⟩ := hs.resolve_right fun ⟨_, h, _⟩ => nomatch h
      have hl' := LogStore.close_sane hl
      have hclose := LogStore.close_eq ⟨host, l⟩
      rw [hclose] at hl'
      have hclosed : close ⟨host, .log l⟩ = _ := Seat.focus_of_eq hclose
      rw [hclosed]
      exact ⟨.inl ⟨path, hl'⟩, fun e he => he⟩

theorem changed_view {host : Host} (hs : Sound s ∨ IsClosed s) (hdisk : host.disk = s.host.disk)
    (hk : s.host.Keeps host) :
    (Sound { s with host } ∨ IsClosed { s with host }) ∧ view { s with host } ⊆ view s := by
  rcases hs with hs | hs
  · obtain ⟨hsound, hview, -⟩ := same_of_host hs hdisk hk
    exact ⟨.inl hsound, hview ▸ List.Subset.refl _⟩
  · obtain ⟨hclosed, hview⟩ := hs.of_host host
    exact ⟨.inr hclosed, hview⟩

def keeping : Keeping (Seat Backend) where
  sound s := Sound s ∨ IsClosed s
  view := view
  get_eq s key hs := by
    rcases hs with hs | hs
    · exact congrArg Prod.snd (get_eq hs key)
    · exact get_of_isClosed hs key
  put_view s batch hs := by
    rcases hs with hs | hs
    · obtain ⟨r, t, hput, ht, hends⟩ := put_ends hs batch
      change (Sound (put batch s).2 ∨ _) ∧ ∀ e ∈ view (put batch s).2, _
      rw [hput]
      refine ⟨.inl ht, fun e he => ?_⟩
      exact (hends.mem_or_mem he).elim .inl Entries.mem_putAll
    · change (_ ∨ IsClosed (put batch s).2) ∧ ∀ e ∈ view (put batch s).2, _
      rw [put_of_isClosed hs]
      exact ⟨.inr hs, fun e he => .inl he⟩
  erase_view s key hs := by
    rcases hs with hs | hs
    · obtain ⟨r, t, herase, ht, hends⟩ := erase_ends hs key
      change (Sound (erase key s).2 ∨ _) ∧ view (erase key s).2 ⊆ _
      rw [herase]
      exact ⟨.inl ht, fun e he => (hends.mem_or_mem he).elim id List.mem_of_mem_filter⟩
    · change (_ ∨ IsClosed (erase key s).2) ∧ view (erase key s).2 ⊆ _
      rw [erase_of_isClosed hs]
      exact ⟨.inr hs, List.Subset.refl _⟩
  close_view _ hs := close_view hs
  draw_eq s hs := ⟨s.host.drawn + 1, { s with host := { s.host with drawn := s.host.drawn + 1 } }, rfl,
    changed_view hs rfl ⟨rfl, fun _ h => h⟩⟩
  note_view _ _ hs := changed_view hs rfl ⟨rfl, fun _ h => h⟩

end Backend

end Coffer
