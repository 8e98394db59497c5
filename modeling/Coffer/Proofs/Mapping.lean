import Coffer.Proofs.Key

-- Mappings as lists of entries, no two of which have the same key.

namespace Coffer.Entries

open Value (IsKey)

variable {β : Type} {es : Entries Value β} {k j : Value} {v : β}

-- No two keys of a mapping are the same.
structure Distinct (es : Entries Value β) : Prop where
  keys : ∀ e ∈ es, e.1.IsKey
  apart : es.Pairwise fun e f => e.1.same f.1 = false

theorem Distinct.nil : Distinct ([] : Entries Value β) := ⟨nofun, .nil⟩

theorem get?_cons (e : Value × β) (rest : Entries Value β) (k : Value) :
    get? (e :: rest) k = if e.1.same k then some e.2 else get? rest k := rfl

theorem put_cons (e : Value × β) (rest : Entries Value β) (k : Value) (v : β) :
    put (e :: rest) k v = if e.1.same k then (e.1, v) :: rest else e :: put rest k v := rfl

theorem get?_eq_none (h : ∀ e ∈ es, e.1.same k = false) : get? es k = none := by
  induction es with
  | nil => rfl
  | cons e rest ih =>
      obtain ⟨he, hrest⟩ := List.forall_mem_cons.mp h
      rw [get?_cons, he, if_neg Bool.false_ne_true, ih hrest]

theorem get?_congr (hes : ∀ e ∈ es, e.1.IsKey) (hk : k.IsKey) (h : k.same j = true) :
    get? es k = get? es j := by
  induction es with
  | nil => rfl
  | cons e rest ih =>
      obtain ⟨he, hrest⟩ := List.forall_mem_cons.mp hes
      rw [get?_cons, get?_cons, Value.same_congr hk h he, ih hrest]

theorem get?_put_of_keys (hes : ∀ e ∈ es, e.1.IsKey) (hk : k.IsKey) :
    get? (put es k v) j = if k.same j then some v else get? es j := by
  induction es with
  | nil => rfl
  | cons e rest ih =>
      obtain ⟨he, hrest⟩ := List.forall_mem_cons.mp hes
      rw [put_cons, get?_cons]
      split
      · next hsame =>
        have hkey : e.1.same j = k.same j := by
          rw [Bool.eq_iff_iff, Value.same_iff e.1 j he, Value.same_iff k j hk, Value.HaveForm,
            Value.HaveForm, ((Value.same_iff e.1 k he).mp hsame).1]
        rw [get?_cons, hkey]
        split <;> rfl
      · next hother =>
        rw [get?_cons, ih hrest]
        split
        · next hj =>
          rw [if_neg]
          exact fun hkj => hother (Value.same_of_same he hk hj hkj)
        · rfl

-- An entry after a write has a key from before or the new one, and so with its value.
theorem mem_put_parts {e : Value × β} (he : e ∈ put es k v) :
    ((∃ f ∈ es, f.1 = e.1) ∨ e.1 = k) ∧ (e ∈ es ∨ e.2 = v) := by
  induction es with
  | nil =>
      rw [List.mem_singleton.mp he]
      exact ⟨.inr rfl, .inr rfl⟩
  | cons f rest ih =>
      rw [put_cons] at he
      split at he
      · rcases List.mem_cons.mp he with rfl | he
        · exact ⟨.inl ⟨f, List.mem_cons_self, rfl⟩, .inr rfl⟩
        · exact ⟨.inl ⟨e, List.mem_cons_of_mem _ he, rfl⟩, .inl (List.mem_cons_of_mem _ he)⟩
      · rcases List.mem_cons.mp he with rfl | he
        · exact ⟨.inl ⟨e, List.mem_cons_self, rfl⟩, .inl List.mem_cons_self⟩
        · obtain ⟨hkey, hvalue⟩ := ih he
          exact ⟨hkey.imp_left fun ⟨f, hf, heq⟩ => ⟨f, List.mem_cons_of_mem _ hf, heq⟩,
            hvalue.imp_left (List.mem_cons_of_mem _)⟩

theorem keys_put (hes : ∀ e ∈ es, e.1.IsKey) (hk : k.IsKey) : ∀ e ∈ put es k v, e.1.IsKey := by
  intro e he
  rcases (mem_put_parts he).1 with ⟨f, hf, heq⟩ | heq
  · exact heq ▸ hes f hf
  · exact heq ▸ hk

theorem Distinct.put (hes : Distinct es) (hk : k.IsKey) : Distinct (es.put k v) := by
  refine ⟨keys_put hes.keys hk, ?_⟩
  obtain ⟨hkeys, hapart⟩ := hes
  induction es with
  | nil => exact List.pairwise_singleton _ _
  | cons e rest ih =>
      obtain ⟨he, hrest⟩ := List.pairwise_cons.mp hapart
      rw [put_cons]
      split
      · exact List.pairwise_cons.mpr ⟨he, hrest⟩
      · next hother =>
        refine List.pairwise_cons.mpr ⟨fun f hf => ?_, ih (List.forall_mem_cons.mp hkeys).2 hrest⟩
        rcases (mem_put_parts hf).1 with ⟨g, hg, heq⟩ | heq
        · exact heq ▸ he g hg
        · rw [heq]
          simpa using hother

theorem Distinct.putAll {new : Entries Value β} (hes : Distinct es) (hnew : ∀ e ∈ new, e.1.IsKey) :
    Distinct (es.putAll new) := by
  induction new generalizing es with
  | nil => exact hes
  | cons e rest ih =>
      obtain ⟨he, hrest⟩ := List.forall_mem_cons.mp hnew
      exact ih (hes.put he) hrest

theorem value_of_mem_putAll {new : Entries Value β} {e : Value × β} (he : e ∈ es.putAll new) :
    e ∈ es ∨ ∃ f ∈ new, e.2 = f.2 := by
  induction new generalizing es with
  | nil => exact .inl he
  | cons f rest ih =>
      rcases ih he with he | ⟨g, hg, heq⟩
      · exact (mem_put_parts he).2.imp_right fun heq => ⟨f, List.mem_cons_self, heq⟩
      · exact .inr ⟨g, List.mem_cons_of_mem _ hg, heq⟩

theorem distinct_iff_keys :
    Distinct es ↔ (∀ k ∈ es.keys, k.IsKey) ∧ es.keys.Pairwise fun k j => k.same j = false := by
  rw [keys, List.forall_mem_map, List.pairwise_map]
  exact ⟨fun h => ⟨h.keys, h.apart⟩, fun h => ⟨h.1, h.2⟩⟩

theorem Distinct.of_keys {γ : Type} {others : Entries Value γ} (hes : Distinct es)
    (h : others.keys = es.keys) : Distinct others := by
  rw [distinct_iff_keys, h]
  exact distinct_iff_keys.mp hes

-- Texts are told apart as keys just as they are as texts.
theorem get?_texts (members : Entries String β) (name : String) :
    get? (members.map fun e => (Value.text e.1, e.2)) (.text name) = get? members name := by
  induction members with
  | nil => rfl
  | cons e rest ih =>
      rw [List.map_cons, get?_cons, ih, get?, Value.text_same]

theorem Distinct.of_texts {members : Entries String β} (h : members.keys.Nodup) :
    Distinct (members.map fun e => (Value.text e.1, e.2)) := by
  refine ⟨List.forall_mem_map.mpr fun _ _ => rfl, List.pairwise_map.mpr ?_⟩
  · refine (List.pairwise_map.mp h).imp fun hne => ?_
    rw [Value.text_same]
    exact beq_false_of_ne hne

theorem Distinct.tail {e : Value × β} (h : Distinct (e :: es)) : Distinct es :=
  ⟨(List.forall_mem_cons.mp h.keys).2, (List.pairwise_cons.mp h.apart).2⟩

-- The first entry of a mapping is the only one with its key.
theorem Distinct.get?_tail {e : Value × β} (h : Distinct (e :: es)) (hj : e.1.same j = true) :
    get? es j = none := by
  refine get?_eq_none fun f hf => ?_
  have hkey := (List.forall_mem_cons.mp h.keys).1
  have hother := h.keys f (List.mem_cons_of_mem _ hf)
  by_contra hsame
  have hboth := Value.same_of_same hkey hother hj (by simpa using hsame)
  rw [(List.pairwise_cons.mp h.apart).1 f hf] at hboth
  cases hboth

theorem Distinct.get?_of_mem {e : Value × β} (hes : Distinct es) (he : e ∈ es)
    (hfound : e.1.same e.1 = true) : get? es e.1 = some e.2 := by
  induction es with
  | nil => cases he
  | cons f rest ih =>
      rw [get?_cons]
      rcases List.mem_cons.mp he with rfl | he
      · rw [if_pos hfound]
      · rw [if_neg (by simp [(List.pairwise_cons.mp hes.apart).1 e he]), ih hes.tail he]

theorem get?_append (first second : Entries Value β) :
    get? (first ++ second) k = (get? first k).or (get? second k) := by
  induction first with
  | nil => rfl
  | cons e rest ih =>
      rw [List.cons_append, get?_cons, get?_cons, ih]
      split <;> rfl

-- A new key goes to the end.
theorem put_of_get?_none (h : get? es k = none) : put es k v = es ++ [(k, v)] := by
  induction es with
  | nil => rfl
  | cons e rest ih =>
      rw [get?_cons] at h
      rw [put_cons]
      split at h
      · cases h
      · next hother => rw [if_neg hother, ih h, List.cons_append]

end Coffer.Entries
