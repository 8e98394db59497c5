import Coffer.Entries
import Mathlib.Data.List.Induction
import Mathlib.Data.List.Nodup

namespace Coffer.Entries

variable {α β : Type} [BEq α] [LawfulBEq α]

omit [LawfulBEq α] in
@[simp] theorem putAll_nil (es : Entries α β) : putAll es [] = es := rfl

omit [LawfulBEq α] in
@[simp] theorem putAll_cons (es : Entries α β) (k : α) (v : β) (new : Entries α β) :
    putAll es ((k, v) :: new) = putAll (put es k v) new := rfl

omit [LawfulBEq α] in
theorem putAll_append (es first second : Entries α β) :
    putAll es (first ++ second) = putAll (putAll es first) second := by
  simp [putAll]

omit [LawfulBEq α] in
@[simp] theorem eraseAll_nil (es : Entries α β) : eraseAll es [] = es := rfl

omit [LawfulBEq α] in
@[simp] theorem eraseAll_cons (es : Entries α β) (k : α) (ks : List α) :
    eraseAll es (k :: ks) = eraseAll (erase es k) ks := rfl

theorem get?_isSome_iff (es : Entries α β) (k : α) : (get? es k).isSome ↔ k ∈ keys es := by
  induction es with
  | nil => simp [get?, keys]
  | cons e rest ih =>
      obtain ⟨k', v⟩ := e
      by_cases hk : k' = k
      · subst hk
        simp [get?, keys]
      · simp only [get?, beq_iff_eq, hk, if_false, ih]
        simp [keys, Ne.symm hk]

theorem has_iff (es : Entries α β) (k : α) : has es k = true ↔ k ∈ keys es :=
  get?_isSome_iff es k

theorem get?_eq_none_iff (es : Entries α β) (k : α) : get? es k = none ↔ k ∉ keys es := by
  rw [← get?_isSome_iff, Option.not_isSome_iff_eq_none]

theorem keys_put_of_mem (es : Entries α β) (k : α) (v : β) (hk : k ∈ keys es) :
    keys (put es k v) = keys es := by
  induction es with
  | nil => simp [keys] at hk
  | cons e rest ih =>
      obtain ⟨k', v'⟩ := e
      by_cases he : k' = k
      · simp [put, keys, he]
      · have hr : k ∈ keys rest := by simpa [keys, Ne.symm he] using hk
        have ih := ih hr
        simp only [keys] at ih
        simp [put, keys, he, ih]

-- A key that is not there yet goes to the end.
theorem put_of_not_mem (es : Entries α β) (k : α) (v : β) (hk : k ∉ keys es) :
    put es k v = es ++ [(k, v)] := by
  induction es with
  | nil => rfl
  | cons e rest ih =>
      obtain ⟨k', v'⟩ := e
      have hk : ¬k = k' ∧ k ∉ keys rest := by simpa [keys] using hk
      simp [put, Ne.symm hk.1, ih hk.2]

theorem nodup_put (es : Entries α β) (k : α) (v : β) (hes : (keys es).Nodup) :
    (keys (put es k v)).Nodup := by
  by_cases hk : k ∈ keys es
  · rw [keys_put_of_mem es k v hk]
    exact hes
  · rw [put_of_not_mem es k v hk]
    have hd : ∀ j ∈ keys es, j ≠ k := fun j hj he => hk (he ▸ hj)
    simpa [keys, List.nodup_append] using ⟨hes, by simpa [keys] using hd⟩

theorem nodup_putAll (es new : Entries α β) (hes : (keys es).Nodup) :
    (keys (putAll es new)).Nodup := by
  induction new generalizing es with
  | nil => exact hes
  | cons e rest ih => exact ih _ (nodup_put es e.1 e.2 hes)

omit [LawfulBEq α] in
theorem nodup_erase (es : Entries α β) (k : α) (hes : (keys es).Nodup) :
    (keys (erase es k)).Nodup :=
  hes.sublist (List.filter_sublist.map _)

omit [LawfulBEq α] in
theorem nodup_eraseAll (es : Entries α β) (ks : List α) (hes : (keys es).Nodup) :
    (keys (eraseAll es ks)).Nodup := by
  induction ks generalizing es with
  | nil => exact hes
  | cons k rest ih => exact ih _ (nodup_erase es k hes)

theorem erase_of_not_mem (es : Entries α β) (k : α) (hk : k ∉ keys es) : erase es k = es := by
  apply List.filter_eq_self.mpr
  intro e he
  have hne : e.1 ≠ k := fun h => hk (h ▸ List.mem_map_of_mem he)
  simp [hne]

theorem mem_keys_putAll (es new : Entries α β) (k : α) :
    k ∈ keys (putAll es new) ↔ k ∈ keys es ∨ k ∈ keys new := by
  induction new generalizing es with
  | nil => simp [keys]
  | cons e rest ih =>
      have hnew : k ∈ keys (e :: rest) ↔ k = e.1 ∨ k ∈ keys rest := List.mem_cons
      rw [hnew, ← or_assoc, ← mem_keys_put es e.1 k e.2]
      exact ih _

theorem mem_keys_putAll_of_mem (es new : Entries α β) (k : α) (hk : k ∈ keys es) :
    k ∈ keys (putAll es new) :=
  (mem_keys_putAll es new k).mpr (.inl hk)

@[simp] theorem put_put_self (es : Entries α β) (k : α) (v w : β) :
    put (put es k w) k v = put es k v := by
  induction es with
  | nil => simp [put]
  | cons e rest ih =>
      obtain ⟨k', v'⟩ := e
      by_cases he : k' = k
      · simp [put, he]
      · simp [put, he, ih]

-- Writes under two keys commute once one of the keys has its place.
theorem put_comm_of_mem (es : Entries α β) (k j : α) (v u : β) (hk : k ∈ keys es) (hne : k ≠ j) :
    put (put es j u) k v = put (put es k v) j u := by
  induction es with
  | nil => simp [keys] at hk
  | cons e rest ih =>
      obtain ⟨k', v'⟩ := e
      by_cases hkk : k' = k
      · subst hkk
        simp [put, hne]
      · have hm : k ∈ keys rest := by simpa [keys, Ne.symm hkk] using hk
        by_cases hj : k' = j
        · simp [put, hj, Ne.symm hne]
        · simp [put, hkk, hj, ih hm]

-- Overwriting is the same before and after writes under other keys.
theorem put_putAll_of_not_mem (es new : Entries α β) (k : α) (v w : β) (hk : k ∉ keys new) :
    put (putAll (put es k w) new) k v = putAll (put es k v) new := by
  induction new using List.reverseRecOn with
  | nil => exact put_put_self es k v w
  | append_singleton rest e ih =>
      obtain ⟨j, u⟩ := e
      have hk : k ∉ keys rest ∧ ¬k = j := by simpa [keys] using hk
      have hmem : k ∈ keys (putAll (put es k w) rest) :=
        mem_keys_putAll_of_mem _ _ _ ((mem_keys_put es k k w).mpr (.inr rfl))
      simp only [putAll_append, putAll_cons, putAll_nil]
      rw [put_comm_of_mem _ _ _ _ _ hmem hk.2, ih hk.1]

theorem putAll_put (es new : Entries α β) (k : α) (v : β) (hnew : (keys new).Nodup) :
    putAll es (put new k v) = put (putAll es new) k v := by
  induction new generalizing es with
  | nil => rfl
  | cons e rest ih =>
      obtain ⟨k', v'⟩ := e
      have hnew : k' ∉ keys rest ∧ (keys rest).Nodup := by simpa [keys] using hnew
      by_cases he : k' = k
      · subst he
        simp only [put, beq_self_eq_true, if_true, putAll_cons]
        exact (put_putAll_of_not_mem es rest k' v v' hnew.1).symm
      · simp [put, he, ih _ hnew.2]

-- Merging pairs into nothing first makes no difference to what they do to a map.
theorem putAll_putAll_nil (es new : Entries α β) : putAll es (putAll [] new) = putAll es new := by
  induction new using List.reverseRecOn with
  | nil => rfl
  | append_singleton rest e ih =>
      obtain ⟨k, v⟩ := e
      simp only [putAll_append, putAll_cons, putAll_nil]
      rw [putAll_put _ _ _ _ (nodup_putAll [] rest List.nodup_nil), ih]

-- What was put last under a key counts.
theorem get?_putAll (es new : Entries α β) (k : α) :
    get? (putAll es new) k = (get? (putAll [] new) k).or (get? es k) := by
  induction new using List.reverseRecOn with
  | nil => rfl
  | append_singleton rest e ih =>
      obtain ⟨j, v⟩ := e
      simp only [putAll_append, putAll_cons, putAll_nil, get?_put]
      split
      · rfl
      · exact ih

theorem putAll_of_disjoint (es new : Entries α β) (hnew : (keys new).Nodup)
    (hd : ∀ k ∈ keys new, k ∉ keys es) : putAll es new = es ++ new := by
  induction new generalizing es with
  | nil => simp
  | cons e rest ih =>
      obtain ⟨k, v⟩ := e
      have hnew : k ∉ keys rest ∧ (keys rest).Nodup := by simpa [keys] using hnew
      rw [putAll_cons, put_of_not_mem es k v (hd k (by simp [keys])), ih _ hnew.2]
      · simp
      · intro j hj hm
        have hjs : j ∈ keys es ∨ j = k := by simpa [keys] using hm
        rcases hjs with hje | rfl
        · exact hd j (by simp only [keys, List.map_cons, List.mem_cons]; exact .inr hj) hje
        · exact hnew.1 hj

theorem putAll_nil_of_nodup (es : Entries α β) (hes : (keys es).Nodup) : putAll [] es = es := by
  simpa using putAll_of_disjoint [] es hes (by simp [keys])

omit [LawfulBEq α] in
theorem put_map {γ : Type} (f : β → γ) (es : Entries α β) (k : α) (v : β) :
    put (es.map fun e => (e.1, f e.2)) k (f v) = (put es k v).map fun e => (e.1, f e.2) := by
  induction es with
  | nil => rfl
  | cons e rest ih =>
      simp only [List.map_cons, put, ih]
      split <;> rfl

omit [LawfulBEq α] in
theorem putAll_map {γ : Type} (f : β → γ) (es new : Entries α β) :
    putAll (es.map fun e => (e.1, f e.2)) (new.map fun e => (e.1, f e.2)) =
      (putAll es new).map fun e => (e.1, f e.2) := by
  induction new generalizing es with
  | nil => rfl
  | cons e rest ih =>
      simp only [List.map_cons, putAll, List.foldl_cons, put_map]
      exact ih _

-- Nothing is in a map but what was there and what was written.
theorem mem_put {es : Entries α β} {k : α} {v : β} {e : α × β} (h : e ∈ put es k v) :
    e ∈ es ∨ e = (k, v) := by
  induction es with
  | nil => exact .inr (List.mem_singleton.mp h)
  | cons m rest ih =>
      obtain ⟨k', v'⟩ := m
      by_cases hk : k' = k
      · subst hk
        simp only [put, beq_self_eq_true, if_true, List.mem_cons] at h
        exact h.symm.imp (List.mem_cons_of_mem _) id
      · simp only [put, beq_iff_eq, hk, if_false, List.mem_cons] at h
        rcases h with rfl | h
        · exact .inl List.mem_cons_self
        · exact (ih h).imp (List.mem_cons_of_mem _) id

theorem mem_putAll {es new : Entries α β} {e : α × β} (h : e ∈ putAll es new) : e ∈ es ∨ e ∈ new := by
  induction new generalizing es with
  | nil => exact .inl h
  | cons m rest ih =>
      rcases ih h with h | h
      · rcases mem_put h with h | rfl
        · exact .inl h
        · exact .inr List.mem_cons_self
      · exact .inr (List.mem_cons_of_mem _ h)

theorem mem_of_get? {es : Entries α β} {k : α} {v : β} (h : get? es k = some v) : (k, v) ∈ es := by
  induction es with
  | nil => cases h
  | cons m rest ih =>
      obtain ⟨k', v'⟩ := m
      by_cases hk : k' = k
      · subst hk
        simp only [get?, beq_self_eq_true, if_true, Option.some.injEq] at h
        rw [h]
        exact List.mem_cons_self
      · simp only [get?, beq_iff_eq, hk, if_false] at h
        exact List.mem_cons_of_mem _ (ih h)

-- New keys only go to the end.
theorem keys_prefix_putAll (es new : Entries α β) : keys es <+: keys (putAll es new) := by
  induction new generalizing es with
  | nil => exact List.prefix_rfl
  | cons e rest ih =>
      obtain ⟨k, v⟩ := e
      rw [putAll_cons]
      refine List.IsPrefix.trans ?_ (ih _)
      by_cases hk : k ∈ keys es
      · exact (keys_put_of_mem es k v hk).symm ▸ List.prefix_rfl
      · rw [put_of_not_mem es k v hk]
        simp [keys]

theorem get?_of_mem {es : Entries α β} (hes : (keys es).Nodup) {e : α × β} (he : e ∈ es) :
    get? es e.1 = some e.2 := by
  induction es with
  | nil => cases he
  | cons m rest ih =>
      have hes : m.1 ∉ keys rest ∧ (keys rest).Nodup := by simpa [keys] using hes
      rcases List.mem_cons.mp he with rfl | he
      · simp [get?]
      · have hne : m.1 ≠ e.1 := fun h => hes.1 (h ▸ List.mem_map_of_mem he)
        simp [get?, hne, ih hes.2 he]

-- Maps with their keys in one order are equal if they hold the same values.
theorem eq_of_keys_eq {a b : Entries α β} (hb : (keys b).Nodup) (hkeys : keys a = keys b)
    (h : ∀ e ∈ a, get? b e.1 = some e.2) : a = b := by
  induction a generalizing b with
  | nil =>
      have hnil : b = [] := List.map_eq_nil_iff.mp hkeys.symm
      rw [hnil]
  | cons e a ih =>
      cases b with
      | nil => simp [keys] at hkeys
      | cons m b =>
          obtain ⟨hkey, htail⟩ := List.cons.inj hkeys
          have hb : m.1 ∉ keys b ∧ (keys b).Nodup := by simpa [keys] using hb
          have hhead := h e List.mem_cons_self
          have hvalue : m.2 = e.2 := by
            have hkey : m.1 = e.1 := hkey.symm
            simpa [get?, hkey] using hhead
          have hrest : a = b := by
            refine ih hb.2 htail fun e' he' => ?_
            have hne : m.1 ≠ e'.1 := by
              rintro hm
              have hmem : e'.1 ∈ keys b := by
                rw [← show keys a = keys b from htail]
                exact List.mem_map_of_mem he'
              exact hb.1 (hm ▸ hmem)
            have := h e' (List.mem_cons_of_mem _ he')
            simpa [get?, hne] using this
          rw [hrest, Prod.ext hkey hvalue.symm]

section SameMap

variable [BEq β] [LawfulBEq β]

omit [LawfulBEq α] in
theorem sameMap_iff (a b : Entries α β) :
    sameMap a b = true ↔ a.length = b.length ∧ ∀ e ∈ a, get? b e.1 = some e.2 := by
  simp only [sameMap, Bool.and_eq_true, beq_iff_eq, List.all_eq_true]

theorem sameMap_self {es : Entries α β} (hes : (keys es).Nodup) : sameMap es es = true :=
  (sameMap_iff es es).mpr ⟨rfl, fun _ he => get?_of_mem hes he⟩

-- Writes that leave the map the same leave it as it is.
theorem eq_of_sameMap_putAll {es new : Entries α β} (hes : (keys es).Nodup)
    (h : sameMap (putAll es new) es = true) : putAll es new = es := by
  obtain ⟨hlength, hget⟩ := (sameMap_iff _ _).mp h
  refine eq_of_keys_eq hes ?_ hget
  exact ((keys_prefix_putAll es new).eq_of_length (by simp [keys, hlength])).symm

omit [LawfulBEq α] in
theorem eq_of_sameMap_erase {es : Entries α β} {k : α} (h : sameMap (erase es k) es = true) :
    erase es k = es :=
  List.filter_sublist.eq_of_length ((sameMap_iff _ _).mp h).1

end SameMap

-- What is left when some keys are erased

theorem eraseAll_eq_filter (es : Entries α β) (ks : List α) :
    es.eraseAll ks = es.filter fun e => !ks.contains e.1 := by
  induction ks generalizing es with
  | nil => simp
  | cons k rest ih =>
      rw [eraseAll_cons, ih, erase, List.filter_filter]
      refine List.filter_congr fun e _ => ?_
      rw [List.contains_cons, Bool.not_or, Bool.and_comm]

theorem eraseAll_put (es : Entries α β) {k : α} {ks : List α} (hk : k ∈ ks) (v : β) :
    (es.put k v).eraseAll ks = es.eraseAll ks := by
  simp only [eraseAll_eq_filter]
  induction es with
  | nil => simp [put, hk]
  | cons e rest ih =>
      obtain ⟨k', v'⟩ := e
      rw [put]
      split
      · obtain rfl := eq_of_beq ‹(k' == k) = true›
        simp [hk]
      · rw [List.filter_cons, List.filter_cons, ih]

theorem eraseAll_putAll (es new : Entries α β) {ks : List α} (hnew : ∀ e ∈ new, e.1 ∈ ks) :
    (es.putAll new).eraseAll ks = es.eraseAll ks := by
  induction new generalizing es with
  | nil => rfl
  | cons e rest ih =>
      rw [putAll_cons, ih _ fun e he => hnew e (List.mem_cons_of_mem _ he)]
      exact eraseAll_put es (hnew e List.mem_cons_self) e.2

theorem eraseAll_erase (es : Entries α β) {k : α} {ks : List α} (hk : k ∈ ks) :
    (es.erase k).eraseAll ks = es.eraseAll ks := by
  rw [eraseAll_eq_filter, eraseAll_eq_filter, erase, List.filter_filter]
  refine List.filter_congr fun e _ => ?_
  by_cases he : e.1 = k
  · simp [he, hk]
  · simp [he]

theorem eraseAll_eraseAll (es : Entries α β) {ks js : List α} (h : ks ⊆ js) :
    (es.eraseAll ks).eraseAll js = es.eraseAll js := by
  induction ks generalizing es with
  | nil => rfl
  | cons k rest ih =>
      obtain ⟨hk, hrest⟩ := List.cons_subset.mp h
      rw [eraseAll_cons, ih _ hrest, eraseAll_erase es hk]

theorem get?_eraseAll (es : Entries α β) {k : α} {ks : List α} (hk : k ∉ ks) :
    (es.eraseAll ks).get? k = es.get? k := by
  induction ks generalizing es with
  | nil => rfl
  | cons j rest ih =>
      have hj : k ≠ j := List.ne_of_not_mem_cons hk
      rw [eraseAll_cons, ih _ (List.not_mem_of_not_mem_cons hk), get?_erase,
        if_neg (by simpa using hj.symm)]

end Coffer.Entries
