-- Maps as lists of pairs in the order of first insertion. Writing a key that is
-- present keeps its place; a key that is erased and written again moves to the end.

namespace Coffer

abbrev Entries (α β : Type) := List (α × β)

namespace Entries

variable {α β : Type} [BEq α]

def get? (es : Entries α β) (k : α) : Option β :=
  match es with
  | [] => none
  | (k', v) :: rest => if k' == k then some v else get? rest k

def put (es : Entries α β) (k : α) (v : β) : Entries α β :=
  match es with
  | [] => [(k, v)]
  | (k', v') :: rest => if k' == k then (k', v) :: rest else (k', v') :: put rest k v

def erase (es : Entries α β) (k : α) : Entries α β := es.filter fun e => !(e.1 == k)

def putAll (es new : Entries α β) : Entries α β := new.foldl (fun es e => put es e.1 e.2) es

def eraseAll (es : Entries α β) (ks : List α) : Entries α β := ks.foldl erase es

omit [BEq α] in
def keys (es : Entries α β) : List α := es.map (·.1)

def has (es : Entries α β) (k : α) : Bool := (get? es k).isSome

-- Equal as maps, whatever the order.
def sameMap [BEq β] (a b : Entries α β) : Bool :=
  a.length == b.length && a.all fun e => get? b e.1 == some e.2

section Lemmas

variable [LawfulBEq α]

theorem get?_put (es : Entries α β) (k j : α) (v : β) :
    get? (put es k v) j = if k == j then some v else get? es j := by
  induction es with
  | nil => simp [put, get?]
  | cons e rest ih =>
      obtain ⟨k', v'⟩ := e
      by_cases hk : k' == k
      · have he : k' = k := eq_of_beq hk
        subst he
        by_cases hj : k' == j <;> simp [put, get?, hj]
      · by_cases hj : k' == j
        · have he : k' = j := eq_of_beq hj
          subst he
          have hn : (k == k') = false := by
            rw [beq_eq_false_iff_ne]
            intro h
            simp [h] at hk
          simp [put, get?, hk, hn]
        · simp [put, get?, hk, hj, ih]

theorem get?_erase (es : Entries α β) (k j : α) :
    get? (erase es k) j = if k == j then none else get? es j := by
  induction es with
  | nil => simp [erase, get?]
  | cons e rest ih =>
      obtain ⟨k', v'⟩ := e
      by_cases hk : k' = k
      · subst hk
        have hskip : erase ((k', v') :: rest) k' = erase rest k' := by simp [erase]
        rw [hskip, ih]
        by_cases hj : k' = j <;> simp [get?, hj]
      · have hkeep : erase ((k', v') :: rest) k = (k', v') :: erase rest k := by simp [erase, hk]
        rw [hkeep]
        by_cases hj : k' = j
        · subst hj
          simp [get?, Ne.symm hk]
        · simp [get?, hj, ih]

theorem mem_keys_put (es : Entries α β) (k j : α) (v : β) :
    j ∈ keys (put es k v) ↔ j ∈ keys es ∨ j = k := by
  induction es with
  | nil => simp [put, keys]
  | cons e rest ih =>
      obtain ⟨k', v'⟩ := e
      by_cases hk : k' = k
      · subst hk
        simp only [put, keys, beq_self_eq_true, if_true, List.map_cons, List.mem_cons]
        grind
      · simp only [keys] at ih
        simp only [put, keys, beq_iff_eq, hk, if_false, List.map_cons, List.mem_cons, ih]
        grind

end Lemmas

end Entries

end Coffer
