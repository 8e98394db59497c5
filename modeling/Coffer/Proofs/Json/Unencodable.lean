import Coffer.Proofs.Json.Conforms
import Coffer.Proofs.Json.Nesting

-- What cannot be written: a value that holds a foreign one, however deep that may be. The failure is
-- that of a part, and depth is the reason only if the lists, mappings and records are nested too deep.

namespace Coffer.Json

def HoldsForeign (v : Value) : Prop := ∃ typeName shown, Occurs (.foreign typeName shown) v

variable {d : Nat} {error : EncodeError}

-- One part that fails is enough.

theorem itemsChars_of_error {items : List Value} {v : Value} (hv : v ∈ items)
    (h : ∃ error, valueChars d v = .error error) : ∃ error, itemsChars d items = .error error := by
  cases hitems : itemsChars d items with
  | error e => exact ⟨e, rfl⟩
  | ok texts =>
      obtain ⟨ps, rfl, -, hps⟩ := itemsChars_eq_ok d items texts hitems
      obtain ⟨p, hp, rfl⟩ := List.mem_map.mp hv
      obtain ⟨e, he⟩ := h
      cases he.symm.trans (hps p hp)

theorem entriesChars_of_error {entries : List (Value × Value)} {m : Value × Value}
    (hm : m ∈ entries) (h : ∃ error, valueChars d m.2 = .error error) :
    ∃ error, entriesChars d entries = .error error := by
  induction entries with
  | nil => cases hm
  | cons n entries ih =>
      obtain ⟨k, w⟩ := n
      rw [entriesChars]
      cases hk : keyChars k with
      | error e => exact ⟨e, rfl⟩
      | ok key =>
          cases hw : valueChars d w with
          | error e => exact ⟨e, rfl⟩
          | ok text =>
              rcases List.mem_cons.mp hm with rfl | hm
              · obtain ⟨e, he⟩ := h
                cases he.symm.trans hw
              · obtain ⟨e, he⟩ := ih hm
                rw [he]
                exact ⟨e, rfl⟩

-- A field that is left out is not looked at.
theorem fieldsChars_of_error (omitsNull : Bool) {fields : List (String × Value)} {f : String × Value}
    (hf : f ∈ fields) (hnull : f.2.isNull = false) (h : ∃ error, valueChars d f.2 = .error error) :
    ∃ error, fieldsChars d omitsNull fields = .error error := by
  cases hfields : fieldsChars d omitsNull fields with
  | error e => exact ⟨e, rfl⟩
  | ok chars =>
      obtain ⟨ws, hpairs, -, hws⟩ := fieldsChars_eq_ok d omitsNull fields chars hfields
      have hwritten : f ∈ pairs ws := by
        rw [hpairs, List.mem_filter, hnull, Bool.and_false]
        exact ⟨hf, rfl⟩
      obtain ⟨w, hw, rfl⟩ := List.mem_map.mp hwritten
      obtain ⟨e, he⟩ := h
      cases he.symm.trans (hws w hw)

theorem valueChars_of_foreign {v : Value} {typeName shown : String}
    (h : Occurs (.foreign typeName shown) v) (d : Nat) : ∃ error, valueChars d v = .error error := by
  induction h generalizing d with
  | here => exact ⟨.unsupported typeName, by rw [valueChars]⟩
  | item items v hv h ih =>
      rw [valueChars]
      split
      · exact ⟨_, rfl⟩
      · obtain ⟨e, he⟩ := itemsChars_of_error hv (ih (d - 1))
        rw [he]
        exact ⟨e, rfl⟩
  | member entries e he h ih =>
      rw [valueChars]
      split
      · exact ⟨_, rfl⟩
      · obtain ⟨e, he⟩ := entriesChars_of_error he (ih (d - 1))
        rw [he]
        exact ⟨e, rfl⟩
  | field kind fields f hf h ih =>
      have hnull : f.2.isNull = false := by
        generalize f.2 = v at h
        cases h <;> rfl
      rw [valueChars]
      split
      · exact ⟨_, rfl⟩
      · obtain ⟨e, he⟩ := fieldsChars_of_error kind.omitsNull hf hnull (ih (d - 1))
        rw [he]
        exact ⟨e, rfl⟩

theorem encode_of_holdsForeign {v : Value} (h : HoldsForeign v) :
    ∃ error, encode v = .error error := by
  obtain ⟨typeName, shown, hoccurs⟩ := h
  obtain ⟨e, he⟩ := valueChars_of_foreign hoccurs maxEncodeDepth
  rw [encode, he]
  exact ⟨e, rfl⟩

-- The failure of the whole is that of a part.

theorem itemsChars_eq_error {items : List Value} (h : itemsChars d items = .error error) :
    ∃ v ∈ items, valueChars d v = .error error := by
  induction items with
  | nil =>
      rw [itemsChars] at h
      cases h
  | cons w items ih =>
      rw [itemsChars] at h
      rcases bind_eq_error h with hw | ⟨text, -, h⟩
      · exact ⟨w, List.mem_cons_self, hw⟩
      · rcases bind_eq_error h with hrest | ⟨rest, -, h⟩
        · obtain ⟨v, hv, hfails⟩ := ih hrest
          exact ⟨v, List.mem_cons_of_mem _ hv, hfails⟩
        · cases h

theorem keyChars_eq_error {k : Value} (h : keyChars k = .error error) : error = .keyType := by
  cases k <;> cases h
  all_goals rfl

theorem entriesChars_eq_error {entries : List (Value × Value)}
    (h : entriesChars d entries = .error error) :
    error = .keyType ∨ ∃ m ∈ entries, valueChars d m.2 = .error error := by
  induction entries with
  | nil =>
      rw [entriesChars] at h
      cases h
  | cons n entries ih =>
      obtain ⟨k, w⟩ := n
      rw [entriesChars] at h
      rcases bind_eq_error h with hk | ⟨key, -, h⟩
      · exact .inl (keyChars_eq_error hk)
      rcases bind_eq_error h with hw | ⟨text, -, h⟩
      · exact .inr ⟨(k, w), List.mem_cons_self, hw⟩
      rcases bind_eq_error h with hrest | ⟨rest, -, h⟩
      · rcases ih hrest with hkey | ⟨m, hm, hfails⟩
        · exact .inl hkey
        · exact .inr ⟨m, List.mem_cons_of_mem _ hm, hfails⟩
      · cases h

theorem fieldsChars_eq_error {omitsNull : Bool} {fields : List (String × Value)}
    (h : fieldsChars d omitsNull fields = .error error) :
    ∃ f ∈ fields, valueChars d f.2 = .error error := by
  induction fields with
  | nil =>
      rw [fieldsChars] at h
      cases h
  | cons g fields ih =>
      obtain ⟨name, w⟩ := g
      have hlater (hrest : fieldsChars d omitsNull fields = .error error) :
          ∃ f ∈ (name, w) :: fields, valueChars d f.2 = .error error := by
        obtain ⟨f, hf, hfails⟩ := ih hrest
        exact ⟨f, List.mem_cons_of_mem _ hf, hfails⟩
      rw [fieldsChars] at h
      split at h
      · exact hlater h
      · rcases bind_eq_error h with hw | ⟨text, -, h⟩
        · exact ⟨(name, w), List.mem_cons_self, hw⟩
        · rcases bind_eq_error h with hrest | ⟨rest, -, h⟩
          · exact hlater hrest
          · cases h

-- Depth

theorem isFinite_item {items : List Value} {v : Value} (h : Value.areFinite items = true)
    (hv : v ∈ items) : v.isFinite = true := by
  induction items with
  | nil => cases hv
  | cons w items ih =>
      rw [Value.areFinite, Bool.and_eq_true] at h
      rcases List.mem_cons.mp hv with rfl | hv
      · exact h.1
      · exact ih h.2 hv

theorem isFinite_entry {entries : List (Value × Value)} {m : Value × Value}
    (h : Value.areFiniteEntries entries = true) (hm : m ∈ entries) : m.2.isFinite = true := by
  induction entries with
  | nil => cases hm
  | cons n entries ih =>
      rw [Value.areFiniteEntries, Bool.and_eq_true, Bool.and_eq_true] at h
      rcases List.mem_cons.mp hm with rfl | hm
      · exact h.1.2
      · exact ih h.2 hm

theorem isFinite_field {fields : List (String × Value)} {f : String × Value}
    (h : Value.areFiniteFields fields = true) (hf : f ∈ fields) : f.2.isFinite = true := by
  induction fields with
  | nil => cases hf
  | cons g fields ih =>
      rw [Value.areFiniteFields, Bool.and_eq_true] at h
      rcases List.mem_cons.mp hf with rfl | hf
      · exact h.1
      · exact ih h.2 hf

-- By induction on the depth that is left, of which every part has one less.
theorem lt_nesting_of_tooDeep {v : Value} (hfinite : v.isFinite = true)
    (h : valueChars d v = .error .tooDeep) : d < nesting v := by
  induction d using Nat.strongRecOn generalizing v with
  | ind d ih =>
      cases v with
      | list items =>
          rw [valueChars] at h
          rw [Value.isFinite] at hfinite
          rw [nesting]
          split at h
          · omega
          · obtain ⟨v, hv, hfails⟩ := itemsChars_eq_error (map_eq_error h)
            have hpart := ih (d - 1) (by omega) (isFinite_item hfinite hv) hfails
            have hle := nesting_item hv
            omega
      | dict entries =>
          rw [valueChars] at h
          rw [Value.isFinite] at hfinite
          rw [nesting]
          split at h
          · omega
          · rcases entriesChars_eq_error (map_eq_error h) with hkey | ⟨m, hm, hfails⟩
            · cases hkey
            · have hpart := ih (d - 1) (by omega) (isFinite_entry hfinite hm) hfails
              have hle := nesting_entry hm
              omega
      | record kind fields =>
          rw [valueChars] at h
          rw [Value.isFinite] at hfinite
          rw [nesting]
          split at h
          · omega
          · rcases bind_eq_error h with hfields | ⟨members, -, h⟩
            · obtain ⟨f, hf, hfails⟩ := fieldsChars_eq_error hfields
              have hpart := ih (d - 1) (by omega) (isFinite_field hfinite hf) hfails
              have hle := nesting_field hf
              omega
            · cases h
      | again isMapping => cases hfinite
      | bool b => cases b <;> rw [valueChars] at h <;> cases h
      | _ =>
          rw [valueChars] at h
          cases h

-- Nothing in the value stands for a collection around it, and it is not nested too deep.
def IsShallow (v : Value) : Prop := v.isFinite = true ∧ nesting v ≤ maxEncodeDepth

theorem IsShallow.encode_ne {v : Value} (h : IsShallow v) : encode v ≠ .error .tooDeep := by
  intro hdeep
  have hlt := lt_nesting_of_tooDeep h.1 (map_eq_error hdeep)
  exact absurd h.2 (Nat.not_le_of_lt hlt)

end Coffer.Json
