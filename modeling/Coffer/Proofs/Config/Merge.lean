import Coffer.Config.Merge
import Coffer.Proofs.Mapping

-- What stands where in a merged mapping: leaf by leaf the new mapping goes before the old one, and a
-- leaf of the new one takes the place of all that the old one has there.

namespace Coffer

open Entries (Distinct)

namespace Value

-- What stands for a mapping inside itself is a leaf.
def isMapping : Value → Bool
  | .dict _ => true
  | _ => false

-- What a value holds at the end of a path of keys.
def at? (v : Value) : List Value → Option Value
  | [] => some v
  | k :: path =>
      match v with
      | .dict entries => (Entries.get? entries k).bind fun w => w.at? path
      | _ => none

-- A value whose mappings have distinct keys, down to the leaves. A key is found again: what is not a
-- number and has no name is left aside.
inductive Keyed : Value → Prop where
  | mapping (entries : List (Value × Value)) (hdistinct : Distinct entries)
      (hfound : ∀ e ∈ entries, e.1.same e.1 = true) (hvalues : ∀ e ∈ entries, Keyed e.2) :
      Keyed (.dict entries)
  | leaf (v : Value) (hv : v.isMapping = false) : Keyed v

@[simp] theorem at?_nil (v : Value) : v.at? [] = some v := rfl

end Value

namespace Config

open Value (IsKey Keyed)

variable {base new : List (Value × Value)} {v : Value}

theorem mergeValue_leaf (old : Option Value) (hv : v.isMapping = false) : mergeValue old v = v := by
  cases v with
  | dict entries => cases hv
  | _ => rfl

theorem mergeValue_dict (base new : List (Value × Value)) :
    mergeValue (some (.dict base)) (.dict new) = .dict (mergeEntries base new) := rfl

theorem mergeEntries_nil_right (base : List (Value × Value)) : mergeEntries base [] = base := rfl

theorem mergeEntries_cons (base : List (Value × Value)) (e : Value × Value) (rest : List (Value × Value)) :
    mergeEntries base (e :: rest) =
      mergeEntries (Entries.put base e.1 (mergeValue (Entries.get? base e.1) e.2)) rest := rfl

theorem mergeValue_onto_leaf {old : Value} (hold : old.isMapping = false) (v : Value) :
    mergeValue (some old) v = v := by
  cases v with
  | dict entries =>
      cases old with
      | dict entries' => cases hold
      | _ => rfl
  | _ => exact mergeValue_leaf _ rfl

theorem mergeValue_none (v : Value) : mergeValue none v = v := by
  cases v <;> rfl

theorem isMapping_mergeValue (old : Option Value) (v : Value) :
    (mergeValue old v).isMapping = v.isMapping := by
  cases v with
  | dict entries =>
      cases old with
      | none => rfl
      | some w => cases w <;> rfl
  | _ => rw [mergeValue_leaf _ rfl]

theorem distinct_mergeEntries (hbase : Distinct base) (hnew : ∀ e ∈ new, e.1.IsKey) :
    Distinct (mergeEntries base new) := by
  induction new generalizing base with
  | nil => exact hbase
  | cons e rest ih =>
      obtain ⟨he, hrest⟩ := List.forall_mem_cons.mp hnew
      exact ih (hbase.put he) hrest

-- What stands under a key after a merge.
theorem get?_mergeEntries (hbase : ∀ e ∈ base, e.1.IsKey) (hnew : Distinct new) (j : Value) :
    Entries.get? (mergeEntries base new) j =
      ((Entries.get? new j).map (mergeValue (Entries.get? base j))).or (Entries.get? base j) := by
  induction new generalizing base with
  | nil => rw [mergeEntries_nil_right, Entries.get?, Option.map_none, Option.none_or]
  | cons e rest ih =>
      obtain ⟨k, v⟩ := e
      have hk := (List.forall_mem_cons.mp hnew.keys).1
      rw [mergeEntries_cons, ih (Entries.keys_put hbase hk) hnew.tail, Entries.get?_put_of_keys hbase hk,
        Entries.get?_cons]
      by_cases hj : k.same j = true
      · rw [if_pos hj, if_pos hj, hnew.get?_tail hj, Entries.get?_congr hbase hk hj]
        rfl
      · rw [if_neg hj, if_neg hj]

-- Leaf by leaf

-- Entries under new keys go to the end.
theorem mergeEntries_of_new (hnew : Distinct new) (h : ∀ e ∈ new, Entries.get? base e.1 = none) :
    mergeEntries base new = base ++ new := by
  induction new generalizing base with
  | nil => rw [mergeEntries_nil_right, List.append_nil]
  | cons e rest ih =>
      obtain ⟨he, hrest⟩ := List.forall_mem_cons.mp h
      rw [mergeEntries_cons, he, mergeValue_none, Entries.put_of_get?_none he, ih hnew.tail,
        List.append_assoc, List.singleton_append]
      intro f hf
      rw [Entries.get?_append, hrest f hf, Entries.get?_cons,
        (List.pairwise_cons.mp hnew.apart).1 f hf]
      rfl

theorem mergeEntries_nil_left (hnew : Distinct new) : mergeEntries [] new = new :=
  mergeEntries_of_new hnew fun _ _ => rfl

end Config

end Coffer
