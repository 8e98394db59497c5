import Coffer.Proofs.Config.Section
import Coffer.Proofs.Json.Value

-- Which layer an option comes from: its variable, the last file that says something about it, or its
-- usual value. What else the files say has no part in it.

namespace Coffer.Config

open Entries (Distinct)
open Options (texts)

def optionNames : List String := Wallet.optionsFields.map fun f => f.name

-- What a file says about the options, in its order.
def settings (file : List (Value × Value)) : Entries String Value :=
  match storage? file with
  | some (.dict entries) => entries.filterMap fun
      | (.text name, v) => if optionNames.contains name then some (name, v) else none
      | _ => none
  | _ => []

def hasTextKeys : Value → Bool
  | .dict entries => entries.all fun e => (Options.text? e.1).isSome
  | _ => false

theorem exists_texts_of_all {entries : List (Value × Value)}
    (h : entries.all (fun e => (Options.text? e.1).isSome) = true) : ∃ members, entries = texts members := by
  induction entries with
  | nil => exact ⟨[], rfl⟩
  | cons e rest ih =>
      obtain ⟨k, v⟩ := e
      rw [List.all_cons, Bool.and_eq_true] at h
      obtain ⟨members, rfl⟩ := ih h.2
      cases k with
      | text name => exact ⟨(name, v) :: members, rfl⟩
      | _ => cases h.1

theorem hasTextKeys_iff (v : Value) : hasTextKeys v = true ↔ ∃ members, v = .ofMembers members := by
  constructor
  · intro h
    cases v with
    | dict entries => exact (exists_texts_of_all h).imp fun _ hentries => congrArg Value.dict hentries
    | _ => cases h
  · rintro ⟨members, rfl⟩
    exact List.all_eq_true.mpr (List.forall_mem_map.mpr fun _ _ => rfl)

-- If there is a section, it is a mapping with text keys.
def HasTexts (file : List (Value × Value)) : Prop :=
  ∀ v, storage? file = some v → ∃ members, v = .ofMembers members

theorem hasTexts_iff (file : List (Value × Value)) :
    HasTexts file ↔ (storage? file).all hasTextKeys = true := by
  rw [HasTexts]
  cases storage? file with
  | none => simp
  | some v => simp [hasTextKeys_iff]

instance (file : List (Value × Value)) : Decidable (HasTexts file) :=
  decidable_of_iff _ (hasTexts_iff file).symm

-- The members of a section after those of a later one have been merged in.
def mergeMembers (base new : Entries String Value) : Entries String Value :=
  new.foldl (fun members e => members.put e.1 (mergeValue (members.get? e.1) e.2)) base

section Members

variable {base new : Entries String Value} {e : String × Value} {name : String}

theorem mergeMembers_cons (base : Entries String Value) (e : String × Value) (new : Entries String Value) :
    mergeMembers base (e :: new) = mergeMembers (base.put e.1 (mergeValue (base.get? e.1) e.2)) new := rfl

theorem mergeEntries_texts (base new : Entries String Value) :
    mergeEntries (texts base) (texts new) = texts (mergeMembers base new) := by
  induction new generalizing base with
  | nil => exact mergeEntries_nil_right _
  | cons e new ih =>
      rw [mergeMembers_cons, ← ih, texts, texts, List.map_cons, mergeEntries_cons, Entries.get?_texts,
        Json.put_text]
      rfl

theorem nodup_mergeMembers (hbase : base.keys.Nodup) : (mergeMembers base new).keys.Nodup := by
  induction new generalizing base with
  | nil => exact hbase
  | cons e new ih => exact ih (Entries.nodup_put _ _ _ hbase)

end Members

-- A value that was merged into another one

-- The values are the same, or mappings both. Mappings that meet are merged, so that the outcome need
-- not be the one that came last; but no option is a mapping.
def Alike (a b : Option Value) : Prop :=
  a = b ∨ ∃ entries entries', a = some (.dict entries) ∧ b = some (.dict entries')

section Reading

variable {setting other : String → Option Value} (h : ∀ name ∈ optionNames, Alike (setting name) (other name))

include h

end Reading

-- Layer by layer

-- What a configuration has in its section, if there is one.
structure HasMembers (config : List (Value × Value)) (members : Entries String Value) : Prop where
  distinct : Distinct config
  nodup : members.keys.Nodup
  stands : storage? config = some (.ofMembers members) ∨ storage? config = none ∧ members = []

theorem mergeValue_ofMembers {config : List (Value × Value)} {base new : Entries String Value}
    (hconfig : HasMembers config base) (hnew : new.keys.Nodup) :
    mergeValue (storage? config) (.ofMembers new) = .ofMembers (mergeMembers base new) := by
  rcases hconfig.stands with hbase | ⟨hbase, rfl⟩
  · rw [hbase]
    exact (mergeValue_dict _ _).trans (congrArg Value.dict (mergeEntries_texts base new))
  · rw [hbase, mergeValue_none]
    refine congrArg Value.dict (Eq.trans ?_ (mergeEntries_texts [] new))
    exact (mergeEntries_nil_left (.of_texts hnew)).symm

theorem HasMembers.merge {config file : List (Value × Value)} {base new : Entries String Value}
    (hconfig : HasMembers config base) (hfile : HasMembers file new) :
    HasMembers (mergeEntries config file) (mergeMembers base new) := by
  refine ⟨distinct_mergeEntries hconfig.distinct hfile.distinct.keys, nodup_mergeMembers hconfig.nodup, ?_⟩
  rw [storage?_mergeEntries hconfig.distinct hfile.distinct]
  rcases hfile.stands with hnew | ⟨hnew, rfl⟩
  · rw [hnew, Option.map_some, Option.some_or, mergeValue_ofMembers hconfig hfile.nodup]
    exact .inl rfl
  · rw [hnew, Option.map_none, Option.none_or]
    exact hconfig.stands

section Pick

variable (f : String → Option Value)

end Pick

end Coffer.Config
