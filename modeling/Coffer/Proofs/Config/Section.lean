import Coffer.Proofs.Config.Load
import Coffer.Proofs.Config.Options
import Coffer.Proofs.Yaml.Mapping

-- What becomes of the section about storage. The environment is merged over it even if it says
-- nothing, and so a section that is no mapping gives way to an empty one.

namespace Coffer.Config

open Entries (Distinct)
open Yaml (IsOrderly)

variable {env : Environment} {paths : List PathName} {h : Host}

-- What the files make together, the later ones over the earlier ones.
def merged (mappings : List (List (Value × Value))) : List (Value × Value) :=
  mappings.foldl mergeEntries []

def storage? (config : List (Value × Value)) : Option Value :=
  Entries.get? config (.text sectionName)

-- Files

theorem isOrderly_of_mapping {d : Disk} {path : PathName} {entries : List (Value × Value)}
    (hfound : foundAt d path = .mapping entries) : IsOrderly (.dict entries) := by
  unfold foundAt at hfound
  split at hfound
  · cases hfound
  · cases hfound
  · split at hfound
    · cases hfound
    · next content _ =>
      unfold Found.ofDocument at hfound
      split at hfound
      · split at hfound <;> cases hfound
      · next hdocument =>
        split at hfound <;> cases hfound
        exact Yaml.isOrderly_of_load hdocument
      · split at hfound <;> cases hfound

theorem isOrderly_of_mem {d : Disk} {file : List (Value × Value)} (hfile : file ∈ mappings d paths) :
    IsOrderly (.dict file) := by
  obtain ⟨path, -, hentries⟩ := List.mem_filterMap.mp hfile
  cases hfound : foundAt d path with
  | mapping entries =>
      rw [hfound] at hentries
      cases hentries
      exact isOrderly_of_mapping hfound
  | _ =>
      rw [hfound] at hentries
      cases hentries

theorem distinct_of_mem {d : Disk} {file : List (Value × Value)} (hfile : file ∈ mappings d paths) :
    Distinct file :=
  isOrderly_of_mem hfile file .here

theorem merged_append (before after : List (List (Value × Value))) :
    merged (before ++ after) = after.foldl mergeEntries (merged before) := List.foldl_append

theorem distinct_merged {files : List (List (Value × Value))} (hfiles : ∀ file ∈ files, Distinct file) :
    Distinct (merged files) := by
  induction files using List.reverseRecOn with
  | nil => exact .nil
  | append_singleton files file ih =>
      rw [merged_append]
      obtain ⟨hfiles, hfile⟩ := List.forall_mem_append.mp hfiles
      exact distinct_mergeEntries (ih hfiles) (hfile file (List.mem_singleton.mpr rfl)).keys

theorem storage?_mergeEntries {config file : List (Value × Value)} (hconfig : Distinct config)
    (hfile : Distinct file) :
    storage? (mergeEntries config file) =
      ((storage? file).map (mergeValue (storage? config))).or (storage? config) :=
  get?_mergeEntries hconfig.keys hfile _

-- The section, once the environment has been merged over it

theorem isMapping_overrides (env : Environment) : (overrides env).isMapping = true := rfl

theorem orEmpty_of_mapping {v : Value} (hv : v.isMapping = true) : orEmpty v = v := by
  cases v with
  | dict entries =>
      rw [orEmpty]
      split
      · next hblank => rw [List.isEmpty_iff.mp hblank]
      · rfl
  | _ => cases hv

theorem storage?_overrides (env : Environment) :
    storage? [(.text sectionName, overrides env)] = some (overrides env) := by
  rw [storage?, Entries.get?_cons, Value.text_same, beq_self_eq_true, if_pos rfl]

theorem storageSection_combined {files : List (List (Value × Value))}
    (hfiles : ∀ file ∈ files, Distinct file) :
    storageSection (combined env files) = mergeValue (storage? (merged files)) (overrides env) := by
  have hsection : storage? (combined env files) =
      some (mergeValue (storage? (merged files)) (overrides env)) := by
    have hlast : Distinct [(Value.text sectionName, overrides env)] := Distinct.nil.put rfl
    exact (storage?_mergeEntries (distinct_merged hfiles) hlast).trans (by rw [storage?_overrides]; rfl)
  rw [storageSection, show Entries.get? _ _ = _ from hsection, Option.getD_some, orEmpty_of_mapping]
  rw [isMapping_mergeValue, isMapping_overrides]

theorem loadOptions_of_passed (env : Environment) (hpassed : ∀ path ∈ paths, (foundAt h.disk path).isPassed) :
    loadOptions env (some paths) h =
      (Options.ofSection (storageSection (combined env (mappings h.disk paths))),
        noted h (notices h.disk paths)) := by
  exact Action.bind_of_ok (load_of_passed env hpassed)

theorem storageSection_of_mappings (env : Environment) (d : Disk) (paths : List PathName) :
    storageSection (combined env (mappings d paths)) =
      mergeValue (storage? (merged (mappings d paths))) (overrides env) :=
  storageSection_combined fun _ hfile => distinct_of_mem hfile

-- Without the environment

def settingVariables : List String := ["WALLETSTORE_BACKEND", "WALLETSTORE_PATH", "WALLETSTORE_KEY_FILE"]

def usualOptions : Options := ⟨.database, usualPath, none⟩

theorem overrides_of_unset (hunset : ∀ name ∈ settingVariables, env.filled? name = none) :
    overrides env = .dict [] := by
  simp only [settingVariables, List.forall_mem_cons] at hunset
  obtain ⟨hbackend, hpath, hkey, -⟩ := hunset
  simp only [overrides, hbackend, hpath, hkey]
  rfl

theorem ofSection_empty : Options.ofSection (.dict []) = .ok usualOptions := by
  have hchoice : Options.valueOf [] Wallet.backendMember = .choice BackendKind.database.choice := rfl
  exact Options.ofEntries_of_found rfl hchoice

theorem mergeValue_empty (old : Option Value) (hold : ∀ entries, old ≠ some (.dict entries)) :
    mergeValue old (.dict []) = .dict [] := by
  cases old with
  | none => exact mergeValue_none _
  | some v =>
      cases v with
      | dict entries => exact absurd rfl (hold entries)
      | _ => exact mergeValue_onto_leaf rfl _

-- With no variable set a section that is a mapping is taken for options as it stands, with all that
-- is wrong with it. Anything else in its place is dropped, and the options are the usual ones.
theorem loadOptions_of_section (env : Environment) (paths : List PathName) (h : Host)
    (hpassed : ∀ path ∈ paths, (foundAt h.disk path).isPassed)
    (hunset : ∀ name ∈ settingVariables, env.filled? name = none) :
    (∀ entries, storage? (merged (mappings h.disk paths)) = some (.dict entries) →
      loadOptions env (some paths) h =
        (Options.ofSection (.dict entries), noted h (notices h.disk paths))) ∧
    ((∀ entries, storage? (merged (mappings h.disk paths)) ≠ some (.dict entries)) →
      loadOptions env (some paths) h = (.ok usualOptions, noted h (notices h.disk paths))) ∧
    (∀ v, storage? (merged (mappings h.disk paths)) = some v →
      (loadOptions env (some paths) h = (Options.ofSection v, noted h (notices h.disk paths)) ↔
        v.isMapping = true)) ∧
    ∀ v e, Options.ofSection v = .error e → ∃ reason, e = .unusable (.options reason) := by
  have hload := loadOptions_of_passed env hpassed
  rw [storageSection_of_mappings, overrides_of_unset hunset] at hload
  have hmapping (entries : List (Value × Value))
      (hsection : storage? (merged (mappings h.disk paths)) = some (.dict entries)) :
      loadOptions env (some paths) h =
        (Options.ofSection (.dict entries), noted h (notices h.disk paths)) := by
    rw [hload, hsection, mergeValue_dict, mergeEntries_nil_right]
  have hother (hsection : ∀ entries, storage? (merged (mappings h.disk paths)) ≠ some (.dict entries)) :
      loadOptions env (some paths) h = (.ok usualOptions, noted h (notices h.disk paths)) := by
    rw [hload, mergeValue_empty _ hsection, ofSection_empty]
  refine ⟨hmapping, hother, fun v hsection => ?_, fun v e => Options.ofSection_error⟩
  constructor
  · intro hsame
    by_contra hleaf
    rw [Bool.not_eq_true] at hleaf
    have hno (entries : List (Value × Value)) :
        storage? (merged (mappings h.disk paths)) ≠ some (.dict entries) := by
      intro hdict
      cases hsection.symm.trans hdict
      cases hleaf
    rw [hother hno, Options.ofSection_of_leaf hleaf] at hsame
    cases hsame
  · intro hv
    cases v with
    | dict entries => exact hmapping entries hsection
    | _ => cases hv

-- A backend that there is none of is not passed over.
theorem loadOptions_of_section_of_unknown_backend :
    ∃ (h : Host) (path : PathName), path = .ofText "bad.yaml" ∧
      h.disk = ⟨[(["bad.yaml"], .file 0)],
        [.bytes (Utf8.encode "storage: \x7bbackend: rocksdb\x7d\n")]⟩ ∧
      ∃ e, loadOptions ⟨[]⟩ (some [path]) h = (.error e, h) ∧
        e.message = "Invalid storage configuration: Invalid enum value 'rocksdb' - at `$.backend`" := by
  let disk : Disk := ⟨[(["bad.yaml"], .file 0)],
    [.bytes (Utf8.encode "storage: \x7bbackend: rocksdb\x7d\n")]⟩
  let h : Host := { Host.empty with disk }
  let paths : List PathName := [.ofText "bad.yaml"]
  have hfiles : (∀ path ∈ paths, (foundAt h.disk path).isPassed) ∧ notices h.disk paths = [] ∧
      (storage? (merged (mappings h.disk paths))).map
        (fun v => (v.isMapping, (Options.ofSection v).mapError Failure.message)) = some (true, .error
          "Invalid storage configuration: Invalid enum value 'rocksdb' - at `$.backend`") := by
    decide +kernel
  obtain ⟨hpassed, hnotices, hfailed⟩ := hfiles
  obtain ⟨v, hsection, hv⟩ := Option.map_eq_some_iff.mp hfailed
  obtain ⟨hmapping, hmessage⟩ := Prod.mk.inj hv
  have hload := ((loadOptions_of_section ⟨[]⟩ paths h hpassed fun _ _ => rfl).2.2.1 v hsection).mpr hmapping
  cases hresult : Options.ofSection v with
  | ok o =>
      rw [hresult] at hmessage
      cases hmessage
  | error e =>
      rw [hresult] at hload hmessage
      rw [hnotices] at hload
      exact ⟨h, _, rfl, rfl, e, hload, Except.error.inj hmessage⟩

-- A list is no options, and yet the options are the usual ones.
theorem list_section_is_dropped :
    ∃ (h : Host) (path : PathName) (v : Value), path = .ofText "bad.yaml" ∧
      h.disk = ⟨[(["bad.yaml"], .file 0)], [.bytes (Utf8.encode "storage: [1, 2]\n")]⟩ ∧
      storage? (merged (mappings h.disk [path])) = some v ∧ v.typeName = "list" ∧
      Options.ofSection v = .error (.unusable (.options (.invalid (.mismatch "object" "array") []))) ∧
      loadOptions ⟨[]⟩ (some [path]) h = (.ok usualOptions, h) := by
  let disk : Disk := ⟨[(["bad.yaml"], .file 0)], [.bytes (Utf8.encode "storage: [1, 2]\n")]⟩
  let h : Host := { Host.empty with disk }
  let paths : List PathName := [.ofText "bad.yaml"]
  have hfiles : (∀ path ∈ paths, (foundAt h.disk path).isPassed) ∧ notices h.disk paths = [] ∧
      (storage? (merged (mappings h.disk paths))).map
        (fun v => (v.isMapping, v.typeName, Options.found v)) = some (false, "list", "array") := by
    decide +kernel
  obtain ⟨hpassed, hnotices, hlist⟩ := hfiles
  obtain ⟨v, hsection, hv⟩ := Option.map_eq_some_iff.mp hlist
  simp only [Prod.mk.injEq] at hv
  obtain ⟨hleaf, htype, hfound⟩ := hv
  have hinvalid := Options.ofSection_of_leaf hleaf
  have hload := loadOptions_of_passed ⟨[]⟩ hpassed
  rw [hfound] at hinvalid
  rw [storageSection_of_mappings, hsection, overrides_of_unset fun _ _ => rfl, mergeValue_onto_leaf hleaf,
    ofSection_empty, hnotices] at hload
  exact ⟨h, _, v, rfl, rfl, hsection, htype, hinvalid, hload⟩

end Coffer.Config
