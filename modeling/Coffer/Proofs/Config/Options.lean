import Coffer.Config.Options
import Coffer.Proofs.Config.Merge
import Coffer.Proofs.Entries
import Coffer.Proofs.Except

-- What the options of a section are, setting by setting, and when a section has none.

namespace Coffer.Config

open Json (Error Member Schema)

-- What a setting stands for. One that is left out has its usual value.

def kindOf : Option Value → Option BackendKind
  | none => some .database
  | some (.text s) => BackendKind.ofName? s
  | some _ => none

def textOf (usual : Option String) : Option Value → Option (Option String)
  | none => some usual
  | some (.text s) => some (some s)
  | some .null => some none
  | some _ => none

def usualPath : Option String := some "walletdb"

namespace Options

-- The settings stand for the options.
structure Holds (setting : String → Option Value) (o : Options) : Prop where
  backend : kindOf (setting "backend") = some o.backend
  path : textOf usualPath (setting "path") = some o.path
  keyFile : textOf none (setting "key_file") = some o.keyFile

variable {setting : String → Option Value} {members : Entries String Value}

theorem find?_choice (s : String) :
    ((BackendKind.all.map BackendKind.choice).find? fun c => c.text == s) =
      (BackendKind.ofName? s).map BackendKind.choice := by
  rw [List.find?_map, BackendKind.ofName?]
  rfl

theorem fieldValue_options (choices : List Choice) (s : String) :
    (fieldValue (.options choices) (.text s)).toOption = (choices.find? fun c => c.text == s).map .choice := by
  simp only [fieldValue.eq_def, Schema.solid]
  cases choices.find? fun c => c.text == s <;> rfl

theorem fieldValue_backend (v : Value) :
    (fieldValue Wallet.backendMember.schema v).toOption =
      (kindOf (some v)).map fun kind => .choice kind.choice := by
  cases v with
  | text s =>
      rw [kindOf, Wallet.backendMember, Wallet.optional, fieldValue_options, find?_choice, Option.map_map]
      rfl
  | _ => rfl

theorem ofName?_name (kind : BackendKind) : BackendKind.ofName? kind.name = some kind := by
  cases kind <;> decide

theorem ofValue_choice (kind : BackendKind) : BackendKind.ofValue (.choice kind.choice) = .ok kind := by
  rw [BackendKind.choice, BackendKind.ofValue, ofName?_name]
  rfl

-- A field is known by its name.
def IsField (fields : List (Member Schema)) (field : Member Schema) : Prop :=
  (fields.find? fun f => f.name == field.name) = some field

theorem isField_of_find? {fields : List (Member Schema)} {name : String} {field : Member Schema}
    (h : (fields.find? fun f => f.name == name) = some field) : IsField fields field ∧ field.name = name := by
  have hname : field.name = name := by simpa using List.find?_some h
  rw [IsField, hname]
  exact ⟨h, rfl⟩

def texts (members : Entries String Value) : List (Value × Value) :=
  members.map fun e => (Value.text e.1, e.2)

theorem fieldValues_cons_field {fields : List (Member Schema)} {field : Member Schema}
    (hfield : IsField fields field) (v : Value) (rest : List (Value × Value)) :
    fieldValues fields ((.text field.name, v) :: rest) = (do
      let v ← (fieldValue field.schema v).mapError (Error.within (.field field.name))
      return (field.name, v) :: (← fieldValues fields rest)) := by
  rw [fieldValues, hfield]

theorem fieldValues_cons_other {fields : List (Member Schema)} {name : String}
    (hother : (fields.find? fun f => f.name == name) = none) (v : Value) (rest : List (Value × Value)) :
    fieldValues fields ((.text name, v) :: rest) = fieldValues fields rest := by
  rw [fieldValues, hother]

-- What is found for a field is what its first setting stands for.
theorem get?_fieldValues {fields : List (Member Schema)} {field : Member Schema}
    (hfield : IsField fields field) {found : Entries String Value}
    (h : fieldValues fields (texts members) = .ok found) :
    (found.get? field.name).map .ok = (members.get? field.name).map (fieldValue field.schema) := by
  induction members generalizing found with
  | nil =>
      cases h
      rfl
  | cons e rest ih =>
      obtain ⟨name, v⟩ := e
      rw [texts, List.map_cons] at h
      cases hfind : fields.find? fun f => f.name == name with
      | none =>
          rw [fieldValues_cons_other hfind] at h
          have hne : (name == field.name) = false := by
            rw [beq_eq_false_iff_ne]
            rintro rfl
            cases hfield.symm.trans hfind
          rw [ih h, Entries.get?, hne]
          rfl
      | some f =>
          obtain ⟨hf, rfl⟩ := isField_of_find? hfind
          rw [fieldValues_cons_field hf] at h
          obtain ⟨w, hw, h⟩ := bind_eq_ok h
          obtain ⟨found, hrest, h⟩ := bind_eq_ok h
          cases h
          rw [Entries.get?, Entries.get?]
          split
          · next hsame =>
            obtain rfl : f = field := by
              rw [IsField, eq_of_beq hsame] at hf
              exact Option.some.inj (hf.symm.trans hfield)
            rw [Option.map_some, Option.map_some, mapError_eq_ok hw]
          · exact ih hrest

section Found

variable {found : Entries String Value} (hfound : fieldValues Wallet.optionsFields (texts members) = .ok found)

include hfound

theorem valueOf_cases (field : Member Schema) (hfield : IsField Wallet.optionsFields field) :
    members.get? field.name = none ∧ valueOf found field = field.absent.getD .null ∨
      ∃ v, members.get? field.name = some v ∧
        (fieldValue field.schema v).toOption = some (valueOf found field) := by
  have hget := get?_fieldValues hfield hfound
  rw [valueOf]
  cases hv : members.get? field.name with
  | none =>
      rw [hv, Option.map_none, Option.map_eq_none_iff] at hget
      exact .inl ⟨rfl, by rw [hget, Option.getD_none]⟩
  | some v =>
      rw [hv, Option.map_some] at hget
      obtain ⟨w, hw, hvalue⟩ := Option.map_eq_some_iff.mp hget
      exact .inr ⟨v, rfl, by rw [← hvalue, hw]; rfl⟩

theorem valueOf_backend : ∃ kind, kindOf (members.get? "backend") = some kind ∧
    valueOf found Wallet.backendMember = .choice kind.choice := by
  rcases valueOf_cases hfound Wallet.backendMember rfl with ⟨hnone, hvalue⟩ | ⟨v, hv, hvalue⟩
  · refine ⟨.database, ?_, hvalue⟩
    rw [show members.get? "backend" = none from hnone, kindOf]
  · rw [fieldValue_backend] at hvalue
    obtain ⟨kind, hkind, hchoice⟩ := Option.map_eq_some_iff.mp hvalue
    exact ⟨kind, hv ▸ hkind, hchoice.symm⟩

end Found

theorem ofEntries_of_found {entries : List (Value × Value)} {found : Entries String Value}
    (hfound : fieldValues Wallet.optionsFields entries = .ok found) {kind : BackendKind}
    (hchoice : valueOf found Wallet.backendMember = .choice kind.choice) :
    ofEntries entries =
      .ok ⟨kind, text? (valueOf found Wallet.pathMember), text? (valueOf found Wallet.keyFileMember)⟩ := by
  rw [ofEntries, hfound, mapError_ok, ok_bind, hchoice, ofValue_choice, ok_bind]
  rfl

-- Only settings with text keys are gone through to the end.
theorem exists_texts {fields : List (Member Schema)} {entries : List (Value × Value)}
    {found : Entries String Value} (h : fieldValues fields entries = .ok found) :
    ∃ members, entries = texts members := by
  induction entries generalizing found with
  | nil => exact ⟨[], rfl⟩
  | cons e rest ih =>
      obtain ⟨k, v⟩ := e
      cases k with
      | text name =>
          have hrest : ∃ found, fieldValues fields rest = .ok found := by
            cases hfind : fields.find? fun f => f.name == name with
            | none => exact ⟨found, (fieldValues_cons_other hfind v rest).symm.trans h⟩
            | some f =>
                obtain ⟨hf, rfl⟩ := isField_of_find? hfind
                rw [fieldValues_cons_field hf] at h
                obtain ⟨w, -, h⟩ := bind_eq_ok h
                obtain ⟨found, hrest, -⟩ := bind_eq_ok h
                exact ⟨found, hrest⟩
          obtain ⟨found, hrest⟩ := hrest
          obtain ⟨members, rfl⟩ := ih hrest
          exact ⟨(name, v) :: members, rfl⟩
      | _ => cases h

-- Whatever is wrong with a section, the failure says that the options are unusable.
theorem ofSection_error {v : Value} {e : Failure} (h : ofSection v = .error e) :
    ∃ reason, e = .unusable (.options reason) := by
  cases v with
  | dict entries =>
      rw [ofSection] at h
      cases hfound : fieldValues Wallet.optionsFields entries with
      | error reason =>
          rw [ofEntries, hfound] at h
          exact ⟨reason, (Except.error.inj h).symm⟩
      | ok found =>
          obtain ⟨members, rfl⟩ := exists_texts hfound
          obtain ⟨kind, -, hchoice⟩ := valueOf_backend hfound
          rw [ofEntries_of_found hfound hchoice] at h
          cases h
  | _ => exact ⟨_, (Except.error.inj h).symm⟩

theorem ofSection_of_leaf {v : Value} (hv : v.isMapping = false) :
    ofSection v = .error (.unusable (.options (.invalid (.mismatch "object" (found v)) []))) := by
  cases v with
  | dict entries => cases hv
  | _ => rfl

end Options

end Coffer.Config
