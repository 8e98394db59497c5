import Coffer.Proofs.Json.Fits

-- What can be written at all: a value that fits a schema is written if its lists, mappings and
-- records are not nested too deep.

namespace Coffer.Json

mutual

def nesting : Value → Nat
  | .list items => itemsNesting items + 1
  | .dict entries => entriesNesting entries + 1
  | .record _ fields => fieldsNesting fields + 1
  | _ => 0

def itemsNesting : List Value → Nat
  | [] => 0
  | v :: rest => max (nesting v) (itemsNesting rest)

def entriesNesting : List (Value × Value) → Nat
  | [] => 0
  | (_, v) :: rest => max (nesting v) (entriesNesting rest)

def fieldsNesting : List (String × Value) → Nat
  | [] => 0
  | (_, v) :: rest => max (nesting v) (fieldsNesting rest)

end

theorem nesting_list (items : List Value) : nesting (.list items) = itemsNesting items + 1 := rfl

theorem nesting_dict (entries : List (Value × Value)) :
    nesting (.dict entries) = entriesNesting entries + 1 := rfl

theorem nesting_record (kind : RecordKind) (fields : List (String × Value)) :
    nesting (.record kind fields) = fieldsNesting fields + 1 := rfl

theorem itemsNesting_cons (v : Value) (rest : List Value) :
    itemsNesting (v :: rest) = max (nesting v) (itemsNesting rest) := rfl

theorem entriesNesting_cons (e : Value × Value) (rest : List (Value × Value)) :
    entriesNesting (e :: rest) = max (nesting e.2) (entriesNesting rest) := rfl

theorem fieldsNesting_cons (f : String × Value) (rest : List (String × Value)) :
    fieldsNesting (f :: rest) = max (nesting f.2) (fieldsNesting rest) := rfl

theorem nesting_item {items : List Value} {v : Value} (hv : v ∈ items) :
    nesting v ≤ itemsNesting items := by
  induction items with
  | nil => cases hv
  | cons w items ih =>
      rw [itemsNesting_cons]
      rcases List.mem_cons.mp hv with rfl | hv
      · exact Nat.le_max_left _ _
      · exact Nat.le_trans (ih hv) (Nat.le_max_right _ _)

theorem nesting_entry {entries : List (Value × Value)} {e : Value × Value} (he : e ∈ entries) :
    nesting e.2 ≤ entriesNesting entries := by
  induction entries with
  | nil => cases he
  | cons g entries ih =>
      rw [entriesNesting_cons]
      rcases List.mem_cons.mp he with rfl | he
      · exact Nat.le_max_left _ _
      · exact Nat.le_trans (ih he) (Nat.le_max_right _ _)

theorem nesting_member {members : Entries String Value} {m : String × Value} (hm : m ∈ members) :
    nesting m.2 + 1 ≤ nesting (Value.ofMembers members) := by
  rw [Value.ofMembers, nesting_dict]
  exact Nat.succ_le_succ (nesting_entry (e := (.text m.1, m.2)) (List.mem_map_of_mem hm))

theorem nesting_field {fields : List (String × Value)} {f : String × Value} (hf : f ∈ fields) :
    nesting f.2 ≤ fieldsNesting fields := by
  induction fields with
  | nil => cases hf
  | cons g fields ih =>
      rw [fieldsNesting_cons]
      rcases List.mem_cons.mp hf with rfl | hf
      · exact Nat.le_max_left _ _
      · exact Nat.le_trans (ih hf) (Nat.le_max_right _ _)

section Parts

variable {d : Nat}

theorem itemsChars_ok {items : List Value} (h : ∀ v ∈ items, ∃ text, valueChars d v = .ok text) :
    ∃ texts, itemsChars d items = .ok texts := by
  induction items with
  | nil => exact ⟨[], by rw [itemsChars]⟩
  | cons v items ih =>
      obtain ⟨text, htext⟩ := h v List.mem_cons_self
      obtain ⟨texts, htexts⟩ := ih fun w hw => h w (List.mem_cons_of_mem _ hw)
      refine ⟨text :: texts, ?_⟩
      rw [itemsChars, htext, ok_bind, htexts]
      rfl

theorem entriesChars_ok {members : Entries String Value}
    (h : ∀ m ∈ members, ∃ text, valueChars d m.2 = .ok text) :
    ∃ chars, entriesChars d (members.map fun m => (Value.text m.1, m.2)) = .ok chars := by
  induction members with
  | nil => exact ⟨[], by rw [List.map_nil, entriesChars]⟩
  | cons m members ih =>
      obtain ⟨text, htext⟩ := h m List.mem_cons_self
      obtain ⟨chars, hchars⟩ := ih fun n hn => h n (List.mem_cons_of_mem _ hn)
      refine ⟨(textChars m.1, text) :: chars, ?_⟩
      rw [List.map_cons, entriesChars, keyChars, ok_bind, htext, ok_bind, hchars]
      rfl

theorem fieldsChars_ok (omitsNull : Bool) {fields : List (String × Value)}
    (h : ∀ f ∈ fields, ∃ text, valueChars d f.2 = .ok text) :
    ∃ chars, fieldsChars d omitsNull fields = .ok chars := by
  induction fields with
  | nil => exact ⟨[], by rw [fieldsChars]⟩
  | cons f fields ih =>
      obtain ⟨name, v⟩ := f
      obtain ⟨text, htext⟩ := h (name, v) List.mem_cons_self
      obtain ⟨chars, hchars⟩ := ih fun g hg => h g (List.mem_cons_of_mem _ hg)
      rw [fieldsChars]
      split
      · exact ⟨chars, hchars⟩
      · refine ⟨(textChars name, text) :: chars, ?_⟩
        rw [htext, ok_bind, hchars]
        rfl

-- A list, a mapping or a record is written if what it holds is written one level further in.

theorem valueChars_list_ok {items : List Value} (hd : nesting (.list items) ≤ d)
    (h : ∀ v ∈ items, ∀ e, nesting v ≤ e → ∃ text, valueChars e v = .ok text) :
    ∃ text, valueChars d (.list items) = .ok text := by
  rw [nesting_list] at hd
  obtain ⟨e, rfl⟩ : ∃ e, d = e + 1 := ⟨d - 1, by omega⟩
  obtain ⟨texts, htexts⟩ := itemsChars_ok fun v hv =>
    h v hv e (Nat.le_trans (nesting_item hv) (Nat.le_of_succ_le_succ hd))
  refine ⟨listChars texts, ?_⟩
  rw [valueChars_list, if_neg (Nat.succ_ne_zero e), Nat.add_sub_cancel, htexts]
  rfl

theorem valueChars_dict_ok {members : Entries String Value}
    (hd : nesting (Value.ofMembers members) ≤ d)
    (h : ∀ m ∈ members, ∀ e, nesting m.2 ≤ e → ∃ text, valueChars e m.2 = .ok text) :
    ∃ text, valueChars d (Value.ofMembers members) = .ok text := by
  have hpos : 0 < nesting (Value.ofMembers members) := by
    rw [Value.ofMembers, nesting_dict]
    exact Nat.succ_pos _
  obtain ⟨e, rfl⟩ : ∃ e, d = e + 1 := ⟨d - 1, by omega⟩
  obtain ⟨chars, hchars⟩ := entriesChars_ok fun m hm =>
    h m hm e (Nat.le_of_succ_le_succ (Nat.le_trans (nesting_member hm) hd))
  refine ⟨objectChars chars, ?_⟩
  rw [Value.ofMembers, valueChars_dict, if_neg (Nat.succ_ne_zero e), Nat.add_sub_cancel, hchars]
  rfl

theorem valueChars_record_ok {kind : RecordKind} {fields : List (String × Value)}
    (hd : nesting (.record kind fields) ≤ d)
    (h : ∀ f ∈ fields, ∀ e, nesting f.2 ≤ e → ∃ text, valueChars e f.2 = .ok text) :
    ∃ text, valueChars d (.record kind fields) = .ok text := by
  rw [nesting_record] at hd
  obtain ⟨e, rfl⟩ : ∃ e, d = e + 1 := ⟨d - 1, by omega⟩
  obtain ⟨chars, hchars⟩ := fieldsChars_ok kind.omitsNull fun f hf =>
    h f hf e (Nat.le_trans (nesting_field hf) (Nat.le_of_succ_le_succ hd))
  refine ⟨objectChars (kind.tag.toList.map (fun t => (textChars "type", textChars t)) ++ chars), ?_⟩
  rw [valueChars, if_neg (Nat.succ_ne_zero e), Nat.add_sub_cancel, hchars]
  rfl

end Parts

theorem valueChars_tree_ok {v : Value} (hv : IsTree v) (d : Nat) (hd : nesting v ≤ d) :
    ∃ text, valueChars d v = .ok text := by
  induction hv generalizing d with
  | null => exact ⟨_, by rw [valueChars]⟩
  | bool b => exact ⟨_, valueChars_bool d b⟩
  | int n hn => exact ⟨_, by rw [valueChars]⟩
  | text s => exact ⟨_, by rw [valueChars]⟩
  | list items hitems ih => exact valueChars_list_ok hd ih
  | dict members hkeys hmembers ih => exact valueChars_dict_ok hd ih

theorem valueChars_fits_ok {schema : Schema} {v : Value} (hv : Fits schema v) (d : Nat)
    (hd : nesting v ≤ d) : ∃ text, valueChars d v = .ok text := by
  induction hv generalizing d with
  | any v hv => exact valueChars_tree_ok hv d hd
  | int bounds n hn hbounds => exact ⟨_, by rw [valueChars]⟩
  | text s => exact ⟨_, by rw [valueChars]⟩
  | bool b => exact ⟨_, valueChars_bool d b⟩
  | null inner => exact ⟨_, by rw [valueChars]⟩
  | nullable inner v hv ih => exact ih d hd
  | option choices c hc => exact ⟨_, by rw [valueChars]⟩
  | list item items hitems ih => exact valueChars_list_ok hd ih
  | dict member members hkeys hmembers ih => exact valueChars_dict_ok hd ih
  | record kind fields vs htag homitted hnames hnodup hfields ih =>
      refine valueChars_record_ok hd fun e he => ?_
      obtain ⟨f, -, hzip⟩ := find?_of_zip hnames hnodup he
      exact ih (f, e) hzip
  | variant kinds kind tag fields vs htag hkind homitted hnames hnodup hfields ih =>
      refine valueChars_record_ok hd fun e he => ?_
      obtain ⟨f, -, hzip⟩ := find?_of_zip hnames hnodup he
      exact ih (f, e) hzip

theorem encode_ok {schema : Schema} {v : Value} (hv : Fits schema v) (h : nesting v ≤ maxEncodeDepth) :
    ∃ text, encode v = .ok text := by
  obtain ⟨chars, hchars⟩ := valueChars_fits_ok hv maxEncodeDepth h
  refine ⟨String.ofList chars, ?_⟩
  rw [encode, hchars]
  rfl

end Coffer.Json
