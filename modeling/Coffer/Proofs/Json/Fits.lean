import Coffer.Proofs.Json.Tree

namespace Coffer.Json

-- The values that a schema is for: what is read by it once it has been written.
inductive Fits : Schema → Value → Prop where
  | any (v : Value) (hv : IsTree v) : Fits .any v
  | int (bounds : Option (Int × Int)) (n : Int) (hn : fitsWord n = true)
      (hbounds : checkBounds bounds n = .ok (.int n)) : Fits (.int bounds) (.int n)
  | text (s : String) : Fits .text (.text s)
  | bool (b : Bool) : Fits .bool (.bool b)
  | null (inner : Schema) : Fits (.nullable inner) .null
  | nullable (inner : Schema) (v : Value) (hv : Fits inner v) : Fits (.nullable inner) v
  | option (choices : List Choice) (c : Choice)
      (hc : choices.find? (fun o => o.text == c.text) = some c) : Fits (.options choices) (.choice c)
  | list (item : Schema) (items : List Value) (hitems : ∀ v ∈ items, Fits item v) :
      Fits (.list item) (.list items)
  | dict (member : Schema) (members : Entries String Value) (hkeys : (Entries.keys members).Nodup)
      (hmembers : ∀ m ∈ members, Fits member m.2) : Fits (.dict member) (Value.ofMembers members)
  | record (kind : RecordKind) (fields : List (Member Schema)) (vs : Entries String Value)
      (htag : kind.tag = none) (homitted : kind.omitsNull = true → ∀ f ∈ fields, f.absent = some .null)
      (hnames : Entries.keys vs = fields.map Member.name) (hnodup : (Entries.keys vs).Nodup)
      (hfields : ∀ p ∈ fields.zip vs, Fits p.1.schema p.2.2) :
      Fits (.record kind fields) (.record kind vs)
  | variant (kinds : List (RecordKind × List (Member Schema))) (kind : RecordKind) (tag : String)
      (fields : List (Member Schema)) (vs : Entries String Value) (htag : kind.tag = some tag)
      (hkind : kinds.find? (fun k => k.1.tag == some tag) = some (kind, fields))
      (homitted : kind.omitsNull = true → ∀ f ∈ fields, f.absent = some .null)
      (hnames : Entries.keys vs = fields.map Member.name) (hnodup : (Entries.keys vs).Nodup)
      (hfields : ∀ p ∈ fields.zip vs, Fits p.1.schema p.2.2) :
      Fits (.variants kinds) (.record kind vs)

def tagWritten (kind : RecordKind) : List (Written Value) :=
  kind.tag.toList.map fun t => ⟨tagMember, textChars t, .text t⟩

-- The fields of a record, each with the text its value was written as. Null ones may be left out.
theorem fieldsChars_eq_ok (d : Nat) (omitsNull : Bool) (vs : Entries String Value)
    (chars : List (List Char × List Char)) (h : fieldsChars d omitsNull vs = .ok chars) :
    ∃ ws : List (Written Value), pairs ws = vs.filter (fun e => !(omitsNull && e.2.isNull)) ∧
      chars = ws.map (fun w => (textChars w.name, w.text)) ∧
      ∀ w ∈ ws, valueChars d w.value = .ok w.text := by
  induction vs generalizing chars with
  | nil =>
      rw [fieldsChars] at h
      cases h
      exact ⟨[], rfl, rfl, by simp⟩
  | cons m vs ih =>
      obtain ⟨name, v⟩ := m
      rw [fieldsChars] at h
      by_cases homitted : (omitsNull && v.isNull) = true
      · rw [if_pos homitted] at h
        rw [List.filter_cons_of_neg (by simp [homitted])]
        exact ih chars h
      · rw [if_neg homitted] at h
        obtain ⟨text, htext, h⟩ := bind_eq_ok h
        obtain ⟨rest, hrest, h⟩ := bind_eq_ok h
        cases h
        obtain ⟨ws, hpairs, hchars, hws⟩ := ih rest hrest
        refine ⟨⟨name, text, v⟩ :: ws, ?_, ?_, ?_⟩
        · rw [List.filter_cons_of_pos (by simp [homitted]), ← hpairs]
          rfl
        · rw [hchars]
          rfl
        · intro w hw
          rcases List.mem_cons.mp hw with rfl | hw
          · exact htext
          · exact hws w hw

-- A record is written as a mapping, behind its tag if it has one.
theorem valueChars_record_eq_ok (d : Nat) (kind : RecordKind) (vs : Entries String Value)
    (text : List Char) (h : valueChars d (.record kind vs) = .ok text) :
    ∃ e ws, d = e + 1 ∧ pairs ws = vs.filter (fun m => !(kind.omitsNull && m.2.isNull)) ∧
      text = writtenChars (tagWritten kind ++ ws) ∧ ∀ w ∈ ws, valueChars e w.value = .ok w.text := by
  rw [valueChars] at h
  cases d with
  | zero => cases h
  | succ e =>
      rw [if_neg (Nat.succ_ne_zero e), Nat.add_sub_cancel] at h
      obtain ⟨chars, hchars, h⟩ := bind_eq_ok h
      cases h
      obtain ⟨ws, hpairs, rfl, hws⟩ := fieldsChars_eq_ok e kind.omitsNull vs chars hchars
      refine ⟨e, ws, rfl, hpairs, ?_, hws⟩
      simp only [writtenChars, tagWritten, List.map_append, List.map_map]
      rfl

-- Fields that are there are filled in as they are, and so are those that stand for their absence.
theorem fill_of_found (found vs : Entries String Value) (fields : List (Member Schema))
    (hnames : Entries.keys vs = fields.map Member.name)
    (hfound : ∀ p ∈ fields.zip vs, found.get? p.2.1 = some p.2.2 ∨
      (found.get? p.2.1 = none ∧ p.1.absent = some p.2.2)) : fill found fields = .ok vs := by
  induction fields generalizing vs with
  | nil =>
      have hvs : vs = [] := by simpa [Entries.keys] using hnames
      rw [hvs, fill]
  | cons field fields ih =>
      cases vs with
      | nil => cases hnames
      | cons e vs =>
          obtain ⟨name, v⟩ := e
          obtain ⟨hname, htail⟩ := List.cons.inj hnames
          have hname : name = field.name := hname
          subst hname
          have hget := hfound (field, (field.name, v)) List.mem_cons_self
          have hrest := ih vs htail fun p hp => hfound p (List.mem_cons_of_mem _ hp)
          rw [fill, hrest]
          rcases hget with hsome | ⟨hnone, habsent⟩
          · rw [hsome]
            rfl
          · rw [hnone, habsent]
            rfl

-- Every written field is found among the fields, at the place of its value.
theorem find?_of_zip {fields : List (Member Schema)} {vs : Entries String Value}
    (hnames : Entries.keys vs = fields.map Member.name) (hnodup : (Entries.keys vs).Nodup)
    {e : String × Value} (he : e ∈ vs) :
    ∃ field, fields.find? (fun f => f.name == e.1) = some field ∧ (field, e) ∈ fields.zip vs := by
  induction fields generalizing vs with
  | nil =>
      have hvs : vs = [] := by simpa [Entries.keys] using hnames
      rw [hvs] at he
      cases he
  | cons field fields ih =>
      cases vs with
      | nil => cases he
      | cons m vs =>
          obtain ⟨hname, hnames⟩ := List.cons.inj hnames
          have hname : m.1 = field.name := hname
          have hnodup : m.1 ∉ Entries.keys vs ∧ (Entries.keys vs).Nodup := by
            simpa [Entries.keys] using hnodup
          rcases List.mem_cons.mp he with rfl | he
          · exact ⟨field, by simp [hname], by simp⟩
          · have hne : field.name ≠ e.1 := by
              rw [← hname]
              exact fun h => hnodup.1 (h ▸ List.mem_map_of_mem he)
            obtain ⟨found, hfind, hmem⟩ := ih hnames hnodup.2 he
            exact ⟨found, by simp [hne, hfind], by simp [hmem]⟩

-- The members that a record was written with are read by the schemas of its fields, and what was
-- left out is filled in as null.
theorem fields_reread {d : Nat} {kind : RecordKind} {fields : List (Member Schema)}
    {vs : Entries String Value} {ws : List (Written Value)}
    (homitted : kind.omitsNull = true → ∀ f ∈ fields, f.absent = some .null)
    (hnames : Entries.keys vs = fields.map Member.name) (hnodup : (Entries.keys vs).Nodup)
    (hpairs : pairs ws = vs.filter fun m => !(kind.omitsNull && m.2.isNull))
    (hread : ∀ w ∈ ws, ∀ f, (f, (w.name, w.value)) ∈ fields.zip vs →
      Reads (value d f.schema) w.text w.value) :
    (∀ w ∈ ws, ∃ f, fields.find? (fun f => f.name == w.name) = some f ∧
      Reads (value d f.schema) w.text w.value) ∧
    fill (Entries.putAll [] (pairs ws)) fields = .ok vs := by
  have hkeys : (Entries.keys (pairs ws)).Nodup := by
    rw [hpairs]
    exact hnodup.sublist (List.filter_sublist.map _)
  refine ⟨fun w hw => ?_, ?_⟩
  · have hmem : (w.name, w.value) ∈ vs := (List.mem_filter.mp (hpairs ▸ pairs_mem hw)).1
    obtain ⟨f, hfind, hzip⟩ := find?_of_zip hnames hnodup hmem
    exact ⟨f, hfind, hread w hw f hzip⟩
  rw [Entries.putAll_nil_of_nodup _ hkeys]
  refine fill_of_found _ _ fields hnames fun p hp => ?_
  obtain ⟨hfield, hmem⟩ := List.of_mem_zip hp
  by_cases hleft : (kind.omitsNull && p.2.2.isNull) = true
  · obtain ⟨homits, hnull⟩ := Bool.and_eq_true_iff.mp hleft
    have hvalue : p.2.2 = .null := by
      cases hv : p.2.2 <;> rw [hv] at hnull <;> first | rfl | cases hnull
    refine .inr ⟨?_, hvalue ▸ homitted homits p.1 hfield⟩
    rw [Entries.get?_eq_none_iff]
    intro hk
    obtain ⟨e, he, hname⟩ := List.mem_map.mp hk
    rw [hpairs] at he
    obtain ⟨he, hkept⟩ := List.mem_filter.mp he
    have hsame : e = p.2 := by
      have hget := Entries.get?_of_mem hnodup he
      rw [hname, Entries.get?_of_mem hnodup hmem] at hget
      exact Prod.ext hname (Option.some.inj hget).symm
    rw [hsame, hleft] at hkept
    cases hkept
  · refine .inl (Entries.get?_of_mem hkeys ?_)
    rw [hpairs]
    exact List.mem_filter.mpr ⟨hmem, by rw [eq_false_of_ne_true hleft]; rfl⟩

-- What fits a schema and has a text is read back from it, to the depth it was written at. A schema
-- that also takes null reads it just as well.
theorem reads_fits (d : Nat) (schema wide : Schema) (hwide : wide.solid = schema.solid)
    (hnull : schema.acceptsNull = true → wide.acceptsNull = true) (v : Value) (hv : Fits schema v)
    (text : List Char) (htext : valueChars d v = .ok text) :
    Reads (value d wide) text v ∧ Opens text := by
  induction hv generalizing d wide text with
  | any v hv => exact reads_tree d wide hwide v hv text htext
  | int bounds n hn hbounds =>
      rw [valueChars] at htext
      cases htext
      exact ⟨reads_int d _ n (isShort_of_fitsWord hn) (.inr ⟨bounds, hwide, hbounds⟩), opens_intChars n⟩
  | text s =>
      rw [valueChars] at htext
      cases htext
      exact ⟨reads_text d _ s (.inr hwide), opens_textChars s⟩
  | bool b =>
      rw [valueChars_bool] at htext
      cases htext
      exact ⟨reads_bool d _ b (.inr hwide), opens_bool b⟩
  | null inner =>
      rw [valueChars] at htext
      cases htext
      exact ⟨reads_null d wide (hnull rfl), opens_null⟩
  | nullable inner v hv ih => exact ih d wide hwide (fun _ => hnull rfl) text htext
  | option choices c hc =>
      rw [valueChars] at htext
      cases htext
      exact ⟨reads_choice d wide choices c.text hc hwide, opens_textChars c.text⟩
  | list item items hitems ih =>
      obtain ⟨e, texts, rfl, htexts, rfl⟩ := valueChars_list_eq_ok d items text htext
      obtain ⟨ps, rfl, rfl, hps⟩ := itemsChars_eq_ok e items texts htexts
      have hboth (p : List Char × Value) (hp : p ∈ ps) :
          Reads (value e item) p.1 p.2 ∧ Opens p.1 :=
        ih p.2 (List.mem_map_of_mem hp) e item rfl id p.1 (hps p hp)
      exact ⟨reads_list e _ item ps (.inl hwide) (fun p hp => (hboth p hp).1)
        fun p hp => (hboth p hp).2, opens_listChars _⟩
  | dict member members hkeys hmembers ih =>
      obtain ⟨e, chars, rfl, hchars, rfl⟩ := valueChars_dict_eq_ok d _ text htext
      obtain ⟨ws, rfl, rfl, hws⟩ := entriesChars_eq_ok e members chars hchars
      have hread (w : Written Value) (hw : w ∈ ws) : Reads (value e member) w.text w.value :=
        (ih _ (pairs_mem hw) e member rfl id w.text (hws w hw)).1
      have hdict := reads_dict e wide member ws (.inl hwide) hread
      rw [Entries.putAll_nil_of_nodup _ hkeys] at hdict
      exact ⟨hdict, opens_writtenChars ws⟩
  | record kind fields vs htag homitted hnames hnodup hfields ih =>
      obtain ⟨e, ws, rfl, hpairs, rfl, hws⟩ := valueChars_record_eq_ok d kind vs text htext
      obtain ⟨hread, hfill⟩ := fields_reread (d := e) homitted hnames hnodup hpairs
        fun w hw f hf => (ih (f, (w.name, w.value)) hf e f.schema rfl id w.text (hws w hw)).1
      rw [tagWritten, htag]
      exact ⟨reads_record e wide kind fields ws vs hwide hread hfill, opens_writtenChars ws⟩
  | variant kinds kind tag fields vs htag hkind homitted hnames hnodup hfields ih =>
      obtain ⟨e, ws, rfl, hpairs, rfl, hws⟩ := valueChars_record_eq_ok d kind vs text htext
      obtain ⟨hread, hfill⟩ := fields_reread (d := e) homitted hnames hnodup hpairs
        fun w hw f hf => (ih (f, (w.name, w.value)) hf e f.schema rfl id w.text (hws w hw)).1
      rw [tagWritten, htag]
      exact ⟨reads_variant e wide kinds kind fields tag ws vs hwide hkind hread hfill,
        opens_writtenChars _⟩

theorem decode_of_encode {schema : Schema} {v : Value} {text : String} (hv : Fits schema v)
    (h : encode v = .ok text) : decode schema text = .ok v := by
  obtain ⟨chars, hchars, rfl⟩ := map_eq_ok h
  have hread := (reads_fits maxEncodeDepth schema schema rfl id v hv chars hchars).1
  rw [decode, Utf8.encode, String.toList_ofList]
  exact decodeBytes_of_reads schema chars v hread

end Coffer.Json
