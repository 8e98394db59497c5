import Coffer.Proofs.Json.Fits
import Coffer.Proofs.Json.Key

namespace Coffer.Json

-- One value stands somewhere in another; the keys of mappings do not count.
inductive Occurs (u : Value) : Value → Prop where
  | here : Occurs u u
  | item (items : List Value) (v : Value) (hv : v ∈ items) (h : Occurs u v) : Occurs u (.list items)
  | member (entries : List (Value × Value)) (e : Value × Value) (he : e ∈ entries)
      (h : Occurs u e.2) : Occurs u (.dict entries)
  | field (kind : RecordKind) (fields : List (String × Value)) (e : String × Value)
      (he : e ∈ fields) (h : Occurs u e.2) : Occurs u (.record kind fields)

-- No integer in the value has more characters than reading takes.
def IsLegible (v : Value) : Prop := ∀ n, Occurs (.int n) v → IsShort n

theorem IsLegible.item {items : List Value} (h : IsLegible (.list items)) {v : Value}
    (hv : v ∈ items) : IsLegible v :=
  fun n hn => h n (.item items v hv hn)

theorem IsLegible.member {entries : List (Value × Value)} (h : IsLegible (.dict entries))
    {e : Value × Value} (he : e ∈ entries) : IsLegible e.2 :=
  fun n hn => h n (.member entries e he hn)

theorem IsLegible.field {kind : RecordKind} {fields : List (String × Value)}
    (h : IsLegible (.record kind fields)) {e : String × Value} (he : e ∈ fields) : IsLegible e.2 :=
  fun n hn => h n (.field kind fields e he hn)

theorem isLegible_null : IsLegible .null := by rintro n ⟨⟩

theorem isLegible_bool (b : Bool) : IsLegible (.bool b) := by rintro n ⟨⟩

theorem isLegible_text (s : String) : IsLegible (.text s) := by rintro n ⟨⟩

theorem isLegible_float (x : Double) : IsLegible (.float x) := by rintro n ⟨⟩

theorem isLegible_list {items : List Value} (h : ∀ v ∈ items, IsLegible v) :
    IsLegible (.list items) := by
  intro n hn
  cases hn with
  | item _ v hv hn => exact h v hv n hn

theorem isLegible_ofMembers {members : Entries String Value} (h : ∀ m ∈ members, IsLegible m.2) :
    IsLegible (Value.ofMembers members) := by
  intro n hn
  cases hn with
  | member _ e he hn =>
      obtain ⟨m, hm, rfl⟩ := List.mem_map.mp he
      exact h m hm n hn

-- The values that a schema is declared for, with no integer longer than reading takes. Mappings may
-- have keys of any kind, and any value may stand where the schema asks for none in particular.
inductive Conforms : Schema → Value → Prop where
  | any (v : Value) (hv : IsLegible v) : Conforms .any v
  | int (bounds : Option (Int × Int)) (n : Int) (hn : IsShort n)
      (hbounds : checkBounds bounds n = .ok (.int n)) : Conforms (.int bounds) (.int n)
  | text (s : String) : Conforms .text (.text s)
  | bool (b : Bool) : Conforms .bool (.bool b)
  | null (inner : Schema) : Conforms (.nullable inner) .null
  | nullable (inner : Schema) (v : Value) (hv : Conforms inner v) : Conforms (.nullable inner) v
  | option (choices : List Choice) (c : Choice) (hc : c ∈ choices) :
      Conforms (.options choices) (.choice c)
  | list (item : Schema) (items : List Value) (hitems : ∀ v ∈ items, Conforms item v) :
      Conforms (.list item) (.list items)
  | dict (member : Schema) (entries : List (Value × Value))
      (hmembers : ∀ e ∈ entries, Conforms member e.2) : Conforms (.dict member) (.dict entries)
  | record (kind : RecordKind) (fields : List (Member Schema)) (vs : Entries String Value)
      (htag : kind.tag = none) (hnames : vs.keys = fields.map Member.name)
      (hfields : ∀ p ∈ fields.zip vs, Conforms p.1.schema p.2.2) :
      Conforms (.record kind fields) (.record kind vs)
  | variant (kinds : List (RecordKind × List (Member Schema))) (kind : RecordKind) (tag : String)
      (fields : List (Member Schema)) (vs : Entries String Value) (htag : kind.tag = some tag)
      (hkind : kinds.find? (fun k => k.1.tag == some tag) = some (kind, fields))
      (hnames : vs.keys = fields.map Member.name)
      (hfields : ∀ p ∈ fields.zip vs, Conforms p.1.schema p.2.2) :
      Conforms (.variants kinds) (.record kind vs)

-- The fields of a record have names of their own, what stands for an absent one conforms to its
-- schema, and only absent fields may be left out.
structure LawfulFields (kind : RecordKind) (fields : List (Member Schema)) : Prop where
  nodup : (fields.map Member.name).Nodup
  absent : ∀ f ∈ fields, ∀ v, f.absent = some v → Conforms f.schema v
  omitted : kind.omitsNull = true → ∀ f ∈ fields, f.absent ≠ none

-- A schema whose records are all lawful.
inductive Lawful : Schema → Prop where
  | any : Lawful .any
  | int (bounds : Option (Int × Int)) : Lawful (.int bounds)
  | float : Lawful .float
  | text : Lawful .text
  | bool : Lawful .bool
  | list (item : Schema) (h : Lawful item) : Lawful (.list item)
  | dict (member : Schema) (h : Lawful member) : Lawful (.dict member)
  | nullable (inner : Schema) (h : Lawful inner) : Lawful (.nullable inner)
  | options (choices : List Choice) : Lawful (.options choices)
  | record (kind : RecordKind) (fields : List (Member Schema)) (hfields : LawfulFields kind fields)
      (h : ∀ f ∈ fields, Lawful f.schema) : Lawful (.record kind fields)
  | variants (kinds : List (RecordKind × List (Member Schema)))
      (hfields : ∀ k ∈ kinds, LawfulFields k.1 k.2)
      (h : ∀ k ∈ kinds, ∀ f ∈ k.2, Lawful f.schema) : Lawful (.variants kinds)

-- Lists and mappings whose parts are read

section Parts

variable {P : Value → Prop} {d : Nat} {schema : Schema}

theorem reads_items {item : Schema} (h : schema.solid = .list item ∨ (schema.solid = .any ∧ item = .any))
    {ps : List (List Char × Value)}
    (hps : ∀ p ∈ ps, ∃ v, P v ∧ Reads (value d item) p.1 v ∧ Opens p.1) :
    ∃ vs, (∀ v ∈ vs, P v) ∧ Reads (value (d + 1) schema) (listChars (ps.map Prod.fst)) (.list vs) := by
  choose! read hread using hps
  have hlist := reads_list d schema item (ps.map fun p => (p.1, read p)) h
    (List.forall_mem_map.mpr fun p hp => (hread p hp).2.1)
    (List.forall_mem_map.mpr fun p hp => (hread p hp).2.2)
  rw [List.map_map, List.map_map] at hlist
  exact ⟨_, List.forall_mem_map.mpr fun p hp => (hread p hp).1, hlist⟩

-- Members as they are read again.
def reread (read : Written Value → Value) (ws : List (Written Value)) : List (Written Value) :=
  ws.map fun w => { w with value := read w }

theorem writtenChars_reread (before ws : List (Written Value)) (read : Written Value → Value) :
    writtenChars (before ++ reread read ws) = writtenChars (before ++ ws) := by
  simp only [writtenChars, reread, List.map_append, List.map_map]
  rfl

theorem mem_pairs_reread {read : Written Value → Value} {ws : List (Written Value)}
    {e : String × Value} (he : e ∈ pairs (reread read ws)) :
    ∃ w ∈ ws, w.name = e.1 ∧ read w = e.2 := by
  simp only [pairs, reread, List.map_map, List.mem_map] at he
  obtain ⟨w, hw, rfl⟩ := he
  exact ⟨w, hw, rfl, rfl⟩

theorem keys_pairs_reread (read : Written Value → Value) (ws : List (Written Value)) :
    (pairs (reread read ws)).keys = (pairs ws).keys := by
  simp only [pairs, reread, Entries.keys, List.map_map]
  rfl

theorem reads_members {member : Schema}
    (h : schema.solid = .dict member ∨ (schema.solid = .any ∧ member = .any))
    (ws : List (Written Value)) (hws : ∀ w ∈ ws, ∃ v, P v ∧ Reads (value d member) w.text v) :
    ∃ members : Entries String Value, (∀ m ∈ members, P m.2) ∧
      Reads (value (d + 1) schema) (writtenChars ws) (Value.ofMembers members) := by
  choose! read hread using hws
  have hdict := reads_dict d schema member (reread read ws) h
    (List.forall_mem_map.mpr fun w hw => (hread w hw).2)
  rw [← List.nil_append (reread read ws), writtenChars_reread, List.nil_append, List.nil_append] at hdict
  refine ⟨_, fun m hm => ?_, hdict⟩
  rcases Entries.mem_putAll hm with hm | hm
  · cases hm
  · obtain ⟨w, hw, -, hvalue⟩ := mem_pairs_reread hm
    rw [← hvalue]
    exact (hread w hw).1

end Parts

-- Records whose fields are read

theorem fill_eq_ok {P : Schema → Value → Prop} (found : Entries String Value)
    (fields : List (Member Schema))
    (h : ∀ f ∈ fields, ∃ v, ((found.get? f.name = none ∧ f.absent = some v) ∨
      found.get? f.name = some v) ∧ P f.schema v) :
    ∃ vs : Entries String Value, fill found fields = .ok vs ∧ vs.keys = fields.map Member.name ∧
      ∀ p ∈ fields.zip vs, P p.1.schema p.2.2 := by
  induction fields with
  | nil => exact ⟨[], rfl, rfl, by simp⟩
  | cons f rest ih =>
      obtain ⟨vs, hfill, hnames, hvs⟩ := ih fun g hg => h g (List.mem_cons_of_mem _ hg)
      obtain ⟨v, hv, hP⟩ := h f List.mem_cons_self
      refine ⟨(f.name, v) :: vs, ?_, ?_, ?_⟩
      · rw [fill, hfill]
        rcases hv with ⟨hnone, habsent⟩ | hsome
        · rw [hnone, habsent]
          rfl
        · rw [hsome]
          rfl
      · simpa [Entries.keys] using hnames
      · exact List.forall_mem_cons.mpr ⟨hP, hvs⟩

-- The fields that were written are read each by its own schema, and what was left out is filled in.
theorem reads_fields {d : Nat} {kind : RecordKind} {fields : List (Member Schema)}
    {vs : Entries String Value} {ws : List (Written Value)} (hlawful : LawfulFields kind fields)
    (hnames : vs.keys = fields.map Member.name)
    (hpairs : pairs ws = vs.filter fun m => !(kind.omitsNull && m.2.isNull))
    (hread : ∀ w ∈ ws, ∀ f, (f, (w.name, w.value)) ∈ fields.zip vs →
      ∃ v, Conforms f.schema v ∧ Reads (value d f.schema) w.text v) :
    ∃ read vs', (∀ w ∈ reread read ws, ∃ f, fields.find? (fun f => f.name == w.name) = some f ∧
        Reads (value d f.schema) w.text w.value) ∧
      fill (Entries.putAll [] (pairs (reread read ws))) fields = .ok vs' ∧
      Entries.keys vs' = fields.map Member.name ∧ ∀ p ∈ fields.zip vs', Conforms p.1.schema p.2.2 := by
  have hnodup : vs.keys.Nodup := hnames ▸ hlawful.nodup
  have hfield (w : Written Value) (hw : w ∈ ws) :
      ∃ v f, fields.find? (fun f => f.name == w.name) = some f ∧ Conforms f.schema v ∧
        Reads (value d f.schema) w.text v := by
    have hmem : (w.name, w.value) ∈ vs := (List.mem_filter.mp (hpairs ▸ pairs_mem hw)).1
    obtain ⟨f, hfind, hzip⟩ := find?_of_zip hnames hnodup hmem
    obtain ⟨v, hv, hr⟩ := hread w hw f hzip
    exact ⟨v, f, hfind, hv, hr⟩
  choose! read hread using hfield
  have hkeys : (pairs (reread read ws)).keys.Nodup := by
    rw [keys_pairs_reread, hpairs]
    exact hnodup.sublist (List.filter_sublist.map _)
  obtain ⟨vs', hfill⟩ := fill_eq_ok (P := Conforms) (pairs (reread read ws)) fields fun f hf => by
    cases hget : (pairs (reread read ws)).get? f.name with
    | some v =>
        obtain ⟨w, hw, hname, hvalue⟩ := mem_pairs_reread (Entries.mem_of_get? hget)
        obtain ⟨g, hfind, hv, -⟩ := hread w hw
        have hname : w.name = f.name := hname
        rw [hname, find?_self hlawful.nodup hf] at hfind
        obtain rfl := Option.some.inj hfind
        obtain rfl : read w = v := hvalue
        exact ⟨_, .inr rfl, hv⟩
    | none =>
        have homits : kind.omitsNull = true := by
          by_contra homits
          have hall : pairs ws = vs := by simpa [eq_false_of_ne_true homits] using hpairs
          have hmem : f.name ∈ (pairs (reread read ws)).keys := by
            rw [keys_pairs_reread, hall, hnames]
            exact List.mem_map_of_mem hf
          rw [← Entries.get?_isSome_iff, hget] at hmem
          cases hmem
        obtain ⟨v, habsent⟩ := Option.ne_none_iff_exists'.mp (hlawful.omitted homits f hf)
        exact ⟨v, .inl ⟨rfl, habsent⟩, hlawful.absent f hf v habsent⟩
  rw [← Entries.putAll_nil_of_nodup _ hkeys] at hfill
  refine ⟨read, vs', ?_, hfill⟩
  refine List.forall_mem_map.mpr fun w hw => ?_
  obtain ⟨f, hfind, -, hr⟩ := hread w hw
  exact ⟨f, hfind, hr⟩

-- The text of a record is its mark and members that are read again, each by the schema of its field.
theorem record_written {d : Nat} {kind : RecordKind} {fields : List (Member Schema)}
    {vs : Entries String Value} {text : List Char} (hlawful : LawfulFields kind fields)
    (hnames : vs.keys = fields.map Member.name) (htext : valueChars d (.record kind vs) = .ok text)
    (hread : ∀ e, ∀ p ∈ fields.zip vs, ∀ text, valueChars e p.2.2 = .ok text →
      ∃ v, Conforms p.1.schema v ∧ Reads (value e p.1.schema) text v) :
    ∃ e ws vs', d = e + 1 ∧ text = writtenChars (tagWritten kind ++ ws) ∧
      (∀ w ∈ ws, ∃ f, fields.find? (fun f => f.name == w.name) = some f ∧
        Reads (value e f.schema) w.text w.value) ∧
      fill (Entries.putAll [] (pairs ws)) fields = .ok vs' ∧
      Entries.keys vs' = fields.map Member.name ∧ ∀ p ∈ fields.zip vs', Conforms p.1.schema p.2.2 := by
  obtain ⟨e, ws, hd, hpairs, rfl, hws⟩ := valueChars_record_eq_ok d kind vs text htext
  obtain ⟨read, vs', hmembers, hfill⟩ := reads_fields (d := e) hlawful hnames hpairs
    fun w hw f hf => hread e (f, (w.name, w.value)) hf w.text (hws w hw)
  exact ⟨e, reread read ws, vs', hd, (writtenChars_reread (tagWritten kind) ws read).symm, hmembers, hfill⟩

theorem reads_option (d : Nat) (schema : Schema) (choices : List Choice) (c : Choice) (hc : c ∈ choices)
    (h : schema.solid = .options choices) :
    ∃ c' ∈ choices, Reads (value d schema) (textChars c.text) (.choice c') := by
  obtain ⟨c', hfind⟩ : ∃ c', choices.find? (fun o => o.text == c.text) = some c' :=
    Option.isSome_iff_exists.mp (List.find?_isSome.mpr ⟨c, hc, by simp⟩)
  exact ⟨c', List.mem_of_find?_eq_some hfind, reads_choice d schema choices c.text hfind h⟩

-- A mapping under any keys that can be written, each member with the text of its value.
theorem entriesChars_written (d : Nat) (entries : List (Value × Value))
    (chars : List (List Char × List Char)) (h : entriesChars d entries = .ok chars) :
    ∃ ws : List (Written Value), chars = ws.map (fun w => (textChars w.name, w.text)) ∧
      ∀ w ∈ ws, valueChars d w.value = .ok w.text ∧ ∃ e ∈ entries, e.2 = w.value := by
  induction entries generalizing chars with
  | nil =>
      rw [entriesChars] at h
      cases h
      exact ⟨[], rfl, by simp⟩
  | cons e entries ih =>
      obtain ⟨k, v⟩ := e
      rw [entriesChars] at h
      obtain ⟨key, hkey, h⟩ := bind_eq_ok h
      obtain ⟨text, htext, h⟩ := bind_eq_ok h
      obtain ⟨rest, hrest, h⟩ := bind_eq_ok h
      cases h
      obtain ⟨name, rfl⟩ := keyChars_eq_ok hkey
      obtain ⟨ws, rfl, hws⟩ := ih rest hrest
      refine ⟨⟨name, text, v⟩ :: ws, rfl, List.forall_mem_cons.mpr ⟨⟨htext, _, List.mem_cons_self, rfl⟩, ?_⟩⟩
      intro w hw
      obtain ⟨hw, e, he, hvalue⟩ := hws w hw
      exact ⟨hw, e, List.mem_cons_of_mem _ he, hvalue⟩

-- Where no value in particular is asked for, all that has a text is read again, if no integer in it
-- is too long.
theorem reads_any (d : Nat) (schema : Schema) (h : schema.solid = .any) (v : Value) (hv : IsLegible v)
    (text : List Char) (htext : valueChars d v = .ok text) :
    ∃ v', IsLegible v' ∧ Reads (value d schema) text v' ∧ Opens text := by
  induction d using Nat.strongRecOn generalizing schema v text with
  | ind d ih =>
      cases v with
      | null =>
          rw [valueChars] at htext
          cases htext
          exact ⟨_, isLegible_null, reads_null d schema (acceptsNull_of_any h), opens_null⟩
      | bool b =>
          rw [valueChars_bool] at htext
          cases htext
          exact ⟨_, isLegible_bool b, reads_bool d schema b (.inl h), opens_bool b⟩
      | int n =>
          rw [valueChars] at htext
          cases htext
          exact ⟨_, hv, reads_int d schema n (hv n .here) (.inl h), opens_intChars n⟩
      | float x =>
          rw [valueChars] at htext
          cases htext
          obtain ⟨v', rfl | ⟨y, rfl⟩, hread, hopen⟩ := reads_float d schema h x
          · exact ⟨_, isLegible_null, hread, hopen⟩
          · exact ⟨_, isLegible_float y, hread, hopen⟩
      | text s =>
          rw [valueChars] at htext
          cases htext
          exact ⟨_, isLegible_text s, reads_text d schema s (.inl h), opens_textChars s⟩
      | choice c =>
          rw [valueChars] at htext
          cases htext
          exact ⟨_, isLegible_text c.text, reads_text d schema c.text (.inl h), opens_textChars c.text⟩
      | bytes b =>
          rw [valueChars, bytesChars, inQuotes_eq_textChars (isBare_bytes b)] at htext
          cases htext
          exact ⟨_, isLegible_text _, reads_text d schema _ (.inl h), opens_textChars _⟩
      | list items =>
          obtain ⟨e, texts, rfl, htexts, rfl⟩ := valueChars_list_eq_ok d items text htext
          obtain ⟨ps, rfl, rfl, hps⟩ := itemsChars_eq_ok e items texts htexts
          obtain ⟨vs, hvs, hread⟩ := reads_items (d := e) (.inr ⟨h, rfl⟩) fun p hp =>
            ih e (Nat.lt_succ_self e) .any rfl p.2 (hv.item (List.mem_map_of_mem hp)) p.1 (hps p hp)
          exact ⟨_, isLegible_list hvs, hread, opens_listChars _⟩
      | dict entries =>
          obtain ⟨e, chars, rfl, hchars, rfl⟩ := valueChars_dict_eq_ok d entries text htext
          obtain ⟨ws, rfl, hws⟩ := entriesChars_written e entries chars hchars
          obtain ⟨members, hmembers, hread⟩ := reads_members (P := IsLegible) (d := e)
            (.inr ⟨h, rfl⟩) ws fun w hw => by
              obtain ⟨hw, m, hm, hvalue⟩ := hws w hw
              obtain ⟨v', hv', hread, -⟩ := ih e (Nat.lt_succ_self e) .any rfl w.value
                (hvalue ▸ hv.member hm) w.text hw
              exact ⟨v', hv', hread⟩
          exact ⟨_, isLegible_ofMembers hmembers, hread, opens_writtenChars ws⟩
      | record kind fields =>
          obtain ⟨e, ws, rfl, hpairs, rfl, hws⟩ := valueChars_record_eq_ok d kind fields text htext
          obtain ⟨members, hmembers, hread⟩ := reads_members (P := IsLegible) (d := e)
            (.inr ⟨h, rfl⟩) (tagWritten kind ++ ws) fun w hw => by
              rcases List.mem_append.mp hw with hw | hw
              · obtain ⟨tag, -, rfl⟩ := List.mem_map.mp hw
                exact ⟨_, isLegible_text tag, reads_text e .any tag (.inl rfl)⟩
              · have hmem := (List.mem_filter.mp (hpairs ▸ pairs_mem hw)).1
                obtain ⟨v', hv', hread, -⟩ := ih e (Nat.lt_succ_self e) .any rfl w.value
                  (hv.field hmem) w.text (hws w hw)
                exact ⟨v', hv', hread⟩
          exact ⟨_, isLegible_ofMembers hmembers, hread, opens_writtenChars _⟩
      | _ =>
          rw [valueChars] at htext
          cases htext

-- What conforms to a lawful schema and has a text is read by the schema again, as a value that
-- conforms to it too. A schema that also takes null reads it just as well.
theorem reads_conforming {schema : Schema} {v : Value} (hv : Conforms schema v)
    (hlawful : Lawful schema) (d : Nat) (wide : Schema) (hwide : wide.solid = schema.solid)
    (hnull : schema.acceptsNull = true → wide.acceptsNull = true) (text : List Char)
    (htext : valueChars d v = .ok text) :
    ∃ v', Conforms schema v' ∧ Reads (value d wide) text v' ∧ Opens text := by
  induction hv generalizing d wide text with
  | any v hv =>
      obtain ⟨v', hv', hread⟩ := reads_any d wide hwide v hv text htext
      exact ⟨v', .any v' hv', hread⟩
  | int bounds n hn hbounds =>
      rw [valueChars] at htext
      cases htext
      exact ⟨_, .int bounds n hn hbounds, reads_int d wide n hn (.inr ⟨bounds, hwide, hbounds⟩),
        opens_intChars n⟩
  | text s =>
      rw [valueChars] at htext
      cases htext
      exact ⟨_, .text s, reads_text d wide s (.inr hwide), opens_textChars s⟩
  | bool b =>
      rw [valueChars_bool] at htext
      cases htext
      exact ⟨_, .bool b, reads_bool d wide b (.inr hwide), opens_bool b⟩
  | null inner =>
      rw [valueChars] at htext
      cases htext
      exact ⟨_, .null inner, reads_null d wide (hnull rfl), opens_null⟩
  | nullable inner v hv ih =>
      cases hlawful with
      | nullable _ hinner =>
          obtain ⟨v', hv', hread⟩ := ih hinner d wide hwide (fun _ => hnull rfl) text htext
          exact ⟨v', .nullable inner v' hv', hread⟩
  | option choices c hc =>
      rw [valueChars] at htext
      cases htext
      obtain ⟨c', hc', hread⟩ := reads_option d wide choices c hc hwide
      exact ⟨_, .option choices c' hc', hread, opens_textChars c.text⟩
  | list item items hitems ih =>
      cases hlawful with
      | list _ hitem =>
          obtain ⟨e, texts, rfl, htexts, rfl⟩ := valueChars_list_eq_ok d items text htext
          obtain ⟨ps, rfl, rfl, hps⟩ := itemsChars_eq_ok e items texts htexts
          obtain ⟨vs, hvs, hread⟩ := reads_items (d := e) (.inl hwide) fun p hp =>
            ih p.2 (List.mem_map_of_mem hp) hitem e item rfl id p.1 (hps p hp)
          exact ⟨_, .list item vs hvs, hread, opens_listChars _⟩
  | dict member entries hmembers ih =>
      cases hlawful with
      | dict _ hmember =>
          obtain ⟨e, chars, rfl, hchars, rfl⟩ := valueChars_dict_eq_ok d entries text htext
          obtain ⟨ws, rfl, hws⟩ := entriesChars_written e entries chars hchars
          obtain ⟨members, hmembers, hread⟩ := reads_members (P := Conforms member) (d := e)
            (.inl hwide) ws fun w hw => by
              obtain ⟨hw, m, hm, hvalue⟩ := hws w hw
              obtain ⟨v', hv', hread, -⟩ := ih m hm hmember e member rfl id w.text (hvalue ▸ hw)
              exact ⟨v', hv', hread⟩
          exact ⟨_, .dict member _ (List.forall_mem_map.mpr hmembers), hread, opens_writtenChars ws⟩
  | record kind fields vs htag hnames hfields ih =>
      cases hlawful with
      | record _ _ hlawful hschemas =>
          obtain ⟨e, ws, vs', rfl, rfl, hread, hfill, hnames', hfields'⟩ :=
            record_written hlawful hnames htext fun e p hp text htext => by
              obtain ⟨v', hv', hread, -⟩ := ih p hp (hschemas p.1 (List.of_mem_zip hp).1) e p.1.schema rfl
                id text htext
              exact ⟨v', hv', hread⟩
          have hrecord := reads_record e wide kind fields ws vs' hwide hread hfill
          simp only [tagWritten, htag, Option.toList_none, List.map_nil, List.nil_append]
          exact ⟨_, .record kind fields vs' htag hnames' hfields', hrecord, opens_writtenChars ws⟩
  | variant kinds kind tag fields vs htag hkind hnames hfields ih =>
      cases hlawful with
      | variants _ hlawful hschemas =>
          have hmem := List.mem_of_find?_eq_some hkind
          obtain ⟨e, ws, vs', rfl, rfl, hread, hfill, hnames', hfields'⟩ :=
            record_written (hlawful _ hmem) hnames htext fun e p hp text htext => by
              obtain ⟨v', hv', hread, -⟩ := ih p hp (hschemas _ hmem p.1 (List.of_mem_zip hp).1) e
                p.1.schema rfl id text htext
              exact ⟨v', hv', hread⟩
          have hvariant := reads_variant e wide kinds kind fields tag ws vs' hwide hkind hread hfill
          simp only [tagWritten, htag, Option.toList_some, List.map_cons, List.map_nil, List.cons_append,
            List.nil_append]
          exact ⟨_, .variant kinds kind tag fields vs' htag hkind hnames' hfields', hvariant,
            opens_writtenChars _⟩

theorem decode_of_conforms {schema : Schema} {v : Value} {text : String} (hlawful : Lawful schema)
    (hv : Conforms schema v) (h : encode v = .ok text) :
    ∃ v', Conforms schema v' ∧ decode schema text = .ok v' := by
  obtain ⟨chars, hchars, rfl⟩ := map_eq_ok h
  obtain ⟨v', hv', hread, -⟩ := reads_conforming hv hlawful maxEncodeDepth schema rfl id chars hchars
  refine ⟨v', hv', ?_⟩
  rw [decode, Utf8.encode, String.toList_ofList]
  exact decodeBytes_of_reads schema chars v' hread

end Coffer.Json
