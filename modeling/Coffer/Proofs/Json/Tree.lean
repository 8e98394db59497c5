import Coffer.Proofs.Json.Value

namespace Coffer.Json

-- What a record may hold without a schema of its own: null, booleans, integers of a machine
-- word, texts, lists, and mappings with text keys.
inductive IsTree : Value → Prop where
  | null : IsTree .null
  | bool (b : Bool) : IsTree (.bool b)
  | int (n : Int) (hn : fitsWord n = true) : IsTree (.int n)
  | text (s : String) : IsTree (.text s)
  | list (items : List Value) (hitems : ∀ v ∈ items, IsTree v) : IsTree (.list items)
  | dict (members : Entries String Value) (hkeys : (Entries.keys members).Nodup)
      (hmembers : ∀ m ∈ members, IsTree m.2) : IsTree (Value.ofMembers members)

-- The items of a list, each with the text it was written as.
theorem itemsChars_eq_ok (d : Nat) (vs : List Value) (texts : List (List Char))
    (h : itemsChars d vs = .ok texts) :
    ∃ ps : List (List Char × Value), ps.map Prod.snd = vs ∧ ps.map Prod.fst = texts ∧
      ∀ p ∈ ps, valueChars d p.2 = .ok p.1 := by
  induction vs generalizing texts with
  | nil =>
      rw [itemsChars] at h
      cases h
      exact ⟨[], rfl, rfl, by simp⟩
  | cons v vs ih =>
      rw [itemsChars] at h
      obtain ⟨text, htext, h⟩ := bind_eq_ok h
      obtain ⟨rest, hrest, h⟩ := bind_eq_ok h
      cases h
      obtain ⟨ps, rfl, rfl, hps⟩ := ih rest hrest
      refine ⟨(text, v) :: ps, rfl, rfl, ?_⟩
      intro p hp
      rcases List.mem_cons.mp hp with rfl | hp
      · exact htext
      · exact hps p hp

-- The members of a mapping with text keys, each with the text its value was written as.
theorem entriesChars_eq_ok (d : Nat) (members : Entries String Value)
    (chars : List (List Char × List Char))
    (h : entriesChars d (members.map fun m => (Value.text m.1, m.2)) = .ok chars) :
    ∃ ws : List (Written Value), pairs ws = members ∧
      chars = ws.map (fun w => (textChars w.name, w.text)) ∧
      ∀ w ∈ ws, valueChars d w.value = .ok w.text := by
  induction members generalizing chars with
  | nil =>
      rw [List.map_nil, entriesChars] at h
      cases h
      exact ⟨[], rfl, rfl, by simp⟩
  | cons m members ih =>
      obtain ⟨k, v⟩ := m
      rw [List.map_cons, entriesChars, keyChars, ok_bind] at h
      obtain ⟨text, htext, h⟩ := bind_eq_ok h
      obtain ⟨rest, hrest, h⟩ := bind_eq_ok h
      cases h
      obtain ⟨ws, hpairs, hchars, hws⟩ := ih rest hrest
      refine ⟨⟨k, text, v⟩ :: ws, ?_, ?_, ?_⟩
      · rw [← hpairs]
        rfl
      · rw [hchars]
        rfl
      · intro w hw
        rcases List.mem_cons.mp hw with rfl | hw
        · exact htext
        · exact hws w hw

theorem pairs_mem {β : Type} {ws : List (Written β)} {w : Written β} (hw : w ∈ ws) :
    (w.name, w.value) ∈ pairs ws :=
  List.mem_map.mpr ⟨w, hw, rfl⟩

theorem opens_bool (b : Bool) :
    Opens (if b then ['t', 'r', 'u', 'e'] else ['f', 'a', 'l', 's', 'e']) := by
  cases b
  · exact ⟨ascii 'f', _, rfl, by decide, by decide, by decide⟩
  · exact ⟨ascii 't', _, rfl, by decide, by decide, by decide⟩

theorem opens_null : Opens ['n', 'u', 'l', 'l'] := ⟨ascii 'n', _, rfl, by decide, by decide, by decide⟩

theorem valueChars_bool (d : Nat) (b : Bool) :
    valueChars d (.bool b) = .ok (if b then ['t', 'r', 'u', 'e'] else ['f', 'a', 'l', 's', 'e']) := by
  cases b <;> rfl

-- A list or a mapping has a text only where one more may open.

theorem valueChars_list (d : Nat) (items : List Value) :
    valueChars d (.list items) =
      if d = 0 then .error .tooDeep else listChars <$> itemsChars (d - 1) items := rfl

theorem valueChars_dict (d : Nat) (entries : Entries Value Value) :
    valueChars d (.dict entries) =
      if d = 0 then .error .tooDeep else objectChars <$> entriesChars (d - 1) entries := rfl

theorem valueChars_list_eq_ok (d : Nat) (items : List Value) (text : List Char)
    (h : valueChars d (.list items) = .ok text) :
    ∃ e texts, d = e + 1 ∧ itemsChars e items = .ok texts ∧ text = listChars texts := by
  rw [valueChars_list] at h
  cases d with
  | zero => cases h
  | succ e =>
      obtain ⟨texts, htexts, rfl⟩ := map_eq_ok h
      exact ⟨e, texts, rfl, htexts, rfl⟩

theorem valueChars_dict_eq_ok (d : Nat) (entries : Entries Value Value) (text : List Char)
    (h : valueChars d (.dict entries) = .ok text) :
    ∃ e chars, d = e + 1 ∧ entriesChars e entries = .ok chars ∧ text = objectChars chars := by
  rw [valueChars_dict] at h
  cases d with
  | zero => cases h
  | succ e =>
      obtain ⟨chars, hchars, rfl⟩ := map_eq_ok h
      exact ⟨e, chars, rfl, hchars, rfl⟩

-- A tree that has a text is read back from it, to the depth it was written at.
theorem reads_tree (d : Nat) (schema : Schema) (h : schema.solid = .any) (v : Value) (hv : IsTree v)
    (text : List Char) (htext : valueChars d v = .ok text) :
    Reads (value d schema) text v ∧ Opens text := by
  induction d using Nat.strongRecOn generalizing v text schema with
  | ind d ih =>
      cases hv with
      | null =>
          rw [valueChars] at htext
          cases htext
          exact ⟨reads_null d schema (acceptsNull_of_any h), opens_null⟩
      | bool b =>
          rw [valueChars_bool] at htext
          cases htext
          exact ⟨reads_bool d schema b (.inl h), opens_bool b⟩
      | int n hn =>
          rw [valueChars] at htext
          cases htext
          exact ⟨reads_int d schema n (isShort_of_fitsWord hn) (.inl h), opens_intChars n⟩
      | text s =>
          rw [valueChars] at htext
          cases htext
          exact ⟨reads_text d schema s (.inl h), opens_textChars s⟩
      | list items hitems =>
          obtain ⟨e, texts, rfl, htexts, rfl⟩ := valueChars_list_eq_ok d items text htext
          obtain ⟨ps, rfl, rfl, hps⟩ := itemsChars_eq_ok e items texts htexts
          have hboth (p : List Char × Value) (hp : p ∈ ps) :
              Reads (value e .any) p.1 p.2 ∧ Opens p.1 :=
            ih e (Nat.lt_succ_self e) .any rfl p.2 (hitems p.2 (List.mem_map_of_mem hp)) p.1 (hps p hp)
          exact ⟨reads_list e schema .any ps (.inr ⟨h, rfl⟩) (fun p hp => (hboth p hp).1)
            fun p hp => (hboth p hp).2, opens_listChars _⟩
      | dict members hkeys hmembers =>
          obtain ⟨e, chars, rfl, hchars, rfl⟩ := valueChars_dict_eq_ok d _ text htext
          obtain ⟨ws, rfl, rfl, hws⟩ := entriesChars_eq_ok e members chars hchars
          have hread (w : Written Value) (hw : w ∈ ws) : Reads (value e .any) w.text w.value :=
            (ih e (Nat.lt_succ_self e) .any rfl w.value (hmembers _ (pairs_mem hw)) w.text (hws w hw)).1
          have hdict := reads_dict e schema .any ws (.inr ⟨h, rfl⟩) hread
          rw [Entries.putAll_nil_of_nodup _ hkeys] at hdict
          exact ⟨hdict, opens_writtenChars ws⟩

end Coffer.Json
