import Coffer.Proofs.Json.Shape

namespace Coffer.Json

def writtenTexts (entries : Entries String String) : List (Written Value) :=
  entries.map fun e => ⟨e.1, textChars e.2, .text e.2⟩

theorem textMembers_eq (entries : Entries String String) :
    textMembers entries = writtenChars (writtenTexts entries) := by
  simp only [textMembers, writtenChars, writtenTexts, List.map_map]
  rfl

def textValues (entries : Entries String String) : Value :=
  Value.ofMembers (entries.map fun e => (e.1, Value.text e.2))

theorem textEntries_textValues (entries : Entries String String) :
    (textValues entries).textEntries = entries := by
  simp only [textValues, Value.ofMembers, Value.textEntries, List.map_map]
  exact List.map_id entries

theorem reads_textMembers (d : Nat) (entries : Entries String String) :
    Reads (value (d + 1) (.dict .text)) (textMembers entries)
      (textValues (Entries.putAll [] entries)) := by
  have hread (w : Written Value) (hw : w ∈ writtenTexts entries) :
      Reads (value d .text) w.text w.value := by
    obtain ⟨e, -, rfl⟩ := List.mem_map.mp hw
    exact reads_text d .text e.2 (.inr rfl)
  have hpairs : Entries.putAll [] (pairs (writtenTexts entries)) =
      (Entries.putAll [] entries).map fun e => (e.1, Value.text e.2) := by
    have hmap := Entries.putAll_map Value.text [] entries
    simp only [pairs, writtenTexts, List.map_map]
    exact hmap
  have hdict := reads_dict d (.dict .text) .text (writtenTexts entries) (.inl rfl) hread
  rw [hpairs] at hdict
  rw [textMembers_eq]
  exact hdict

theorem reads_textList (d : Nat) (items : List String) :
    Reads (value (d + 1) (.list .text)) (textList items) (.list (items.map Value.text)) := by
  have hlist := reads_list d (.list .text) .text (items.map fun s => (textChars s, Value.text s))
    (.inl rfl) (by
      intro p hp
      obtain ⟨s, -, rfl⟩ := List.mem_map.mp hp
      exact reads_text d .text s (.inr rfl)) (by
      intro p hp
      obtain ⟨s, -, rfl⟩ := List.mem_map.mp hp
      exact opens_textChars s)
  simp only [List.map_map] at hlist
  exact hlist

theorem nodup_textEntries {b : Bytes} {v : Value} (h : decodeBytes (.dict .text) b = .ok v) :
    (Entries.keys v.textEntries).Nodup := by
  cases decodeBytes_hasType h with
  | dict _ members hnodup _ =>
      have hkeys : Entries.keys (Value.ofMembers members).textEntries = Entries.keys members := by
        simp only [Value.ofMembers, Value.textEntries, Entries.keys, List.map_map]
        rfl
      rw [hkeys]
      exact hnodup

-- A text of which no byte is a control character, so that no line ends in it.
def IsPlain (cs : List Char) : Prop := ∀ b ∈ Utf8.encodeChars cs, 0x20 ≤ b.toNat

instance (cs : List Char) : Decidable (IsPlain cs) :=
  List.decidableBAll (fun b : UInt8 => 0x20 ≤ b.toNat) (Utf8.encodeChars cs)

theorem isPlain_append (cs ds : List Char) (hc : IsPlain cs) (hd : IsPlain ds) :
    IsPlain (cs ++ ds) := by
  intro b hb
  rw [Utf8.encodeChars_append, List.mem_append] at hb
  exact hb.elim (hc b) (hd b)

theorem isPlain_commaSeparated (texts : List (List Char)) (h : ∀ text ∈ texts, IsPlain text) :
    IsPlain (commaSeparated texts) := by
  have hcomma : IsPlain [','] := by decide
  induction texts with
  | nil => simp [IsPlain, commaSeparated]
  | cons text texts ih =>
      have htext := h text List.mem_cons_self
      cases texts with
      | nil => exact htext
      | cons second rest =>
          have hrest := ih fun t ht => h t (List.mem_cons_of_mem _ ht)
          rw [commaSeparated]
          · exact isPlain_append _ _ htext (isPlain_append [','] _ hcomma hrest)
          · simp

theorem isPlain_listChars (texts : List (List Char)) (h : ∀ text ∈ texts, IsPlain text) :
    IsPlain (listChars texts) :=
  isPlain_append ['['] _ (by decide)
    (isPlain_append _ [']'] (isPlain_commaSeparated texts h) (by decide))

theorem isPlain_objectChars (members : List (List Char × List Char))
    (h : ∀ m ∈ members, IsPlain m.1 ∧ IsPlain m.2) : IsPlain (objectChars members) := by
  refine isPlain_append ['\x7b'] _ (by decide) (isPlain_append _ ['\x7d'] ?_ (by decide))
  apply isPlain_commaSeparated
  intro text htext
  obtain ⟨m, hm, rfl⟩ := List.mem_map.mp htext
  exact isPlain_append _ _ (h m hm).1 (isPlain_append [':'] _ (by decide) (h m hm).2)

theorem isPlain_textMembers (entries : Entries String String) : IsPlain (textMembers entries) := by
  apply isPlain_objectChars
  intro m hm
  obtain ⟨e, -, rfl⟩ := List.mem_map.mp hm
  exact ⟨le_of_mem_textChars e.1, le_of_mem_textChars e.2⟩

theorem isPlain_textList (items : List String) : IsPlain (textList items) := by
  apply isPlain_listChars
  intro text htext
  obtain ⟨s, -, rfl⟩ := List.mem_map.mp htext
  exact le_of_mem_textChars s

end Coffer.Json
