import Coffer.Proofs.Entries
import Coffer.Proofs.Json.Number

namespace Coffer.Json

section Scalars

variable (inner : Option (Schema → Bytes → Except Error (Value × Bytes)))
  (skip : Bytes → Except Error Bytes) (schema : Schema)

theorem valueWith_quote (s : Bytes) :
    valueWith inner skip schema (ascii '"' :: s) = textValue schema s := by
  rw [valueWith, next_cons _ _ (by decide), ok_bind]
  simp

theorem valueWith_null (s : Bytes) (h : schema.acceptsNull = true) :
    valueWith inner skip schema (Utf8.encodeChars ['n', 'u', 'l', 'l'] ++ s) = .ok (.null, s) := by
  have hword : word ['u', 'l', 'l'] false (ascii 'u' :: ascii 'l' :: ascii 'l' :: s) = .ok s := by
    simp [word]
  change valueWith inner skip schema (ascii 'n' :: ascii 'u' :: ascii 'l' :: ascii 'l' :: s) = _
  rw [valueWith, next_cons _ _ (by decide), ok_bind]
  simp only [List.drop_succ_cons, List.drop_zero, hword, ok_bind, h, if_true]
  rfl

theorem valueWith_bool (b : Bool) (s : Bytes) (h : schema.solid = .any ∨ schema.solid = .bool) :
    valueWith inner skip schema
        (Utf8.encodeChars (if b then ['t', 'r', 'u', 'e'] else ['f', 'a', 'l', 's', 'e']) ++ s) =
      .ok (.bool b, s) := by
  have htrue : word ['r', 'u', 'e'] false (ascii 'r' :: ascii 'u' :: ascii 'e' :: s) = .ok s := by
    simp [word]
  have hfalse : word ['a', 'l', 's', 'e'] false
      (ascii 'a' :: ascii 'l' :: ascii 's' :: ascii 'e' :: s) = .ok s := by
    simp [word]
  have hne : ascii 'f' ≠ ascii 't' := by decide
  cases b with
  | true =>
      change valueWith inner skip schema (ascii 't' :: ascii 'r' :: ascii 'u' :: ascii 'e' :: s) = _
      rw [valueWith, next_cons _ _ (by decide), ok_bind]
      dsimp only
      rw [if_neg (by decide), if_neg (by decide), if_pos (.inl rfl)]
      simp only [List.drop_succ_cons, List.drop_zero, if_true, htrue, ok_bind]
      rcases h with h | h <;> simp [h]
  | false =>
      change valueWith inner skip schema
        (ascii 'f' :: ascii 'a' :: ascii 'l' :: ascii 's' :: ascii 'e' :: s) = _
      rw [valueWith, next_cons _ _ (by decide), ok_bind]
      dsimp only
      rw [if_neg (by decide), if_neg (by decide), if_pos (.inr rfl)]
      simp only [List.drop_succ_cons, List.drop_zero, hne, if_false, hfalse, ok_bind]
      rcases h with h | h <;> simp [h]

theorem valueWith_bracket (value : Schema → Bytes → Except Error (Value × Bytes)) (item : Schema)
    (s : Bytes) (h : schema.solid = .list item ∨ (schema.solid = .any ∧ item = .any)) :
    valueWith (some value) skip schema (ascii '[' :: s) = listValue value item s := by
  rw [valueWith, next_cons _ _ (by decide), ok_bind]
  dsimp only
  rw [if_neg (by decide), if_neg (by decide), if_neg (by decide), if_pos rfl]
  rcases h with h | ⟨h, rfl⟩ <;> simp [h]

theorem valueWith_brace (value : Schema → Bytes → Except Error (Value × Bytes)) (s : Bytes) :
    valueWith (some value) skip schema (ascii '\x7b' :: s) = objectValue value skip schema s := by
  rw [valueWith, next_cons _ _ (by decide), ok_bind]
  dsimp only
  rw [if_neg (by decide), if_neg (by decide), if_neg (by decide), if_neg (by decide), if_pos rfl]
  simp

-- Digits and the minus sign are none of the other marks that a value may start with.
theorem valueWith_number (b : UInt8) (tail : Bytes) (hfirst : b = 0x2D ∨ isDigit b = true) :
    valueWith inner skip schema (b :: tail) =
      (do
        let (n, rest) ← number false (b :: tail)
        return (← numberValue schema n, rest)) := by
  have hother : isBlank b = false ∧ ∀ m ∈ ['"', 'n', 't', 'f', '[', '\x7b'], b ≠ ascii m := by
    rcases hfirst with rfl | hdigit
    · refine ⟨by decide, ?_⟩
      simp only [List.mem_cons, List.not_mem_nil, or_false, forall_eq_or_imp, forall_eq]
      decide
    · have hmarks : ∀ m ∈ ['"', 'n', 't', 'f', '[', '\x7b'], isDigit (ascii m) = false := by
        simp only [List.mem_cons, List.not_mem_nil, or_false, forall_eq_or_imp, forall_eq]
        decide
      refine ⟨(opens_of_isDigit b hdigit).1, fun m hm he => ?_⟩
      rw [he, hmarks m hm] at hdigit
      cases hdigit
  obtain ⟨hblank, hmarks⟩ := hother
  simp only [List.mem_cons, List.not_mem_nil, or_false, forall_eq_or_imp, forall_eq] at hmarks
  obtain ⟨h1, h2, h3, h4, h5, h6⟩ := hmarks
  rw [valueWith, next_cons _ _ hblank, ok_bind]
  simp only [h1, h2, h3, h4, h5, h6, or_self, if_false]

theorem valueWith_intChars (n : Int) (rest : Bytes) (hrest : Ends rest) :
    valueWith inner skip schema (Utf8.encodeChars (intChars n) ++ rest) =
      (do return (← integerValue schema n (Utf8.encodeChars (intChars n)).length, rest)) := by
  have hnumber := number_intChars false n rest hrest
  obtain ⟨b, tail, hb, hfirst⟩ := intChars_head n
  rw [hb, List.cons_append] at hnumber ⊢
  rw [valueWith_number inner skip schema b _ hfirst, hnumber, ok_bind]
  rfl

end Scalars

-- Every depth reads a value in the same way but for what may still open.
theorem value_eq (d : Nat) : ∃ inner skip, value d = valueWith inner skip := by
  cases d with
  | zero => exact ⟨none, _, rfl⟩
  | succ d => exact ⟨_, _, rfl⟩

theorem reads_text (d : Nat) (schema : Schema) (s : String)
    (h : schema.solid = .any ∨ schema.solid = .text) :
    Reads (value d schema) (textChars s) (.text s) := by
  intro rest _
  obtain ⟨inner, skip, hd⟩ := value_eq d
  have hs : decodeText (Utf8.encodeChars s.toList) = .ok s := by
    rw [decodeText, Utf8.decode_encodeChars, String.ofList_toList]
  rw [hd, encodeChars_textChars, List.cons_append, List.append_assoc, List.cons_append,
    List.nil_append, valueWith_quote]
  rcases h with h | h <;> simp only [textValue, h, string_escapedChars, ok_bind, hs] <;> rfl

theorem acceptsNull_of_any {schema : Schema} (h : schema.solid = .any) : schema.acceptsNull = true := by
  cases schema with
  | any => rfl
  | nullable inner => rfl
  | _ => cases h

theorem reads_null (d : Nat) (schema : Schema) (h : schema.acceptsNull = true) :
    Reads (value d schema) ['n', 'u', 'l', 'l'] .null := by
  intro rest _
  obtain ⟨inner, skip, hd⟩ := value_eq d
  rw [hd]
  exact valueWith_null inner skip schema rest h

theorem reads_bool (d : Nat) (schema : Schema) (b : Bool)
    (h : schema.solid = .any ∨ schema.solid = .bool) :
    Reads (value d schema) (if b then ['t', 'r', 'u', 'e'] else ['f', 'a', 'l', 's', 'e']) (.bool b) := by
  intro rest _
  obtain ⟨inner, skip, hd⟩ := value_eq d
  rw [hd]
  exact valueWith_bool inner skip schema b rest h

theorem reads_int (d : Nat) (schema : Schema) (n : Int) (hn : IsShort n)
    (h : schema.solid = .any ∨ ∃ bounds, schema.solid = .int bounds ∧ checkBounds bounds n = .ok (.int n)) :
    Reads (value d schema) (intChars n) (.int n) := by
  intro rest hrest
  obtain ⟨inner, skip, hd⟩ := value_eq d
  have hlength : ¬4300 < (Utf8.encodeChars (intChars n)).length := by
    rw [length_encodeChars_intChars]
    exact Nat.not_lt.mpr hn
  rw [hd, valueWith_intChars inner skip schema n rest hrest]
  rcases h with h | ⟨bounds, h, hbounds⟩
  · simp only [integerValue, h, hlength, if_false, checkBounds, ok_bind]
    rfl
  · simp only [integerValue, h, hlength, if_false, hbounds, ok_bind]
    rfl

-- A longer integer is refused wherever an integer is read.
theorem value_of_long (d : Nat) (schema : Schema) {n : Int} (hn : ¬IsShort n)
    (h : schema.solid = .any ∨ ∃ bounds, schema.solid = .int bounds) {rest : Bytes} (hrest : Ends rest) :
    value d schema (Utf8.encodeChars (intChars n) ++ rest) = .error (.invalid .tooManyDigits []) := by
  obtain ⟨inner, skip, hd⟩ := value_eq d
  have hlength : 4300 < (Utf8.encodeChars (intChars n)).length := by
    rw [length_encodeChars_intChars]
    exact Nat.not_le.mp hn
  rw [hd, valueWith_intChars inner skip schema n rest hrest]
  rcases h with h | ⟨bounds, h⟩ <;> simp only [integerValue, h, hlength, if_true] <;> rfl

theorem encodeChars_listChars (texts : List (List Char)) :
    Utf8.encodeChars (listChars texts) =
      ascii '[' :: (Utf8.encodeChars (commaSeparated texts) ++ [ascii ']']) := by
  simp only [listChars, List.cons_append, Utf8.encodeChars_cons, Utf8.encodeChars_append]
  rfl

theorem opens_listChars (texts : List (List Char)) : Opens (listChars texts) :=
  ⟨ascii '[', _, encodeChars_listChars texts, by decide, by decide, by decide⟩

theorem reads_list (d : Nat) (schema item : Schema) (ps : List (List Char × Value))
    (h : schema.solid = .list item ∨ (schema.solid = .any ∧ item = .any))
    (hread : ∀ p ∈ ps, Reads (value d item) p.1 p.2) (hopen : ∀ p ∈ ps, Opens p.1) :
    Reads (value (d + 1) schema) (listChars (ps.map Prod.fst)) (.list (ps.map Prod.snd)) := by
  intro rest _
  rw [encodeChars_listChars, List.cons_append, List.append_assoc, List.cons_append, List.nil_append,
    value, valueWith_bracket _ _ _ item _ h, listValue, items_commaSeparated ps hread hopen, ok_bind]
  rfl

variable {β : Type}

def writtenChars (ws : List (Written β)) : List Char :=
  objectChars (ws.map fun w => (textChars w.name, w.text))

theorem encodeChars_writtenChars (ws : List (Written β)) :
    Utf8.encodeChars (writtenChars ws) =
      ascii '\x7b' :: (Utf8.encodeChars (commaSeparated (ws.map Written.chars)) ++ [ascii '\x7d']) := by
  simp only [writtenChars, objectChars, List.cons_append, Utf8.encodeChars_cons,
    Utf8.encodeChars_append, List.map_map]
  rfl

theorem opens_writtenChars (ws : List (Written β)) : Opens (writtenChars ws) :=
  ⟨ascii '\x7b', _, encodeChars_writtenChars ws, by decide, by decide, by decide⟩

theorem text_beq (s t : String) : (Value.text s == Value.text t) = (s == t) := by
  change Value.same (.text s) (.text t) = _
  rw [Value.same]

-- Text keys are told apart as values just as they are as texts.
theorem put_text (es : Entries String Value) (k : String) (v : Value) :
    Entries.put (es.map fun e => (Value.text e.1, e.2)) (.text k) v =
      (Entries.put es k v).map fun e => (Value.text e.1, e.2) := by
  induction es with
  | nil => rfl
  | cons e rest ih =>
      obtain ⟨k', v'⟩ := e
      simp only [List.map_cons, Entries.put, text_beq, ih]
      split <;> rfl

def pairs (ws : List (Written β)) : Entries String β := ws.map fun w => (w.name, w.value)

theorem putWritten_text (es : Entries String Value) (ws : List (Written Value)) :
    putWritten (fun (es : Entries Value Value) k v => Entries.put es (.text k) v)
        (es.map fun e => (Value.text e.1, e.2)) ws =
      (Entries.putAll es (pairs ws)).map fun e => (Value.text e.1, e.2) := by
  induction ws generalizing es with
  | nil => rfl
  | cons w ws ih =>
      simp only [putWritten, List.foldl_cons, put_text]
      exact ih _

theorem decodeText_encode (s : String) : decodeText (Utf8.encode s) = .ok s := by
  rw [decodeText, Utf8.decode_encode]

-- A written mapping with text keys is read with the last value of every key in its first place.
theorem reads_dict (d : Nat) (schema member : Schema) (ws : List (Written Value))
    (h : schema.solid = .dict member ∨ (schema.solid = .any ∧ member = .any))
    (hread : ∀ w ∈ ws, Reads (value d member) w.text w.value) :
    Reads (value (d + 1) schema) (writtenChars ws)
      (Value.ofMembers (Entries.putAll [] (pairs ws))) := by
  intro rest _
  have hmembers (f : Entries Value Value → String → Bytes → Except Error (Entries Value Value × Bytes))
      (hf : ∀ entries key s v rest, value d member s = .ok (v, rest) →
        f entries key s = .ok (entries.put (.text key) v, rest)) (w : Written Value) (hw : w ∈ ws) :
      ReadsMember decodeText f (fun es k v => Entries.put es (.text k) v) w :=
    ⟨w.name, decodeText_encode w.name, fun _ _ htail => hf _ _ _ _ _ (hread w hw _ htail)⟩
  have hput : putWritten (fun (es : Entries Value Value) k v => Entries.put es (.text k) v) [] ws =
      (Entries.putAll [] (pairs ws)).map fun e => (Value.text e.1, e.2) := putWritten_text [] ws
  rw [encodeChars_writtenChars, List.cons_append, List.append_assoc, List.cons_append,
    List.nil_append, value, valueWith_brace, Value.ofMembers, ← hput]
  rcases h with h | ⟨h, rfl⟩
  all_goals
    simp only [objectValue, h]
    rw [members_commaSeparated false ws (hmembers _ ?_) [] rest]
    · rfl
    · intro entries key s v tail hv
      rw [hv]
      rfl

theorem find?_encode (fields : List (Member Schema)) (name : String) :
    fields.find? (fun f => Utf8.encode f.name == Utf8.encode name) =
      fields.find? fun f => f.name == name := by
  congr 1
  funext f
  rw [Bool.eq_iff_iff, beq_iff_eq, beq_iff_eq]
  exact ⟨Utf8.encode_inj, congrArg Utf8.encode⟩

theorem find?_self {fields : List (Member Schema)} (hnodup : (fields.map Member.name).Nodup)
    {f : Member Schema} (hf : f ∈ fields) : fields.find? (fun g => g.name == f.name) = some f := by
  induction fields with
  | nil => cases hf
  | cons g rest ih =>
      rw [List.map_cons, List.nodup_cons] at hnodup
      rcases List.mem_cons.mp hf with rfl | hf
      · simp
      · have hne : g.name ≠ f.name := fun h => hnodup.1 (h ▸ List.mem_map_of_mem hf)
        simp [hne, ih hnodup.2 hf]

-- A member whose name is a field of the record is read by the schema of that field.
theorem readsMember_field (d : Nat) (skip : Bytes → Except Error Bytes) (kind : RecordKind)
    (fields : List (Member Schema)) (w : Written Value) (field : Member Schema)
    (hfind : fields.find? (fun f => f.name == w.name) = some field)
    (hread : Reads (value d field.schema) w.text w.value) :
    ReadsMember (κ := Bytes) .ok (recordMember (value d) skip kind fields) Entries.put w := by
  refine ⟨Utf8.encode w.name, rfl, fun state rest hrest => ?_⟩
  have hname : field.name = w.name := by simpa using List.find?_some hfind
  rw [← find?_encode] at hfind
  simp only [recordMember, hfind, hread rest hrest, mapError_ok, ok_bind, hname]

theorem putWritten_pairs (es : Entries String β) (ws : List (Written β)) :
    putWritten Entries.put es ws = Entries.putAll es (pairs ws) := by
  simp only [putWritten, Entries.putAll, pairs, List.foldl_map]

-- A written record is read field by field, whatever the order of its members.
theorem reads_record (d : Nat) (schema : Schema) (kind : RecordKind)
    (fields : List (Member Schema)) (ws : List (Written Value)) (vs : List (String × Value))
    (h : schema.solid = .record kind fields)
    (hread : ∀ w ∈ ws, ∃ field, fields.find? (fun f => f.name == w.name) = some field ∧
      Reads (value d field.schema) w.text w.value)
    (hfill : fill (Entries.putAll [] (pairs ws)) fields = .ok vs) :
    Reads (value (d + 1) schema) (writtenChars ws) (.record kind vs) := by
  intro rest _
  have hmembers (w : Written Value) (hw : w ∈ ws) :
      ReadsMember (κ := Bytes) .ok (recordMember (value d) (skip d) kind fields) Entries.put w := by
    obtain ⟨field, hfind, hr⟩ := hread w hw
    exact readsMember_field d (skip d) kind fields w field hfind hr
  rw [encodeChars_writtenChars, List.cons_append, List.append_assoc, List.cons_append,
    List.nil_append, value, valueWith_brace]
  simp only [objectValue, h]
  rw [members_commaSeparated false ws hmembers [] rest]
  simp only [ok_bind, putWritten_pairs, hfill]
  rfl

theorem value_record_of_error (d : Nat) (schema : Schema) (kind : RecordKind)
    (fields : List (Member Schema)) (w : Written Value) (ws : List (Written Value))
    {field : Member Schema} {e : Error} (h : schema.solid = .record kind fields)
    (hfind : fields.find? (fun f => f.name == w.name) = some field)
    (hvalue : ∀ rest, Ends rest → value d field.schema (Utf8.encodeChars w.text ++ rest) = .error e)
    (rest : Bytes) :
    value (d + 1) schema (Utf8.encodeChars (writtenChars (w :: ws)) ++ rest) =
      .error (e.within (.field field.name)) := by
  rw [← find?_encode] at hfind
  have hmember (state : Entries String Value) (tail : Bytes) (htail : Ends tail) :
      recordMember (value d) (skip d) kind fields state (Utf8.encode w.name)
        (Utf8.encodeChars w.text ++ tail) = .error (e.within (.field field.name)) := by
    simp only [recordMember, hfind, hvalue tail htail]
    rfl
  rw [encodeChars_writtenChars, List.cons_append, List.append_assoc, List.cons_append,
    List.nil_append, value, valueWith_brace]
  simp only [objectValue, h]
  rw [members_of_error (κ := Bytes) false w ws rfl (hmember []) rest]
  rfl

-- A variant is told by its mark, which is written first.

theorem tagText_textChars (skip : Bytes → Except Error Bytes) (s : String) (rest : Bytes) :
    tagText skip (Utf8.encodeChars (textChars s) ++ rest) = .ok (s, rest) := by
  rw [encodeChars_textChars, List.cons_append, List.append_assoc, List.cons_append, List.nil_append,
    tagText, next_cons _ _ (by decide), ok_bind]
  simp only [if_true, List.drop_succ_cons, List.drop_zero, string_escapedChars, ok_bind]
  rw [← Utf8.encode, decodeText_encode]
  rfl

theorem findTag_written (skip : Bytes → Except Error Bytes) (fuel : Nat) (tag : String) (rest : Bytes) :
    findTag skip (fuel + 1) true
        (Utf8.encodeChars (Written.chars ⟨tagMember, textChars tag, Value.text tag⟩) ++ rest) =
      .ok (tag, rest, true) := by
  have hslot := slot_first '\x7d' .memberEnd .memberComma
    (Written.chars ⟨tagMember, textChars tag, Value.text tag⟩) rest (opens_chars _) (.inr rfl)
  simp only [findTag, memberSlot, hslot, ok_bind, memberKey_chars, colon_cons, if_true,
    tagText_textChars]

theorem reads_variant (d : Nat) (schema : Schema) (kinds : List (RecordKind × List (Member Schema)))
    (kind : RecordKind) (fields : List (Member Schema)) (tag : String) (ws : List (Written Value))
    (vs : List (String × Value)) (h : schema.solid = .variants kinds)
    (hkind : kinds.find? (fun k => k.1.tag == some tag) = some (kind, fields))
    (hread : ∀ w ∈ ws, ∃ field, fields.find? (fun f => f.name == w.name) = some field ∧
      Reads (value d field.schema) w.text w.value)
    (hfill : fill (Entries.putAll [] (pairs ws)) fields = .ok vs) :
    Reads (value (d + 1) schema) (writtenChars (⟨tagMember, textChars tag, .text tag⟩ :: ws))
      (.record kind vs) := by
  intro rest _
  have hmembers (w : Written Value) (hw : w ∈ ws) :
      ReadsMember (κ := Bytes) .ok (recordMember (value d) (skip d) kind fields) Entries.put w := by
    obtain ⟨field, hfind, hr⟩ := hread w hw
    exact readsMember_field d (skip d) kind fields w field hfind hr
  have hlength := length_following_le (ws.map Written.chars)
  have hrecord : members false .ok (recordMember (value d) (skip d) kind fields) false []
      (following (ws.map Written.chars) ++ ascii '\x7d' :: rest) =
        .ok (putWritten Entries.put [] ws, rest) := by
    refine membersFrom_following false ws hmembers _ [] rest ?_
    simp only [List.length_map, List.length_append, List.length_cons] at hlength ⊢
    omega
  rw [encodeChars_writtenChars, List.map_cons, encodeChars_commaSeparated, List.cons_append,
    List.append_assoc, List.cons_append, List.nil_append, List.append_assoc, value, valueWith_brace]
  simp only [objectValue, h, findTag_written, ok_bind, hkind, if_true, hrecord, putWritten_pairs, hfill]
  rfl

-- A text that is among the choices is read as the first choice with that text.
theorem reads_choice (d : Nat) (schema : Schema) (choices : List Choice) (text : String) {c : Choice}
    (hfind : choices.find? (fun o => o.text == text) = some c) (h : schema.solid = .options choices) :
    Reads (value d schema) (textChars text) (.choice c) := by
  intro rest _
  obtain ⟨inner, skip, hd⟩ := value_eq d
  have hs : decodeText (Utf8.encodeChars text.toList) = .ok text := decodeText_encode text
  rw [hd, encodeChars_textChars, List.cons_append, List.append_assoc, List.cons_append,
    List.nil_append, valueWith_quote]
  simp only [textValue, h, string_escapedChars, ok_bind, hs, hfind]

-- A whole text is decoded as what reading it gives.
theorem decodeBytes_of_reads (schema : Schema) (text : List Char) (v : Value)
    (h : Reads (value maxDepth schema) text v) :
    decodeBytes schema (Utf8.encodeChars text) = .ok v := by
  have hv := h [] (.inl rfl)
  rw [List.append_nil] at hv
  rw [decodeBytes, decodeWithin, hv]
  rfl

end Coffer.Json
