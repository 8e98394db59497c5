import Coffer.Json.Decode
import Coffer.Proofs.Json.Text

namespace Coffer.Json

-- What may follow a value: the end, a comma or a closing bracket. A number goes on
-- with any other byte.
def Ends (rest : Bytes) : Prop :=
  rest = [] ∨ ∃ b tail, rest = b :: tail ∧ b ∈ [ascii ',', ascii ']', ascii '\x7d']

-- A reader takes a written text off the front and gives the value it stands for.
def Reads {α : Type} (read : Bytes → Except Error (α × Bytes)) (text : List Char) (v : α) : Prop :=
  ∀ rest, Ends rest → read (Utf8.encodeChars text ++ rest) = .ok (v, rest)

-- A text that can be no blank and no closing bracket to whoever looks for a value.
def Opens (text : List Char) : Prop :=
  ∃ b tail, Utf8.encodeChars text = b :: tail ∧
    isBlank b = false ∧ b ≠ ascii ']' ∧ b ≠ ascii '\x7d'

theorem ends_of_mem (b : UInt8) (tail : Bytes) (hb : b ∈ [ascii ',', ascii ']', ascii '\x7d']) :
    Ends (b :: tail) :=
  .inr ⟨b, tail, rfl, hb⟩

theorem opens_textChars (s : String) : Opens (textChars s) :=
  ⟨ascii '"', _, encodeChars_textChars s, by decide, by decide, by decide⟩

theorem next_cons (b : UInt8) (tail : Bytes) (hb : isBlank b = false) :
    next (b :: tail) = .ok (b, b :: tail) := by
  simp [next, hb]

-- The texts after the first, each behind its comma.
def following (texts : List (List Char)) : Bytes :=
  texts.flatMap fun text => ascii ',' :: Utf8.encodeChars text

theorem following_cons (text : List Char) (texts : List (List Char)) :
    following (text :: texts) = ascii ',' :: (Utf8.encodeChars text ++ following texts) := rfl

theorem encodeChars_commaSeparated (text : List Char) (texts : List (List Char)) :
    Utf8.encodeChars (commaSeparated (text :: texts)) = Utf8.encodeChars text ++ following texts := by
  induction texts generalizing text with
  | nil => simp [commaSeparated, following]
  | cons second rest ih =>
      rw [commaSeparated, Utf8.encodeChars_append, Utf8.encodeChars_cons, ih second]
      · simp [following]
        rfl
      · simp

theorem ends_following (texts : List (List Char)) (close : UInt8) (rest : Bytes)
    (hclose : close ∈ [ascii ']', ascii '\x7d']) : Ends (following texts ++ close :: rest) := by
  cases texts with
  | nil => exact ends_of_mem close rest (List.mem_cons_of_mem _ hclose)
  | cons text texts =>
      rw [following_cons, List.cons_append]
      exact ends_of_mem _ _ (by simp)

section Slots

variable (close : Char) (noComma spareComma : Defect)

theorem slot_close (first : Bool) (rest : Bytes) (hclose : close = ']' ∨ close = '\x7d') :
    slot close noComma spareComma first (ascii close :: rest) = .ok (.closed rest) := by
  have hblank : isBlank (ascii close) = false := by
    rcases hclose with rfl | rfl <;> decide
  rw [slot, next_cons _ _ hblank, ok_bind]
  simp

theorem slot_first (text : List Char) (rest : Bytes) (htext : Opens text)
    (hclose : close = ']' ∨ close = '\x7d') :
    slot close noComma spareComma true (Utf8.encodeChars text ++ rest) =
      .ok (.element (Utf8.encodeChars text ++ rest)) := by
  obtain ⟨b, tail, hb, hblank, hlist, hobject⟩ := htext
  have hne : b ≠ ascii close := by
    rcases hclose with rfl | rfl
    · exact hlist
    · exact hobject
  rw [hb, List.cons_append, slot, next_cons _ _ hblank, ok_bind]
  simp [hne]

theorem slot_following (text : List Char) (rest : Bytes) (htext : Opens text)
    (hclose : close = ']' ∨ close = '\x7d') :
    slot close noComma spareComma false (ascii ',' :: (Utf8.encodeChars text ++ rest)) =
      .ok (.element (Utf8.encodeChars text ++ rest)) := by
  obtain ⟨b, tail, hb, hblank, hlist, hobject⟩ := htext
  have hne : b ≠ ascii close := by
    rcases hclose with rfl | rfl
    · exact hlist
    · exact hobject
  have hcomma : ascii ',' ≠ ascii close := by
    rcases hclose with rfl | rfl <;> decide
  rw [hb, List.cons_append, slot, next_cons _ _ (by decide), ok_bind]
  simp [hne, hcomma, next_cons _ _ hblank, ok_bind]

end Slots

section Items

variable {α : Type} {item : Bytes → Except Error (α × Bytes)}

theorem itemsFrom_following (ps : List (List Char × α))
    (hread : ∀ p ∈ ps, Reads item p.1 p.2) (hopen : ∀ p ∈ ps, Opens p.1)
    (fuel index : Nat) (rest : Bytes) (hfuel : ps.length < fuel) (hindex : index ≠ 0) :
    itemsFrom item fuel index (following (ps.map Prod.fst) ++ ascii ']' :: rest) =
      .ok (ps.map Prod.snd, rest) := by
  induction ps generalizing fuel index with
  | nil =>
      cases fuel with
      | zero => omega
      | succ fuel =>
          change itemsFrom item (fuel + 1) index (ascii ']' :: rest) = _
          simp only [itemsFrom, itemSlot, slot_close _ _ _ _ _ (.inl rfl), ok_bind, List.map_nil]
  | cons p ps ih =>
      cases fuel with
      | zero => omega
      | succ fuel =>
          have hi : (index == 0) = false := by simpa using hindex
          have hends := ends_following (ps.map Prod.fst) (ascii ']') rest (by simp)
          have hlater := ih (fun q hq => hread q (List.mem_cons_of_mem _ hq))
            (fun q hq => hopen q (List.mem_cons_of_mem _ hq)) fuel (index + 1)
            (by simp only [List.length_cons] at hfuel; omega) (by omega)
          rw [List.map_cons, following_cons, List.cons_append, List.append_assoc]
          simp only [itemsFrom, itemSlot, hi,
            slot_following _ _ _ p.1 _ (hopen p List.mem_cons_self) (.inl rfl), ok_bind,
            hread p List.mem_cons_self _ hends, mapError_ok, hlater, List.map_cons]

theorem length_following_le (texts : List (List Char)) : texts.length ≤ (following texts).length := by
  induction texts with
  | nil => simp
  | cons text texts ih =>
      simp only [following_cons, List.length_append, List.length_cons]
      omega

-- A written list after its bracket is read item by item.
theorem items_commaSeparated (ps : List (List Char × α))
    (hread : ∀ p ∈ ps, Reads item p.1 p.2) (hopen : ∀ p ∈ ps, Opens p.1) (rest : Bytes) :
    items item (Utf8.encodeChars (commaSeparated (ps.map Prod.fst)) ++ ascii ']' :: rest) =
      .ok (ps.map Prod.snd, rest) := by
  cases ps with
  | nil =>
      change items item (ascii ']' :: rest) = _
      simp only [items, itemsFrom, itemSlot, slot_close _ _ _ _ _ (.inl rfl), ok_bind, List.map_nil]
  | cons p ps =>
      have hends := ends_following (ps.map Prod.fst) (ascii ']') rest (by simp)
      have hlen := length_following_le (ps.map Prod.fst)
      rw [List.map_cons, encodeChars_commaSeparated, List.append_assoc, items]
      have hlater := itemsFrom_following ps (fun q hq => hread q (List.mem_cons_of_mem _ hq))
        (fun q hq => hopen q (List.mem_cons_of_mem _ hq))
        (Utf8.encodeChars p.1 ++ (following (ps.map Prod.fst) ++ ascii ']' :: rest)).length 1 rest
        (by simp only [List.length_map, List.length_append, List.length_cons] at hlen ⊢; omega)
        Nat.one_ne_zero
      simp only [itemsFrom, itemSlot, beq_self_eq_true,
        slot_first _ _ _ p.1 _ (hopen p List.mem_cons_self) (.inl rfl), ok_bind,
        hread p List.mem_cons_self _ hends, mapError_ok, Nat.zero_add, hlater, List.map_cons]

end Items

section Members

variable {κ σ β : Type}

-- One member of a mapping as it is written, with what it stands for.
structure Written (β : Type) where
  name : String
  text : List Char
  value : β

def Written.chars (w : Written β) : List Char := textChars w.name ++ ':' :: w.text

variable {key : Bytes → Except Error κ} {member : σ → κ → Bytes → Except Error (σ × Bytes)}
  {put : σ → String → β → σ}

-- Whatever the state, a member is read off the front and put into the state.
def ReadsMember (key : Bytes → Except Error κ) (member : σ → κ → Bytes → Except Error (σ × Bytes))
    (put : σ → String → β → σ) (w : Written β) : Prop :=
  ∃ k, key (Utf8.encode w.name) = .ok k ∧
    ∀ state rest, Ends rest →
      member state k (Utf8.encodeChars w.text ++ rest) = .ok (put state w.name w.value, rest)

def putWritten (put : σ → String → β → σ) (state : σ) (ws : List (Written β)) : σ :=
  ws.foldl (fun state w => put state w.name w.value) state

theorem opens_chars (w : Written β) : Opens w.chars := by
  obtain ⟨b, tail, hb, hrest⟩ := opens_textChars w.name
  refine ⟨b, tail ++ Utf8.encodeChars (':' :: w.text), ?_, hrest⟩
  rw [Written.chars, Utf8.encodeChars_append, hb, List.cons_append]

theorem memberKey_chars (skipped : Bool) (w : Written β) (rest : Bytes) :
    memberKey skipped (Utf8.encodeChars w.chars ++ rest) =
      .ok (Utf8.encode w.name, ascii ':' :: (Utf8.encodeChars w.text ++ rest)) := by
  have hsplit : Utf8.encodeChars w.chars ++ rest =
      ascii '"' :: (Utf8.encodeChars (w.name.toList.flatMap escaped) ++
        ascii '"' :: ascii ':' :: (Utf8.encodeChars w.text ++ rest)) := by
    rw [Written.chars, Utf8.encodeChars_append, encodeChars_textChars]
    simp [Utf8.encodeChars_cons]
    rfl
  rw [hsplit, memberKey]
  simp only [if_true]
  exact string_escapedChars skipped _ _

theorem colon_cons (s : Bytes) : colon (ascii ':' :: s) = .ok s := by
  rw [colon, next_cons _ _ (by decide), ok_bind]
  simp

-- One turn of the loop, for a member that has been found.
theorem membersFrom_element (skipped : Bool) (w : Written β)
    (hw : ReadsMember key member put w) (fuel : Nat) (first : Bool) (state : σ) (s rest : Bytes)
    (hslot : memberSlot first s = .ok (.element (Utf8.encodeChars w.chars ++ rest)))
    (hrest : Ends rest) :
    membersFrom skipped key member (fuel + 1) first state s =
      membersFrom skipped key member fuel false (put state w.name w.value) rest := by
  obtain ⟨k, hk, hv⟩ := hw
  simp only [membersFrom, hslot, ok_bind, memberKey_chars, hk, colon_cons, hv state rest hrest]

theorem membersFrom_following (skipped : Bool) (ws : List (Written β))
    (hread : ∀ w ∈ ws, ReadsMember key member put w) (fuel : Nat) (state : σ) (rest : Bytes)
    (hfuel : ws.length < fuel) :
    membersFrom skipped key member fuel false state
        (following (ws.map Written.chars) ++ ascii '\x7d' :: rest) =
      .ok (putWritten put state ws, rest) := by
  induction ws generalizing fuel state with
  | nil =>
      cases fuel with
      | zero => omega
      | succ fuel =>
          change membersFrom skipped key member (fuel + 1) false state (ascii '\x7d' :: rest) = _
          simp only [membersFrom, memberSlot, slot_close _ _ _ _ _ (.inr rfl), ok_bind]
          rfl
  | cons w ws ih =>
      cases fuel with
      | zero => omega
      | succ fuel =>
          have hends := ends_following (ws.map Written.chars) (ascii '\x7d') rest (by simp)
          rw [List.map_cons, following_cons, List.cons_append, List.append_assoc,
            membersFrom_element skipped w (hread w List.mem_cons_self) fuel false state _ _
              (slot_following _ _ _ w.chars _ (opens_chars w) (.inr rfl)) hends]
          exact ih (fun x hx => hread x (List.mem_cons_of_mem _ hx)) fuel _
            (by simp only [List.length_cons] at hfuel; omega)

-- A written mapping after its brace is read member by member.
theorem members_commaSeparated (skipped : Bool) (ws : List (Written β))
    (hread : ∀ w ∈ ws, ReadsMember key member put w) (state : σ) (rest : Bytes) :
    members skipped key member true state
        (Utf8.encodeChars (commaSeparated (ws.map Written.chars)) ++ ascii '\x7d' :: rest) =
      .ok (putWritten put state ws, rest) := by
  cases ws with
  | nil =>
      change members skipped key member true state (ascii '\x7d' :: rest) = _
      simp only [members, membersFrom, memberSlot, slot_close _ _ _ _ _ (.inr rfl), ok_bind]
      rfl
  | cons w ws =>
      have hends := ends_following (ws.map Written.chars) (ascii '\x7d') rest (by simp)
      have hlen := length_following_le (ws.map Written.chars)
      rw [List.map_cons, encodeChars_commaSeparated, List.append_assoc, members,
        membersFrom_element skipped w (hread w List.mem_cons_self) _ true state _ _
          (slot_first _ _ _ w.chars _ (opens_chars w) (.inr rfl)) hends]
      apply membersFrom_following skipped ws (fun x hx => hread x (List.mem_cons_of_mem _ hx))
      simp only [List.length_map, List.length_append, List.length_cons] at hlen ⊢
      omega

-- A first member that cannot be read is what is wrong with the whole mapping.
theorem members_of_error (skipped : Bool) (w : Written β) (ws : List (Written β)) {k : κ} {state : σ}
    {e : Error} (hkey : key (Utf8.encode w.name) = .ok k)
    (hmember : ∀ rest, Ends rest → member state k (Utf8.encodeChars w.text ++ rest) = .error e)
    (rest : Bytes) :
    members skipped key member true state
        (Utf8.encodeChars (commaSeparated ((w :: ws).map Written.chars)) ++ ascii '\x7d' :: rest) =
      .error e := by
  have hends := ends_following (ws.map Written.chars) (ascii '\x7d') rest (by simp)
  rw [List.map_cons, encodeChars_commaSeparated, List.append_assoc, members]
  simp only [membersFrom, memberSlot, slot_first _ _ _ w.chars _ (opens_chars w) (.inr rfl), ok_bind,
    memberKey_chars, hkey, colon_cons, hmember _ hends]
  rfl

end Members

end Coffer.Json
