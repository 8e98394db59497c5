import Coffer.Proofs.Json.Levels
import Coffer.Proofs.Json.Shape

namespace Coffer.Json

open Utf8 (Whole whole_encodeChar)

-- What a reading leaves is as wanted, and no fault lies in how a text is encoded. `deep` says
-- whether one may lie in how deep it nests.
def Leaves (deep : Prop) {α : Type} (P : α → Prop) : Except Error α → Prop
  | .ok a => P a
  | .error (.undecodable _) => False
  | .error .tooDeep => deep
  | .error _ => True

variable {deep : Prop}

section Leaves

variable {α β : Type} {P : α → Prop} {Q : β → Prop} {x : Except Error α}

theorem Leaves.bind {f : α → Except Error β} (hx : Leaves deep P x) (hf : ∀ a, P a → Leaves deep Q (f a)) :
    Leaves deep Q (x >>= f) := by
  cases x with
  | ok a => exact hf a hx
  | error e => cases e <;> exact hx

theorem Leaves.within {step : Step} (hx : Leaves deep P x) :
    Leaves deep P (x.mapError (Error.within step)) := by
  cases x with
  | ok a => exact hx
  | error e => cases e <;> exact hx

theorem Leaves.mono {R : α → Prop} (hx : Leaves deep P x) (h : ∀ a, P a → R a) : Leaves deep R x := by
  cases x with
  | ok a => exact h a hx
  | error e => cases e <;> exact hx

theorem Leaves.deeper {deep' : Prop} (hx : Leaves deep P x) (h : deep → deep') : Leaves deep' P x := by
  cases x with
  | ok a => exact hx
  | error e =>
      cases e with
      | tooDeep => exact h hx
      | _ => exact hx

theorem Leaves.of_ok {R : α → Prop} (hx : Leaves deep P x) (h : ∀ a, x = .ok a → R a) : Leaves deep R x := by
  cases x with
  | ok a => exact h a rfl
  | error e => cases e <;> exact hx

theorem Leaves.of_eq_ok {a : α} (h : Leaves deep P x) (hok : x = .ok a) : P a := by
  subst hok
  exact h

theorem Leaves.ne_tooDeep (h : Leaves deep P x) (hdeep : ¬deep) : x ≠ .error .tooDeep := by
  rintro rfl
  exact hdeep h

theorem Leaves.ne_undecodable (h : Leaves deep P x) (fault : Utf8.Fault) :
    x ≠ .error (.undecodable fault) := by
  rintro rfl
  exact h

end Leaves

-- What follows a reading is whole and nests no deeper than so many levels.
def Rests (deep : Prop) (n : Nat) {α : Type} (r : Except Error (α × Bytes)) : Prop :=
  Leaves deep (fun r => Nests .between n r.2) r

variable {n m : Nat}

-- Tokens

-- What is escaped, and what it stands for.
def Escape.low : Escape → Prop
  | .byte b => b.toNat < 0x80
  | _ => True

instance : DecidablePred Escape.low := fun e =>
  match e with
  | .byte b => inferInstanceAs (Decidable (b.toNat < 0x80))
  | .unicode => .isTrue trivial
  | .unknown => .isTrue trivial

theorem escape_lt (e : UInt8) (he : Escape.of e ≠ .unknown) :
    e.toNat < 0x80 ∧ (Escape.of e).low := by
  have hmem : e ∈
      [0x22, 0x5C, 0x2F, ascii 'b', ascii 'f', ascii 'n', ascii 'r', ascii 't', ascii 'u'] := by
    refine Decidable.byContradiction fun hmem => he ?_
    simp only [List.mem_cons, List.not_mem_nil, or_false, not_or] at hmem
    simp [Escape.of, hmem]
  simp only [List.mem_cons, List.not_mem_nil, or_false] at hmem
  rcases hmem with rfl | rfl | rfl | rfl | rfl | rfl | rfl | rfl | rfl <;> decide

-- The next byte stands in front.
def Stands (n : Nat) (r : UInt8 × Bytes) : Prop := Nests .between n r.2 ∧ ∃ rest, r.2 = r.1 :: rest

theorem next_leaves {s : Bytes} (h : Nests .between n s) : Leaves deep (Stands n) (next s) := by
  have hs := h.dropWhile isBlank_neutral
  unfold next
  split
  · trivial
  · next b rest heq =>
    rw [heq] at hs
    exact ⟨hs, rest, rfl⟩

theorem word_leaves {letters : List Char} (hletters : (letters.map ascii).all isNeutral = true)
    (skipped : Bool) {s : Bytes} (h : Nests .between n s) :
    Leaves deep (Nests .between n) (word letters skipped s) := by
  unfold word
  dsimp only
  split
  · trivial
  split
  · next htake => exact h.drop _ (List.all_eq_true.mp hletters) htake
  · trivial

theorem codeUnit_go_leaves (k x : Nat) {s : Bytes} (h : Nests .within n s) :
    Leaves deep (fun r : Nat × Bytes => Nests .within n r.2) (codeUnit.go k x s) := by
  induction k generalizing x s with
  | zero => exact h
  | succ k ih =>
      cases s with
      | nil => trivial
      | cons b rest =>
          rw [codeUnit.go]
          split
          · next d hd =>
            have hb : isNeutral b = true := hexByte?_neutral b (by rw [hd]; rfl)
            exact ih _ (h.tail_within hb)
          · trivial

theorem codeUnit_leaves {s : Bytes} (h : Nests .within n s) :
    Leaves deep (fun r : Nat × Bytes => Nests .within n r.2) (codeUnit s) := by
  unfold codeUnit
  split
  · trivial
  · exact codeUnit_go_leaves 4 0 h

theorem unicodeEscape_leaves (skipped : Bool) {s : Bytes} (h : Nests .within n s) :
    Leaves deep (fun r : Bytes × Bytes => Whole r.1 ∧ Nests .within n r.2) (unicodeEscape skipped s) := by
  refine (codeUnit_leaves h).bind ?_
  rintro ⟨high, rest⟩ hrest
  dsimp only at hrest ⊢
  split
  · trivial
  split
  · split
    · trivial
    split
    · next htake =>
      obtain ⟨rest, rfl⟩ : ∃ tail, rest = 0x5C :: 0x75 :: tail :=
        ⟨rest.drop 2, by rw [← List.take_append_drop 2 rest, htake]; rfl⟩
      refine (codeUnit_leaves (hrest.unescaped (by decide))).bind ?_
      rintro ⟨low, rest⟩ hrest
      dsimp only at hrest ⊢
      split
      · generalize Char.ofNat _ = c
        exact ⟨whole_encodeChar c, hrest⟩
      · trivial
    · trivial
  · exact ⟨whole_encodeChar _, hrest⟩

-- The loop goes byte by byte: `part` is what is left of a character under way. It
-- is copied as it is, so what is read is whole up to the same part.
theorem stringFrom_leaves (skipped : Bool) (fuel : Nat) (part : Bytes) (hpart : ∀ b ∈ part, 0x80 ≤ b.toNat)
    {s : Bytes} (h : Nests .within n s) :
    Leaves deep
      (fun r : Bytes × Bytes => (∃ text, Whole text ∧ r.1 = part ++ text) ∧ Nests .between n r.2)
      (stringFrom skipped fuel (part ++ s)) := by
  induction fuel generalizing part s with
  | zero => trivial
  | succ fuel ih =>
      cases part with
      | cons b part =>
          rw [List.forall_mem_cons] at hpart
          have hquote : b ≠ 0x22 := by rintro rfl; exact absurd hpart.1 (by decide)
          have hslash : b ≠ 0x5C := by rintro rfl; exact absurd hpart.1 (by decide)
          have hcontrol : ¬b < 0x20 := by
            rw [UInt8.lt_iff_toNat_lt]
            change ¬b.toNat < 32
            omega
          rw [List.cons_append, stringFrom.eq_def]
          dsimp only
          rw [if_neg hquote, if_neg hslash, if_neg hcontrol]
          refine (ih part hpart.2 h).bind ?_
          rintro ⟨tail, rest⟩ ⟨⟨text, htext, htail⟩, hrest⟩
          exact ⟨⟨text, htext, by rw [htail, List.cons_append]⟩, hrest⟩
      | nil =>
          have hnone : ∀ b ∈ ([] : Bytes), 0x80 ≤ b.toNat := by simp
          rw [List.nil_append]
          cases s with
          | nil => trivial
          | cons b rest =>
              rw [stringFrom.eq_def]
              dsimp only
              split
              · next hb =>
                subst hb
                exact ⟨⟨[], Utf8.whole_nil, rfl⟩, h.unquoted⟩
              split
              · next hb =>
                subst hb
                cases rest with
                | nil => trivial
                | cons e rest =>
                    dsimp only
                    cases he : Escape.of e with
                    | unknown =>
                        dsimp only
                        split <;> trivial
                    | byte b =>
                        obtain ⟨hlow, hb⟩ := escape_lt e (by rw [he]; exact Escape.noConfusion)
                        rw [he] at hb
                        refine (ih [] hnone (h.unescaped hlow)).bind ?_
                        rintro ⟨tail, rest⟩ ⟨⟨text, htext, htail⟩, hrest⟩
                        exact ⟨⟨b :: text, htext.cons hb, by rw [htail]; rfl⟩, hrest⟩
                    | unicode =>
                        obtain ⟨hlow, -⟩ := escape_lt e (by rw [he]; exact Escape.noConfusion)
                        refine (unicodeEscape_leaves skipped (h.unescaped hlow)).bind ?_
                        rintro ⟨bytes, rest⟩ ⟨hbytes, hrest⟩
                        refine (ih [] hnone hrest).bind ?_
                        rintro ⟨tail, rest⟩ ⟨⟨text, htext, htail⟩, hrest⟩
                        exact ⟨⟨bytes ++ text, hbytes.append htext, by rw [htail]; rfl⟩, hrest⟩
              split
              · trivial
              · next hquote hslash _ =>
                rcases h.whole.uncons with ⟨hb, hwhole⟩ | ⟨more, cs, hchar, hmore, hcs, rfl⟩
                · have hrest : Nests .within n rest := ⟨hwhole, by
                    simpa [levelsFrom, hquote, hslash] using h.shallow⟩
                  refine (ih [] hnone hrest).bind ?_
                  rintro ⟨tail, rest⟩ ⟨⟨text, htext, htail⟩, hrest⟩
                  exact ⟨⟨b :: text, htext.cons hb, by rw [htail]; rfl⟩, hrest⟩
                · have hrest : Nests .within n cs := by
                    have hshallow := h.shallow
                    rw [← List.cons_append, levelsFrom_append_high _ hmore] at hshallow
                    exact ⟨hcs, hshallow⟩
                  rw [List.forall_mem_cons] at hmore
                  refine (ih more hmore.2 hrest).bind ?_
                  rintro ⟨tail, rest⟩ ⟨⟨text, htext, htail⟩, hrest⟩
                  exact ⟨⟨b :: (more ++ text), hchar.append htext, by rw [htail]; rfl⟩, hrest⟩

theorem string_leaves (skipped : Bool) {s : Bytes} (h : Nests .within n s) :
    Leaves deep (fun r : Bytes × Bytes => Whole r.1 ∧ Nests .between n r.2) (string skipped s) := by
  refine (stringFrom_leaves skipped (s.length + 1) [] (by simp) h).mono ?_
  rintro r ⟨⟨text, htext, heq⟩, hrest⟩
  exact ⟨by rwa [heq, List.nil_append], hrest⟩

theorem decodeText_leaves {b : Bytes} (h : Whole b) : Leaves deep (fun _ => True) (decodeText b) := by
  obtain ⟨s, hs⟩ := h.decode
  rw [decodeText, hs]
  trivial

-- Numbers

theorem whole_rests (skipped : Bool) {s : Bytes} (h : Nests .between n s) :
    Rests deep n (whole skipped s) := by
  unfold whole
  split
  · trivial
  · split
    · trivial
    · exact h.tail (by decide)
  · dsimp only
    split
    · trivial
    · exact h.dropWhile isDigit_neutral

theorem fraction_rests {s : Bytes} (h : Nests .between n s) : Rests deep n (fraction s) := by
  unfold fraction
  split
  · dsimp only
    split
    · trivial
    · exact (h.tail (by decide)).dropWhile isDigit_neutral
  · exact h

theorem exponentDigits_rests (negative : Bool) {s : Bytes} (h : Nests .between n s) :
    Rests deep n (if (s.takeWhile isDigit).isEmpty then malformed .invalidNumber s
      else .ok (some (if negative then -(digitsNat (s.takeWhile isDigit) : Int)
        else digitsNat (s.takeWhile isDigit)), s.dropWhile isDigit)) := by
  split
  · trivial
  · exact h.dropWhile isDigit_neutral

theorem exponentPart_rests {s : Bytes} (h : Nests .between n s) : Rests deep n (exponentPart s) := by
  unfold exponentPart
  split
  case h_2 => exact h
  case h_1 e rest =>
    split
    case isFalse => exact h
    case isTrue he =>
      have hrest := h.tail (by rcases he with rfl | rfl <;> decide)
      split
      next negative unsigned heq =>
      have hunsigned : Nests .between n unsigned := by
        split at heq <;> cases heq
        · exact hrest.tail (by decide)
        · exact hrest.tail (by decide)
        · exact hrest
      exact exponentDigits_rests negative hunsigned

theorem number_rests (skipped : Bool) {s : Bytes} (h : Nests .between n s) :
    Rests deep n (number skipped s) := by
  unfold number
  split
  next negative unsigned heq =>
  have hunsigned : Nests .between n unsigned := by
    split at heq <;> cases heq
    · exact h.tail (by decide)
    · exact h
  refine (whole_rests skipped hunsigned).bind ?_
  rintro ⟨ds, rest⟩ hrest
  refine (fraction_rests hrest).bind ?_
  rintro ⟨fs, rest⟩ hrest
  refine (exponentPart_rests hrest).bind ?_
  rintro ⟨exponent, rest⟩ hrest
  dsimp only
  split <;> exact hrest

-- Lists and mappings

-- Where a list or a mapping ends, one level is closed.
def SlotRests (n : Nat) : Slot → Prop
  | .closed rest => Nests .between (n + 1) rest
  | .element rest => Nests .between n rest

theorem slot_leaves {close : Char} (hclose : isClosing (ascii close) = true)
    (hlow : (ascii close).toNat < 0x80) (noComma spareComma : Defect) (first : Bool) {s : Bytes}
    (h : Nests .between n s) :
    Leaves deep (SlotRests n) (slot close noComma spareComma first s) := by
  refine (next_leaves h).bind ?_
  rintro ⟨b, s⟩ ⟨hs, rest, hcons⟩
  obtain rfl : s = b :: rest := hcons
  dsimp only at hs ⊢
  split
  · next hb =>
    subst hb
    exact hs.closed hclose hlow
  split
  · exact hs
  split
  · next hb =>
    refine (next_leaves (hs.tail (by rw [hb]; decide))).bind ?_
    rintro ⟨b, s⟩ hs
    dsimp only
    split
    · trivial
    · exact hs.1
  · trivial

theorem itemSlot_leaves (first : Bool) {s : Bytes} (h : Nests .between n s) :
    Leaves deep (SlotRests n) (itemSlot first s) :=
  slot_leaves (by decide) (by decide) _ _ first h

theorem memberSlot_leaves (first : Bool) {s : Bytes} (h : Nests .between n s) :
    Leaves deep (SlotRests n) (memberSlot first s) :=
  slot_leaves (by decide) (by decide) _ _ first h

theorem itemsFrom_rests {α : Type} {item : Bytes → Except Error (α × Bytes)}
    (hitem : ∀ s, Nests .between n s → Rests deep n (item s)) (fuel index : Nat) {s : Bytes}
    (h : Nests .between n s) : Rests deep (n + 1) (itemsFrom item fuel index s) := by
  induction fuel generalizing index s with
  | zero => trivial
  | succ fuel ih =>
      rw [itemsFrom]
      refine (itemSlot_leaves _ h).bind fun t ht => ?_
      cases t with
      | closed rest => exact ht
      | element s =>
          refine (hitem s ht).within.bind ?_
          rintro ⟨v, s⟩ hs
          refine (ih (index + 1) hs).bind ?_
          rintro ⟨vs, s⟩ hs
          exact hs

theorem memberKey_leaves (skipped : Bool) {s : Bytes} (h : Nests .between n s) :
    Leaves deep (fun r : Bytes × Bytes => Whole r.1 ∧ Nests .between n r.2) (memberKey skipped s) := by
  unfold memberKey
  split
  · trivial
  split
  · next hb =>
    subst hb
    exact string_leaves skipped h.quoted
  · trivial

theorem colon_leaves {s : Bytes} (h : Nests .between n s) :
    Leaves deep (Nests .between n) (colon s) := by
  refine (next_leaves h).bind ?_
  rintro ⟨b, s⟩ ⟨hs, rest, hcons⟩
  obtain rfl : s = b :: rest := hcons
  dsimp only at hs ⊢
  split
  · next hb => exact hs.tail (by rw [hb]; decide)
  · trivial

theorem membersFrom_rests {κ σ : Type} (skipped : Bool) {key : Bytes → Except Error κ}
    {member : σ → κ → Bytes → Except Error (σ × Bytes)}
    (hkey : ∀ b, Whole b → Leaves deep (fun _ => True) (key b))
    (hmember : ∀ state k s, Nests .between n s → Rests deep n (member state k s)) (fuel : Nat)
    (first : Bool) (state : σ) {s : Bytes} (h : Nests .between n s) :
    Rests deep (n + 1) (membersFrom skipped key member fuel first state s) := by
  induction fuel generalizing first state s with
  | zero => trivial
  | succ fuel ih =>
      rw [membersFrom]
      refine (memberSlot_leaves _ h).bind fun t ht => ?_
      cases t with
      | closed rest => exact ht
      | element s =>
          refine (memberKey_leaves skipped ht).bind ?_
          rintro ⟨raw, s⟩ ⟨hraw, hs⟩
          refine (hkey raw hraw).bind fun k _ => ?_
          refine (colon_leaves hs).bind fun s hs => ?_
          refine (hmember state k s hs).bind ?_
          rintro ⟨state, s⟩ hs
          exact ih false state hs

-- What is read within brackets has one level less; without a reader for it a bracket is too deep.
theorem skipWith_leaves {inner : Option (Bytes → Except Error Bytes)}
    (hinner : ∀ f, inner = some f → ∀ m, n = m + 1 → ∀ s, Nests .between m s →
      Leaves deep (Nests .between m) (f s))
    (hnone : inner = none → 0 < n → deep) {s : Bytes} (h : Nests .between n s) :
    Leaves deep (Nests .between n) (skipWith inner s) := by
  refine (next_leaves h).bind ?_
  rintro ⟨b, s⟩ ⟨hs, rest, hcons⟩
  obtain rfl : s = b :: rest := hcons
  dsimp only at hs ⊢
  split
  · next hb => exact word_leaves (by decide) true (hs.tail (by rw [hb]; decide))
  split
  · next hb => exact word_leaves (by decide) true (hs.tail (by rw [hb]; decide))
  split
  · next hb => exact word_leaves (by decide) true (hs.tail (by rw [hb]; decide))
  split
  · next hb =>
    subst hb
    exact (string_leaves true hs.quoted).bind fun r hr => hr.2
  split
  · next hb =>
    obtain ⟨m, rfl, hrest⟩ := hs.opened (by rw [hb]; decide) (by rw [hb]; decide)
    cases inner with
    | none => exact hnone rfl (Nat.succ_pos m)
    | some f =>
        have hitem (s : Bytes) (hs : Nests .between m s) :
            Rests deep m (do return ((), ← f s) : Except Error (Unit × Bytes)) :=
          (hinner f rfl m rfl s hs).bind fun rest hrest => hrest
        exact (itemsFrom_rests hitem _ 0 hrest).bind fun r hr => hr
  split
  · next hb =>
    obtain ⟨m, rfl, hrest⟩ := hs.opened (by rw [hb]; decide) (by rw [hb]; decide)
    cases inner with
    | none => exact hnone rfl (Nat.succ_pos m)
    | some f =>
        have hkey (b : Bytes) (_ : Whole b) : Leaves deep (fun _ => True) (.ok b) := trivial
        have hmember (_ : Unit) (_ : Bytes) (s : Bytes) (hs : Nests .between m s) :
            Rests deep m (do return ((), ← f s) : Except Error (Unit × Bytes)) :=
          (hinner f rfl m rfl s hs).bind fun rest hrest => hrest
        exact (membersFrom_rests true hkey hmember _ true () hrest).bind fun r hr => hr
  · exact (number_rests true hs).bind fun r hr => hr

theorem skip_leaves (depth : Nat) {s : Bytes} (h : Nests .between n s) :
    Leaves (depth < n) (Nests .between n) (skip depth s) := by
  induction depth generalizing n s with
  | zero => exact skipWith_leaves (fun f hf => by cases hf) (fun _ => id) h
  | succ depth ih =>
      refine skipWith_leaves (fun f hf m hm s hs => ?_) nofun h
      cases hf
      exact (ih hs).deeper fun hdepth => by omega

-- Values

theorem textValue_rests (schema : Schema) {s : Bytes} (h : Nests .within n s) :
    Rests deep n (textValue schema s) := by
  have hstring : Leaves deep (fun r : Bytes × Bytes => Whole r.1 ∧ Nests .between n r.2) (string false s) :=
    string_leaves false h
  unfold textValue
  split
  · refine hstring.bind ?_
    rintro ⟨b, rest⟩ ⟨hb, hrest⟩
    exact (decodeText_leaves hb).bind fun _ _ => hrest
  · refine hstring.bind ?_
    rintro ⟨b, rest⟩ ⟨hb, hrest⟩
    exact (decodeText_leaves hb).bind fun _ _ => hrest
  · refine hstring.bind ?_
    rintro ⟨b, rest⟩ ⟨hb, hrest⟩
    refine (decodeText_leaves hb).bind fun text _ => ?_
    split
    · exact hrest
    · trivial
  · exact hstring.bind fun _ _ => trivial

theorem finite_leaves (x : Double) : Leaves deep (fun _ => True) (finite x) := by
  unfold finite
  split <;> trivial

theorem checkBounds_leaves (bounds : Option (Int × Int)) (n : Int) :
    Leaves deep (fun _ => True) (checkBounds bounds n) := by
  unfold checkBounds
  split
  · trivial
  · split
    · trivial
    · split <;> trivial

theorem numberValue_leaves (schema : Schema) (n : Number) :
    Leaves deep (fun _ => True) (numberValue schema n) := by
  cases n with
  | integer n length =>
      have hbounded (bounds : Option (Int × Int)) : Leaves deep (fun _ => True)
          (if 4300 < length then complain .tooManyDigits else checkBounds bounds n) := by
        split
        · trivial
        · exact checkBounds_leaves bounds n
      simp only [numberValue, integerValue]
      split
      · exact hbounded none
      · exact hbounded _
      · exact (finite_leaves _).bind fun _ _ => trivial
      · split
        · trivial
        · exact (finite_leaves _).bind fun _ _ => trivial
  | decimal negative digits exponent =>
      refine (finite_leaves _).bind fun x _ => ?_
      split <;> trivial

theorem fill_leaves (found : Entries String Value) (fields : List (Member Schema)) :
    Leaves deep (fun _ => True) (fill found fields) := by
  induction fields with
  | nil => trivial
  | cons field rest ih =>
      rw [fill]
      split
      · exact ih.bind fun _ _ => trivial
      · exact ih.bind fun _ _ => trivial
      · trivial

section Objects

variable {value : Schema → Bytes → Except Error (Value × Bytes)} {skip : Bytes → Except Error Bytes}

theorem tagText_rests (hskip : ∀ s, Nests .between n s → Leaves deep (Nests .between n) (skip s))
    {s : Bytes} (h : Nests .between n s) : Rests deep n (tagText skip s) := by
  refine (next_leaves h).bind ?_
  rintro ⟨b, s⟩ ⟨hs, rest, hcons⟩
  obtain rfl : s = b :: rest := hcons
  dsimp only at hs ⊢
  split
  · next hb =>
    subst hb
    refine (string_leaves false hs.quoted).bind ?_
    rintro ⟨tag, rest⟩ ⟨htag, hrest⟩
    exact (decodeText_leaves htag).bind fun _ _ => hrest
  · exact (hskip _ hs).bind fun _ _ => trivial

theorem recordMember_rests (hvalue : ∀ schema s, Nests .between n s → Rests deep n (value schema s))
    (hskip : ∀ s, Nests .between n s → Leaves deep (Nests .between n) (skip s)) (kind : RecordKind)
    (fields : List (Member Schema)) (found : Entries String Value) (key : Bytes) {s : Bytes}
    (h : Nests .between n s) : Rests deep n (recordMember value skip kind fields found key s) := by
  have hpassed : Rests deep n (do return (found, ← skip s) : Except Error (Entries String Value × Bytes)) :=
    (hskip s h).bind fun _ hrest => hrest
  unfold recordMember
  split
  · refine (hvalue _ s h).within.bind ?_
    rintro ⟨v, rest⟩ hrest
    exact hrest
  split
  · split
    · refine (tagText_rests hskip h).bind ?_
      rintro ⟨tag, rest⟩ hrest
      dsimp only
      split
      · exact hrest
      · trivial
    · exact hpassed
  · exact hpassed

theorem findTag_leaves (hskip : ∀ s, Nests .between n s → Leaves deep (Nests .between n) (skip s))
    (fuel : Nat) (first : Bool) {s : Bytes} (h : Nests .between n s) :
    Leaves deep (fun r : String × Bytes × Bool => Nests .between n r.2.1) (findTag skip fuel first s) := by
  induction fuel generalizing first s with
  | zero => trivial
  | succ fuel ih =>
      rw [findTag]
      refine (memberSlot_leaves _ h).bind fun t ht => ?_
      cases t with
      | closed rest => trivial
      | element s =>
          refine (memberKey_leaves false ht).bind ?_
          rintro ⟨key, s⟩ hkey
          refine (colon_leaves hkey.2).bind fun s hs => ?_
          dsimp only
          split
          · refine (tagText_rests hskip hs).bind ?_
            rintro ⟨tag, rest⟩ hrest
            exact hrest
          · exact (hskip s hs).bind fun s hs => ih false hs

theorem objectValue_rests (hvalue : ∀ schema s, Nests .between n s → Rests deep n (value schema s))
    (hskip : ∀ s, Nests .between n s → Leaves deep (Nests .between n) (skip s)) (schema : Schema)
    {s : Bytes} (h : Nests .between n s) : Rests deep (n + 1) (objectValue value skip schema s) := by
  unfold objectValue
  extract_lets dict record
  have hdict (member : Schema) : Rests deep (n + 1) (dict member) := by
    refine (membersFrom_rests false (fun b hb => decodeText_leaves hb) (fun entries k s hs => ?_)
      _ true [] h).bind ?_
    · refine (hvalue member s hs).within.bind ?_
      rintro ⟨v, rest⟩ hrest
      exact hrest
    · rintro ⟨entries, rest⟩ hrest
      exact hrest
  have hrecord (kind : RecordKind) (fields : List (Member Schema)) (first : Bool) (s : Bytes)
      (hs : Nests .between n s) : Rests deep (n + 1) (record kind fields first s) := by
    have hkey (b : Bytes) (_ : Whole b) : Leaves deep (fun _ => True) (.ok b) := trivial
    refine (membersFrom_rests false hkey
      (fun found k s hs => recordMember_rests hvalue hskip kind fields found k hs) _ first [] hs).bind ?_
    rintro ⟨found, rest⟩ hrest
    exact (fill_leaves found fields).bind fun _ _ => hrest
  split
  · exact hdict _
  · exact hdict _
  · exact hrecord _ _ _ _ h
  · refine (findTag_leaves hskip _ true h).bind ?_
    rintro ⟨tag, rest, first⟩ hrest
    dsimp only
    split
    · trivial
    · split
      · exact hrecord _ _ _ _ hrest
      · exact hrecord _ _ _ _ h
  · trivial

theorem valueWith_rests {inner : Option (Schema → Bytes → Except Error (Value × Bytes))}
    (hinner : ∀ f, inner = some f → ∀ m, n = m + 1 → ∀ schema s, Nests .between m s →
      Rests deep m (f schema s))
    (hskip : ∀ m, n = m + 1 → ∀ s, Nests .between m s → Leaves deep (Nests .between m) (skip s))
    (hnone : inner = none → 0 < n → deep) (schema : Schema) {s : Bytes} (h : Nests .between n s) :
    Rests deep n (valueWith inner skip schema s) := by
  refine (next_leaves h).bind ?_
  rintro ⟨b, s⟩ ⟨hs, rest, hcons⟩
  obtain rfl : s = b :: rest := hcons
  dsimp only at hs ⊢
  split
  · next hb =>
    subst hb
    exact textValue_rests schema hs.quoted
  split
  · next hb =>
    refine (word_leaves (by decide) false (hs.tail (by rw [hb]; decide))).bind fun rest hrest => ?_
    split
    · exact hrest
    · trivial
  split
  · next hb =>
    have hletters : ((if b = ascii 't' then ['r', 'u', 'e'] else ['a', 'l', 's', 'e']).map ascii).all
        isNeutral = true := by
      split <;> decide
    refine (word_leaves hletters false (hs.tail (by rcases hb with rfl | rfl <;> decide))).bind
      fun rest hrest => ?_
    split
    · exact hrest
    · exact hrest
    · trivial
  split
  · next hb =>
    obtain ⟨m, rfl, hrest⟩ := hs.opened (by rw [hb]; decide) (by rw [hb]; decide)
    have hitems (value : Schema → Bytes → Except Error (Value × Bytes)) (hv : inner = some value)
        (item : Schema) : Rests deep (m + 1) (listValue value item rest) := by
      refine (itemsFrom_rests (hinner value hv m rfl item) _ 0 hrest).bind ?_
      rintro ⟨vs, rest⟩ hrest
      exact hrest
    split
    · exact hitems _ rfl _
    · exact hitems _ rfl _
    · exact hnone rfl (Nat.succ_pos m)
    · exact hnone rfl (Nat.succ_pos m)
    · trivial
  split
  · next hb =>
    obtain ⟨m, rfl, hrest⟩ := hs.opened (by rw [hb]; decide) (by rw [hb]; decide)
    split
    · exact objectValue_rests (hinner _ rfl m rfl) (hskip m rfl) schema hrest
    · split
      · exact hnone rfl (Nat.succ_pos m)
      · trivial
  · refine (number_rests false hs).bind ?_
    rintro ⟨x, rest⟩ hrest
    exact (numberValue_leaves schema x).bind fun _ _ => hrest

end Objects

-- Reading fails for want of depth only where the bytes nest deeper.
theorem value_rests (depth : Nat) (schema : Schema) {s : Bytes} (h : Nests .between n s) :
    Rests (depth < n) n (value depth schema s) := by
  induction depth generalizing n schema s with
  | zero =>
      refine valueWith_rests (fun f hf => by cases hf) (fun m hm s hs => ?_) (fun _ => id) schema h
      exact (skip_leaves 0 hs).deeper fun hdepth => by omega
  | succ depth ih =>
      refine valueWith_rests (fun f hf m hm schema s hs => ?_) (fun m hm s hs => ?_) nofun schema h
      · cases hf
        exact (ih schema hs).deeper fun hdepth => by omega
      · exact (skip_leaves depth hs).deeper fun hdepth => by omega

theorem decodeBytes_leaves (schema : Schema) {s : Bytes} (h : Nests .between n s) :
    Leaves (maxDepth < n) (fun _ => True) (decodeBytes schema s) := by
  refine (value_rests maxDepth schema h).bind ?_
  rintro ⟨v, rest⟩ _
  dsimp only
  split <;> trivial

-- A text is decoded or refused for what it says, never for how it is encoded.
theorem decode_ne_undecodable (schema : Schema) (text : String) (fault : Utf8.Fault) :
    decode schema text ≠ .error (.undecodable fault) :=
  (decodeBytes_leaves schema (nests_levels text)).ne_undecodable fault

-- It is refused for its depth only if its brackets nest that deep.
theorem lt_levels_of_tooDeep {schema : Schema} {text : String}
    (h : decode schema text = .error .tooDeep) : maxDepth < levels text := by
  by_contra hle
  exact (decodeBytes_leaves schema (nests_levels text)).ne_tooDeep hle h

-- Opening brackets and nothing else are enough for that.
theorem value_brackets {depth n : Nat} (h : depth ≤ n) :
    value depth .any (List.replicate (n + 1) (ascii '[')) = .error .tooDeep := by
  induction depth generalizing n with
  | zero =>
      rw [List.replicate_succ, value, valueWith, next_cons _ _ (by decide), ok_bind]
      dsimp only
      rw [if_neg (by decide), if_neg (by decide), if_neg (by decide), if_pos rfl]
      rfl
  | succ depth ih =>
      obtain ⟨m, rfl⟩ := Nat.exists_eq_add_of_le' h
      have hslot (rest : Bytes) : itemSlot true (ascii '[' :: rest) = .ok (.element (ascii '[' :: rest)) := by
        rw [itemSlot, slot, next_cons _ _ (by decide), ok_bind]
        rfl
      have hitem := ih (n := m + depth) (Nat.le_add_left depth m)
      have hbracket := valueWith_bracket (skip depth) .any (value depth) .any
        (List.replicate (m + (depth + 1)) (ascii '[')) (.inr ⟨rfl, rfl⟩)
      rw [List.replicate_succ, value, hbracket, listValue, items, itemsFrom, ← Nat.add_assoc]
      rw [List.replicate_succ] at hitem ⊢
      rw [beq_self_eq_true, hslot, ok_bind]
      dsimp only
      rw [hitem]
      rfl

theorem decode_brackets {n : Nat} (h : maxDepth < n) :
    decode .any (String.ofList (List.replicate n '[')) = .error .tooDeep := by
  obtain ⟨m, rfl⟩ := Nat.exists_eq_succ_of_ne_zero (Nat.ne_of_gt (Nat.zero_lt_of_lt h))
  have hbytes : Utf8.encode (String.ofList (List.replicate (m + 1) '[')) =
      List.replicate (m + 1) (ascii '[') := by
    rw [Utf8.encode, String.toList_ofList, Utf8.encodeChars_of_lt, List.map_replicate]
    · rfl
    · intro c hc
      rw [List.eq_of_mem_replicate hc]
      decide
  rw [decode, hbytes, decodeBytes, decodeWithin, value_brackets (Nat.le_of_lt_succ h)]
  rfl

end Coffer.Json
