import Coffer.Json.Encode
import Coffer.Json.Reader
import Coffer.Proofs.Except
import Coffer.Proofs.Text.Utf8

namespace Coffer.Json

theorem stringFrom_plain (skipped : Bool) (fuel : Nat) (bs t rest r : Bytes)
    (hbs : ∀ b ∈ bs, b ≠ 0x22 ∧ b ≠ 0x5C ∧ ¬b < 0x20)
    (hrest : stringFrom skipped fuel rest = .ok (t, r)) :
    stringFrom skipped (fuel + bs.length) (bs ++ rest) = .ok (bs ++ t, r) := by
  induction bs with
  | nil => exact hrest
  | cons b bs ih =>
      obtain ⟨hquote, hslash, hcontrol⟩ := hbs b List.mem_cons_self
      have ih := ih fun x hx => hbs x (List.mem_cons_of_mem _ hx)
      change stringFrom skipped (fuel + bs.length + 1) (b :: (bs ++ rest)) = _
      simp only [stringFrom, hquote, hslash, hcontrol, if_false, ih, ok_bind]
      rfl

theorem stringFrom_escape (skipped : Bool) (fuel : Nat) (e b : UInt8) (t rest r : Bytes)
    (he : Escape.of e = .byte b) (hrest : stringFrom skipped fuel rest = .ok (t, r)) :
    stringFrom skipped (fuel + 1) (0x5C :: e :: rest) = .ok (b :: t, r) := by
  rw [stringFrom]
  simp [he, hrest, ok_bind]

theorem hexByte?_hexDigit (d : Nat) (hd : d < 16) :
    hexByte? (UInt8.ofNat (hexDigit d).toNat) = some d := by
  revert d
  decide

theorem codeUnit_control (n : Nat) (hn : n < 0x20) (rest : Bytes) :
    codeUnit (0x30 :: 0x30 :: UInt8.ofNat (hexDigit (n / 16)).toNat ::
      UInt8.ofNat (hexDigit (n % 16)).toNat :: rest) = .ok (n, rest) := by
  have hzero : hexByte? 0x30 = some 0 := by decide
  have hcode : 16 * (n / 16) + n % 16 = n := by omega
  rw [codeUnit, if_neg (by simp)]
  simp only [codeUnit.go, hzero, hexByte?_hexDigit (n / 16) (by omega),
    hexByte?_hexDigit (n % 16) (by omega)]
  simp [hcode]

theorem stringFrom_control (skipped : Bool) (fuel : Nat) (c : Char) (t rest r : Bytes)
    (hc : c.toNat < 0x20) (hrest : stringFrom skipped fuel rest = .ok (t, r)) :
    stringFrom skipped (fuel + 1)
        (0x5C :: ascii 'u' :: 0x30 :: 0x30 :: UInt8.ofNat (hexDigit (c.toNat / 16)).toNat ::
          UInt8.ofNat (hexDigit (c.toNat % 16)).toNat :: rest) =
      .ok (Utf8.encodeChar c ++ t, r) := by
  have hu : Escape.of (ascii 'u') = .unicode := by decide
  have hlow : isLowSurrogate c.toNat = false := by simp [isLowSurrogate]; omega
  have hhigh : isHighSurrogate c.toNat = false := by simp [isHighSurrogate]; omega
  have hunit : unicodeEscape skipped (0x30 :: 0x30 :: UInt8.ofNat (hexDigit (c.toNat / 16)).toNat ::
      UInt8.ofNat (hexDigit (c.toNat % 16)).toNat :: rest) = .ok (Utf8.encodeChar c, rest) := by
    rw [unicodeEscape, codeUnit_control c.toNat hc, ok_bind]
    simp [hlow, hhigh, Char.ofNat_toNat]
  rw [stringFrom]
  simp [hu, hunit, hrest, ok_bind]

theorem toNat_ne_of_ne (c d : Char) (h : c ≠ d) : c.toNat ≠ d.toNat := fun he =>
  h (Char.toNat_inj.mp he)

-- A character that needs no escape is read as its own bytes.
theorem plain_encodeChar (c : Char) (hquote : c ≠ '"') (hslash : c ≠ '\\') (hcontrol : ¬c.toNat < 0x20)
    (b : UInt8) (hb : b ∈ Utf8.encodeChar c) : b ≠ 0x22 ∧ b ≠ 0x5C ∧ ¬b < 0x20 := by
  have hq : c.toNat ≠ 0x22 := toNat_ne_of_ne c '"' hquote
  have hs : c.toNat ≠ 0x5C := toNat_ne_of_ne c '\\' hslash
  have hn : b.toNat = c.toNat ∨ 0x80 ≤ b.toNat := by
    by_cases hc : c.toNat < 0x80
    · rw [Utf8.encodeChar_of_lt c hc, List.mem_singleton] at hb
      subst hb
      left
      rw [UInt8.toNat_ofNat']
      omega
    · exact .inr (Utf8.le_of_mem_encodeChar c (by omega) b hb)
  refine ⟨?_, ?_, ?_⟩
  · rintro rfl
    change 34 = _ ∨ 128 ≤ 34 at hn
    omega
  · rintro rfl
    change 92 = _ ∨ 128 ≤ 92 at hn
    omega
  · rw [UInt8.lt_iff_toNat_lt]
    change ¬_ < 32
    omega

-- Written characters are read as the bytes, with no more fuel than the characters have bytes.
def Spells (skipped : Bool) (written : List Char) (bs : Bytes) : Prop :=
  ∃ k, k ≤ (Utf8.encodeChars written).length ∧
    ∀ fuel t rest r, stringFrom skipped fuel rest = .ok (t, r) →
      stringFrom skipped (fuel + k) (Utf8.encodeChars written ++ rest) = .ok (bs ++ t, r)

theorem spells_letter (skipped : Bool) (letter : Char) (b : UInt8)
    (hletter : Utf8.encodeChar letter = [ascii letter]) (he : Escape.of (ascii letter) = .byte b) :
    Spells skipped ['\\', letter] [b] := by
  have hbytes : Utf8.encodeChars ['\\', letter] = [0x5C, ascii letter] := by
    rw [Utf8.encodeChars_cons, Utf8.encodeChars_cons, hletter]
    rfl
  rw [Spells, hbytes]
  exact ⟨1, by simp, fun fuel t rest r h =>
    stringFrom_escape skipped fuel (ascii letter) b t rest r he h⟩

theorem spells_control (skipped : Bool) (c : Char) (hc : c.toNat < 0x20) :
    Spells skipped ['\\', 'u', '0', '0', hexDigit (c.toNat / 16), hexDigit (c.toNat % 16)]
      (Utf8.encodeChar c) := by
  have hdigit (d : Nat) (hd : d < 16) :
      Utf8.encodeChar (hexDigit d) = [UInt8.ofNat (hexDigit d).toNat] := by
    revert d
    decide
  have hbytes : Utf8.encodeChars
      ['\\', 'u', '0', '0', hexDigit (c.toNat / 16), hexDigit (c.toNat % 16)] =
      [0x5C, ascii 'u', 0x30, 0x30, UInt8.ofNat (hexDigit (c.toNat / 16)).toNat,
        UInt8.ofNat (hexDigit (c.toNat % 16)).toNat] := by
    simp only [Utf8.encodeChars_cons, Utf8.encodeChars_nil, hdigit (c.toNat / 16) (by omega),
      hdigit (c.toNat % 16) (by omega)]
    rfl
  rw [Spells, hbytes]
  exact ⟨1, by simp, fun fuel t rest r h => stringFrom_control skipped fuel c t rest r hc h⟩

-- Every character is read back from how it is escaped.
theorem spells_escaped (skipped : Bool) (c : Char) :
    Spells skipped (escaped c) (Utf8.encodeChar c) := by
  unfold escaped
  split
  · subst c
    exact spells_letter skipped '"' 0x22 (by decide) (by decide)
  split
  · subst c
    exact spells_letter skipped '\\' 0x5C (by decide) (by decide)
  split
  · subst c
    exact spells_letter skipped 'n' 0x0A (by decide) (by decide)
  split
  · subst c
    exact spells_letter skipped 'r' 0x0D (by decide) (by decide)
  split
  · subst c
    exact spells_letter skipped 't' 0x09 (by decide) (by decide)
  split
  · subst c
    exact spells_letter skipped 'b' 0x08 (by decide) (by decide)
  split
  · subst c
    exact spells_letter skipped 'f' 0x0C (by decide) (by decide)
  split
  · exact spells_control skipped c ‹c.toNat < 0x20›
  · rename_i hquote hslash _ _ _ _ _ hcontrol
    refine ⟨(Utf8.encodeChar c).length, by simp, fun fuel t rest r h => ?_⟩
    rw [Utf8.encodeChars_cons, Utf8.encodeChars_nil, List.append_nil]
    exact stringFrom_plain skipped fuel _ t rest r (plain_encodeChar c hquote hslash hcontrol) h

theorem stringFrom_escapedChars (skipped : Bool) (cs : List Char) (rest : Bytes) :
    ∃ k, k ≤ (Utf8.encodeChars (cs.flatMap escaped)).length ∧
      ∀ fuel, stringFrom skipped (fuel + 1 + k)
          (Utf8.encodeChars (cs.flatMap escaped) ++ ascii '"' :: rest) =
        .ok (Utf8.encodeChars cs, rest) := by
  induction cs with
  | nil =>
      refine ⟨0, Nat.le_refl _, fun fuel => ?_⟩
      simp [stringFrom, ascii, Utf8.encodeChars]
  | cons c cs ih =>
      obtain ⟨k, hk, ih⟩ := ih
      obtain ⟨j, hj, hstep⟩ := spells_escaped skipped c
      refine ⟨k + j, ?_, fun fuel => ?_⟩
      · rw [List.flatMap_cons, Utf8.encodeChars_append, List.length_append]
        omega
      · rw [List.flatMap_cons, Utf8.encodeChars_append, List.append_assoc, ← Nat.add_assoc]
        exact hstep _ _ _ _ (ih fuel)

-- A text that was written is read back up to its closing quote.
theorem string_escapedChars (skipped : Bool) (cs : List Char) (rest : Bytes) :
    string skipped (Utf8.encodeChars (cs.flatMap escaped) ++ ascii '"' :: rest) =
      .ok (Utf8.encodeChars cs, rest) := by
  obtain ⟨k, hk, hread⟩ := stringFrom_escapedChars skipped cs rest
  have hfuel : (Utf8.encodeChars (cs.flatMap escaped) ++ ascii '"' :: rest).length + 1 =
      ((Utf8.encodeChars (cs.flatMap escaped) ++ ascii '"' :: rest).length - k) + 1 + k := by
    simp only [List.length_append]
    omega
  rw [string, hfuel]
  exact hread _

theorem encodeChars_textChars (s : String) :
    Utf8.encodeChars (textChars s) =
      ascii '"' :: (Utf8.encodeChars (s.toList.flatMap escaped) ++ [ascii '"']) := by
  simp only [textChars, List.cons_append, Utf8.encodeChars_cons, Utf8.encodeChars_append]
  rfl

-- What is written of a text holds no control character, so it stays on one line.
theorem le_of_mem_encodeChars_escaped (c : Char) (b : UInt8) (hb : b ∈ Utf8.encodeChars (escaped c)) :
    0x20 ≤ b.toNat := by
  have hfixed : (['"', '\\', 'n', 'r', 't', 'b', 'f', 'u', '0', '1', '2', '3', '4', '5', '6',
      '7', '8', '9', 'a', 'b', 'c', 'd', 'e', 'f'].all fun d =>
        (Utf8.encodeChar d).all fun b => 0x20 ≤ b.toNat) = true := by
    decide
  have hhex : ∀ n < 16, ((Utf8.encodeChar (hexDigit n)).all fun b => 0x20 ≤ b.toNat) = true := by
    decide
  simp only [List.all_eq_true, decide_eq_true_eq] at hfixed hhex
  simp only [Utf8.encodeChars, List.mem_flatMap] at hb
  obtain ⟨d, hd, hb⟩ := hb
  unfold escaped at hd
  by_cases hcontrol : c.toNat < 0x20
  · by_cases hdigit : d = hexDigit (c.toNat / 16) ∨ d = hexDigit (c.toNat % 16)
    · rcases hdigit with rfl | rfl
      · exact hhex _ (by omega) b hb
      · exact hhex _ (by omega) b hb
    · apply hfixed d _ b hb
      simp only [hcontrol, if_true] at hd
      repeat' split at hd
      all_goals simp only [List.mem_cons, List.not_mem_nil, or_false] at hd ⊢
      all_goals grind
  · by_cases hsame : d = c
    · subst hsame
      by_cases hascii : d.toNat < 0x80
      · rw [Utf8.encodeChar_of_lt d hascii, List.mem_singleton] at hb
        rw [hb, UInt8.toNat_ofNat']
        omega
      · have := Utf8.le_of_mem_encodeChar d (by omega) b hb
        omega
    · apply hfixed d _ b hb
      simp only [hcontrol, if_false] at hd
      repeat' split at hd
      all_goals simp only [List.mem_cons, List.not_mem_nil, or_false] at hd ⊢
      all_goals grind

theorem le_of_mem_textChars (s : String) (b : UInt8) (hb : b ∈ Utf8.encodeChars (textChars s)) :
    0x20 ≤ b.toNat := by
  have hquote : 0x20 ≤ (ascii '"').toNat := by decide
  rw [encodeChars_textChars] at hb
  simp only [List.mem_cons, List.mem_append, List.not_mem_nil, or_false] at hb
  rcases hb with rfl | hb | rfl
  · exact hquote
  · simp only [Utf8.encodeChars, List.flatMap_assoc, List.mem_flatMap] at hb
    obtain ⟨c, -, d, hd, hb⟩ := hb
    exact le_of_mem_encodeChars_escaped c b (List.mem_flatMap.mpr ⟨d, hd, hb⟩)
  · exact hquote

end Coffer.Json
