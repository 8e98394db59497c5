import Coffer.Proofs.Json.Decodable
import Coffer.Proofs.Json.Number
import Mathlib.Algebra.Group.Nat.Defs

-- How large an integer is at least, by the length of the text that is read as it.

namespace Coffer.Json

variable {skipped : Bool} {s rest : Bytes}

theorem pow_mul_le_foldl (ds : Bytes) (n : Nat) :
    10 ^ ds.length * n ≤ ds.foldl (fun n d => 10 * n + (d.toNat - 48)) n := by
  induction ds generalizing n with
  | nil => simp
  | cons d ds ih =>
      calc 10 ^ (ds.length + 1) * n = 10 ^ ds.length * (10 * n) := by rw [Nat.pow_succ, Nat.mul_assoc]
        _ ≤ 10 ^ ds.length * (10 * n + (d.toNat - 48)) := Nat.mul_le_mul_left _ (Nat.le_add_right _ _)
        _ ≤ _ := ih _

theorem pow_le_digitsNat {d : UInt8} (hd : isDigit d = true) (hzero : d ≠ 0x30) (ds : Bytes) :
    10 ^ ds.length ≤ digitsNat (d :: ds) := by
  have hpos : 0 < d.toNat - 48 := by
    simp only [isDigit, Bool.and_eq_true, decide_eq_true_eq, UInt8.le_iff_toNat_le] at hd
    have hlow : 48 ≤ d.toNat := hd.1
    have hne : d.toNat ≠ 48 := fun h => hzero (UInt8.toNat_inj.mp h)
    omega
  calc 10 ^ ds.length ≤ 10 ^ ds.length * (d.toNat - 48) := Nat.le_mul_of_pos_right _ hpos
    _ ≤ digitsNat (d :: ds) := by simpa [digitsNat] using pow_mul_le_foldl ds (d.toNat - 48)

-- The digits before a point are one, or they do not start with a zero.
theorem whole_eq_ok {ds : Bytes} (h : whole skipped s = .ok (ds, rest)) :
    s = ds ++ rest ∧ 0 < ds.length ∧ (ds.length = 1 ∨ 10 ^ (ds.length - 1) ≤ digitsNat ds) := by
  unfold whole at h
  split at h
  · cases h
  · split at h
    · cases h
    · cases h
      exact ⟨rfl, by simp, .inl rfl⟩
  · next hnil hzero =>
    dsimp only at h
    split at h
    · cases h
    · next hne =>
      cases h
      refine ⟨List.takeWhile_append_dropWhile.symm, ?_, .inr ?_⟩
      · simpa [List.length_pos_iff] using hne
      · cases s with
        | nil => exact absurd rfl hnil
        | cons d tail =>
            have hd : isDigit d = true := by
              by_contra hd
              simp [hd] at hne
            rw [List.takeWhile_cons_of_pos hd]
            exact pow_le_digitsNat hd (fun h => hzero tail (by rw [h])) _

theorem fraction_eq_nil (h : fraction s = .ok ([], rest)) : rest = s := by
  unfold fraction at h
  split at h
  · dsimp only at h
    split at h
    · cases h
    · next hne =>
      simp only [Except.ok.injEq, Prod.mk.injEq] at h
      simp [h.1] at hne
  · cases h
    rfl

theorem exponentPart_eq_none (h : exponentPart s = .ok (none, rest)) : rest = s := by
  unfold exponentPart at h
  split at h
  · split at h
    · split at h
      next negative unsigned heq =>
      dsimp only at h
      split at h <;> cases h
    · cases h
      rfl
  · cases h
    rfl

-- What is taken for an integer is a sign and its digits.
theorem number_eq_integer {n : Int} {length : Nat} (h : number skipped s = .ok (.integer n length, rest)) :
    ∃ taken, s = taken ++ rest ∧ (taken.length ≤ 2 ∨ 10 ^ (taken.length - 2) ≤ n.natAbs) := by
  unfold number at h
  split at h
  next negative unsigned heq =>
  obtain ⟨⟨ds, tail⟩, hwhole, hparts⟩ := bind_eq_ok h
  obtain ⟨⟨fs, afterPoint⟩, hfraction, hparts'⟩ := bind_eq_ok hparts
  obtain ⟨⟨exponent, rest'⟩, hexponent, hnumber⟩ := bind_eq_ok hparts'
  obtain ⟨hunsigned, hpos, hdigits⟩ := whole_eq_ok hwhole
  dsimp only at hfraction hexponent hnumber
  split at hnumber
  case isFalse => cases hnumber
  case isTrue hnone =>
    obtain ⟨rfl, rfl⟩ : fs = [] ∧ exponent = none := by simpa using hnone
    obtain rfl := fraction_eq_nil hfraction
    obtain rfl := exponentPart_eq_none hexponent
    cases hnumber
    have hsign : ∃ sign : Bytes, s = sign ++ unsigned ∧ sign.length ≤ 1 := by
      split at heq <;> cases heq
      · exact ⟨[0x2D], rfl, by simp⟩
      · exact ⟨[], rfl, by simp⟩
    obtain ⟨sign, rfl, hsign⟩ := hsign
    refine ⟨sign ++ ds, by rw [hunsigned, List.append_assoc], ?_⟩
    rw [List.length_append]
    rcases hdigits with hone | hpow
    · exact .inl (by omega)
    · right
      have habs : (if negative then -(digitsNat ds : Int) else digitsNat ds).natAbs = digitsNat ds := by
        split <;> omega
      rw [habs]
      calc 10 ^ (sign.length + ds.length - 2) ≤ 10 ^ (ds.length - 1) :=
            Nat.pow_le_pow_right (by decide) (by omega)
        _ ≤ digitsNat ds := hpow

-- Bytes that open no text, no list and no mapping, and are no blanks.
structure Solid (b : UInt8) : Prop where
  blank : isBlank b = false
  quote : b ≠ ascii '"'
  bracket : b ≠ ascii '['
  brace : b ≠ ascii '\x7b'

instance : DecidablePred Solid := fun b =>
  decidable_of_iff (isBlank b = false ∧ b ≠ ascii '"' ∧ b ≠ ascii '[' ∧ b ≠ ascii '\x7b')
    ⟨fun h => ⟨h.1, h.2.1, h.2.2.1, h.2.2.2⟩, fun h => ⟨h.blank, h.quote, h.bracket, h.brace⟩⟩

-- An integer takes up bytes of its size.
def Spans (s : Bytes) (r : Value × Bytes) : Prop :=
  ∀ n, r.1 = .int n → ∃ taken, s = taken ++ r.2 ∧
    (taken.length ≤ 2 ∨ 10 ^ (taken.length - 2) ≤ n.natAbs)

theorem numberValue_any_eq_int {x : Number} {n : Int} (h : numberValue .any x = .ok (.int n)) :
    ∃ length, x = .integer n length := by
  cases x with
  | integer m length =>
      have hvalue : numberValue .any (.integer m length) =
          if 4300 < length then complain .tooManyDigits else .ok (.int m) := rfl
      rw [hvalue] at h
      split at h
      · cases h
      · cases h
        exact ⟨length, rfl⟩
  | decimal negative digits exponent =>
      obtain ⟨y, -, h⟩ := bind_eq_ok h
      cases h

theorem next_of_solid (hsolid : ∀ b ∈ s, Solid b) :
    next s = .error .truncated ∨ ∃ b, Solid b ∧ next s = .ok (b, s) := by
  cases s with
  | nil => exact .inl rfl
  | cons b tail =>
      have hb := hsolid b List.mem_cons_self
      refine .inr ⟨b, hb, ?_⟩
      rw [next, List.dropWhile_cons_of_neg (by simp [hb.blank])]

theorem valueWith_of_solid (inner : Option (Schema → Bytes → Except Error (Value × Bytes)))
    (skip : Bytes → Except Error Bytes) {n : Nat} (hs : Nests .between n s) (hsolid : ∀ b ∈ s, Solid b) :
    Leaves False (Spans s) (valueWith inner skip .any s) := by
  unfold valueWith
  rcases next_of_solid hsolid with hnext | ⟨b, hb, hnext⟩
  · rw [hnext]
    trivial
  rw [hnext, ok_bind]
  have hstands : Leaves False (Stands n) (next s) := next_leaves hs
  rw [hnext] at hstands
  obtain ⟨-, tail, hcons⟩ := hstands
  dsimp only at hcons ⊢
  subst hcons
  rw [if_neg hb.quote]
  split
  · next hn =>
    have hrest : Nests .between n tail := hs.tail (by rw [hn]; decide)
    refine (word_leaves (by decide) false hrest).bind fun rest _ => ?_
    exact fun _ => nofun
  split
  · next hword =>
    have hletters : ((if b = ascii 't' then ['r', 'u', 'e'] else ['a', 'l', 's', 'e']).map ascii).all
        isNeutral = true := by
      split <;> decide
    have hrest : Nests .between n tail := hs.tail (by rcases hword with rfl | rfl <;> decide)
    refine (word_leaves hletters false hrest).bind fun rest _ => ?_
    exact fun _ => nofun
  rw [if_neg hb.bracket, if_neg hb.brace]
  have hnumber : Leaves False (fun r => number false (b :: tail) = .ok r) (number false (b :: tail)) :=
    (number_rests false hs).of_ok fun _ h => h
  refine hnumber.bind ?_
  rintro ⟨x, rest⟩ hx
  have hvalue : Leaves False (fun v => numberValue .any x = .ok v) (numberValue .any x) :=
    (numberValue_leaves .any x).of_ok fun _ h => h
  refine hvalue.bind fun v hv n hn => ?_
  obtain rfl : v = .int n := hn
  obtain ⟨length, rfl⟩ := numberValue_any_eq_int hv
  exact number_eq_integer hx

theorem decodeBytes_of_solid {n : Nat} (hs : Nests .between n s) (hsolid : ∀ b ∈ s, Solid b)
    (hlength : 2 < s.length) :
    Leaves False (fun v => ∀ n, v = .int n → 10 ^ (s.length - 2) ≤ n.natAbs) (decodeBytes .any s) := by
  have hvalue : Leaves False (Spans s) (value maxDepth .any s) := valueWith_of_solid _ _ hs hsolid
  refine hvalue.bind ?_
  rintro ⟨v, rest⟩ hspans
  dsimp only
  split
  · next hblank =>
    intro n hn
    obtain ⟨taken, hs, htaken⟩ := hspans n hn
    dsimp only at hs
    cases rest with
    | nil =>
        rw [hs, List.append_nil] at hlength ⊢
        exact htaken.resolve_left (by omega)
    | cons b tail =>
        have hb : isBlank b = false := (hsolid b (by rw [hs]; simp)).blank
        rw [List.dropWhile_cons_of_neg (by simp [hb])] at hblank
        cases hblank
  · trivial

-- A text of such characters does not nest, and is no small integer if it is long.
theorem decode_of_solid {text : String} (hchars : ∀ c ∈ text.toList, c.toNat < 0x80 ∧ Solid (ascii c))
    (hlength : 2 < text.toList.length) :
    decode .any text ≠ .error .tooDeep ∧
      ∀ n, decode .any text = .ok (.int n) → 10 ^ (text.toList.length - 2) ≤ n.natAbs := by
  have hbytes : Utf8.encode text = text.toList.map ascii :=
    Utf8.encodeChars_of_lt _ fun c hc => (hchars c hc).1
  have hsolid : ∀ b ∈ text.toList.map ascii, Solid b := by
    rw [List.forall_mem_map]
    exact fun c hc => (hchars c hc).2
  have hnests := nests_levels text
  rw [decode]
  rw [hbytes] at hnests ⊢
  rw [← List.length_map ascii] at hlength ⊢
  have hleaves := decodeBytes_of_solid hnests hsolid hlength
  exact ⟨hleaves.ne_tooDeep id, fun n hn => hleaves.of_eq_ok hn n rfl⟩

end Coffer.Json
