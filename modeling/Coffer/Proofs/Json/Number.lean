import Coffer.Proofs.Json.Sequence

namespace Coffer.Json

theorem encodeChars_of_isDigit (cs : List Char) (hcs : ∀ c ∈ cs, c.isDigit) :
    Utf8.encodeChars cs = cs.map ascii := by
  refine Utf8.encodeChars_of_lt cs fun c hmem => ?_
  have hc := hcs c hmem
  simp only [Char.isDigit, Bool.and_eq_true, decide_eq_true_eq] at hc
  have := UInt32.le_iff_toNat_le.mp hc.2
  change c.toNat ≤ 57 at this
  omega

theorem toNat_ascii_of_isDigit (c : Char) (hc : c.isDigit) :
    (ascii c).toNat = c.toNat ∧ 0x30 ≤ c.toNat ∧ c.toNat ≤ 0x39 := by
  simp only [Char.isDigit, Bool.and_eq_true, decide_eq_true_eq] at hc
  have hlow := UInt32.le_iff_toNat_le.mp hc.1
  have hhigh := UInt32.le_iff_toNat_le.mp hc.2
  change 48 ≤ c.toNat at hlow
  change c.toNat ≤ 57 at hhigh
  refine ⟨?_, hlow, hhigh⟩
  rw [ascii, UInt8.toNat_ofNat']
  omega

theorem isDigit_ascii (c : Char) (hc : c.isDigit) : isDigit (ascii c) = true := by
  obtain ⟨hn, hlow, hhigh⟩ := toNat_ascii_of_isDigit c hc
  simp only [isDigit, Bool.and_eq_true, decide_eq_true_eq, UInt8.le_iff_toNat_le, hn]
  exact ⟨hlow, hhigh⟩

theorem digitsNat_map_ascii (cs : List Char) (hcs : ∀ c ∈ cs, c.isDigit) :
    digitsNat (cs.map ascii) = Nat.ofDigitChars 10 cs 0 := by
  have hfold (init : Nat) :
      (cs.map ascii).foldl (fun n d => 10 * n + (d.toNat - 48)) init = Nat.ofDigitChars 10 cs init := by
    induction cs generalizing init with
    | nil => rfl
    | cons c cs ih =>
        have hn := (toNat_ascii_of_isDigit c (hcs c List.mem_cons_self)).1
        rw [List.map_cons, List.foldl_cons, ih fun x hx => hcs x (List.mem_cons_of_mem _ hx),
          Nat.ofDigitChars_cons, hn]
        rfl
  exact hfold 0

theorem isDigit_of_mem_digitsOf (n : Nat) : ∀ c ∈ Double.digitsOf n, c.isDigit := fun _ hc =>
  Nat.isDigit_of_mem_toDigits (by decide) (by decide) hc

-- The digits of a number other than zero do not start with a zero.
theorem digitsOf_head (n : Nat) (hn : n ≠ 0) :
    ∃ c cs, Double.digitsOf n = c :: cs ∧ c ≠ '0' := by
  induction n using Nat.strongRecOn with
  | ind n ih =>
      unfold Double.digitsOf
      by_cases hlt : n < 10
      · rw [Nat.toDigits_of_lt_base hlt]
        have hne : ∀ m, m < 10 → m ≠ 0 → m.digitChar ≠ '0' := by decide
        exact ⟨_, [], rfl, hne n hlt hn⟩
      · obtain ⟨c, cs, hcs, hc⟩ := ih (n / 10) (by omega) (by omega)
        rw [Nat.toDigits_of_base_le (by decide) (by omega)]
        unfold Double.digitsOf at hcs
        rw [hcs]
        exact ⟨c, cs ++ [_], rfl, hc⟩

-- The byte after a value is no digit, point or exponent mark.
theorem ends_head (rest : Bytes) (hrest : Ends rest) :
    rest = [] ∨ ∃ b tail, rest = b :: tail ∧
      isDigit b = false ∧ b ≠ 0x2E ∧ b ≠ ascii 'e' ∧ b ≠ ascii 'E' := by
  rcases hrest with rfl | ⟨b, tail, rfl, hb⟩
  · exact .inl rfl
  · refine .inr ⟨b, tail, rfl, ?_⟩
    simp only [List.mem_cons, List.not_mem_nil, or_false] at hb
    rcases hb with rfl | rfl | rfl <;> decide

-- No digit stands at the front.
def Stops (rest : Bytes) : Prop := (rest.head?.map isDigit).getD false = false

theorem Ends.stops {rest : Bytes} (hrest : Ends rest) : Stops rest := by
  rcases ends_head rest hrest with rfl | ⟨b, tail, rfl, hb, -⟩
  · rfl
  · simp [Stops, hb]

theorem span_digits (cs : List Char) (hcs : ∀ c ∈ cs, c.isDigit) (rest : Bytes) (hrest : Stops rest) :
    (cs.map ascii ++ rest).takeWhile isDigit = cs.map ascii ∧
      (cs.map ascii ++ rest).dropWhile isDigit = rest := by
  have hall : ∀ b ∈ cs.map ascii, isDigit b = true := by
    intro b hb
    obtain ⟨c, hc, rfl⟩ := List.mem_map.mp hb
    exact isDigit_ascii c (hcs c hc)
  have hstop : rest.takeWhile isDigit = [] ∧ rest.dropWhile isDigit = rest := by
    cases rest with
    | nil => exact ⟨rfl, rfl⟩
    | cons b tail =>
        have hb : isDigit b = false := by simpa [Stops] using hrest
        simp [hb]
  rw [List.takeWhile_append_of_pos hall, List.dropWhile_append_of_pos hall, hstop.1, hstop.2]
  simp

-- The digits that may stand before a point.
structure IsWhole (cs : List Char) : Prop where
  digits : ∀ c ∈ cs, c.isDigit
  first : cs = ['0'] ∨ ∃ c tail, cs = c :: tail ∧ c ≠ '0'

theorem isWhole_digitsOf (n : Nat) : IsWhole (Double.digitsOf n) := by
  refine ⟨isDigit_of_mem_digitsOf n, ?_⟩
  by_cases hn : n = 0
  · subst hn
    exact .inl (by decide)
  · exact .inr (digitsOf_head n hn)

theorem IsWhole.head {cs : List Char} (h : IsWhole cs) :
    ∃ b tail, cs.map ascii = b :: tail ∧ isDigit b = true := by
  obtain ⟨c, tail, rfl⟩ : ∃ c tail, cs = c :: tail := by
    rcases h.first with rfl | ⟨c, tail, rfl, -⟩
    · exact ⟨_, _, rfl⟩
    · exact ⟨c, tail, rfl⟩
  exact ⟨ascii c, tail.map ascii, rfl, isDigit_ascii c (h.digits c List.mem_cons_self)⟩

theorem whole_of_isWhole (skipped : Bool) {cs : List Char} (hcs : IsWhole cs) (rest : Bytes)
    (hrest : Stops rest) : whole skipped (cs.map ascii ++ rest) = .ok (cs.map ascii, rest) := by
  rcases hcs.first with rfl | ⟨c, tail, rfl, hc⟩
  · have hzero : ['0'].map ascii = [0x30] := by decide
    have hhead : (rest.head?.map isDigit).getD false = false := hrest
    rw [hzero, List.cons_append, List.nil_append]
    simp [whole, hhead]
  · obtain ⟨htake, hdrop⟩ := span_digits _ hcs.digits rest hrest
    have hne : ascii c ≠ 0x30 := by
      intro he
      have hcd := toNat_ascii_of_isDigit c (hcs.digits c List.mem_cons_self)
      apply toNat_ne_of_ne c '0' hc
      rw [← hcd.1, he]
      rfl
    rw [List.map_cons, List.cons_append] at htake hdrop ⊢
    unfold whole
    split
    · contradiction
    · rename_i heq
      exact absurd (List.cons.inj heq).1 hne
    · rw [htake, hdrop]
      simp

theorem fraction_of_ends (rest : Bytes) (hrest : Ends rest) : fraction rest = .ok ([], rest) := by
  rcases ends_head rest hrest with rfl | ⟨b, tail, rfl, -, hb, -⟩
  · rfl
  · unfold fraction
    split
    · rename_i heq
      exact absurd (List.cons.inj heq).1 hb
    · rfl

theorem exponentPart_of_ends (rest : Bytes) (hrest : Ends rest) :
    exponentPart rest = .ok (none, rest) := by
  rcases ends_head rest hrest with rfl | ⟨b, tail, rfl, -, -, hlower, hupper⟩
  · rfl
  · simp [exponentPart, hlower, hupper]

theorem encodeChars_intChars (n : Int) :
    Utf8.encodeChars (intChars n) =
      (if n < 0 then [0x2D] else []) ++ Utf8.encodeChars (Double.digitsOf n.natAbs) := by
  unfold intChars Double.signed
  by_cases hn : n < 0
  · simp only [hn, decide_true, if_true, Utf8.encodeChars_cons]
    rfl
  · simp [hn]

theorem digitsNat_digitsOf (n : Nat) : digitsNat (Utf8.encodeChars (Double.digitsOf n)) = n := by
  have hdigits := isDigit_of_mem_digitsOf n
  rw [encodeChars_of_isDigit _ hdigits, digitsNat_map_ascii _ hdigits]
  exact Nat.ofDigitChars_ten_toDigits

-- A sign, digits, and what is read behind them.
theorem number_of_parts (skipped negative : Bool) {cs : List Char} {tail afterPoint rest fs : Bytes}
    {exponent : Option Int} (hcs : IsWhole cs) (htail : Stops tail)
    (hfraction : fraction tail = .ok (fs, afterPoint))
    (hexponent : exponentPart afterPoint = .ok (exponent, rest)) :
    number skipped ((if negative then [0x2D] else []) ++ (cs.map ascii ++ tail)) =
      if fs.isEmpty && exponent.isNone then
        .ok (.integer (if negative then -(digitsNat (cs.map ascii) : Int) else digitsNat (cs.map ascii))
          (((if negative then [0x2D] else []) ++ (cs.map ascii ++ tail)).length - rest.length), rest)
      else
        .ok (.decimal negative (digitsNat (cs.map ascii ++ fs)) (exponent.getD 0 - fs.length), rest) := by
  have hwhole := whole_of_isWhole skipped hcs tail htail
  obtain ⟨b, ds, hb, hdigit⟩ := hcs.head
  have hminus : b ≠ 0x2D := by
    rintro rfl
    exact absurd hdigit (by decide)
  unfold number
  cases negative with
  | true => simp only [if_true, List.cons_append, List.nil_append, hwhole, hfraction, hexponent, ok_bind]
  | false =>
      simp only [Bool.false_eq_true, if_false, List.nil_append]
      split
      · rename_i heq
        rw [hb, List.cons_append] at heq
        exact absurd (List.cons.inj heq).1 hminus
      · simp only [hwhole, hfraction, hexponent, ok_bind, Bool.false_eq_true, if_false]

-- A written integer is read as itself, with its length.
theorem number_intChars (skipped : Bool) (n : Int) (rest : Bytes) (hrest : Ends rest) :
    number skipped (Utf8.encodeChars (intChars n) ++ rest) =
      .ok (.integer n (Utf8.encodeChars (intChars n)).length, rest) := by
  have hwhole := isWhole_digitsOf n.natAbs
  have hlength : (Utf8.encodeChars (intChars n) ++ rest).length - rest.length =
      (Utf8.encodeChars (intChars n)).length := by
    rw [List.length_append]
    omega
  have hdigits := digitsNat_digitsOf n.natAbs
  have hparts := number_of_parts skipped (decide (n < 0)) hwhole hrest.stops
    (fraction_of_ends rest hrest) (exponentPart_of_ends rest hrest)
  rw [encodeChars_of_isDigit _ hwhole.digits] at hdigits
  rw [encodeChars_intChars, encodeChars_of_isDigit _ hwhole.digits, List.append_assoc] at hlength ⊢
  simp only [decide_eq_true_eq] at hparts
  rw [hparts, hlength, hdigits]
  have hvalue : (if n < 0 then -(n.natAbs : Int) else n.natAbs) = n := by
    split <;> omega
  rw [hvalue]
  rfl

-- An integer of no more characters than reading takes.
def IsShort (n : Int) : Prop := (intChars n).length ≤ 4300

instance (n : Int) : Decidable (IsShort n) := inferInstanceAs (Decidable (_ ≤ _))

theorem length_encodeChars_intChars (n : Int) :
    (Utf8.encodeChars (intChars n)).length = (intChars n).length := by
  rw [encodeChars_intChars, encodeChars_of_isDigit _ (isDigit_of_mem_digitsOf _)]
  unfold intChars Double.signed
  by_cases hn : n < 0 <;> simp [hn]

theorem isShort_of_fitsWord {n : Int} (hn : fitsWord n = true) : IsShort n := by
  have hfits : -0x8000000000000000 ≤ n ∧ n < 0x10000000000000000 := by
    simpa [fitsWord] using hn
  have hdigits : (Double.digitsOf n.natAbs).length ≤ 20 :=
    (Nat.length_toDigits_le_iff (by decide) (by decide)).mpr (by omega)
  unfold IsShort intChars Double.signed
  split <;> simp <;> omega

theorem opens_of_isDigit (b : UInt8) (hb : isDigit b = true) :
    isBlank b = false ∧ b ≠ ascii ']' ∧ b ≠ ascii '\x7d' := by
  simp only [isDigit, Bool.and_eq_true, decide_eq_true_eq, UInt8.le_iff_toNat_le] at hb
  obtain ⟨hlow, hhigh⟩ := hb
  change 48 ≤ _ at hlow
  change _ ≤ 57 at hhigh
  refine ⟨?_, ?_, ?_⟩
  · simp only [isBlank, Bool.or_eq_false_iff, decide_eq_false_iff_not, ← UInt8.toNat_inj]
    change ((¬_ = 32 ∧ ¬_ = 10) ∧ ¬_ = 13) ∧ ¬_ = 9
    omega
  · rintro rfl
    exact absurd hhigh (by decide)
  · rintro rfl
    exact absurd hhigh (by decide)

-- The bytes that a number may start with.
theorem opens_of_number {cs : List Char} (h : ∃ b tail, Utf8.encodeChars cs = b :: tail ∧
    (b = 0x2D ∨ isDigit b = true)) : Opens cs := by
  obtain ⟨b, tail, hb, rfl | hdigit⟩ := h
  · exact ⟨0x2D, tail, hb, by decide, by decide, by decide⟩
  · exact ⟨b, tail, hb, opens_of_isDigit b hdigit⟩

theorem intChars_head (n : Int) :
    ∃ b tail, Utf8.encodeChars (intChars n) = b :: tail ∧ (b = 0x2D ∨ isDigit b = true) := by
  obtain ⟨b, tail, hb, hdigit⟩ := (isWhole_digitsOf n.natAbs).head
  rw [encodeChars_intChars, encodeChars_of_isDigit _ (isDigit_of_mem_digitsOf _), hb]
  by_cases hn : n < 0
  · exact ⟨0x2D, b :: tail, by simp [hn], .inl rfl⟩
  · exact ⟨b, tail, by simp [hn], .inr hdigit⟩

theorem opens_intChars (n : Int) : Opens (intChars n) := opens_of_number (intChars_head n)

end Coffer.Json
