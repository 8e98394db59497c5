import Coffer.Proofs.Decimal.Shortest
import Coffer.Proofs.Json.Value

namespace Coffer.Json

open Double (Decimal Layout digitsOf)

-- A number with a point or an exponent, as it is written.
structure Numeral where
  whole : List Char
  fraction : List Char
  exponent : Option Int

namespace Numeral

def pointed (x : Numeral) : List Char := if x.fraction.isEmpty then [] else '.' :: x.fraction

def marked (x : Numeral) : List Char := x.exponent.elim [] fun e => 'e' :: intChars e

def chars (x : Numeral) : List Char := x.whole ++ (x.pointed ++ x.marked)

def digits (x : Numeral) : Nat := Nat.ofDigitChars 10 (x.whole ++ x.fraction) 0

-- The exponent of the last digit.
def scale (x : Numeral) : Int := x.exponent.getD 0 - x.fraction.length

structure IsDecimal (x : Numeral) : Prop where
  whole : IsWhole x.whole
  fraction : ∀ c ∈ x.fraction, c.isDigit
  decimal : (x.fraction.isEmpty && x.exponent.isNone) = false

end Numeral

theorem fraction_digits {fs : List Char} (hfs : ∀ c ∈ fs, c.isDigit) (hne : fs.isEmpty = false)
    (rest : Bytes) (hrest : Stops rest) :
    fraction (ascii '.' :: (fs.map ascii ++ rest)) = .ok (fs.map ascii, rest) := by
  obtain ⟨htake, hdrop⟩ := span_digits fs hfs rest hrest
  have hempty : (fs.map ascii).isEmpty = false := by rw [List.isEmpty_map, hne]
  change (if ((fs.map ascii ++ rest).takeWhile isDigit).isEmpty then _ else _) = _
  rw [htake, hdrop, hempty]
  rfl

theorem exponentPart_intChars (e : Int) (rest : Bytes) (hrest : Ends rest) :
    exponentPart (ascii 'e' :: (Utf8.encodeChars (intChars e) ++ rest)) = .ok (some e, rest) := by
  have hwhole := isWhole_digitsOf e.natAbs
  have hdigits := digitsNat_digitsOf e.natAbs
  obtain ⟨htake, hdrop⟩ := span_digits _ hwhole.digits rest hrest.stops
  obtain ⟨b, tail, hb, hdigit⟩ := hwhole.head
  have hempty : ((digitsOf e.natAbs).map ascii).isEmpty = false := by
    rw [hb]
    rfl
  rw [encodeChars_of_isDigit _ hwhole.digits] at hdigits
  rw [encodeChars_intChars, encodeChars_of_isDigit _ hwhole.digits, List.append_assoc]
  by_cases he : e < 0
  · have hvalue : -(e.natAbs : Int) = e := by omega
    simp only [he, if_true, List.cons_append, List.nil_append, exponentPart, true_or, htake, hdrop,
      hempty, hdigits, hvalue, Bool.false_eq_true, if_false]
  · have hvalue : (e.natAbs : Int) = e := by omega
    have hsign : b ≠ 0x2B ∧ b ≠ 0x2D := by
      constructor
      · rintro rfl
        exact absurd hdigit (by decide)
      · rintro rfl
        exact absurd hdigit (by decide)
    simp only [he, if_false, List.nil_append, exponentPart, true_or, if_true]
    split
    · rename_i heq
      rw [hb, List.cons_append] at heq
      exact absurd (List.cons.inj heq).1 hsign.1
    · rename_i heq
      rw [hb, List.cons_append] at heq
      exact absurd (List.cons.inj heq).1 hsign.2
    · simp only [htake, hdrop, hempty, hdigits, hvalue, Bool.false_eq_true, if_false]

theorem encodeChars_cons_ascii (c : Char) (hc : c.toNat < 0x80) (cs : List Char) :
    Utf8.encodeChars (c :: cs) = ascii c :: Utf8.encodeChars cs := by
  rw [Utf8.encodeChars_cons, Utf8.encodeChar_of_lt c hc]
  rfl

theorem stops_cons {b : UInt8} (hb : isDigit b = false) (tail : Bytes) : Stops (b :: tail) := hb

-- What follows the digits of a number: neither a point nor the mark of an exponent is a digit.
theorem read_marked (exponent : Option Int) (rest : Bytes) (hrest : Ends rest) :
    let tail := Utf8.encodeChars (exponent.elim [] fun e => 'e' :: intChars e) ++ rest
    Stops tail ∧ fraction tail = .ok ([], tail) ∧ exponentPart tail = .ok (exponent, rest) := by
  cases exponent with
  | none => exact ⟨hrest.stops, fraction_of_ends rest hrest, exponentPart_of_ends rest hrest⟩
  | some e =>
      simp only [Option.elim_some, encodeChars_cons_ascii 'e' (by decide), List.cons_append]
      exact ⟨stops_cons (by decide) _, rfl, exponentPart_intChars e rest hrest⟩

theorem read_pointed {x : Numeral} (hx : x.IsDecimal) (rest : Bytes) (hrest : Ends rest) :
    let tail := Utf8.encodeChars (x.pointed ++ x.marked) ++ rest
    Stops tail ∧ ∃ afterPoint, fraction tail = .ok (x.fraction.map ascii, afterPoint) ∧
      exponentPart afterPoint = .ok (x.exponent, rest) := by
  obtain ⟨hstops, hnone, hexponent⟩ := read_marked x.exponent rest hrest
  dsimp only
  rw [Numeral.pointed]
  split
  · have hempty : x.fraction = [] := List.isEmpty_iff.mp ‹_›
    rw [List.nil_append, hempty]
    exact ⟨hstops, _, hnone, hexponent⟩
  · have hfraction := fraction_digits hx.fraction (eq_false_of_ne_true ‹_›) _ hstops
    rw [List.cons_append, encodeChars_cons_ascii '.' (by decide), Utf8.encodeChars_append,
      encodeChars_of_isDigit _ hx.fraction, List.cons_append, List.append_assoc]
    exact ⟨stops_cons (by decide) _, _, hfraction, hexponent⟩

theorem number_numeral (skipped negative : Bool) {x : Numeral} (hx : x.IsDecimal) (rest : Bytes)
    (hrest : Ends rest) :
    number skipped (Utf8.encodeChars (Double.signed negative x.chars) ++ rest) =
      .ok (.decimal negative x.digits x.scale, rest) := by
  obtain ⟨hstops, afterPoint, hfraction, hexponent⟩ := read_pointed hx rest hrest
  have hparts := number_of_parts skipped negative hx.whole hstops hfraction hexponent
  have hall : ∀ c ∈ x.whole ++ x.fraction, c.isDigit := by
    intro c hc
    exact (List.mem_append.mp hc).elim (hx.whole.digits c) (hx.fraction c)
  have hsign : Utf8.encodeChars (Double.signed negative x.chars) =
      (if negative then [0x2D] else []) ++ Utf8.encodeChars x.chars := by
    cases negative
    · rfl
    · exact encodeChars_cons_ascii '-' (by decide) _
  rw [List.isEmpty_map, hx.decimal, ← List.map_append, digitsNat_map_ascii _ hall,
    List.length_map] at hparts
  rw [hsign, Numeral.chars, Utf8.encodeChars_append, encodeChars_of_isDigit _ hx.whole.digits,
    List.append_assoc, List.append_assoc, hparts]
  rfl

-- How a double is laid out

def Numeral.value (x : Numeral) : ℚ := x.digits * 10 ^ x.scale

theorem IsWhole.take {cs : List Char} (h : IsWhole cs) (k : Nat) : IsWhole (cs.take (k + 1)) := by
  refine ⟨fun c hc => h.digits c (List.mem_of_mem_take hc), ?_⟩
  rcases h.first with rfl | ⟨c, tail, rfl, hc⟩
  · exact .inl (by simp)
  · exact .inr ⟨c, tail.take k, rfl, hc⟩

-- Digits with a point behind some of them.
theorem isDecimal_split {ds : List Char} (hds : IsWhole ds) (k : Nat) (exponent : Option Int)
    (h : k + 1 < ds.length ∨ exponent.isSome) :
    Numeral.IsDecimal ⟨ds.take (k + 1), ds.drop (k + 1), exponent⟩ := by
  refine ⟨hds.take k, fun c hc => hds.digits c (List.mem_of_mem_drop hc), ?_⟩
  rcases h with hlength | hsome
  · have hne : (ds.drop (k + 1)).isEmpty = false := by
      rw [Bool.eq_false_iff, Ne, List.isEmpty_iff, List.drop_eq_nil_iff]
      omega
    simp [hne]
  · cases exponent with
    | none => cases hsome
    | some e => simp

theorem digits_split (ds : List Char) (k : Nat) (exponent : Option Int) :
    Numeral.digits ⟨ds.take k, ds.drop k, exponent⟩ = Nat.ofDigitChars 10 ds 0 := by
  rw [Numeral.digits, List.take_append_drop]

theorem isDigit_zeros (n : Nat) : ∀ c ∈ List.replicate n '0', c.isDigit := by
  intro c hc
  rw [List.eq_of_mem_replicate hc]
  rfl

theorem ofDigitChars_zeros (n init : Nat) :
    Nat.ofDigitChars 10 (List.replicate n '0') init = init * 10 ^ n := by
  induction n generalizing init with
  | zero => simp [Nat.ofDigitChars]
  | succ n ih =>
      rw [List.replicate_succ, Nat.ofDigitChars_cons, ih, Nat.pow_succ]
      simp only [Nat.sub_self, Nat.add_zero]
      ring

theorem isWhole_zeros {ds : List Char} (hds : IsWhole ds) {n : Nat} (h : ds = ['0'] → n = 0) :
    IsWhole (ds ++ List.replicate n '0') := by
  refine ⟨fun c hc => (List.mem_append.mp hc).elim (hds.digits c) (isDigit_zeros n c), ?_⟩
  rcases hds.first with hzero | ⟨c, tail, rfl, hc⟩
  · rw [h hzero]
    exact .inl (by simpa using hzero)
  · exact .inr ⟨c, _, rfl, hc⟩

theorem exponent_stored (e : Int) : Layout.stored.exponent e = intChars e := by
  have hone : 1 - (digitsOf e.natAbs).length = 0 := by
    have := List.length_pos_iff.mpr (Nat.toDigits_ne_nil (n := e.natAbs) (b := 10))
    unfold digitsOf
    omega
  simp only [Layout.exponent, Layout.stored, hone, List.replicate_zero, List.nil_append,
    Bool.false_eq_true, if_false, intChars, Double.signed, decide_eq_true_eq]

-- Digits with zeros and a point behind them.
theorem isDecimal_padded {ds : List Char} (hds : IsWhole ds) {n : Nat} (h : ds = ['0'] → n = 0) :
    Numeral.IsDecimal ⟨ds ++ List.replicate n '0', ['0'], none⟩ :=
  ⟨isWhole_zeros hds h, isDigit_zeros 1, rfl⟩

theorem value_padded (ds : List Char) (n : Nat) :
    Numeral.value ⟨ds ++ List.replicate n '0', ['0'], none⟩ = Nat.ofDigitChars 10 ds 0 * 10 ^ n := by
  have hdigits : Numeral.digits ⟨ds ++ List.replicate n '0', ['0'], none⟩ =
      Nat.ofDigitChars 10 ds 0 * 10 ^ n * 10 := by
    rw [Numeral.digits, Nat.ofDigitChars_append, Nat.ofDigitChars_append, ofDigitChars_zeros]
    exact ofDigitChars_zeros 1 _
  have hscale : Numeral.scale ⟨ds ++ List.replicate n '0', ['0'], none⟩ = -1 := rfl
  rw [Numeral.value, hdigits, hscale, zpow_neg_one]
  push_cast
  ring

-- Digits with a point and zeros before them.
theorem isDecimal_behind {ds : List Char} (hds : IsWhole ds) (hne : ds ≠ []) (n : Nat) :
    Numeral.IsDecimal ⟨['0'], List.replicate n '0' ++ ds, none⟩ := by
  refine ⟨isWhole_digitsOf 0, fun c hc => ?_, ?_⟩
  · exact (List.mem_append.mp hc).elim (isDigit_zeros n c) (hds.digits c)
  · simp [hne]

theorem digits_behind (ds : List Char) (n : Nat) :
    Numeral.digits ⟨['0'], List.replicate n '0' ++ ds, none⟩ = Nat.ofDigitChars 10 ds 0 := by
  have hlead : Nat.ofDigitChars 10 ['0'] 0 = 0 := rfl
  rw [Numeral.digits, Nat.ofDigitChars_append, Nat.ofDigitChars_append, hlead, ofDigitChars_zeros,
    Nat.zero_mul]

theorem chars_pointed {whole fraction : List Char} (h : fraction ≠ []) :
    Numeral.chars ⟨whole, fraction, none⟩ = whole ++ '.' :: fraction := by
  simp [Numeral.chars, Numeral.pointed, Numeral.marked, h]

-- The layout of a stored double is a number with a point or an exponent, of the value laid out.
theorem render_stored (x : Decimal) (hx : x.digits = 0 → x.exponent ≤ 0) :
    ∃ n : Numeral, Layout.stored.render x = n.chars ∧ n.IsDecimal ∧ n.value = x.value := by
  have hwhole := isWhole_digitsOf x.digits
  have hdigits : Nat.ofDigitChars 10 (digitsOf x.digits) 0 = x.digits := Nat.ofDigitChars_ten_toDigits
  have hne : digitsOf x.digits ≠ [] := Nat.toDigits_ne_nil
  have hvalue {n : Numeral} (hn : n.digits = x.digits) (hscale : n.scale = x.exponent) :
      n.value = x.value := by
    rw [Numeral.value, hn, hscale]
    rfl
  rw [Layout.render]
  dsimp only
  split
  · -- one digit before the point, and an exponent
    refine ⟨⟨(digitsOf x.digits).take 1, (digitsOf x.digits).drop 1,
      some (x.exponent + (digitsOf x.digits).length - 1)⟩, ?_, isDecimal_split hwhole 0 _ (.inr rfl),
      hvalue ((digits_split _ _ _).trans hdigits) ?_⟩
    · rw [exponent_stored]
      rcases hds : digitsOf x.digits with _ | ⟨d, _ | ⟨e, rest⟩⟩ <;> rfl
    · have hpos := List.length_pos_iff.mpr hne
      simp only [Numeral.scale, Option.getD_some, List.length_drop]
      omega
  split
  · -- an integer
    have hzeros : digitsOf x.digits = ['0'] → x.exponent.toNat = 0 := by
      intro hzero
      rw [hzero] at hdigits
      have := hx hdigits.symm
      omega
    refine ⟨⟨digitsOf x.digits ++ List.replicate x.exponent.toNat '0', ['0'], none⟩, ?_,
      isDecimal_padded hwhole hzeros, ?_⟩
    · rw [chars_pointed (List.cons_ne_nil _ _), List.append_assoc]
    · rw [value_padded, hdigits, Decimal.value, ← zpow_natCast, Int.toNat_of_nonneg ‹_›]
  split
  · -- a point between the digits
    obtain ⟨k, hk⟩ : ∃ k : Nat, x.exponent + (digitsOf x.digits).length - 1 = k :=
      Int.eq_ofNat_of_zero_le ‹_›
    have hless : k + 1 < (digitsOf x.digits).length := by omega
    refine ⟨⟨(digitsOf x.digits).take (k + 1), (digitsOf x.digits).drop (k + 1), none⟩, ?_,
      isDecimal_split hwhole k none (.inl hless), hvalue ((digits_split _ _ _).trans hdigits) ?_⟩
    · have hbehind : (digitsOf x.digits).drop (k + 1) ≠ [] := by
        rw [Ne, List.drop_eq_nil_iff]
        omega
      rw [chars_pointed hbehind, hk]
      rfl
    · simp only [Numeral.scale, Option.getD_none, List.length_drop]
      omega
  · -- zeros behind the point
    refine ⟨⟨['0'], List.replicate (-(x.exponent + (digitsOf x.digits).length - 1) - 1).toNat '0' ++
      digitsOf x.digits, none⟩, ?_, isDecimal_behind hwhole hne _,
      hvalue ((digits_behind _ _).trans hdigits) ?_⟩
    · rw [chars_pointed (List.append_ne_nil_of_right_ne_nil _ hne)]
      rfl
    · simp only [Numeral.scale, Option.getD_none, List.length_append, List.length_replicate]
      omega

theorem encodeChars_signed_head (negative : Bool) {n : Numeral} (hn : n.IsDecimal) :
    ∃ b tail, Utf8.encodeChars (Double.signed negative n.chars) = b :: tail ∧
      (b = 0x2D ∨ isDigit b = true) := by
  cases negative with
  | true => exact ⟨_, _, encodeChars_cons_ascii '-' (by decide) _, .inl rfl⟩
  | false =>
      obtain ⟨b, tail, hb, hdigit⟩ := hn.whole.head
      refine ⟨b, tail ++ Utf8.encodeChars (n.pointed ++ n.marked), ?_, .inr hdigit⟩
      rw [Double.signed, if_neg (by simp), Numeral.chars, Utf8.encodeChars_append,
        encodeChars_of_isDigit _ hn.whole.digits, hb, List.cons_append]

-- What is written for a double is read again, null where there are no digits.
theorem reads_float (d : Nat) (schema : Schema) (h : schema.solid = .any) (x : Double) :
    ∃ v, (v = .null ∨ ∃ y, v = .float y) ∧ Reads (value d schema) (floatChars x) v ∧
      Opens (floatChars x) := by
  have hnull : ∃ v : Value, (v = .null ∨ ∃ y, v = .float y) ∧
      Reads (value d schema) ['n', 'u', 'l', 'l'] v ∧ Opens ['n', 'u', 'l', 'l'] :=
    ⟨.null, .inl rfl, reads_null d schema (acceptsNull_of_any h), ascii 'n', _, rfl, by decide, by decide,
      by decide⟩
  unfold floatChars Double.layout?
  cases hshape : x.shape with
  | nan => exact hnull
  | infinite negative => exact hnull
  | finite negative mantissa exponent =>
      obtain ⟨hmantissa, hexponent⟩ := Double.shape_bounds hshape
      obtain ⟨hvalue, hzero⟩ := Double.shortest_bounds hmantissa hexponent
      obtain ⟨n, hchars, hn, hsame⟩ := render_stored _ hzero
      have hfinite : (Double.ofDecimal negative n.digits n.scale).isInfinite = false := by
        apply Double.isInfinite_ofDecimal
        rw [← Numeral.value, hsame]
        exact hvalue
      have hhead := encodeChars_signed_head negative hn
      simp only [Option.getD_some, hchars]
      refine ⟨.float (Double.ofDecimal negative n.digits n.scale), .inr ⟨_, rfl⟩, fun rest hrest => ?_,
        opens_of_number hhead⟩
      have hnumber := number_numeral false negative hn rest hrest
      obtain ⟨inner, skip, hd⟩ := value_eq d
      obtain ⟨b, tail, hb, hfirst⟩ := hhead
      rw [hb, List.cons_append] at hnumber ⊢
      rw [hd, valueWith_number inner skip schema b _ hfirst, hnumber, ok_bind]
      simp only [numberValue, finite, hfinite, Bool.false_eq_true, if_false, ok_bind, h]
      rfl

end Coffer.Json
