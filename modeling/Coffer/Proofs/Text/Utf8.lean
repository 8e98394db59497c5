import Coffer.Text.Utf8

namespace Coffer.Utf8

theorem toNat_tail (k : Nat) : (UInt8.ofNat (0x80 + k % 64)).toNat = 0x80 + k % 64 := by
  rw [UInt8.toNat_ofNat']
  omega

theorem tail_within (low high : UInt8) (k : Nat)
    (hlow : low.toNat ≤ 0x80 + k % 64) (hhigh : 0x80 + k % 64 ≤ high.toNat) :
    low ≤ UInt8.ofNat (0x80 + k % 64) ∧ UInt8.ofNat (0x80 + k % 64) ≤ high := by
  rw [UInt8.le_iff_toNat_le, UInt8.le_iff_toNat_le, toNat_tail]
  exact ⟨hlow, hhigh⟩

theorem push_tail (p : Pending) (k : Nat) :
    p.push (UInt8.ofNat (0x80 + k % 64)) =
      ⟨p.first, p.taken + 1, p.more - 1, 0x80, 0xBF, 64 * p.code + k % 64⟩ := by
  have hk : (0x80 + k % 64) % 64 = k % 64 := by omega
  simp only [Pending.push, toNat_tail, hk]

-- A byte of a character that is not the last one, and the last one.

theorem decodeFrom_more (first low high : UInt8) (taken more code pos k : Nat) (rest : Bytes)
    (hlow : low.toNat ≤ 0x80 + k % 64) (hhigh : 0x80 + k % 64 ≤ high.toNat) :
    decodeFrom (some ⟨first, taken, more + 2, low, high, code⟩) pos
        (UInt8.ofNat (0x80 + k % 64) :: rest) =
      decodeFrom (some ⟨first, taken + 1, more + 1, 0x80, 0xBF, 64 * code + k % 64⟩)
        (pos + 1) rest := by
  rw [decodeFrom, if_pos (tail_within low high k hlow hhigh), push_tail]
  simp

theorem decodeFrom_last (first low high : UInt8) (taken code pos k : Nat) (rest : Bytes)
    (hlow : low.toNat ≤ 0x80 + k % 64) (hhigh : 0x80 + k % 64 ≤ high.toNat) :
    decodeFrom (some ⟨first, taken, 1, low, high, code⟩) pos
        (UInt8.ofNat (0x80 + k % 64) :: rest) =
      (Char.ofNat (64 * code + k % 64) :: ·) <$> decodeFrom none (pos + 1) rest := by
  rw [decodeFrom, if_pos (tail_within low high k hlow hhigh), push_tail]
  simp

theorem decodeFrom_lead (b low high : UInt8) (more code pos : Nat) (rest : Bytes)
    (hlead : Pending.ofLead? b = some ⟨b, 1, more + 1, low, high, code⟩) :
    decodeFrom none pos (b :: rest) =
      decodeFrom (some ⟨b, 1, more + 1, low, high, code⟩) (pos + 1) rest := by
  simp [decodeFrom, hlead]

-- What a lead byte says, in numbers.
theorem ofLead?_ofNat (m : Nat) (hm : m < 256) :
    Pending.ofLead? (UInt8.ofNat m) =
      if m < 0x80 then some ⟨UInt8.ofNat m, 1, 0, 0x80, 0xBF, m⟩
      else if m < 0xC2 then none
      else if m < 0xE0 then some ⟨UInt8.ofNat m, 1, 1, 0x80, 0xBF, m - 0xC0⟩
      else if m = 0xE0 then some ⟨UInt8.ofNat m, 1, 2, 0xA0, 0xBF, 0⟩
      else if m = 0xED then some ⟨UInt8.ofNat m, 1, 2, 0x80, 0x9F, 0xD⟩
      else if m < 0xF0 then some ⟨UInt8.ofNat m, 1, 2, 0x80, 0xBF, m - 0xE0⟩
      else if m = 0xF0 then some ⟨UInt8.ofNat m, 1, 3, 0x90, 0xBF, 0⟩
      else if m < 0xF4 then some ⟨UInt8.ofNat m, 1, 3, 0x80, 0xBF, m - 0xF0⟩
      else if m = 0xF4 then some ⟨UInt8.ofNat m, 1, 3, 0x80, 0x8F, 4⟩
      else none := by
  have hn : (UInt8.ofNat m).toNat = m := by
    rw [UInt8.toNat_ofNat']
    exact Nat.mod_eq_of_lt hm
  simp only [Pending.ofLead?, UInt8.lt_iff_toNat_lt, ← UInt8.toNat_inj, hn]
  rfl

theorem lt_of_char (c : Char) : c.toNat < 0xD800 ∨ (0xDFFF < c.toNat ∧ c.toNat < 0x110000) := by
  have h := c.valid
  simpa [UInt32.isValidChar, Nat.isValidChar] using h

-- The bounds on the second byte of three let through all but overlong forms and surrogates.
theorem ofLead?_three (n : Nat) (hlow : 0x800 ≤ n) (hhigh : n < 0x10000)
    (hscalar : n < 0xD800 ∨ 0xDFFF < n) :
    ∃ low high : UInt8,
      Pending.ofLead? (UInt8.ofNat (0xE0 + n / 4096)) =
        some ⟨UInt8.ofNat (0xE0 + n / 4096), 1, 1 + 1, low, high, n / 4096⟩ ∧
      low.toNat ≤ 0x80 + n / 64 % 64 ∧ 0x80 + n / 64 % 64 ≤ high.toNat := by
  rw [ofLead?_ofNat _ (by omega)]
  by_cases h0 : n / 4096 = 0
  · exact ⟨0xA0, 0xBF, by simp [h0], by change 160 ≤ _; omega, by change _ ≤ 191; omega⟩
  by_cases hd : n / 4096 = 0xD
  · exact ⟨0x80, 0x9F, by simp [hd], by change 128 ≤ _; omega, by change _ ≤ 159; omega⟩
  refine ⟨0x80, 0xBF, ?_, by change 128 ≤ _; omega, by change _ ≤ 191; omega⟩
  rw [if_neg (by omega), if_neg (by omega), if_neg (by omega), if_neg (by omega),
    if_neg (by omega), if_pos (by omega)]
  simp

theorem ofLead?_four (n : Nat) (hlow : 0x10000 ≤ n) (hhigh : n < 0x110000) :
    ∃ low high : UInt8,
      Pending.ofLead? (UInt8.ofNat (0xF0 + n / 262144)) =
        some ⟨UInt8.ofNat (0xF0 + n / 262144), 1, 2 + 1, low, high, n / 262144⟩ ∧
      low.toNat ≤ 0x80 + n / 4096 % 64 ∧ 0x80 + n / 4096 % 64 ≤ high.toNat := by
  rw [ofLead?_ofNat _ (by omega)]
  by_cases h0 : n / 262144 = 0
  · exact ⟨0x90, 0xBF, by simp [h0], by change 144 ≤ _; omega, by change _ ≤ 191; omega⟩
  by_cases h4 : n / 262144 = 4
  · exact ⟨0x80, 0x8F, by simp [h4], by change 128 ≤ _; omega, by change _ ≤ 143; omega⟩
  refine ⟨0x80, 0xBF, ?_, by change 128 ≤ _; omega, by change _ ≤ 191; omega⟩
  rw [if_neg (by omega), if_neg (by omega), if_neg (by omega), if_neg (by omega),
    if_neg (by omega), if_neg (by omega), if_neg (by omega), if_pos (by omega)]
  simp

theorem decodeFrom_encodeChar (c : Char) (pos : Nat) (rest : Bytes) :
    ∃ next, decodeFrom none pos (encodeChar c ++ rest) = (c :: ·) <$> decodeFrom none next rest := by
  have hc : Char.ofNat c.toNat = c := Char.ofNat_toNat c
  have hscalar := lt_of_char c
  unfold encodeChar
  generalize c.toNat = n at hc hscalar
  have hplain (k : Nat) : (0x80 : UInt8).toNat ≤ 0x80 + k % 64 ∧ 0x80 + k % 64 ≤ (0xBF : UInt8).toNat := by
    change 128 ≤ _ ∧ _ ≤ 191
    omega
  by_cases h1 : n < 0x80
  · refine ⟨pos + 1, ?_⟩
    simp [h1, decodeFrom, ofLead?_ofNat n (by omega), hc]
  by_cases h2 : n < 0x800
  · refine ⟨pos + 1 + 1, ?_⟩
    have hlead : Pending.ofLead? (UInt8.ofNat (0xC0 + n / 64)) =
        some ⟨UInt8.ofNat (0xC0 + n / 64), 1, 0 + 1, 0x80, 0xBF, n / 64⟩ := by
      rw [ofLead?_ofNat _ (by omega), if_neg (by omega), if_neg (by omega), if_pos (by omega)]
      simp
    have hcode : 64 * (n / 64) + n % 64 = n := by omega
    simp only [h1, h2, if_false, if_true, List.cons_append, List.nil_append]
    rw [decodeFrom_lead _ _ _ _ _ _ _ hlead,
      decodeFrom_last _ _ _ _ _ _ _ _ (hplain n).1 (hplain n).2, hcode, hc]
  by_cases h3 : n < 0x10000
  · refine ⟨pos + 1 + 1 + 1, ?_⟩
    obtain ⟨low, high, hlead, hlow, hhigh⟩ := ofLead?_three n (by omega) h3 (by omega)
    have hcode : 64 * (64 * (n / 4096) + n / 64 % 64) + n % 64 = n := by omega
    simp only [h1, h2, h3, if_false, if_true, List.cons_append, List.nil_append]
    rw [decodeFrom_lead _ _ _ _ _ _ _ hlead, decodeFrom_more _ _ _ _ _ _ _ _ _ hlow hhigh,
      decodeFrom_last _ _ _ _ _ _ _ _ (hplain n).1 (hplain n).2, hcode, hc]
  · refine ⟨pos + 1 + 1 + 1 + 1, ?_⟩
    obtain ⟨low, high, hlead, hlow, hhigh⟩ := ofLead?_four n (by omega) (by omega)
    have hcode : 64 * (64 * (64 * (n / 262144) + n / 4096 % 64) + n / 64 % 64) + n % 64 = n := by
      omega
    simp only [h1, h2, h3, if_false, List.cons_append, List.nil_append]
    rw [decodeFrom_lead _ _ _ _ _ _ _ hlead, decodeFrom_more _ _ _ _ _ _ _ _ _ hlow hhigh,
      decodeFrom_more _ _ _ _ _ _ _ _ _ (hplain _).1 (hplain _).2,
      decodeFrom_last _ _ _ _ _ _ _ _ (hplain n).1 (hplain n).2, hcode, hc]

theorem decodeFrom_encodeChars (cs : List Char) (pos : Nat) :
    decodeFrom none pos (encodeChars cs) = .ok cs := by
  induction cs generalizing pos with
  | nil => rfl
  | cons c rest ih =>
      obtain ⟨next, hnext⟩ := decodeFrom_encodeChar c pos (encodeChars rest)
      change decodeFrom none pos (encodeChar c ++ encodeChars rest) = _
      rw [hnext, ih]
      rfl

@[simp] theorem decodeChars_encodeChars (cs : List Char) : decodeChars (encodeChars cs) = .ok cs :=
  decodeFrom_encodeChars cs 0

@[simp] theorem decode_encode (s : String) : decode (encode s) = .ok s := by
  simp [decode, encode, Functor.map, Except.map]

theorem decode_encodeChars (cs : List Char) : decode (encodeChars cs) = .ok (String.ofList cs) := by
  simp [decode, Functor.map, Except.map]

theorem encode_inj {s t : String} (h : encode s = encode t) : s = t := by
  have hs := decode_encode s
  rw [h, decode_encode] at hs
  exact (Except.ok.inj hs).symm

@[simp] theorem encodeChars_nil : encodeChars [] = [] := rfl

@[simp] theorem encodeChars_cons (c : Char) (cs : List Char) :
    encodeChars (c :: cs) = encodeChar c ++ encodeChars cs := rfl

@[simp] theorem encodeChars_append (cs ds : List Char) :
    encodeChars (cs ++ ds) = encodeChars cs ++ encodeChars ds := by
  simp [encodeChars]

-- A character of more than one byte has none of the ASCII range.
theorem le_of_mem_encodeChar (c : Char) (hc : 0x80 ≤ c.toNat) (b : UInt8) (hb : b ∈ encodeChar c) :
    0x80 ≤ b.toNat := by
  have hscalar := lt_of_char c
  unfold encodeChar at hb
  generalize c.toNat = n at hb hc hscalar
  have hn : ¬n < 0x80 := by omega
  simp only [hn, if_false] at hb
  split at hb
  · simp only [List.mem_cons, List.not_mem_nil, or_false] at hb
    rcases hb with rfl | rfl <;> rw [UInt8.toNat_ofNat'] <;> omega
  split at hb
  · simp only [List.mem_cons, List.not_mem_nil, or_false] at hb
    rcases hb with rfl | rfl | rfl <;> rw [UInt8.toNat_ofNat'] <;> omega
  · simp only [List.mem_cons, List.not_mem_nil, or_false] at hb
    rcases hb with rfl | rfl | rfl | rfl <;> rw [UInt8.toNat_ofNat'] <;> omega

theorem encodeChar_of_lt (c : Char) (hc : c.toNat < 0x80) : encodeChar c = [UInt8.ofNat c.toNat] := by
  simp [encodeChar, hc]

theorem encodeChars_of_lt (cs : List Char) (hcs : ∀ c ∈ cs, c.toNat < 0x80) :
    encodeChars cs = cs.map fun c => UInt8.ofNat c.toNat := by
  induction cs with
  | nil => rfl
  | cons c cs ih =>
      rw [encodeChars_cons, encodeChar_of_lt c (hcs c List.mem_cons_self),
        ih fun x hx => hcs x (List.mem_cons_of_mem _ hx)]
      rfl

theorem toNat_ofNat (n : Nat) (h : n < 0xD800 ∨ (0xDFFF < n ∧ n < 0x110000)) :
    (Char.ofNat n).toNat = n := by
  rw [Char.ofNat, dif_pos h]
  rfl

theorem encodeChar_ofNat (n : Nat) (hn : n < 0x80) :
    encodeChar (Char.ofNat n) = [UInt8.ofNat n] := by
  have hchar := toNat_ofNat n (by omega)
  rw [encodeChar_of_lt _ (by omega), hchar]

-- The characters of single bytes stand in the order of the bytes.

theorem ofByte_le_iff (b : UInt8) (c : Char) : Char.ofNat b.toNat ≤ c ↔ b.toNat ≤ c.toNat := by
  have hb := b.toNat_lt
  rw [Char.le_def, UInt32.le_iff_toNat_le, Char.toNat_val, Char.toNat_val, toNat_ofNat _ (by omega)]

theorem le_ofByte_iff (c : Char) (b : UInt8) : c ≤ Char.ofNat b.toNat ↔ c.toNat ≤ b.toNat := by
  have hb := b.toNat_lt
  rw [Char.le_def, UInt32.le_iff_toNat_le, Char.toNat_val, Char.toNat_val, toNat_ofNat _ (by omega)]

theorem bounds_of_hexValue? {b : UInt8} (h : (hexValue? (Char.ofNat b.toNat)).isSome) :
    0x30 ≤ b.toNat ∧ b.toNat ≤ 0x39 ∨ 0x61 ≤ b.toNat ∧ b.toNat ≤ 0x66 ∨
      0x41 ≤ b.toNat ∧ b.toNat ≤ 0x46 := by
  simp only [hexValue?, ofByte_le_iff, le_ofByte_iff] at h
  split at h
  · next hdigit => exact .inl hdigit
  · split at h
    · next hlower => exact .inr (.inl hlower)
    · split at h
      · next hupper => exact .inr (.inr hupper)
      · cases h

-- Bytes that spell characters, none of them cut off.
def Whole (b : Bytes) : Prop := ∃ cs, b = encodeChars cs

theorem whole_nil : Whole [] := ⟨[], rfl⟩

theorem whole_encodeChar (c : Char) : Whole (encodeChar c) := ⟨[c], by simp⟩

theorem Whole.append {a b : Bytes} (ha : Whole a) (hb : Whole b) : Whole (a ++ b) := by
  obtain ⟨cs, rfl⟩ := ha
  obtain ⟨ds, rfl⟩ := hb
  exact ⟨cs ++ ds, by simp⟩

theorem Whole.cons {b : UInt8} {rest : Bytes} (hb : b.toNat < 0x80) (h : Whole rest) :
    Whole (b :: rest) := by
  have hchar := encodeChar_ofNat b.toNat hb
  rw [UInt8.ofNat_toNat] at hchar
  rw [← List.singleton_append, ← hchar]
  exact (whole_encodeChar _).append h

-- The first byte of a whole text is a character of its own or opens one.
theorem Whole.uncons {b : UInt8} {rest : Bytes} (h : Whole (b :: rest)) :
    (b.toNat < 0x80 ∧ Whole rest) ∨
      ∃ part tail, Whole (b :: part) ∧ (∀ x ∈ b :: part, 0x80 ≤ x.toNat) ∧ Whole tail ∧
        rest = part ++ tail := by
  obtain ⟨cs, hcs⟩ := h
  cases cs with
  | nil => cases hcs
  | cons c cs =>
      rw [encodeChars_cons] at hcs
      by_cases hc : c.toNat < 0x80
      · rw [encodeChar_of_lt c hc, List.singleton_append, List.cons.injEq] at hcs
        refine .inl ⟨?_, cs, hcs.2⟩
        rw [hcs.1, UInt8.toNat_ofNat']
        omega
      · have hhigh := le_of_mem_encodeChar c (by omega)
        cases hchar : encodeChar c with
        | nil =>
            have hread := decodeFrom_encodeChar c 0 []
            simp [hchar, decodeFrom, Functor.map, Except.map] at hread
        | cons x part =>
            rw [hchar, List.cons_append, List.cons.injEq] at hcs
            obtain ⟨rfl, hrest⟩ := hcs
            have hwhole := whole_encodeChar c
            rw [hchar] at hwhole hhigh
            exact .inr ⟨part, encodeChars cs, hwhole, hhigh, ⟨cs, rfl⟩, hrest⟩

theorem Whole.tail {b : UInt8} {rest : Bytes} (h : Whole (b :: rest)) (hb : b.toNat < 0x80) :
    Whole rest := by
  rcases h.uncons with ⟨-, h⟩ | ⟨part, tail, -, hhigh, -, -⟩
  · exact h
  · have hhigh := hhigh b List.mem_cons_self
    omega

theorem Whole.decode {b : Bytes} (h : Whole b) : ∃ s, decode b = .ok s := by
  obtain ⟨cs, rfl⟩ := h
  exact ⟨_, decode_encodeChars cs⟩

theorem whole_encode (s : String) : Whole (encode s) := ⟨s.toList, rfl⟩

end Coffer.Utf8
