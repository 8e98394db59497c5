import Coffer.Text.Base64

namespace Coffer.Base64

theorem digitValue?_digit : ∀ n < 64, digitValue? (urlSafe.digit n) = some n := by decide

theorem digit_ne_pad : ∀ n < 64, urlSafe.digit n ≠ '=' := by decide

theorem digit_lt : ∀ n < 64, (urlSafe.digit n).toNat < 128 := by decide

theorem decodeFrom_digit (quad : List Nat) (pads n : Nat) (hn : n < 64) (hquad : quad.length < 3)
    (rest : List Char) :
    decodeFrom quad pads (urlSafe.digit n :: rest) = decodeFrom (quad ++ [n]) 0 rest := by
  have hne : ¬quad.length = 3 := by omega
  simp only [decodeFrom, digit_ne_pad n hn, digitValue?_digit n hn, hne, if_false]

theorem decodeFrom_last (quad : List Nat) (pads n : Nat) (hn : n < 64) (hquad : quad.length = 3)
    (rest : List Char) :
    decodeFrom quad pads (urlSafe.digit n :: rest) =
      (quadBytes (quad ++ [n]) ++ ·) <$> decodeFrom [] 0 rest := by
  simp only [decodeFrom, digit_ne_pad n hn, digitValue?_digit n hn, hquad, if_false, if_true]

theorem ofNat_eq (x : UInt8) (n : Nat) (h : n % 256 = x.toNat) : UInt8.ofNat n = x := by
  apply UInt8.toNat_inj.mp
  rw [UInt8.toNat_ofNat', h]

-- The digits of up to three bytes spell these bytes.

theorem first_spelled (x y : Nat) (hx : x < 256) (hy : y < 256) :
    (4 * (x / 4) + (x % 4 * 16 + y / 16) / 16) % 256 = x := by omega

theorem second_spelled (x y z : Nat) (hy : y < 256) (hz : z < 256) :
    (16 * (x % 4 * 16 + y / 16) + (y % 16 * 4 + z / 64) / 4) % 256 = y := by omega

theorem third_spelled (y z : Nat) (hz : z < 256) :
    (64 * (y % 16 * 4 + z / 64) + z % 64) % 256 = z := by omega

theorem decodeChars_encodeChars (b : Bytes) : decodeChars (encodeChars urlSafe b) = some b := by
  unfold decodeChars
  induction b using encodeChars.induct with
  | case1 => rfl
  | case2 x =>
      have hx := x.toNat_lt
      have h₁ : x.toNat / 4 < 64 := by omega
      have h₂ : x.toNat % 4 * 16 < 64 := by omega
      rw [encodeChars, decodeFrom_digit [] 0 _ h₁ (by decide), List.nil_append,
        decodeFrom_digit [_] 0 _ h₂ (by simp)]
      have hbyte := ofNat_eq x _ (first_spelled x.toNat 0 hx (by decide))
      simpa [decodeFrom, quadBytes] using hbyte
  | case3 x y =>
      have hx := x.toNat_lt
      have hy := y.toNat_lt
      have h₁ : x.toNat / 4 < 64 := by omega
      have h₂ : x.toNat % 4 * 16 + y.toNat / 16 < 64 := by omega
      have h₃ : y.toNat % 16 * 4 < 64 := by omega
      rw [encodeChars, decodeFrom_digit [] 0 _ h₁ (by decide), List.nil_append,
        decodeFrom_digit [_] 0 _ h₂ (by simp), List.singleton_append, decodeFrom_digit [_, _] 0 _ h₃ (by simp)]
      have hfirst := ofNat_eq x _ (first_spelled x.toNat y.toNat hx hy)
      have hsecond := ofNat_eq y _ (second_spelled x.toNat y.toNat 0 hy (by decide))
      simpa [decodeFrom, quadBytes] using And.intro hfirst hsecond
  | case4 x y z rest ih =>
      have hx := x.toNat_lt
      have hy := y.toNat_lt
      have hz := z.toNat_lt
      have h₁ : x.toNat / 4 < 64 := by omega
      have h₂ : x.toNat % 4 * 16 + y.toNat / 16 < 64 := by omega
      have h₃ : y.toNat % 16 * 4 + z.toNat / 64 < 64 := by omega
      have h₄ : z.toNat % 64 < 64 := by omega
      rw [encodeChars, decodeFrom_digit [] 0 _ h₁ (by decide), List.nil_append,
        decodeFrom_digit [_] 0 _ h₂ (by simp), List.singleton_append, decodeFrom_digit [_, _] 0 _ h₃ (by simp),
        List.cons_append, List.singleton_append, decodeFrom_last [_, _, _] 0 _ h₄ (by simp), ih]
      have hfirst := ofNat_eq x _ (first_spelled x.toNat y.toNat hx hy)
      have hsecond := ofNat_eq y _ (second_spelled x.toNat y.toNat z.toNat hy hz)
      have hthird := ofNat_eq z _ (third_spelled y.toNat z.toNat hz)
      simp only [List.cons_append, List.nil_append, quadBytes, hfirst, hsecond, hthird,
        Option.map_eq_map, Option.map_some]

theorem encodeChars_inj {b b' : Bytes} (h : encodeChars urlSafe b = encodeChars urlSafe b') : b = b' := by
  have hread := decodeChars_encodeChars b
  rw [h, decodeChars_encodeChars] at hread
  exact (Option.some.inj hread).symm

-- What is written is digits in whole quads, the last of them filled up with padding.
theorem encodeChars_eq_digits (a : Alphabet) (b : Bytes) :
    ∃ digits pads, encodeChars a b = digits ++ List.replicate pads '=' ∧
      (∀ c ∈ digits, ∃ n < 64, c = a.digit n) ∧ pads ≤ 2 ∧ 4 ∣ (encodeChars a b).length := by
  induction b using encodeChars.induct with
  | case1 => exact ⟨[], 0, rfl, nofun, by decide, ⟨0, rfl⟩⟩
  | case2 x =>
      have hx := x.toNat_lt
      refine ⟨[_, _], 2, rfl, ?_, Nat.le_refl 2, ⟨1, rfl⟩⟩
      simp only [List.forall_mem_cons, List.not_mem_nil, false_imp_iff, implies_true, and_true]
      exact ⟨⟨_, by omega, rfl⟩, _, by omega, rfl⟩
  | case3 x y =>
      have hx := x.toNat_lt
      have hy := y.toNat_lt
      refine ⟨[_, _, _], 1, rfl, ?_, by decide, ⟨1, rfl⟩⟩
      simp only [List.forall_mem_cons, List.not_mem_nil, false_imp_iff, implies_true, and_true]
      exact ⟨⟨_, by omega, rfl⟩, ⟨_, by omega, rfl⟩, _, by omega, rfl⟩
  | case4 x y z rest ih =>
      have hx := x.toNat_lt
      have hy := y.toNat_lt
      have hz := z.toNat_lt
      obtain ⟨digits, pads, hrest, hdigits, hpads, hquads⟩ := ih
      obtain ⟨quad, hquad, hlength, hmem⟩ : ∃ quad, encodeChars a (x :: y :: z :: rest) =
          quad ++ encodeChars a rest ∧ quad.length = 4 ∧ ∀ c ∈ quad, ∃ n < 64, c = a.digit n := by
        refine ⟨[_, _, _, _], rfl, rfl, ?_⟩
        simp only [List.forall_mem_cons, List.not_mem_nil, false_imp_iff, implies_true, and_true]
        exact ⟨⟨_, by omega, rfl⟩, ⟨_, by omega, rfl⟩, ⟨_, by omega, rfl⟩, _, by omega, rfl⟩
      refine ⟨quad ++ digits, pads, ?_, List.forall_mem_append.mpr ⟨hmem, hdigits⟩, hpads, ?_⟩
      · rw [hquad, hrest, List.append_assoc]
      · rw [hquad, List.length_append, hlength]
        omega

-- Nothing is written but digits and padding.
theorem mem_encodeChars (a : Alphabet) (b : Bytes) (c : Char) (hc : c ∈ encodeChars a b) :
    c = '=' ∨ ∃ n < 64, c = a.digit n := by
  obtain ⟨digits, pads, hchars, hdigits, -⟩ := encodeChars_eq_digits a b
  rw [hchars] at hc
  rcases List.mem_append.mp hc with hdigit | hpad
  · exact .inr (hdigits c hdigit)
  · exact .inl (List.eq_of_mem_replicate hpad)

theorem lt_of_mem_encodeChars (b : Bytes) (c : Char) (hc : c ∈ encodeChars urlSafe b) :
    c.toNat < 128 := by
  rcases mem_encodeChars urlSafe b c hc with rfl | ⟨n, hn, rfl⟩
  · decide
  · exact digit_lt n hn

-- Three bytes take four characters.
theorem length_encodeChars (a : Alphabet) (b : Bytes) : 4 * b.length ≤ 3 * (encodeChars a b).length := by
  induction b using encodeChars.induct with
  | case1 => simp
  | case2 x => simp [encodeChars]
  | case3 x y => simp [encodeChars]
  | case4 x y z rest ih =>
      simp only [encodeChars, List.length_cons]
      omega

theorem length_quadBytes (quad : List Nat) : (quadBytes quad).length ≤ quad.length := by
  unfold quadBytes
  split <;> simp

-- Reading gives no more bytes than it takes characters.
theorem length_decodeFrom (cs : List Char) (quad : List Nat) (pads : Nat) {b : Bytes}
    (h : decodeFrom quad pads cs = some b) : b.length ≤ quad.length + cs.length := by
  induction cs generalizing quad pads b with
  | nil =>
      rw [decodeFrom] at h
      split at h
      · cases h
        exact Nat.zero_le _
      · cases h
  | cons c rest ih =>
      have hskip {quad : List Nat} {pads : Nat} (h : decodeFrom quad pads rest = some b) :
          b.length ≤ quad.length + (rest.length + 1) := Nat.le_trans (ih quad pads h) (by omega)
      rw [decodeFrom] at h
      rw [List.length_cons]
      split at h
      · split at h
        · exact hskip h
        split at h
        · cases h
          exact Nat.le_trans (length_quadBytes quad) (Nat.le_add_right _ _)
        · exact hskip h
      · split at h
        · exact hskip h
        · next d hd =>
          split at h
          · obtain ⟨tail, htail, rfl⟩ := Option.map_eq_some_iff.mp h
            have hquad := length_quadBytes (quad ++ [d])
            have hrest := ih [] 0 htail
            simp only [List.length_append, List.length_singleton, List.length_nil] at hquad hrest ⊢
            omega
          · have hrest := ih (quad ++ [d]) 0 h
            simp only [List.length_append, List.length_singleton] at hrest
            omega

end Coffer.Base64
