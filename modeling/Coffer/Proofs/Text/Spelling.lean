import Coffer.Proofs.Text.Base64

-- The ways to spell bytes in base64 that a lenient reader takes, as a grammar: digits of either
-- alphabet with gaps before them, quad by quad, and a last quad that may be padded.

namespace Coffer.Base64

-- Characters that are no digits. Padding is one of them.
def IsGap (gap : List Char) : Prop := ∀ c ∈ gap, digitValue? c = none

-- Padding in a gap goes unnoticed while a quad has less than two digits. After that there may be
-- less of it than completes the quad.
def Passes (quad : List Nat) (gap : List Char) : Prop :=
  IsGap gap ∧ (quad.length < 2 ∨ quad.length + gap.count '=' < 4)

-- The digits of a quad, up to four of them, as they are spelled.
inductive QuadSpelling : List Nat → List Char → Prop where
  | start : QuadSpelling [] []
  | digit (quad : List Nat) (cs gap : List Char) (c : Char) (d : Nat) (h : QuadSpelling quad cs)
      (hgap : Passes quad gap) (hd : digitValue? c = some d) :
      QuadSpelling (quad ++ [d]) (cs ++ gap ++ [c])

-- Nothing of what stands behind a padded quad is read.
inductive Spelling : List Char → Bytes → Prop where
  | done (gap : List Char) (hgap : IsGap gap) : Spelling gap []
  | quad (quad : List Nat) (cs rest : List Char) (b : Bytes) (h : QuadSpelling quad cs)
      (hfour : quad.length = 4) (hrest : Spelling rest b) :
      Spelling (cs ++ rest) (quadBytes quad ++ b)
  | padded (quad : List Nat) (cs gap rest : List Char) (h : QuadSpelling quad cs) (hgap : IsGap gap)
      (htwo : 2 ≤ quad.length) (hfour : quad.length + gap.count '=' + 1 = 4) :
      Spelling (cs ++ gap ++ '=' :: rest) (quadBytes quad)

theorem isGap_nil : IsGap [] := nofun

theorem isGap_append {gap : List Char} {c : Char} (hgap : IsGap gap) (hc : digitValue? c = none) :
    IsGap (gap ++ [c]) := by
  intro x hx
  rcases List.mem_append.mp hx with hx | hx
  · exact hgap x hx
  · rw [List.mem_singleton.mp hx]
    exact hc

section Reading

variable {quad : List Nat} {pads : Nat} {gap cs rest : List Char} {c : Char}

theorem decodeFrom_value {d : Nat} (hd : digitValue? c = some d) :
    decodeFrom quad pads (c :: rest) =
      if quad.length = 3 then (quadBytes (quad ++ [d]) ++ ·) <$> decodeFrom [] 0 rest
      else decodeFrom (quad ++ [d]) 0 rest := by
  have hpad : c ≠ '=' := by
    rintro rfl
    cases hd
  rw [decodeFrom, if_neg hpad, hd]

-- A character that is neither digit nor padding is passed over.
theorem decodeFrom_other (hc : digitValue? c = none) (hpad : c ≠ '=') :
    decodeFrom quad pads (c :: rest) = decodeFrom quad pads rest := by
  rw [decodeFrom, if_neg hpad, hc]

theorem decodeFrom_early_pad (h : quad.length < 2) :
    decodeFrom quad pads ('=' :: rest) = decodeFrom quad pads rest := by
  rw [decodeFrom, if_pos rfl, if_pos h]

theorem decodeFrom_pad (h : 2 ≤ quad.length) :
    decodeFrom quad pads ('=' :: rest) =
      if 4 ≤ quad.length + pads + 1 then some (quadBytes quad) else decodeFrom quad (pads + 1) rest := by
  rw [decodeFrom, if_pos rfl, if_neg (Nat.not_lt.mpr h)]

theorem decodeFrom_early_gap (hgap : IsGap gap) (h : quad.length < 2) :
    decodeFrom quad pads (gap ++ rest) = decodeFrom quad pads rest := by
  induction gap with
  | nil => rfl
  | cons c gap ih =>
      obtain ⟨hc, hgap⟩ := List.forall_mem_cons.mp hgap
      by_cases hpad : c = '='
      · rw [hpad, List.cons_append, decodeFrom_early_pad h]
        exact ih hgap
      · rw [List.cons_append, decodeFrom_other hc hpad]
        exact ih hgap

theorem decodeFrom_gap (hgap : IsGap gap) (htwo : 2 ≤ quad.length)
    (h : quad.length + pads + gap.count '=' < 4) :
    decodeFrom quad pads (gap ++ rest) = decodeFrom quad (pads + gap.count '=') rest := by
  induction gap generalizing pads with
  | nil => rfl
  | cons c gap ih =>
      obtain ⟨hc, hrest⟩ := List.forall_mem_cons.mp hgap
      by_cases hpad : c = '='
      · subst hpad
        rw [List.count_cons_self] at h ⊢
        have hlater : decodeFrom quad (pads + 1) (gap ++ rest) = _ := ih hrest (by omega)
        rw [List.cons_append, decodeFrom_pad htwo, if_neg (by omega), hlater, Nat.add_assoc, Nat.add_comm 1]
      · rw [List.count_cons_of_ne hpad] at h ⊢
        rw [List.cons_append, decodeFrom_other hc hpad, ih hrest h]

-- A gap that passes is forgotten with the digit behind it.
theorem decodeFrom_passes {d : Nat} (hgap : Passes quad gap) (hd : digitValue? c = some d) :
    decodeFrom quad 0 (gap ++ c :: rest) =
      if quad.length = 3 then (quadBytes (quad ++ [d]) ++ ·) <$> decodeFrom [] 0 rest
      else decodeFrom (quad ++ [d]) 0 rest := by
  obtain ⟨hgap, hfew⟩ := hgap
  by_cases htwo : quad.length < 2
  · rw [decodeFrom_early_gap hgap htwo, decodeFrom_value hd]
  · rw [decodeFrom_gap hgap (by omega) (by omega), decodeFrom_value hd]

end Reading

theorem QuadSpelling.decode {quad : List Nat} {cs : List Char} (h : QuadSpelling quad cs)
    (rest : List Char) :
    decodeFrom [] 0 (cs ++ rest) =
      if quad.length = 4 then (quadBytes quad ++ ·) <$> decodeFrom [] 0 rest
      else decodeFrom quad 0 rest := by
  induction h generalizing rest with
  | start => rfl
  | digit quad cs gap c d h hgap hd ih =>
      have hshort : quad.length ≠ 4 := by
        have hfew := hgap.2
        omega
      rw [List.append_assoc, List.append_assoc, List.singleton_append, ih, if_neg hshort,
        decodeFrom_passes hgap hd, List.length_append, List.length_singleton]
      by_cases hthree : quad.length = 3
      · rw [if_pos hthree, if_pos (by omega)]
      · rw [if_neg hthree, if_neg (by omega)]

theorem Spelling.decode {cs : List Char} {b : Bytes} (h : Spelling cs b) : decodeChars cs = some b := by
  unfold decodeChars
  induction h with
  | done gap hgap =>
      rw [← List.append_nil gap, decodeFrom_early_gap hgap (by decide)]
      rfl
  | quad quad cs rest b h hfour hrest ih =>
      rw [h.decode, if_pos hfour, ih]
      rfl
  | padded quad cs gap rest h hgap htwo hfour =>
      rw [List.append_assoc, h.decode, if_neg (by omega), decodeFrom_gap hgap htwo (by omega),
        decodeFrom_pad htwo, if_pos (by omega)]

-- What has been read of a text: whole quads apart, the digits of a quad and the gap behind them.
structure Read (quad : List Nat) (pads : Nat) (cs gap : List Char) : Prop where
  spelled : QuadSpelling quad cs
  passes : Passes quad gap
  counted : 2 ≤ quad.length → pads = gap.count '='

namespace Read

variable {quad : List Nat} {pads : Nat} {cs gap : List Char} {c : Char}

theorem start : Read [] 0 [] [] := ⟨.start, ⟨isGap_nil, .inl (by decide)⟩, fun _ => rfl⟩

theorem length_lt (h : Read quad pads cs gap) : quad.length < 4 := by
  have hfew := h.passes.2
  omega

theorem other (h : Read quad pads cs gap) (hc : digitValue? c = none) (hpad : c ≠ '=') :
    Read quad pads cs (gap ++ [c]) := by
  have hcount : (gap ++ [c]).count '=' = gap.count '=' := by
    rw [List.count_append, List.count_cons_of_ne hpad]
    rfl
  exact ⟨h.spelled, ⟨isGap_append h.passes.1 hc, hcount ▸ h.passes.2⟩, hcount ▸ h.counted⟩

theorem early_pad (h : Read quad pads cs gap) (hshort : quad.length < 2) :
    Read quad pads cs (gap ++ ['=']) :=
  ⟨h.spelled, ⟨isGap_append h.passes.1 rfl, .inl hshort⟩, fun htwo => by omega⟩

theorem pad (h : Read quad pads cs gap) (hfew : ¬4 ≤ quad.length + pads + 1) (htwo : 2 ≤ quad.length) :
    Read quad (pads + 1) cs (gap ++ ['=']) := by
  have hcount : (gap ++ ['=']).count '=' = gap.count '=' + 1 := List.count_append
  have hpads := h.counted htwo
  exact ⟨h.spelled, ⟨isGap_append h.passes.1 rfl, .inr (by omega)⟩, fun _ => by omega⟩

theorem digit {d : Nat} (h : Read quad pads cs gap) (hd : digitValue? c = some d)
    (hthree : quad.length ≠ 3) : Read (quad ++ [d]) 0 (cs ++ gap ++ [c]) [] := by
  have hlength := h.length_lt
  refine ⟨.digit quad cs gap c d h.spelled h.passes hd, ⟨isGap_nil, ?_⟩, fun _ => rfl⟩
  rw [List.length_append, List.length_singleton, List.count_nil]
  omega

end Read

-- Induction on what is still to be read.
theorem spelling_of_decode {quad : List Nat} {pads : Nat} {cs gap : List Char} (rest : List Char)
    {b : Bytes} (hread : Read quad pads cs gap) (h : decodeFrom quad pads rest = some b) :
    Spelling (cs ++ gap ++ rest) b := by
  induction rest generalizing quad pads cs gap b with
  | nil =>
      rw [decodeFrom] at h
      split at h
      · next hempty =>
        cases h
        obtain ⟨hspelled, hpasses, -⟩ := hread
        cases hspelled with
        | start => exact .done _ (by simpa using hpasses.1)
        | digit quad cs gap c d => simp at hempty
      · cases h
  | cons c rest ih =>
      have hassoc : cs ++ gap ++ c :: rest = cs ++ (gap ++ [c]) ++ rest := by simp
      by_cases hpad : c = '='
      · subst hpad
        by_cases hshort : quad.length < 2
        · rw [decodeFrom_early_pad hshort] at h
          rw [hassoc]
          exact ih (hread.early_pad hshort) h
        · have htwo : 2 ≤ quad.length := by omega
          rw [decodeFrom_pad htwo] at h
          split at h
          · next hfour =>
            cases h
            have hpads := hread.counted htwo
            have hfew := hread.passes.2
            exact .padded quad cs gap rest hread.spelled hread.passes.1 htwo (by omega)
          · next hfew =>
            rw [hassoc]
            exact ih (hread.pad hfew htwo) h
      · cases hd : digitValue? c with
        | none =>
            rw [decodeFrom_other hd hpad] at h
            rw [hassoc]
            exact ih (hread.other hd hpad) h
        | some d =>
            have happend : cs ++ gap ++ c :: rest = cs ++ gap ++ [c] ++ rest := by simp
            rw [decodeFrom_value hd] at h
            rw [happend]
            split at h
            · next hthree =>
              obtain ⟨tail, htail, rfl⟩ := Option.map_eq_some_iff.mp h
              refine .quad _ _ rest tail (.digit quad cs gap c d hread.spelled hread.passes hd) ?_
                (ih Read.start htail)
              rw [List.length_append, hthree]
              rfl
            · next hthree =>
              have hrest := ih (hread.digit hd hthree) h
              rwa [List.append_nil] at hrest

-- Bytes are read from just the characters that spell them.
theorem decodeChars_eq_some_iff {cs : List Char} {b : Bytes} :
    decodeChars cs = some b ↔ Spelling cs b :=
  ⟨fun h => spelling_of_decode cs Read.start h, Spelling.decode⟩

-- A character that is neither digit nor padding makes no difference wherever it stands.
theorem decodeFrom_insert {c : Char} (hc : digitValue? c = none) (hpad : c ≠ '=') (before after : List Char)
    (quad : List Nat) (pads : Nat) :
    decodeFrom quad pads (before ++ c :: after) = decodeFrom quad pads (before ++ after) := by
  induction before generalizing quad pads with
  | nil => exact decodeFrom_other hc hpad
  | cons x before ih => simp only [List.cons_append, decodeFrom, ih]

end Coffer.Base64
