import Coffer.Json.Reader
import Coffer.Proofs.Text.Utf8

-- How deep bytes nest, as the brackets outside of texts tell, whatever else the bytes may be.

namespace Coffer.Json

open Utf8 (Whole bounds_of_hexValue?)

-- Where a scan of the bytes is: between texts, within one, or behind a backslash there.
inductive Scan where
  | between
  | within
  | escaped

def isOpening (b : UInt8) : Bool := b = ascii '[' || b = ascii '\x7b'

def isClosing (b : UInt8) : Bool := b = ascii ']' || b = ascii '\x7d'

-- How many lists and mappings more than at the start are open at any place at most.
def levelsFrom : Scan → Bytes → Nat
  | _, [] => 0
  | .between, b :: rest =>
      if b = 0x22 then levelsFrom .within rest
      else if isOpening b then levelsFrom .between rest + 1
      else if isClosing b then levelsFrom .between rest - 1
      else levelsFrom .between rest
  | .within, b :: rest =>
      if b = 0x22 then levelsFrom .between rest
      else if b = 0x5C then levelsFrom .escaped rest
      else levelsFrom .within rest
  | .escaped, _ :: rest => levelsFrom .within rest

def levels (text : String) : Nat := levelsFrom .between (Utf8.encode text)

theorem not_opening_of_closing (b : UInt8) (hb : isClosing b = true) : ¬isOpening b = true := by
  simp only [isClosing, Bool.or_eq_true, decide_eq_true_eq] at hb
  rcases hb with rfl | rfl <;> decide

section Bytes

variable {b : UInt8} {rest : Bytes}

theorem levelsFrom_between (b : UInt8) (rest : Bytes) :
    levelsFrom .between (b :: rest) =
      if b = 0x22 then levelsFrom .within rest
      else if isOpening b then levelsFrom .between rest + 1
      else if isClosing b then levelsFrom .between rest - 1
      else levelsFrom .between rest := rfl

theorem levelsFrom_within (b : UInt8) (rest : Bytes) :
    levelsFrom .within (b :: rest) =
      if b = 0x22 then levelsFrom .between rest
      else if b = 0x5C then levelsFrom .escaped rest
      else levelsFrom .within rest := rfl

theorem levelsFrom_opening (hb : isOpening b = true) :
    levelsFrom .between (b :: rest) = levelsFrom .between rest + 1 := by
  have hquote : b ≠ 0x22 := by
    rintro rfl
    cases hb
  rw [levelsFrom_between, if_neg hquote, if_pos hb]

theorem levelsFrom_closing (hb : isClosing b = true) :
    levelsFrom .between (b :: rest) = levelsFrom .between rest - 1 := by
  have hquote : b ≠ 0x22 := by
    rintro rfl
    cases hb
  rw [levelsFrom_between, if_neg hquote, if_neg (not_opening_of_closing b hb), if_pos hb]

theorem levelsFrom_high (hb : 0x80 ≤ b.toNat) :
    levelsFrom .within (b :: rest) = levelsFrom .within rest := by
  have hquote : b ≠ 0x22 := by
    rintro rfl
    exact absurd hb (by decide)
  have hslash : b ≠ 0x5C := by
    rintro rfl
    exact absurd hb (by decide)
  rw [levelsFrom_within, if_neg hquote, if_neg hslash]

theorem levelsFrom_append_high (part : Bytes) (hpart : ∀ b ∈ part, 0x80 ≤ b.toNat) (s : Bytes) :
    levelsFrom .within (part ++ s) = levelsFrom .within s := by
  induction part with
  | nil => rfl
  | cons b part ih =>
      rw [List.forall_mem_cons] at hpart
      rw [List.cons_append, levelsFrom_high hpart.1, ih hpart.2]

end Bytes

-- A byte of the ASCII range that a scan passes over.
def isNeutral (b : UInt8) : Bool :=
  b < 0x80 && !(b = 0x22 || b = 0x5C || isOpening b || isClosing b)

theorem isNeutral_iff (b : UInt8) :
    isNeutral b = true ↔
      b.toNat < 0x80 ∧ b.toNat ≠ 0x22 ∧ b.toNat ≠ 0x5C ∧ (b.toNat ≠ 0x5B ∧ b.toNat ≠ 0x7B) ∧
        b.toNat ≠ 0x5D ∧ b.toNat ≠ 0x7D := by
  simp [isNeutral, isOpening, isClosing, ascii, UInt8.lt_iff_toNat_lt, ← UInt8.toNat_inj, and_assoc]

theorem isNeutral_lt (b : UInt8) (hb : isNeutral b = true) : b.toNat < 0x80 :=
  ((isNeutral_iff b).mp hb).1

theorem isBlank_neutral (b : UInt8) (hb : isBlank b = true) : isNeutral b = true := by
  simp only [isBlank, Bool.or_eq_true, decide_eq_true_eq] at hb
  rcases hb with ((rfl | rfl) | rfl) | rfl <;> decide

theorem isDigit_neutral (b : UInt8) (hb : isDigit b = true) : isNeutral b = true := by
  simp only [isDigit, Bool.and_eq_true, decide_eq_true_eq, UInt8.le_iff_toNat_le,
    UInt8.reduceToNat] at hb
  rw [isNeutral_iff]
  omega

theorem hexByte?_neutral (b : UInt8) (hb : (hexByte? b).isSome) : isNeutral b = true := by
  have hbounds := bounds_of_hexValue? hb
  rw [isNeutral_iff]
  omega

theorem levelsFrom_neutral {b : UInt8} {rest : Bytes} (hb : isNeutral b = true) :
    levelsFrom .between (b :: rest) = levelsFrom .between rest ∧
      levelsFrom .within (b :: rest) = levelsFrom .within rest := by
  simp only [isNeutral, Bool.and_eq_true, Bool.not_eq_true', Bool.or_eq_false_iff,
    decide_eq_false_iff_not] at hb
  obtain ⟨-, ⟨⟨hquote, hslash⟩, hopening⟩, hclosing⟩ := hb
  simp [levelsFrom_between, levelsFrom_within, hquote, hslash, hopening, hclosing]

-- The bytes are whole and nest no deeper than the given number of levels.
structure Nests (scan : Scan) (n : Nat) (s : Bytes) : Prop where
  whole : Whole s
  shallow : levelsFrom scan s ≤ n

namespace Nests

variable {n : Nat} {b : UInt8} {s rest : Bytes}

theorem tail (h : Nests .between n (b :: rest)) (hb : isNeutral b = true) : Nests .between n rest :=
  ⟨h.whole.tail (isNeutral_lt b hb), (levelsFrom_neutral hb).1 ▸ h.shallow⟩

theorem tail_within (h : Nests .within n (b :: rest)) (hb : isNeutral b = true) : Nests .within n rest :=
  ⟨h.whole.tail (isNeutral_lt b hb), (levelsFrom_neutral hb).2 ▸ h.shallow⟩

theorem dropWhile {p : UInt8 → Bool} (hp : ∀ b, p b = true → isNeutral b = true)
    (h : Nests .between n s) : Nests .between n (s.dropWhile p) := by
  induction s with
  | nil => exact h
  | cons b rest ih =>
      rw [List.dropWhile_cons]
      split
      · next hb => exact ih (h.tail (hp b hb))
      · exact h

theorem drop (h : Nests .between n s) (letters : Bytes) (hletters : ∀ b ∈ letters, isNeutral b = true)
    (hs : s.take letters.length = letters) : Nests .between n (s.drop letters.length) := by
  induction letters generalizing s with
  | nil => exact h
  | cons b letters ih =>
      cases s with
      | nil => cases hs
      | cons c rest =>
          rw [List.forall_mem_cons] at hletters
          rw [List.length_cons, List.take_succ_cons, List.cons.injEq] at hs
          obtain ⟨rfl, hs⟩ := hs
          exact ih (h.tail hletters.1) hletters.2 hs

-- Behind an opening bracket there is one level less to go.
theorem opened (h : Nests .between n (b :: rest)) (hb : isOpening b = true) (hlow : b.toNat < 0x80) :
    ∃ m, n = m + 1 ∧ Nests .between m rest := by
  have hshallow := h.shallow
  rw [levelsFrom_opening hb] at hshallow
  exact ⟨n - 1, by omega, h.whole.tail hlow, by omega⟩

theorem closed (h : Nests .between n (b :: rest)) (hb : isClosing b = true) (hlow : b.toNat < 0x80) :
    Nests .between (n + 1) rest := by
  have hshallow := h.shallow
  rw [levelsFrom_closing hb] at hshallow
  exact ⟨h.whole.tail hlow, by omega⟩

theorem quoted (h : Nests .between n (0x22 :: rest)) : Nests .within n rest :=
  ⟨h.whole.tail (by decide), h.shallow⟩

theorem unquoted (h : Nests .within n (0x22 :: rest)) : Nests .between n rest :=
  ⟨h.whole.tail (by decide), h.shallow⟩

-- A backslash takes the next byte with it.
theorem unescaped (h : Nests .within n (0x5C :: b :: rest)) (hb : b.toNat < 0x80) :
    Nests .within n rest :=
  ⟨(h.whole.tail (by decide)).tail hb, h.shallow⟩

end Nests

theorem nests_levels (text : String) : Nests .between (levels text) (Utf8.encode text) :=
  ⟨Utf8.whole_encode text, Nat.le_refl _⟩

end Coffer.Json
