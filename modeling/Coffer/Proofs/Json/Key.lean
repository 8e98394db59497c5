import Coffer.Proofs.Json.Float
import Coffer.Proofs.Text.Base64

namespace Coffer.Json

-- A character that stands for itself in a written text.
def IsBare (c : Char) : Prop := escaped c = [c]

instance (c : Char) : Decidable (IsBare c) := inferInstanceAs (Decidable (escaped c = [c]))

theorem isBare_of_isDigit {c : Char} (hc : c.isDigit) : IsBare c := by
  obtain ⟨-, hlow, hhigh⟩ := toNat_ascii_of_isDigit c hc
  have hne (d : Char) (hd : d.toNat < 0x30 ∨ 0x39 < d.toNat) : c ≠ d := by
    rintro rfl
    omega
  have hcontrol : ¬c.toNat < 0x20 := by omega
  simp only [IsBare, escaped, hcontrol, hne '"' (by decide), hne '\\' (by decide),
    hne '\n' (by decide), hne '\r' (by decide), hne '\t' (by decide), hne '\x08' (by decide),
    hne '\x0c' (by decide), if_false]

theorem inQuotes_eq_textChars {cs : List Char} (h : ∀ c ∈ cs, IsBare c) :
    inQuotes cs = textChars (String.ofList cs) := by
  have hflat : cs.flatMap escaped = cs := by
    induction cs with
    | nil => rfl
    | cons c cs ih =>
        have hc : escaped c = [c] := h c List.mem_cons_self
        rw [List.flatMap_cons, hc, ih fun d hd => h d (List.mem_cons_of_mem _ hd)]
        rfl
  rw [inQuotes, textChars, String.toList_ofList, hflat]

theorem isBare_signed {negative : Bool} {cs : List Char} (h : ∀ c ∈ cs, IsBare c) :
    ∀ c ∈ Double.signed negative cs, IsBare c := by
  cases negative with
  | true => exact List.forall_mem_cons.mpr ⟨by decide, h⟩
  | false => exact h

theorem isBare_intChars (n : Int) : ∀ c ∈ intChars n, IsBare c :=
  isBare_signed fun c hc => isBare_of_isDigit (isDigit_of_mem_digitsOf _ c hc)

theorem isBare_numeral {x : Numeral} (hx : x.IsDecimal) : ∀ c ∈ x.chars, IsBare c := by
  have hpointed : ∀ c ∈ x.pointed, IsBare c := by
    unfold Numeral.pointed
    split
    · simp
    · exact List.forall_mem_cons.mpr ⟨by decide, fun c hc => isBare_of_isDigit (hx.fraction c hc)⟩
  have hmarked : ∀ c ∈ x.marked, IsBare c := by
    unfold Numeral.marked
    cases x.exponent with
    | none => simp
    | some e => exact List.forall_mem_cons.mpr ⟨by decide, isBare_intChars e⟩
  intro c hc
  simp only [Numeral.chars, List.mem_append] at hc
  rcases hc with hc | hc | hc
  · exact isBare_of_isDigit (hx.whole.digits c hc)
  · exact hpointed c hc
  · exact hmarked c hc

theorem isBare_bytes (b : Bytes) : ∀ c ∈ Base64.encodeChars Base64.standard b, IsBare c := by
  have hdigit : ∀ n < 64, IsBare (Base64.standard.digit n) := by decide
  intro c hc
  rcases Base64.mem_encodeChars Base64.standard b c hc with rfl | ⟨n, hn, rfl⟩
  · decide
  · exact hdigit n hn

-- A double that has digits is written as a number with a point or an exponent.
theorem layout_stored {x : Double} {cs : List Char} (h : x.layout? .stored = some cs) :
    ∃ (negative : Bool) (n : Numeral), cs = Double.signed negative n.chars ∧ n.IsDecimal := by
  unfold Double.layout? at h
  split at h
  · rename_i hshape
    obtain ⟨hmantissa, hexponent⟩ := Double.shape_bounds hshape
    obtain ⟨n, hchars, hn, -⟩ := render_stored _ (Double.shortest_bounds hmantissa hexponent).2
    rw [hchars] at h
    exact ⟨_, n, (Option.some.inj h).symm, hn⟩
  · cases h

-- The others go by their names.
theorem isBare_float (x : Double) :
    ∀ c ∈ (x.layout? .stored).getD x.shown.toList, IsBare c := by
  cases hshape : x.shape with
  | nan =>
      have hnan : (x.layout? .stored).getD x.shown.toList = ['n', 'a', 'n'] := by
        simp [Double.shown, Double.layout?, hshape]
      rw [hnan]
      simp only [List.forall_mem_cons]
      exact ⟨by decide, by decide, by decide, nofun⟩
  | infinite negative =>
      have hinfinite : (x.layout? .stored).getD x.shown.toList = Double.signed negative ['i', 'n', 'f'] := by
        cases negative <;> simp [Double.shown, Double.layout?, hshape, Double.signed]
      rw [hinfinite]
      apply isBare_signed
      simp only [List.forall_mem_cons]
      exact ⟨by decide, by decide, by decide, nofun⟩
  | finite negative mantissa exponent =>
      cases hlayout : x.layout? .stored with
      | none => simp [Double.layout?, hshape] at hlayout
      | some cs =>
          obtain ⟨sign, n, rfl, hn⟩ := layout_stored hlayout
          exact isBare_signed (isBare_numeral hn)

-- Whatever may be a key is written as a text.
theorem keyChars_eq_ok {k : Value} {cs : List Char} (h : keyChars k = .ok cs) :
    ∃ s, cs = textChars s := by
  cases k with
  | text s => exact ⟨s, (Except.ok.inj h).symm⟩
  | choice c => exact ⟨c.text, (Except.ok.inj h).symm⟩
  | int n => exact ⟨_, (Except.ok.inj h).symm.trans (inQuotes_eq_textChars (isBare_intChars n))⟩
  | float x => exact ⟨_, (Except.ok.inj h).symm.trans (inQuotes_eq_textChars (isBare_float x))⟩
  | bytes b => exact ⟨_, (Except.ok.inj h).symm.trans (inQuotes_eq_textChars (isBare_bytes b))⟩
  | _ => cases h

end Coffer.Json
