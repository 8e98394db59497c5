import Coffer.Value
import Coffer.Proofs.Decimal.Double

-- Values as the keys of mappings. Keys are the same if they have one form, so being the same is
-- symmetric and transitive for them. It is reflexive but for doubles that are not a number and have
-- no name.

namespace Coffer.Value

-- What a key is known by: a number by its value, or by itself if it has none.
inductive Form where
  | null
  | number (n : ℚ ⊕ Double)
  | text (s : String)
  | bytes (b : Bytes)
  | moment (hasOffset : Option Bool) (n : Int)
  | record (kind : RecordKind) (fields : List (String × Form))
  | foreign (typeName shown : String)

def number? (v : Value) : Option (ℚ ⊕ Double) :=
  match v, v.ratio? with
  | _, some (n, d) => some (.inl (n / d))
  | .float x, none => if x.isIdentical x then some (.inr x) else none
  | _, none => none

-- Without a clock a moment is a day.
def momentForm (m : Moment) : Form :=
  .moment (m.clock.map fun _ => m.offset.isSome) (m.clock.elim m.dayNumber m.instant)

mutual

def form? : Value → Option Form
  | .null => some .null
  | .text s => some (.text s)
  | .choice c => some (.text c.text)
  | .bytes b => some (.bytes b)
  | .moment m => some (momentForm m)
  | .record kind fields => (formFields? fields).map (.record kind)
  | .foreign typeName shown => some (.foreign typeName shown)
  | v => v.number?.map .number

def formFields? : List (String × Value) → Option (List (String × Form))
  | [] => some []
  | (name, v) :: rest => (form? v).bind fun f => (formFields? rest).map ((name, f) :: ·)

end

def HaveForm (a b : Value) : Prop := a.form? = b.form? ∧ a.form?.isSome

-- Nothing in a key may change.
def IsKey (v : Value) : Prop := v.changeable? = none

-- Numbers

theorem ratio?_pos {v : Value} {n : Int} {d : Nat} (h : v.ratio? = some (n, d)) : (d : ℚ) ≠ 0 := by
  have hpos : 0 < d := by
    cases v <;> simp only [ratio?, reduceCtorEq, Option.some.injEq, Prod.mk.injEq] at h
    case bool => omega
    case int => omega
    case float x =>
      rw [Double.ratio?] at h
      split at h
      · next mantissa exponent _ =>
        cases h
        exact Double.scaleRatio_pos mantissa Nat.one_pos _
      · cases h
  exact_mod_cast hpos.ne'

theorem ratio?_of_identical {x y : Double} (h : x.isIdentical y = true) : x = y ∧ x.ratio? = none := by
  rw [Double.isIdentical, Bool.and_eq_true, Bool.or_eq_true, beq_iff_eq, beq_iff_eq] at h
  obtain ⟨hkind, heq⟩ := h
  refine ⟨heq, ?_⟩
  rcases hkind with hinfinite | rfl
  · rw [Double.isInfinite] at hinfinite
    rw [Double.ratio?]
    split at hinfinite
    · next hshape => rw [hshape]
    · cases hinfinite
  · rfl

theorem number?_eq_inl_iff {v : Value} {q : ℚ} :
    v.number? = some (.inl q) ↔ ∃ n d, v.ratio? = some (n, d) ∧ (n : ℚ) / d = q := by
  unfold number?
  split
  · next n d hratio => simp [hratio]
  · next x hratio =>
    rw [hratio]
    split <;> simp
  · next hratio => simp [hratio]

theorem number?_eq_inr_iff {v : Value} {x : Double} :
    v.number? = some (.inr x) ↔ v = .float x ∧ x.isIdentical x = true := by
  unfold number?
  split
  · next n d hratio =>
    refine ⟨nofun, fun ⟨hv, hx⟩ => ?_⟩
    rw [hv, ratio?, (ratio?_of_identical hx).2] at hratio
    cases hratio
  · next y hratio =>
    split
    · next hy => grind
    · next hy => grind
  · next hno hratio =>
    refine ⟨nofun, fun ⟨hv, _⟩ => ?_⟩
    exact absurd hv (hno x)

theorem sameRatio_iff (a b : Value) :
    sameRatio a.ratio? b.ratio? = true ↔ ∃ q, a.number? = some (.inl q) ∧ b.number? = some (.inl q) := by
  simp only [number?_eq_inl_iff]
  cases ha : a.ratio? with
  | none => simp [sameRatio]
  | some r =>
      obtain ⟨n, d⟩ := r
      cases hb : b.ratio? with
      | none => simp [sameRatio]
      | some t =>
          obtain ⟨m, e⟩ := t
          have heq : (n : ℚ) / d = m / e ↔ n * e = m * d := by
            rw [div_eq_div_iff (ratio?_pos ha) (ratio?_pos hb)]
            exact_mod_cast Iff.rfl
          simp only [sameRatio, beq_iff_eq, ← heq]
          grind

theorem isIdentical_iff (x y : Double) :
    x.isIdentical y = true ↔
      ∃ z, (Value.float x).number? = some (.inr z) ∧ (Value.float y).number? = some (.inr z) := by
  simp only [number?_eq_inr_iff, Value.float.injEq]
  constructor
  · intro h
    obtain ⟨rfl, -⟩ := ratio?_of_identical h
    exact ⟨x, ⟨rfl, h⟩, rfl, h⟩
  · rintro ⟨z, ⟨rfl, h⟩, rfl, -⟩
    exact h

-- A number that has a value is only the same as its equals.
theorem exact_same_iff {a b : Value} {q : ℚ} (ha : a.number? = some (.inl q))
    (hsame : a.same b = sameRatio a.ratio? b.ratio?) : a.same b = true ↔ b.number? = some (.inl q) := by
  rw [hsame, sameRatio_iff, ha]
  simp

theorem float_same_iff (x : Double) (b : Value) :
    (Value.float x).same b = true ↔ ∃ n, (Value.float x).number? = some n ∧ b.number? = some n := by
  have hratio := sameRatio_iff (.float x) b
  rw [Sum.exists]
  by_cases hb : ∃ y, b = .float y
  · obtain ⟨y, rfl⟩ := hb
    rw [same, Bool.or_eq_true, isIdentical_iff, or_comm]
    exact or_congr hratio Iff.rfl
  · have hsame : (Value.float x).same b = sameRatio (Value.float x).ratio? b.ratio? := by
      cases b <;> simp [same] at hb ⊢
    have hno : ¬∃ z, (Value.float x).number? = some (.inr z) ∧ b.number? = some (.inr z) := by
      rintro ⟨z, -, hz⟩
      exact hb ⟨z, (number?_eq_inr_iff.mp hz).1⟩
    rw [hsame, hratio, or_iff_left hno]

theorem form?_eq_number_iff {v : Value} {n : ℚ ⊕ Double} :
    v.form? = some (.number n) ↔ v.number? = some n := by
  cases v <;> simp [form?, momentForm, number?, ratio?]

-- Other keys

theorem moment_same_iff (m n : Moment) : m.same n = true ↔ momentForm m = momentForm n := by
  unfold Moment.same momentForm
  cases m.clock <;> cases n.clock <;> simp

theorem haveForm_iff {a b : Value} {f : Form} (ha : a.form? = some f) :
    HaveForm a b ↔ b.form? = some f := by
  rw [HaveForm, ha]
  simp [eq_comm]

theorem haveForm_number {a b : Value} {n : ℚ ⊕ Double} (ha : a.number? = some n) :
    HaveForm a b ↔ b.number? = some n := by
  rw [haveForm_iff (form?_eq_number_iff.mpr ha), form?_eq_number_iff]

theorem formFields?_nil : formFields? [] = some [] := by rw [formFields?]

theorem formFields?_cons_ne (e : String × Value) (rest : List (String × Value)) :
    formFields? (e :: rest) ≠ some [] := by
  rw [formFields?]
  cases form? e.2 <;> cases formFields? rest <;> simp

mutual

theorem same_iff (a b : Value) (ha : a.IsKey) : a.same b = true ↔ HaveForm a b := by
  cases a with
  | null => cases b <;> simp [same, HaveForm, form?, ratio?, sameRatio, momentForm]
  | bool x =>
      have hnumber : (Value.bool x).number? = some _ := number?_eq_inl_iff.mpr ⟨_, _, rfl, rfl⟩
      rw [haveForm_number hnumber]
      exact exact_same_iff hnumber (by cases b <;> simp only [same])
  | int n =>
      have hnumber : (Value.int n).number? = some _ := number?_eq_inl_iff.mpr ⟨_, _, rfl, rfl⟩
      rw [haveForm_number hnumber]
      exact exact_same_iff hnumber (by cases b <;> simp only [same])
  | float x =>
      rw [float_same_iff]
      cases hnumber : (Value.float x).number? with
      | none => simp [HaveForm, form?, hnumber]
      | some n => simp [haveForm_number hnumber]
  | text s => cases b <;> simp [same, HaveForm, form?, ratio?, sameRatio, momentForm]
  | bytes x => cases b <;> simp [same, HaveForm, form?, ratio?, sameRatio, momentForm]
  | list items => cases ha
  | dict entries => cases ha
  | record kind fields =>
      have hfields : changeableField? fields = none := by
        rw [IsKey, changeable?] at ha
        split at ha
        · exact ha
        · cases ha
      cases b with
      | record kind' fields' =>
          rw [same, Bool.and_eq_true, beq_iff_eq, sameFields_iff fields fields' hfields, HaveForm, form?, form?]
          cases formFields? fields <;> cases formFields? fields' <;> simp
      | _ =>
          cases hform : formFields? fields <;>
            simp [same, HaveForm, form?, ratio?, sameRatio, momentForm, hform]
  | choice c => cases b <;> simp [same, HaveForm, form?, ratio?, sameRatio, momentForm]
  | moment m => cases b <;> simp [same, HaveForm, form?, ratio?, sameRatio, moment_same_iff, momentForm]
  | foreign typeName shown => cases b <;> simp [same, HaveForm, form?, ratio?, sameRatio, momentForm]
  | again isMapping => cases ha

theorem sameFields_iff (as bs : List (String × Value)) (ha : changeableField? as = none) :
    sameFields as bs = true ↔ formFields? as = formFields? bs ∧ (formFields? as).isSome := by
  cases as with
  | nil =>
      cases bs with
      | nil => simp [sameFields, formFields?]
      | cons e bs => simp [sameFields, (formFields?_cons_ne e bs).symm, formFields?_nil]
  | cons e as =>
      obtain ⟨name, v⟩ := e
      rw [changeableField?, Option.or_eq_none_iff] at ha
      cases bs with
      | nil => simp [sameFields, formFields?_cons_ne, formFields?_nil]
      | cons e' bs =>
          obtain ⟨name', v'⟩ := e'
          rw [sameFields, Bool.and_eq_true, Bool.and_eq_true, beq_iff_eq, same_iff v v' ha.1,
            sameFields_iff as bs ha.2, HaveForm, formFields?, formFields?]
          cases form? v <;> cases form? v' <;> cases formFields? as <;> cases formFields? bs <;> simp

end

theorem text_same (s t : String) : (Value.text s).same (.text t) = (s == t) := by rw [same]

-- What is the same as a key is the same as all that the key is the same as.
theorem same_congr {k j : Value} (hk : k.IsKey) (h : k.same j = true) {i : Value} (hi : i.IsKey) :
    i.same k = i.same j := by
  have hform := ((same_iff k j hk).mp h).1
  rw [Bool.eq_iff_iff, same_iff i k hi, same_iff i j hi, HaveForm, HaveForm, hform]

theorem same_of_same {k j i : Value} (hk : k.IsKey) (hj : j.IsKey) (h : k.same i = true)
    (h' : j.same i = true) : k.same j = true := by
  obtain ⟨hform, hsome⟩ := (same_iff k i hk).mp h
  obtain ⟨hform', -⟩ := (same_iff j i hj).mp h'
  exact (same_iff k j hk).mpr ⟨hform.trans hform'.symm, hsome⟩

end Coffer.Value
