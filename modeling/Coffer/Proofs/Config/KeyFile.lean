import Coffer.Config.KeyFile
import Coffer.Proofs.Host
import Coffer.Proofs.Text.Utf8
import Mathlib.Data.List.TakeWhile

-- What a key file stands for. The reader of digits takes blanks between pairs, but then there are
-- too few pairs for a key.

namespace Coffer.Config.KeyFile

def digit? (b : UInt8) : Option Nat := hexValue? (Char.ofNat b.toNat)

-- Two hexadecimal digits to a byte, of either case, with nothing between them.
inductive Spells : Bytes → Bytes → Prop where
  | nil : Spells [] []
  | pair (c d : UInt8) (high low : Nat) (digits b : Bytes) (hhigh : digit? c = some high)
      (hlow : digit? d = some low) (h : Spells digits b) :
      Spells (c :: d :: digits) (UInt8.ofNat (16 * high + low) :: b)

def AreBlank (b : Bytes) : Prop := ∀ c ∈ b, isBlank c = true

-- The content is the key itself, or is no 32 bytes long and has just the 64 digits of the key
-- between blanks.
def Holds (content key : Bytes) : Prop :=
  content = key ∨
    content.length ≠ Seal.keyLength ∧
      ∃ before digits after, content = before ++ digits ++ after ∧ AreBlank before ∧ AreBlank after ∧
        digits.length = 2 * Seal.keyLength ∧ Spells digits key

-- Blanks at the ends

theorem isBlank_of_digit {b : UInt8} {n : Nat} (h : digit? b = some n) : isBlank b = false := by
  have hbounds := Utf8.bounds_of_hexValue? (Option.isSome_of_eq_some h)
  simp only [isBlank, Bool.or_eq_false_iff, Bool.and_eq_false_iff, decide_eq_false_iff_not,
    ← UInt8.toNat_inj, UInt8.le_iff_toNat_le, UInt8.reduceToNat]
  omega

theorem exists_trim (content : Bytes) :
    ∃ before after, content = before ++ trim content ++ after ∧ AreBlank before ∧ AreBlank after := by
  let inner := content.dropWhile isBlank
  have hbefore : content.takeWhile isBlank ++ inner = content := List.takeWhile_append_dropWhile
  have hafter : trim content ++ (inner.reverse.takeWhile isBlank).reverse = inner := by
    rw [trim, ← List.reverse_append, List.takeWhile_append_dropWhile, List.reverse_reverse]
  refine ⟨content.takeWhile isBlank, (inner.reverse.takeWhile isBlank).reverse, ?_, ?_, ?_⟩
  · rw [List.append_assoc, hafter, hbefore]
  · intro c hc
    exact List.mem_takeWhile_imp hc
  · intro c hc
    exact List.mem_takeWhile_imp (List.mem_reverse.mp hc)

theorem dropWhile_of_areBlank {before rest : Bytes} (hbefore : AreBlank before) :
    (before ++ rest).dropWhile isBlank = rest.dropWhile isBlank :=
  List.dropWhile_append_of_pos hbefore

theorem dropWhile_of_no_blank {b : Bytes} (hb : ∀ c ∈ b, isBlank c = false) (rest : Bytes)
    (hne : b ≠ []) : (b ++ rest).dropWhile isBlank = b ++ rest := by
  cases b with
  | nil => exact absurd rfl hne
  | cons c b =>
      rw [List.cons_append, List.dropWhile_cons_of_neg (by simp [hb c List.mem_cons_self])]

-- Nothing between blanks is lost if no blank is there.
theorem trim_eq {before b after : Bytes} (hbefore : AreBlank before) (hafter : AreBlank after)
    (hb : ∀ c ∈ b, isBlank c = false) (hne : b ≠ []) : trim (before ++ b ++ after) = b := by
  have hreverse : AreBlank after.reverse := fun c hc => hafter c (List.mem_reverse.mp hc)
  have hb' : ∀ c ∈ b.reverse, isBlank c = false := fun c hc => hb c (List.mem_reverse.mp hc)
  have hne' : b.reverse ≠ [] := fun h => hne (List.reverse_eq_nil_iff.mp h)
  have hkept := dropWhile_of_no_blank hb' [] hne'
  rw [trim, List.append_assoc, dropWhile_of_areBlank hbefore, dropWhile_of_no_blank hb after hne,
    List.reverse_append, dropWhile_of_areBlank hreverse]
  rw [List.append_nil] at hkept
  rw [hkept, List.reverse_reverse]

-- Digits

namespace Spells

theorem length {digits b : Bytes} (h : Spells digits b) : digits.length = 2 * b.length := by
  induction h with
  | nil => rfl
  | pair c d high low digits b hhigh hlow h ih =>
      rw [List.length_cons, List.length_cons, List.length_cons, ih]
      omega

theorem no_blank {digits b : Bytes} (h : Spells digits b) : ∀ c ∈ digits, isBlank c = false := by
  induction h with
  | nil => nofun
  | pair c d high low digits b hhigh hlow h ih =>
      exact List.forall_mem_cons.mpr
        ⟨isBlank_of_digit hhigh, List.forall_mem_cons.mpr ⟨isBlank_of_digit hlow, ih⟩⟩

theorem hexPairs? {digits b : Bytes} (h : Spells digits b) : KeyFile.hexPairs? digits = some b := by
  induction h with
  | nil => rfl
  | pair c d high low digits b hhigh hlow h ih =>
      rw [digit?] at hhigh hlow
      rw [KeyFile.hexPairs?, if_neg (by simp [isBlank_of_digit hhigh])]
      simp [hhigh, hlow, ih]

end Spells

-- Every byte takes two digits, so there is no room for a blank where the length is twice that of the
-- bytes.
theorem hexPairs?_cases (text : Bytes) {b : Bytes} (h : hexPairs? text = some b) :
    2 * b.length < text.length ∨ Spells text b := by
  fun_induction hexPairs? text generalizing b with
  | case1 =>
      cases h
      exact .inr .nil
  | case2 c rest hblank ih =>
      have hshort : 2 * b.length ≤ rest.length := by
        rcases ih h with hless | hspells
        · exact hless.le
        · exact hspells.length.ge
      exact .inl (Nat.lt_succ_of_le hshort)
  | case3 => cases h
  | case4 c hblank d rest ih =>
      obtain ⟨high, hhigh, h⟩ := Option.bind_eq_some_iff.mp h
      obtain ⟨low, hlow, h⟩ := Option.bind_eq_some_iff.mp h
      obtain ⟨tail, htail, h⟩ := Option.bind_eq_some_iff.mp h
      cases h
      rcases ih htail with hless | hspells
      · left
        rw [List.length_cons, List.length_cons, List.length_cons]
        omega
      · exact .inr (.pair c d high low rest tail hhigh hlow hspells)

-- Reading

theorem check_eq_ok_iff {b : Bytes} {key : Seal.Key} : Seal.Key.check b = .ok key ↔ b = key.bytes := by
  rw [Seal.Key.check, Seal.Key.ofBytes?]
  constructor
  · intro h
    split at h
    · next hkey =>
      split at hkey
      · cases hkey
        cases h
        rfl
      · cases hkey
    · cases h
  · rintro rfl
    rw [dif_pos key.length_eq]

theorem check_cases (b : Bytes) :
    (∃ key, Seal.Key.check b = .ok key) ∨ ∃ reason, Seal.Key.check b = .error (.unusable reason) := by
  rw [Seal.Key.check]
  split
  · exact .inl ⟨_, rfl⟩
  · exact .inr ⟨_, rfl⟩

theorem parse_cases (path : String) (content : Bytes) :
    (∃ key, parse path content = .ok key) ∨ ∃ reason, parse path content = .error (.unusable reason) := by
  rw [parse]
  split
  · exact check_cases _
  · exact .inr ⟨_, rfl⟩

theorem parse_eq_ok_iff_keyBytes? {path : String} {content : Bytes} {key : Seal.Key} :
    parse path content = .ok key ↔ keyBytes? content = some key.bytes := by
  rw [parse]
  split
  · next b hb => rw [hb, check_eq_ok_iff, Option.some.injEq]
  · next hnone =>
    rw [hnone]
    exact ⟨nofun, nofun⟩

theorem keyBytes?_of_holds {content : Bytes} {key : Seal.Key} (h : Holds content key.bytes) :
    keyBytes? content = some key.bytes := by
  rcases h with rfl | ⟨hlength, before, digits, after, rfl, hbefore, hafter, hdigits, hspells⟩
  · rw [keyBytes?, if_neg]
    rintro ⟨hlength, -⟩
    exact hlength key.length_eq
  · have hne : digits ≠ [] := by
      rintro rfl
      cases hdigits
    have htrim := trim_eq hbefore hafter hspells.no_blank hne
    rw [keyBytes?, htrim, if_pos ⟨hlength, hdigits⟩]
    exact hspells.hexPairs?

theorem holds_of_keyBytes? {content : Bytes} {key : Seal.Key} (h : keyBytes? content = some key.bytes) :
    Holds content key.bytes := by
  rw [keyBytes?] at h
  split at h
  · next hform =>
    obtain ⟨hlength, htext⟩ := hform
    obtain ⟨before, after, hcontent, hbefore, hafter⟩ := exists_trim content
    refine .inr ⟨hlength, before, trim content, after, hcontent, hbefore, hafter, htext, ?_⟩
    rcases hexPairs?_cases _ h with hless | hspells
    · rw [htext, key.length_eq] at hless
      exact absurd hless (Nat.lt_irrefl _)
    · exact hspells
  · exact .inl (Option.some.inj h)

theorem parse_eq_ok_iff (path : String) {content : Bytes} {key : Seal.Key} :
    parse path content = .ok key ↔ Holds content key.bytes := by
  rw [parse_eq_ok_iff_keyBytes?]
  exact ⟨holds_of_keyBytes?, keyBytes?_of_holds⟩

theorem load_eq_parse {home path : String} {name : PathName} {h : Host} {content : Bytes}
    (hname : (PathName.ofText path).expandHome home = .ok name)
    (hread : Host.readFile name h = (.ok content, h)) :
    load home path h = (parse path content, h) := by
  refine (Action.bind_of_ok (a := name) (t := h) ?_).trans ?_
  · rw [Action.ofExcept_apply, hname]
  · exact Action.bind_of_ok hread

-- A file that can be read gives the key that it holds, and one that holds no key is refused.
theorem load_ok_iff_holds {home path : String} {name : PathName} {h : Host} {content : Bytes}
    (hname : (PathName.ofText path).expandHome home = .ok name)
    (hread : Host.readFile name h = (.ok content, h)) :
    (∀ key, load home path h = (.ok key, h) ↔ Holds content key.bytes) ∧
    ((∀ key : Seal.Key, ¬Holds content key.bytes) →
      ∃ reason, load home path h = (.error (.unusable reason), h)) := by
  rw [load_eq_parse hname hread]
  refine ⟨fun key => ?_, fun hno => ?_⟩
  · rw [← parse_eq_ok_iff path, Prod.mk.injEq, and_iff_left rfl]
  · rcases parse_cases path content with ⟨key, hkey⟩ | ⟨reason, hreason⟩
    · exact absurd ((parse_eq_ok_iff path).mp hkey) (hno key)
    · exact ⟨reason, by rw [hreason]⟩

-- Digits of both cases with a line end behind them, and a word.
theorem load_ok_iff_holds_of_line :
    ∃ (h : Host) (key : Seal.Key),
      h.disk = ⟨[(["a"], .file 0), (["b"], .file 1)],
        [.bytes ((List.replicate 32 (Utf8.encode "aB")).flatten ++ [0x0A]), .bytes (Utf8.encode "short")]⟩ ∧
      key.bytes = List.replicate 32 0xAB ∧ load "home" "a" h = (.ok key, h) ∧
      ∃ reason, load "home" "b" h = (.error (.unusable reason), h) := by
  let line : Bytes := (List.replicate 32 (Utf8.encode "aB")).flatten ++ [0x0A]
  let word : Bytes := Utf8.encode "short"
  let disk : Disk := ⟨[(["a"], .file 0), (["b"], .file 1)], [.bytes line, .bytes word]⟩
  let h : Host := { Host.empty with disk }
  let key : Seal.Key := ⟨List.replicate 32 0xAB, rfl⟩
  have hline : Host.readFile (.ofText "a") h = (.ok line, h) := by
    have hbytes : h.disk.readBytes (.ofText "a") = .ok line := rfl
    rw [Host.readFile_eq (by decide), hbytes, mapError_ok]
  have hword : Host.readFile (.ofText "b") h = (.ok word, h) := by
    have hbytes : h.disk.readBytes (.ofText "b") = .ok word := rfl
    rw [Host.readFile_eq (by decide), hbytes, mapError_ok]
  have hholds : Holds line key.bytes := holds_of_keyBytes? (by decide +kernel)
  have hno (key : Seal.Key) : ¬Holds word key.bytes := by
    intro hkey
    have hbytes := keyBytes?_of_holds hkey
    rw [show keyBytes? word = some word from rfl] at hbytes
    have hlength : word.length = Seal.keyLength := Option.some.inj hbytes ▸ key.length_eq
    exact absurd hlength (by decide)
  exact ⟨h, key, rfl, rfl, ((load_ok_iff_holds rfl hline).1 key).mpr hholds,
    (load_ok_iff_holds rfl hword).2 hno⟩

end Coffer.Config.KeyFile
