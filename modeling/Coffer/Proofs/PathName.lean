import Coffer.PathName
import Mathlib.Data.List.Basic

namespace Coffer.PathName

-- A part of a path as characters: it is kept, and no slash is in it.
def IsPiece (piece : List Char) : Prop := isPart piece = true ∧ '/' ∉ piece

theorem slash_not_mem_splitSlashes (cs : List Char) : ∀ piece ∈ splitSlashes cs, '/' ∉ piece := by
  induction cs with
  | nil => simp [splitSlashes]
  | cons c rest ih =>
      rw [splitSlashes]
      split
      · simpa using ih
      · rename_i hc
        have hne : '/' ≠ c := fun h => hc h.symm
        split
        · simp [hne]
        · rename_i piece pieces hsplit
          rw [hsplit] at ih
          intro p hp
          rcases List.mem_cons.mp hp with rfl | hp
          · have hpiece := ih piece List.mem_cons_self
            simp [hne, hpiece]
          · exact ih p (List.mem_cons_of_mem _ hp)

theorem splitSlashes_slash (rest : List Char) : splitSlashes ('/' :: rest) = [] :: splitSlashes rest :=
  if_pos rfl

theorem splitSlashes_push {c : Char} {rest piece : List Char} {pieces : List (List Char)}
    (hc : ¬c = '/') (hrest : splitSlashes rest = piece :: pieces) :
    splitSlashes (c :: rest) = (c :: piece) :: pieces := by
  rw [splitSlashes, if_neg hc, hrest]

theorem splitSlashes_piece (piece rest : List Char) (h : '/' ∉ piece) :
    splitSlashes (piece ++ '/' :: rest) = piece :: splitSlashes rest := by
  induction piece with
  | nil => exact splitSlashes_slash rest
  | cons c piece ih =>
      simp only [List.mem_cons, not_or] at h
      exact splitSlashes_push (fun hc => h.1 hc.symm) (ih h.2)

theorem splitSlashes_last (piece : List Char) (h : '/' ∉ piece) : splitSlashes piece = [piece] := by
  induction piece with
  | nil => rfl
  | cons c piece ih =>
      simp only [List.mem_cons, not_or] at h
      exact splitSlashes_push (fun hc => h.1 hc.symm) (ih h.2)

-- What was joined of parts is taken apart into them again.
theorem parts_joinParts (pieces : List (List Char)) (h : ∀ piece ∈ pieces, IsPiece piece) :
    (splitSlashes (joinParts (pieces.map String.ofList))).filter isPart = pieces := by
  induction pieces with
  | nil => rfl
  | cons piece pieces ih =>
      obtain ⟨⟨hpart, hslash⟩, hrest⟩ := List.forall_mem_cons.mp h
      cases pieces with
      | nil =>
          rw [List.map_cons, List.map_nil, joinParts, String.toList_ofList, splitSlashes_last _ hslash]
          simp [hpart]
      | cons next pieces =>
          rw [List.map_cons, List.map_cons, joinParts, String.toList_ofList,
            splitSlashes_piece _ _ hslash, List.filter_cons_of_pos hpart]
          exact congrArg _ (ih hrest)
          exact List.cons_ne_nil _ _

-- Parts that are joined start with no slash.
theorem of_joinParts (pieces : List (List Char)) (h : ∀ piece ∈ pieces, IsPiece piece) :
    joinParts (pieces.map String.ofList) = [] ∨
      ∃ c rest, joinParts (pieces.map String.ofList) = c :: rest ∧ c ≠ '/' := by
  cases pieces with
  | nil => exact .inl rfl
  | cons piece pieces =>
      obtain ⟨hpart, hslash⟩ := h piece List.mem_cons_self
      cases piece with
      | nil => cases hpart
      | cons c piece =>
          have hc : c ≠ '/' := by
            rintro rfl
            exact hslash List.mem_cons_self
          cases pieces with
          | nil => exact .inr ⟨c, piece, by simp [joinParts], hc⟩
          | cons next pieces => exact .inr ⟨c, _, by simp [joinParts]; rfl, hc⟩

theorem filter_slash (cs : List Char) :
    (splitSlashes ('/' :: cs)).filter isPart = (splitSlashes cs).filter isPart := by
  rw [splitSlashes_slash]
  exact List.filter_cons_of_neg (by decide)

theorem ofChars_chars (anchor : Anchor) (pieces : List (List Char))
    (h : ∀ piece ∈ pieces, IsPiece piece) :
    ofChars (chars ⟨anchor, pieces.map String.ofList⟩) = ⟨anchor, pieces.map String.ofList⟩ := by
  have hparts := parts_joinParts pieces h
  have hfirst := of_joinParts pieces h
  cases anchor with
  | here =>
      cases pieces with
      | nil => rfl
      | cons piece pieces =>
          have hchars : chars ⟨.here, (piece :: pieces).map String.ofList⟩ =
              joinParts ((piece :: pieces).map String.ofList) := rfl
          rw [hchars, ofChars, hparts]
          rcases hfirst with hnil | ⟨c, rest, hcons, hc⟩
          · rw [hnil]
            rfl
          · rw [hcons]
            simp [Anchor.of, hc]
  | root =>
      have hchars : chars ⟨.root, pieces.map String.ofList⟩ =
          '/' :: joinParts (pieces.map String.ofList) := rfl
      rw [hchars, ofChars, filter_slash, hparts]
      rcases hfirst with hnil | ⟨c, rest, hcons, hc⟩
      · rw [hnil]
        rfl
      · rw [hcons]
        simp [Anchor.of, hc]
  | doubleRoot =>
      have hchars : chars ⟨.doubleRoot, pieces.map String.ofList⟩ =
          '/' :: '/' :: joinParts (pieces.map String.ofList) := rfl
      rw [hchars, ofChars, filter_slash, filter_slash, hparts]
      rcases hfirst with hnil | ⟨c, rest, hcons, hc⟩
      · rw [hnil]
        rfl
      · rw [hcons]
        simp [Anchor.of, hc]

-- A path is found again in its text.
theorem ofText_text (s : String) : ofText (ofText s).text = ofText s := by
  have hpieces : ∀ piece ∈ (splitSlashes s.toList).filter isPart, IsPiece piece := by
    intro piece hpiece
    obtain ⟨hmem, hpart⟩ := List.mem_filter.mp hpiece
    exact ⟨hpart, slash_not_mem_splitSlashes _ piece hmem⟩
  rw [text, ofText, String.toList_ofList]
  exact ofChars_chars (Anchor.of s.toList) _ hpieces

-- NUL characters

theorem forall_mem_joinParts {P : Char → Prop} (hslash : P '/') (parts : List String) :
    (∀ c ∈ joinParts parts, P c) ↔ ∀ part ∈ parts, ∀ c ∈ part.toList, P c := by
  induction parts with
  | nil => simp [joinParts]
  | cons part parts ih =>
      cases parts with
      | nil => simp [joinParts]
      | cons next parts =>
          change (∀ c ∈ part.toList ++ '/' :: joinParts (next :: parts), P c) ↔ _
          rw [List.forall_mem_append, List.forall_mem_cons, ih,
            List.forall_mem_cons (l := next :: parts)]
          exact and_congr_right fun _ => and_iff_right hslash

-- No NUL is in a path just if none is in its parts.
theorem hasNullByte_eq_false_iff (p : PathName) :
    p.hasNullByte = false ↔ ∀ part ∈ p.parts, ∀ c ∈ part.toList, c.toNat ≠ 0 := by
  have hchars : p.hasNullByte = false ↔ ∀ c ∈ p.chars, c.toNat ≠ 0 := by
    simp [hasNullByte]
  rw [hchars, ← forall_mem_joinParts (by decide)]
  obtain ⟨anchor, parts⟩ := p
  cases anchor <;> cases parts <;> simp [chars, Anchor.chars, joinParts]

@[simp] theorem parent_join (p : PathName) (part : String) : (p.join part).parent = p := by
  simp [parent, join]

theorem hasNullByte_parent {p : PathName} (h : p.hasNullByte = false) :
    p.parent.hasNullByte = false := by
  rw [hasNullByte_eq_false_iff] at h ⊢
  exact fun part hpart => h part ((List.dropLast_sublist _).subset hpart)

theorem hasNullByte_join {p : PathName} {part : String} (h : p.hasNullByte = false)
    (hpart : (part.toList.any fun c => c.toNat == 0) = false) :
    (p.join part).hasNullByte = false := by
  rw [hasNullByte_eq_false_iff] at h ⊢
  intro q hq
  rcases List.mem_append.mp hq with hq | hq
  · exact h q hq
  · rw [List.mem_singleton.mp hq]
    simpa using hpart

theorem hasNullByte_withSuffix {p suffixed : PathName} {suffix : String}
    (h : p.hasNullByte = false) (hsuffix : (suffix.toList.any fun c => c.toNat == 0) = false)
    (hs : p.withSuffix? suffix = some suffixed) : suffixed.hasNullByte = false := by
  obtain ⟨name, hname, rfl⟩ := Option.map_eq_some_iff.mp hs
  refine hasNullByte_join (hasNullByte_parent h) ?_
  have hclean := (hasNullByte_eq_false_iff p).mp h name (List.mem_of_getLast? hname)
  rw [String.toList_append, List.any_append, hsuffix, Bool.or_false]
  simpa using hclean

-- Where the text of a path starts

theorem joinParts_prefix (parts : List String) (last : String) :
    joinParts parts <+: joinParts (parts ++ [last]) := by
  induction parts with
  | nil => exact List.nil_prefix
  | cons part parts ih =>
      cases parts with
      | nil => exact List.prefix_append _ _
      | cons next parts =>
          exact (List.prefix_append_right_inj _).mpr (List.cons_prefix_cons.mpr ⟨rfl, ih⟩)

theorem parent_chars (p : PathName) : p.parent.chars = ['.'] ∨ p.parent.chars <+: p.chars := by
  obtain ⟨anchor, parts⟩ := p
  rcases List.eq_nil_or_concat' parts with rfl | ⟨init, last, rfl⟩
  · exact .inr List.prefix_rfl
  have hprefix := joinParts_prefix init last
  cases init with
  | nil =>
      cases anchor with
      | here => exact .inl rfl
      | root => exact .inr (List.prefix_append _ _)
      | doubleRoot => exact .inr (List.prefix_append _ _)
  | cons part init =>
      have hdrop : (part :: init ++ [last]).dropLast = part :: init := List.dropLast_concat
      simp only [parent, hdrop]
      cases anchor with
      | here => exact .inr hprefix
      | root => exact .inr ((List.prefix_append_right_inj _).mpr hprefix)
      | doubleRoot => exact .inr ((List.prefix_append_right_inj _).mpr hprefix)

end Coffer.PathName
