import Coffer.Proofs.Wallet.Account
import Coffer.Proofs.Wallet.Session

namespace Coffer.Wallet.Session

def HasAccount (es : Entries String String) (i : Nat) : Prop := es.get? (accountKey (.int i)) ≠ none

-- The stored registry names no index twice and every index that has a record, and every record
-- is the account it is stored for.
structure Ledger (storage : Storage) (es : Entries String String) (is : List Nat) : Prop where
  registry : stored storage es = .ok (indexes is)
  nodup : is.Nodup
  bound : ∀ i ∈ is, i ≤ 0xFFFFFFFF
  account : ∀ i, HasAccount es i → i ∈ is ∧
    ∃ a : Account, a.IsTyped i ∧
      storage.read es (accountKey (.int i)) accountSchema = .ok a.toValue

-- A cache may leave out of the registry only what has no record.
structure Covers (es : Entries String String) (is cs : List Nat) : Prop where
  sublist : cs.Sublist is
  rest : ∀ i ∈ is, i ∉ cs → ¬HasAccount es i

structure Consistent {σ : Type} [RecordStore σ] (B : Reliable σ) (storage : Storage)
    (s : Session σ) (is : List Nat) : Prop where
  storage : s.storage = storage
  sound : B.sound s.store
  ledger : Ledger s.storage (B.view s.store) is
  cache : s.registry = none ∨
    ∃ cs, s.registry = some (indexes cs) ∧ Covers (B.view s.store) is cs

section Ledger

variable {storage : Storage} {es es' : Entries String String} {is cs : List Nat} {i : Nat}

theorem Covers.refl (es : Entries String String) (is : List Nat) : Covers es is is :=
  ⟨List.Sublist.refl is, fun _ hi hn => absurd hi hn⟩

theorem Covers.congr (h : Covers es is cs) (hes : ∀ i, HasAccount es' i → HasAccount es i) :
    Covers es' is cs :=
  ⟨h.sublist, fun i hi hn ha => h.rest i hi hn (hes i ha)⟩

theorem hasAccount_congr (h : es'.get? (accountKey (.int i)) = es.get? (accountKey (.int i))) :
    HasAccount es' i ↔ HasAccount es i := by
  rw [HasAccount, HasAccount, h]

theorem stored_congr (storage : Storage) (h : es'.get? registryKey = es.get? registryKey) :
    stored storage es' = stored storage es := by
  rw [stored, stored, Storage.read_congr h]

-- Only the registry and the records of accounts matter.
theorem Ledger.congr (h : Ledger storage es is) (hregistry : es'.get? registryKey = es.get? registryKey)
    (haccount : ∀ i : Nat, es'.get? (accountKey (.int i)) = es.get? (accountKey (.int i))) :
    Ledger storage es' is := by
  refine ⟨(stored_congr storage hregistry).trans h.registry, h.nodup, h.bound, fun i hi => ?_⟩
  obtain ⟨hmem, a, ha, hread⟩ := h.account i ((hasAccount_congr (haccount i)).mp hi)
  exact ⟨hmem, a, ha, (Storage.read_congr (haccount i)).trans hread⟩

theorem ledger_empty (storage : Storage) : Ledger storage [] [] := by
  refine ⟨?_, List.nodup_nil, by simp, fun i hi => absurd rfl hi⟩
  rw [stored, Storage.read_of_absent rfl]
  rfl

-- The registry with one more index, and without one

def added (cs : List Nat) (i : Nat) : List Nat := if i ∈ cs then cs else cs ++ [i]

theorem mem_added (cs : List Nat) (i j : Nat) : j ∈ added cs i ↔ j ∈ cs ∨ j = i := by
  unfold added
  split
  · constructor
    · exact .inl
    · rintro (hj | rfl)
      · exact hj
      · assumption
  · simp

theorem nodup_added (cs : List Nat) (i : Nat) (h : cs.Nodup) : (added cs i).Nodup := by
  unfold added
  split
  · exact h
  · rw [List.nodup_append]
    refine ⟨h, List.nodup_singleton i, fun j hj k hk => ?_⟩
    rw [List.mem_singleton.mp hk]
    rintro rfl
    contradiction

theorem stored_of_protected (is : List Nat) (hbound : ∀ i ∈ is, i ≤ 0xFFFFFFFF) {sealedText text : String}
    (hget : es.get? registryKey = some sealedText)
    (henc : Storage.encode registryKey (.list (indexes is)) = .ok text)
    (hreveal : storage.reveal registryKey sealedText = .ok text) :
    stored storage es = .ok (indexes is) := by
  rw [stored, Storage.read_of_protected hget hreveal henc (fits_registry is hbound)]
  rfl

theorem Protects.singleton {key : String} {v : Value} {batch : Entries String String}
    (h : storage.Protects [(key, v)] batch) :
    ∃ sealedText text, batch = [(key, sealedText)] ∧ Storage.encode key v = .ok text ∧
      storage.reveal key sealedText = .ok text := by
  cases h with
  | @cons _ b _ _ hb hrest =>
      cases hrest
      obtain ⟨hkey, text, henc, hreveal⟩ := hb
      obtain ⟨k, t⟩ := b
      obtain rfl : k = key := hkey
      exact ⟨t, text, rfl, henc, hreveal⟩

theorem Protects.cons {key : String} {v : Value} {records : Entries String Value}
    {batch : Entries String String} (h : storage.Protects ((key, v) :: records) batch) :
    ∃ sealedText text rest, batch = (key, sealedText) :: rest ∧
      Storage.encode key v = .ok text ∧ storage.reveal key sealedText = .ok text ∧
      storage.Protects records rest := by
  cases h with
  | @cons _ b _ rest hb hrest =>
      obtain ⟨hkey, text, henc, hreveal⟩ := hb
      obtain ⟨k, t⟩ := b
      obtain rfl : k = key := hkey
      exact ⟨t, text, rest, rfl, henc, hreveal, hrest⟩

theorem bound_added {cs : List Nat} {i : Nat} (hbound : ∀ j ∈ cs, j ≤ 0xFFFFFFFF) (hi : i ≤ 0xFFFFFFFF) :
    ∀ j ∈ added cs i, j ≤ 0xFFFFFFFF := by
  intro j hj
  rcases (mem_added cs i j).mp hj with hj | rfl
  · exact hbound j hj
  · exact hi

-- What a save leaves in the store: the registry that it went by with the index in it, the record,
-- and all the other accounts.
theorem of_saved (es : Entries String String) {batch : Entries String String} {a : Account}
    (hbound : ∀ j ∈ cs, j ≤ 0xFFFFFFFF) (hi : i ≤ 0xFFFFFFFF) (hindex : a.index = .int i)
    (hbatch : storage.Protects (saved (indexes cs) a) batch) :
    stored storage (es.putAll batch) = .ok (indexes (added cs i)) ∧
    (∀ j, j ≠ i →
      (es.putAll batch).get? (accountKey (.int j)) = es.get? (accountKey (.int j))) ∧
    ∃ sealedText text, (es.putAll batch).get? (accountKey (.int i)) = some sealedText ∧
      Storage.encode (accountKey (.int i)) a.toValue = .ok text ∧
      storage.reveal (accountKey (.int i)) sealedText = .ok text := by
  rw [Session.saved, hindex, register_indexes] at hbatch
  obtain ⟨sealed₁, text₁, rest, rfl, henc₁, hreveal₁, hrest⟩ := Protects.cons hbatch
  obtain ⟨sealed₂, text₂, rfl, henc₂, hreveal₂⟩ := Protects.singleton hrest
  have hget (key : String) :
      (es.putAll [(registryKey, sealed₁), (accountKey (.int i), sealed₂)]).get? key =
        if accountKey (.int i) == key then some sealed₂
        else if registryKey == key then some sealed₁ else es.get? key := by
    simp only [Entries.putAll_cons, Entries.putAll_nil, Entries.get?_put]
  have hregistry := hget registryKey
  simp only [beq_self_eq_true, if_true, beq_iff_eq, accountKey_ne_registryKey, if_false] at hregistry
  have hself := hget (accountKey (.int i))
  simp only [beq_self_eq_true, if_true] at hself
  refine ⟨stored_of_protected _ (bound_added hbound hi) hregistry henc₁ hreveal₁, fun j hj => ?_,
    sealed₂, text₂, hself, henc₂, hreveal₂⟩
  have hne : ¬accountKey (.int i) = accountKey (.int j) := fun h => hj (accountKey_inj h).symm
  have hne' : ¬registryKey = accountKey (.int j) := (accountKey_ne_registryKey _).symm
  rw [hget]
  simp only [beq_iff_eq, hne, hne', if_false]

theorem hasAccount_saved {es' : Entries String String} {sealedText : String}
    (hother : ∀ j : Nat, j ≠ i → es'.get? (accountKey (.int j)) = es.get? (accountKey (.int j)))
    (hself : es'.get? (accountKey (.int i)) = some sealedText) (j : Nat) :
    HasAccount es' j ↔ HasAccount es j ∨ j = i := by
  by_cases hj : j = i
  · subst hj
    rw [HasAccount, hself]
    simp
  · rw [hasAccount_congr (hother j hj)]
    simp [hj]

theorem Ledger.saved {batch : Entries String String} {a : Account} (h : Ledger storage es is)
    (hc : Covers es is cs) (ha : a.IsTyped i)
    (hbatch : storage.Protects (saved (indexes cs) a) batch) :
    Ledger storage (es.putAll batch) (added cs i) ∧
      ∀ j, HasAccount (es.putAll batch) j ↔ HasAccount es j ∨ j = i := by
  have hbound : ∀ j ∈ cs, j ≤ 0xFFFFFFFF := fun j hj => h.bound j (hc.sublist.subset hj)
  obtain ⟨hstored, hother, sealedText, text, hself, henc, hreveal⟩ :=
    of_saved es hbound ha.bound ha.index hbatch
  have hhas := hasAccount_saved hother hself
  refine ⟨⟨hstored, nodup_added cs i (hc.sublist.nodup h.nodup), bound_added hbound ha.bound,
    fun j hj => ?_⟩, hhas⟩
  by_cases hji : j = i
  · subst hji
    exact ⟨(mem_added cs j j).mpr (.inr rfl), a, ha,
      Storage.read_of_protected hself hreveal henc (fits_account ha)⟩
  · have hold : HasAccount es j := ((hhas j).mp hj).resolve_right hji
    obtain ⟨hmem, b, hb, hread⟩ := h.account j hold
    have hcs : j ∈ cs := by
      by_contra hn
      exact hc.rest j hmem hn hold
    exact ⟨(mem_added cs i j).mpr (.inl hcs), b, hb,
      (Storage.read_congr (hother j hji)).trans hread⟩

-- What the removal of a record leaves, and what the registry written after it does.

theorem of_erased (storage : Storage) (es : Entries String String) (i : Nat) :
    stored storage (es.erase (accountKey (.int i))) = stored storage es ∧
    (∀ j, j ≠ i →
      (es.erase (accountKey (.int i))).get? (accountKey (.int j)) = es.get? (accountKey (.int j))) ∧
    ∀ j, HasAccount (es.erase (accountKey (.int i))) j ↔ HasAccount es j ∧ j ≠ i := by
  have hother (j : Nat) (hj : j ≠ i) :
      (es.erase (accountKey (.int i))).get? (accountKey (.int j)) = es.get? (accountKey (.int j)) := by
    have hne : ¬accountKey (.int i) = accountKey (.int j) := fun h => hj (accountKey_inj h).symm
    rw [Entries.get?_erase]
    simp [hne]
  refine ⟨stored_congr storage ?_, hother, fun j => ?_⟩
  · rw [Entries.get?_erase]
    simp [accountKey_ne_registryKey]
  · by_cases hj : j = i
    · subst hj
      simp [HasAccount, Entries.get?_erase]
    · simp [HasAccount, hother j hj, hj]

theorem Ledger.erased (h : Ledger storage es is) (i : Nat) :
    Ledger storage (es.erase (accountKey (.int i))) is := by
  obtain ⟨hstored, hother, hhas⟩ := of_erased storage es i
  refine ⟨hstored.trans h.registry, h.nodup, h.bound, fun j hj => ?_⟩
  obtain ⟨hold, hji⟩ := (hhas j).mp hj
  obtain ⟨hmem, b, hb, hread⟩ := h.account j hold
  exact ⟨hmem, b, hb, (Storage.read_congr (hother j hji)).trans hread⟩

theorem of_rewritten (es : Entries String String) {batch : Entries String String}
    (hbound : ∀ j ∈ cs, j ≤ 0xFFFFFFFF)
    (hbatch : storage.Protects [(registryKey, .list (indexes cs))] batch) :
    stored storage (es.putAll batch) = .ok (indexes cs) ∧
    ∀ j : Nat, (es.putAll batch).get? (accountKey (.int j)) = es.get? (accountKey (.int j)) := by
  obtain ⟨sealedText, text, rfl, henc, hreveal⟩ := Protects.singleton hbatch
  refine ⟨stored_of_protected cs hbound ?_ henc hreveal, fun j => ?_⟩
  · simp [Entries.get?_put]
  · have hne : ¬registryKey = accountKey (.int j) := (accountKey_ne_registryKey _).symm
    simp [Entries.get?_put, hne]

theorem Ledger.rewritten {batch : Entries String String} (h : Ledger storage es is)
    (hc : Covers es is cs) (hbatch : storage.Protects [(registryKey, .list (indexes cs))] batch) :
    Ledger storage (es.putAll batch) cs ∧
      ∀ j, HasAccount (es.putAll batch) j ↔ HasAccount es j := by
  have hbound : ∀ j ∈ cs, j ≤ 0xFFFFFFFF := fun j hj => h.bound j (hc.sublist.subset hj)
  obtain ⟨hstored, hother⟩ := of_rewritten es hbound hbatch
  have hhas (j : Nat) : HasAccount (es.putAll batch) j ↔ HasAccount es j :=
    hasAccount_congr (hother j)
  refine ⟨⟨hstored, hc.sublist.nodup h.nodup, hbound, fun j hj => ?_⟩, hhas⟩
  have hold := (hhas j).mp hj
  obtain ⟨hmem, b, hb, hread⟩ := h.account j hold
  have hcs : j ∈ cs := by
    by_contra hn
    exact hc.rest j hmem hn hold
  exact ⟨hcs, b, hb, (Storage.read_congr (hother j)).trans hread⟩

end Ledger

section Session

variable {σ : Type} [RecordStore σ] {B : Reliable σ} {storage : Storage} {s : Session σ}
  {is : List Nat}

theorem known_of_consistent (hs : Consistent B storage s is) :
    ∃ cs, known B s = .ok (indexes cs) ∧ Covers (B.view s.store) is cs := by
  unfold known
  rcases hs.cache with hnone | ⟨cs, hsome, hc⟩
  · rw [hnone]
    exact ⟨is, hs.ledger.registry, Covers.refl _ is⟩
  · rw [hsome]
    exact ⟨cs, rfl, hc⟩

theorem Consistent.loaded {cs : List Nat} (hs : Consistent B storage s is)
    (hc : Covers (B.view s.store) is cs) :
    Consistent B storage { s with registry := some (indexes cs) } is :=
  ⟨hs.storage, hs.sound, hs.ledger, .inr ⟨cs, rfl, hc⟩⟩

theorem Consistent.withStore (hs : Consistent B storage s is) {t : σ} (ht : B.sound t)
    (hview : B.view t = B.view s.store) : Consistent B storage { s with store := t } is := by
  refine ⟨hs.storage, ht, ?_, ?_⟩
  · rw [hview]
    exact hs.ledger
  · rw [hview]
    exact hs.cache

-- Indexes of the registry without a record

def Gap (es : Entries String String) (is : List Nat) (i : Nat) : Prop := i ∈ is ∧ ¬HasAccount es i

-- No save makes a gap.
theorem saveAccount_consistent (hlate : ∀ st e, ¬B.late st e) (hs : Consistent B storage s is) {a : Account}
    {i : Nat} (ha : a.IsTyped i) :
    ∃ is', Consistent B storage (saveAccount a s).2 is' ∧
      ∀ j, Gap (B.view (saveAccount a s).2.store) is' j → Gap (B.view s.store) is j := by
  obtain ⟨cs, hknown, hc⟩ := known_of_consistent hs
  obtain ⟨r, t, hsave, t₁, hwrites, rfl⟩ := saveAccount_cases hs.sound a hknown
  rw [hsave]
  cases hwrites with
  | refused e t ht hview he =>
      refine ⟨is, (hs.loaded hc).withStore ht hview, fun j hj => ?_⟩
      simp only [hview] at hj
      exact hj
  | made batch t ht hbatch hview =>
      obtain ⟨hledger, hhas⟩ := hs.ledger.saved hc ha hbatch
      simp only at hview
      rw [← hview] at hledger hhas
      refine ⟨added cs i, ⟨hs.storage, ht, hledger, .inr ⟨added cs i, ?_, Covers.refl _ _⟩⟩, fun j hj => ?_⟩
      · simp only [ha.index, register_indexes]
        rfl
      · obtain ⟨hmem, hgap⟩ := hj
        have hnot : ¬HasAccount (B.view s.store) j ∧ j ≠ i := by
          simpa [hhas] using hgap
        have hcs : j ∈ cs := ((mem_added cs i j).mp hmem).resolve_right hnot.2
        exact ⟨hc.sublist.subset hcs, hnot.1⟩
  | reported e batch t ht hbatch hview he => exact absurd he (hlate _ _)

-- A removal makes a gap only if it fails at the registry.
theorem removeAccount_consistent (hlate : ∀ st e, ¬B.late st e) (hs : Consistent B storage s is) (i : Nat) :
    ∃ is', Consistent B storage (removeAccount (.int i) s).2 is' ∧
      ∀ j, Gap (B.view (removeAccount (.int i) s).2.store) is' j →
        Gap (B.view s.store) is j ∨ (j = i ∧ FailsAtRegistry s (.int i)) := by
  obtain ⟨cs, hknown, hc⟩ := known_of_consistent hs
  obtain ⟨t, ht, ⟨e, hdrop, hview⟩ | ⟨hdrop, hview⟩⟩ := dropRecord_cases hs.sound (.int i) hknown
  · have hview := hview.resolve_right fun h => hlate _ _ h.1
    rw [removeAccount_eq, Action.bind_of_error hdrop]
    refine ⟨is, (hs.loaded hc).withStore ht hview, fun j hj => .inl ?_⟩
    simp only [hview] at hj
    exact hj
  · rw [filter_indexes] at hdrop
    have hledger := hs.ledger.erased i
    have hhas := (of_erased s.storage (B.view s.store) i).2.2
    rw [← hview] at hledger hhas
    have hc₁ : Covers (B.view t) is (cs.filter fun j => j ≠ i) := by
      refine ⟨List.filter_sublist.trans hc.sublist, fun j hj hn hhasj => ?_⟩
      obtain ⟨hold, hji⟩ := (hhas j).mp hhasj
      exact hc.rest j hj (fun hcs => hn (List.mem_filter.mpr ⟨hcs, by simpa using hji⟩)) hold
    let s₁ : Session σ :=
      { s with registry := some (indexes (cs.filter fun j => j ≠ i)), store := t }
    have hs₁ : Consistent B storage s₁ is :=
      ⟨hs.storage, ht, hledger, .inr ⟨_, rfl, hc₁⟩⟩
    obtain ⟨r, t₂, hset, hwrites⟩ := set_writes (s := s₁) ht registryKey
      (.list (indexes (cs.filter fun j => j ≠ i)))
    rw [removeAccount_eq, Action.bind_of_ok hdrop]
    have hwrite : writeRegistry (indexes (cs.filter fun j => j ≠ i)) s₁ = (r, t₂) := hset
    rw [hwrite]
    cases hwrites with
    | refused e t₂ ht₂ hview₂ he =>
        refine ⟨is, hs₁.withStore ht₂ hview₂, fun j hj => ?_⟩
        obtain ⟨hmem, hgap⟩ := hj
        simp only [hview₂] at hgap
        by_cases hji : j = i
        · exact .inr ⟨hji, _, _, _, _, hdrop, hwrite⟩
        · exact .inl ⟨hmem, fun h => hgap ((hhas j).mpr ⟨h, hji⟩)⟩
    | made batch t₂ ht₂ hbatch hview₂ =>
        obtain ⟨hledger₂, hhas₂⟩ := hledger.rewritten hc₁ hbatch
        have hview₂ : B.view t₂ = (B.view t).putAll batch := hview₂
        rw [← hview₂] at hledger₂ hhas₂
        refine ⟨_, ⟨hs.storage, ht₂, hledger₂, .inr ⟨_, rfl, Covers.refl _ _⟩⟩, fun j hj => .inl ?_⟩
        obtain ⟨hmem, hgap⟩ := hj
        obtain ⟨hcs, hji⟩ := List.mem_filter.mp hmem
        refine ⟨hc.sublist.subset hcs, fun h => hgap ?_⟩
        exact (hhas₂ j).mpr ((hhas j).mpr ⟨h, by simpa using hji⟩)
    | reported e batch t₂ ht₂ hbatch hview₂ he => exact absurd he (hlate _ _)

-- Looking at the registry or at accounts changes nothing but the cache.
theorem loadRegistry_consistent (hs : Consistent B storage s is) :
    Consistent B storage (loadRegistry s).2 is ∧ (loadRegistry s).2.store = s.store := by
  obtain ⟨cs, hknown, hc⟩ := known_of_consistent hs
  rw [loadRegistry_of_known hs.sound hknown]
  exact ⟨hs.loaded hc, rfl⟩

theorem getAccounts_consistent (hs : Consistent B storage s is) :
    Consistent B storage (getAccounts s).2 is ∧ (getAccounts s).2.store = s.store := by
  obtain ⟨cs, hknown, hc⟩ := known_of_consistent hs
  rw [getAccounts_of_known hs.sound hknown]
  exact ⟨hs.loaded hc, rfl⟩

theorem getAccount_consistent (hs : Consistent B storage s is) (index : Value) :
    (getAccount index s).2 = s := by
  rw [getAccount_eq hs.sound]

end Session

end Coffer.Wallet.Session
