import Coffer.Wallet.Session
import Coffer.Proofs.Json.Fits

namespace Coffer.Wallet

open Json (Fits IsTree fitsWord)

-- The keys of the records

theorem accountKey_inj {m n : Nat} (h : accountKey (.int m) = accountKey (.int n)) : m = n := by
  have htext := congrArg String.toList h
  have hdigits : Nat.toDigits 10 m = Nat.toDigits 10 n := by
    simpa [accountKey, Value.asText, Value.shown, toString, Int.repr, Nat.repr] using htext
  rw [← Nat.ofDigitChars_ten_toDigits (n := m), hdigits, Nat.ofDigitChars_ten_toDigits]

theorem accountKey_ne_registryKey (v : Value) : accountKey v ≠ registryKey := by
  intro h
  have htext := congrArg String.toList h
  simp [accountKey, accountKeyStem, registryKey] at htext

theorem versionKey_ne_accountKey (v : Value) : versionKey ≠ accountKey v := by
  intro h
  have htext := congrArg String.toList h
  simp [accountKey, accountKeyStem, versionKey] at htext

theorem versionKey_ne_registryKey : versionKey ≠ registryKey := by decide

-- Indexes in the registry

def indexes (is : List Nat) : List Value := is.map fun (i : Nat) => Value.int i

theorem int_beq (m n : Int) : (Value.int m == Value.int n) = (m == n) := by
  change Value.same (.int m) (.int n) = _
  simp [Value.same, Value.ratio?, Value.sameRatio]

theorem indexes_eq (is : List Nat) : indexes is = (is.map Int.ofNat).map Value.int := by simp [indexes]

theorem contains_ints (is : List Int) (i : Int) :
    (is.map Value.int).contains (.int i) = decide (i ∈ is) := by
  induction is with
  | nil => rfl
  | cons j is ih =>
      rw [List.map_cons, List.contains_cons, ih, int_beq, Bool.eq_iff_iff]
      simp

theorem register_ints (is : List Int) (i : Int) :
    Session.register (is.map Value.int) (.int i) =
      (if i ∈ is then is else is ++ [i]).map Value.int := by
  simp only [Session.register, contains_ints, decide_eq_true_eq]
  split
  · rfl
  · simp

theorem filter_ints (is : List Int) (i : Int) :
    (is.map Value.int).filter (fun v => !(v == .int i)) = (is.filter fun j => j ≠ i).map Value.int := by
  induction is with
  | nil => rfl
  | cons j is ih =>
      simp only [List.map_cons, List.filter_cons, int_beq, ih]
      by_cases hj : j = i
      · simp [hj]
      · simp [hj]

theorem contains_indexes (is : List Nat) (i : Nat) :
    (indexes is).contains (.int i) = decide (i ∈ is) := by
  rw [indexes_eq, contains_ints, decide_eq_decide]
  exact List.mem_map_of_injective @Int.ofNat.inj

theorem register_indexes (is : List Nat) (i : Nat) :
    Session.register (indexes is) (.int i) = indexes (if i ∈ is then is else is ++ [i]) := by
  rw [Session.register, contains_indexes]
  by_cases hi : i ∈ is
  · rw [if_pos (decide_eq_true hi), if_pos hi]
  · rw [if_neg (mt of_decide_eq_true hi), if_neg hi]
    rw [indexes, indexes, List.map_append]
    rfl

theorem filter_indexes (is : List Nat) (i : Nat) :
    (indexes is).filter (fun v => !(v == .int i)) = indexes (is.filter fun j => j ≠ i) := by
  have hne : ((fun j : Int => decide (j ≠ i)) ∘ Int.ofNat) = fun j => decide (j ≠ i) := by
    funext j
    exact decide_eq_decide.mpr (not_congr Int.natCast_inj)
  rw [indexes_eq, indexes_eq, filter_ints, List.filter_map, hne]

theorem fits_index {i : Int} (hlow : 0 ≤ i) (hhigh : i ≤ 0xFFFFFFFF) : Fits indexSchema (.int i) := by
  refine .int _ _ ?_ ?_
  · simp only [fitsWord, Bool.and_eq_true, decide_eq_true_eq]
    omega
  · have hlow : ¬i < 0 := by omega
    have hhigh : ¬0xFFFFFFFF < i := by omega
    simp only [Json.checkBounds, hlow, hhigh, if_false]

theorem fits_registry (is : List Nat) (h : ∀ i ∈ is, i ≤ 0xFFFFFFFF) :
    Fits Session.registrySchema (.list (indexes is)) := by
  refine .list _ _ fun v hv => ?_
  obtain ⟨i, hi, rfl⟩ := List.mem_map.mp hv
  have hbound := h i hi
  exact fits_index (by omega) (by omega)

-- Accounts

def IsAddress (v : Value) : Prop :=
  ∃ address keyIndex internal used, fitsWord keyIndex = true ∧
    v = .record addressKind [("address", .text address), ("key_index", .int keyIndex),
      ("internal", .bool internal), ("used", .bool used)]

-- An account whose members have the types they are declared with, under the given index.
structure Account.IsTyped (a : Account) (i : Nat) : Prop where
  index : a.index = .int i
  bound : i ≤ 0xFFFFFFFF
  coinType : ∃ n, a.coinType = .int n ∧ fitsWord n = true
  label : ∃ s, a.label = .text s
  publicAddresses : ∃ items, a.publicAddresses = .list items ∧ ∀ v ∈ items, IsAddress v
  internalAddresses : ∃ items, a.internalAddresses = .list items ∧ ∀ v ∈ items, IsAddress v
  pendingTransactions : ∃ items : List String, a.pendingTransactions = .list (items.map .text)
  incomingTransactions : ∃ members : Entries String Value,
    a.incomingTransactions = Value.ofMembers members ∧ members.keys.Nodup ∧
      ∀ m ∈ members, IsTree m.2

theorem isTyped_ofIndex {i : Nat} (h : i ≤ 0xFFFFFFFF) : (Account.ofIndex (.int i)).IsTyped i :=
  ⟨rfl, h, ⟨defaultCoinType, rfl, by decide⟩, ⟨"", rfl⟩, ⟨[], rfl, by simp⟩, ⟨[], rfl, by simp⟩,
    ⟨[], rfl⟩, ⟨[], rfl, List.nodup_nil, by simp⟩⟩

theorem fits_address (v : Value) (h : IsAddress v) : Fits addressSchema v := by
  obtain ⟨address, keyIndex, internal, used, hindex, rfl⟩ := h
  refine .record _ _ _ rfl (by rintro ⟨⟩) rfl (by simp [Entries.keys]) fun p hp => ?_
  simp only [List.zip_cons_cons, List.zip_nil_right, List.mem_cons, List.not_mem_nil, or_false] at hp
  rcases hp with rfl | rfl | rfl | rfl
  · exact .text _
  · exact .int _ _ hindex rfl
  · exact .bool _
  · exact .bool _

theorem fits_account {a : Account} {i : Nat} (h : a.IsTyped i) : Fits accountSchema a.toValue := by
  obtain ⟨index, coinType, label, publicAddresses, internalAddresses, pending, incoming⟩ := a
  obtain ⟨hindex, hbound, hcoin, hlabel, hpublic, hinternal, hpending, hincoming⟩ := h
  simp only at hindex hcoin hlabel hpublic hinternal hpending hincoming
  obtain ⟨coin, rfl, hword⟩ := hcoin
  obtain ⟨s, rfl⟩ := hlabel
  obtain ⟨publics, rfl, hpublics⟩ := hpublic
  obtain ⟨internals, rfl, hinternals⟩ := hinternal
  obtain ⟨texts, rfl⟩ := hpending
  obtain ⟨members, rfl, hkeys, hmembers⟩ := hincoming
  subst hindex
  refine .record _ _ _ rfl (by rintro ⟨⟩) rfl (by simp [Entries.keys]) fun p hp => ?_
  simp only [List.zip_cons_cons, List.zip_nil_right, List.mem_cons, List.not_mem_nil, or_false] at hp
  rcases hp with rfl | rfl | rfl | rfl | rfl | rfl | rfl
  · exact fits_index (by omega) (by omega)
  · exact .int _ _ hword rfl
  · exact .text _
  · exact .list _ _ fun v hv => fits_address v (hpublics v hv)
  · exact .list _ _ fun v hv => fits_address v (hinternals v hv)
  · refine .list _ _ fun v hv => ?_
    obtain ⟨t, -, rfl⟩ := List.mem_map.mp hv
    exact .text t
  · exact .dict _ members hkeys fun m hm => .any _ (hmembers m hm)

end Coffer.Wallet
