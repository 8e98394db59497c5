import Coffer.Proofs.Store.Plain
import Coffer.Proofs.Wallet.Builder
import Coffer.Proofs.Wallet.Order

-- What the records of a wallet say: an ordered map of accounts, and a configuration with a secret
-- manager.

namespace Coffer.Wallet.Session

open Json (Fits)

-- The keys of accounts, under any integer

theorem accountKey_injective {m n : Int} (h : accountKey (.int m) = accountKey (.int n)) : m = n := by
  have htext := congrArg String.toList h
  cases m with
  | ofNat m =>
      cases n with
      | ofNat n => exact congrArg Int.ofNat (accountKey_inj h)
      | negSucc n =>
          have hdigits : Nat.toDigits 10 m = '-' :: Nat.toDigits 10 (n + 1) := by
            simpa [accountKey, Value.asText, Value.shown, toString, Int.repr, Nat.repr] using htext
          have hdigit : '-'.isDigit := Json.isDigit_of_mem_digitsOf m '-' (by
            rw [Double.digitsOf, hdigits]
            exact List.mem_cons_self)
          exact absurd hdigit (by decide)
  | negSucc m =>
      cases n with
      | ofNat n =>
          have hdigits : '-' :: Nat.toDigits 10 (m + 1) = Nat.toDigits 10 n := by
            simpa [accountKey, Value.asText, Value.shown, toString, Int.repr, Nat.repr] using htext
          have hdigit : '-'.isDigit := Json.isDigit_of_mem_digitsOf n '-' (by
            rw [Double.digitsOf, ← hdigits]
            exact List.mem_cons_self)
          exact absurd hdigit (by decide)
      | negSucc n =>
          have hdigits : Nat.toDigits 10 (m + 1) = Nat.toDigits 10 (n + 1) := by
            simpa [accountKey, Value.asText, Value.shown, toString, Int.repr, Nat.repr] using htext
          have hsucc : m + 1 = n + 1 := by
            rw [← Nat.ofDigitChars_ten_toDigits (n := m + 1), hdigits, Nat.ofDigitChars_ten_toDigits]
          rw [Nat.succ.inj hsucc]

-- The registry of a map of accounts

def registryOf (m : Entries Int Account) : List Value := m.keys.map Value.int

section Registry

variable (m : Entries Int Account) (i : Int)

theorem register_registryOf (a : Account) :
    register (registryOf m) (.int i) = registryOf (m.put i a) := by
  rw [registryOf, registryOf, register_ints]
  by_cases hi : i ∈ m.keys
  · rw [if_pos hi, Entries.keys_put_of_mem m i a hi]
  · rw [if_neg hi, Entries.put_of_not_mem m i a hi]
    simp [Entries.keys]

theorem filter_registryOf :
    (registryOf m).filter (fun v => !(v == .int i)) = registryOf (m.erase i) := by
  have hkeys : (m.erase i).keys = m.keys.filter fun j => j ≠ i := by
    rw [Entries.keys, Entries.keys, Entries.erase, List.filter_map]
    congr 1
    refine List.filter_congr fun e _ => ?_
    rw [Bool.eq_iff_iff]
    simp
  rw [registryOf, registryOf, filter_ints, hkeys]

end Registry

-- Every index of a registry is one.
def InRange (m : Entries Int Account) : Prop := ∀ i ∈ m.keys, 0 ≤ i ∧ i ≤ 0xFFFFFFFF

theorem InRange.put {m : Entries Int Account} (h : InRange m) {i : Int} (hi : 0 ≤ i ∧ i ≤ 0xFFFFFFFF)
    (a : Account) : InRange (m.put i a) := by
  intro j hj
  rcases (Entries.mem_keys_put m i j a).mp hj with hj | rfl
  · exact h j hj
  · exact hi

theorem InRange.erase {m : Entries Int Account} (h : InRange m) (i : Int) : InRange (m.erase i) := by
  intro j hj
  obtain ⟨e, he, rfl⟩ := List.mem_map.mp hj
  exact h _ (List.mem_map_of_mem (List.mem_of_mem_filter he))

theorem fits_registryOf {m : Entries Int Account} (h : InRange m) :
    Fits registrySchema (.list (registryOf m)) := by
  refine .list _ _ fun v hv => ?_
  obtain ⟨i, hi, rfl⟩ := List.mem_map.mp hv
  exact fits_index (h i hi).1 (h i hi).2

theorem encode_int (n : Int) : ∃ text, Json.encode (.int n) = .ok text :=
  ⟨_, by rw [Json.encode, Json.valueChars]; rfl⟩

theorem encode_ints {is : List Int} (h : Fits registrySchema (.list (is.map Value.int))) :
    ∃ text, Json.encode (.list (is.map Value.int)) = .ok text := by
  have hflat (is : List Int) : Json.itemsNesting (is.map Value.int) = 0 := by
    induction is with
    | nil => rfl
    | cons i is ih => simp [Json.itemsNesting, Json.nesting, ih]
  refine Json.encode_ok h ?_
  rw [Json.nesting, hflat]
  decide

theorem encode_registryOf {m : Entries Int Account} (h : InRange m) :
    ∃ text, Json.encode (.list (registryOf m)) = .ok text :=
  encode_ints (fits_registryOf h)

theorem encode_indexes {is : List Nat} (h : ∀ i ∈ is, i ≤ 0xFFFFFFFF) :
    ∃ text, Json.encode (.list (indexes is)) = .ok text := by
  have hfits := fits_registry is h
  rw [indexes_eq] at hfits ⊢
  exact encode_ints hfits

-- Accounts and configurations as they are handed in: of the declared types, and not nested too deep
-- to be written.

structure TypedAccount where
  index : Nat
  account : Account
  typed : account.IsTyped index
  shallow : Json.nesting account.toValue ≤ Json.maxEncodeDepth

-- An account with nothing but its index.
def TypedAccount.ofIndex (i : Nat) (h : i ≤ 0xFFFFFFFF) : TypedAccount where
  index := i
  account := .ofIndex (.int i)
  typed := isTyped_ofIndex h
  shallow := by
    have htwo : Json.nesting (Account.ofIndex (.int i)).toValue = 2 := rfl
    rw [htwo]
    decide

structure TypedBuilder where
  builder : Builder
  typed : builder.IsTyped
  shallow : Json.nesting builder.toRecord ≤ Json.maxEncodeDepth

theorem TypedAccount.range (a : TypedAccount) : 0 ≤ (a.index : Int) ∧ (a.index : Int) ≤ 0xFFFFFFFF := by
  have hbound := a.typed.bound
  omega

theorem TypedAccount.encode_ok (a : TypedAccount) : ∃ text, Json.encode a.account.toValue = .ok text :=
  Json.encode_ok (fits_account a.typed) a.shallow

-- An account under an index of the range that can be written, whatever its fields hold.
structure SavableAccount where
  index : Nat
  account : Account
  named : account.index = .int index
  bound : index ≤ 0xFFFFFFFF
  encodes : ∃ text, Json.encode account.toValue = .ok text

def TypedAccount.savable (a : TypedAccount) : SavableAccount :=
  ⟨a.index, a.account, a.typed.index, a.typed.bound, a.encode_ok⟩

theorem TypedBuilder.encode_ok (b : TypedBuilder) : ∃ text, Json.encode b.builder.toRecord = .ok text :=
  Json.encode_ok (fits_builder b.typed) b.shallow

-- What the records of a wallet say

-- The accounts of the map have their records, and there are no others.
structure HasAccounts (storage : Storage) (es : Entries String String) (m : Entries Int Account) :
    Prop where
  account : ∀ i a, m.get? i = some a → ∃ text, Json.encode a.toValue = .ok text ∧
    storage.read es (accountKey (.int i)) accountSchema =
      Storage.decode (accountKey (.int i)) accountSchema text
  absent : ∀ i, m.get? i = none → es.get? (accountKey (.int i)) = none

-- The registry names the accounts of the map in their order, and all of them are typed.
structure Lists (storage : Storage) (es : Entries String String) (m : Entries Int Account) : Prop where
  nodup : m.keys.Nodup
  range : InRange m
  registry : stored storage es = .ok (registryOf m)
  accounts : HasAccounts storage es m
  typed : ∀ i a, m.get? i = some a → a.IsTyped i.toNat

-- The configuration and the snapshot are there, or their keys are absent.
structure Configures (storage : Storage) (es : Entries String String) (b? : Option Builder)
    (m? : Option SecretManager) : Prop where
  builder : ∀ b, b? = some b → storage.read es builderKey builderSchema = .ok b.toRecord
  unconfigured : b? = none → es.get? builderKey = none
  manager : ∀ m, m? = some m → m.IsTyped ∧ Policy.shouldPersist m.snapshot = .ok true ∧
    storage.read es snapshotKey snapshotSchema = .ok m.snapshot.toValue
  unmanaged : m? = none → es.get? snapshotKey = none

section Records

variable {storage : Storage} {es es' : Entries String String} {m : Entries Int Account}
  {b? : Option Builder} {m? : Option SecretManager}

theorem HasAccounts.congr (h : HasAccounts storage es m)
    (haccount : ∀ i : Int, es'.get? (accountKey (.int i)) = es.get? (accountKey (.int i))) :
    HasAccounts storage es' m := by
  refine ⟨fun i a hi => ?_, fun i hi => (haccount i).trans (h.absent i hi)⟩
  rw [Storage.read_congr (haccount i)]
  exact h.account i a hi

-- The record of a typed account is read as the account.
theorem HasAccounts.read_typed (h : HasAccounts storage es m) {i : Nat} {a : Account}
    (ha : m.get? (i : Int) = some a) (htyped : a.IsTyped i) :
    storage.read es (accountKey (.int i)) accountSchema = .ok a.toValue := by
  obtain ⟨text, henc, hread⟩ := h.account i a ha
  rw [hread, Storage.decode_of_fits (fits_account htyped) henc]

theorem Lists.read_eq (h : Lists storage es m) (i : Int) :
    storage.read es (accountKey (.int i)) accountSchema =
      (m.get? i).elim (.error (.notFound (accountKey (.int i)))) fun a => .ok a.toValue := by
  cases hi : m.get? i with
  | none => exact Storage.read_of_absent (h.accounts.absent i hi)
  | some a =>
      have hmem : i ∈ m.keys := (Entries.get?_isSome_iff m i).mp (by rw [hi]; rfl)
      have hnat : ((i.toNat : Nat) : Int) = i := Int.toNat_of_nonneg (h.range i hmem).1
      have htyped := h.typed i a hi
      rw [← hnat] at hi ⊢
      exact h.accounts.read_typed hi htyped

theorem Lists.congr (h : Lists storage es m) (hregistry : es'.get? registryKey = es.get? registryKey)
    (haccount : ∀ i : Int, es'.get? (accountKey (.int i)) = es.get? (accountKey (.int i))) :
    Lists storage es' m :=
  ⟨h.nodup, h.range, (stored_congr storage hregistry).trans h.registry, h.accounts.congr haccount,
    h.typed⟩

theorem Configures.congr (h : Configures storage es b? m?)
    (hbuilder : es'.get? builderKey = es.get? builderKey)
    (hsnapshot : es'.get? snapshotKey = es.get? snapshotKey) : Configures storage es' b? m? := by
  refine ⟨fun b hb => ?_, fun hb => hbuilder.trans (h.unconfigured hb), fun m hm => ?_,
    fun hm => hsnapshot.trans (h.unmanaged hm)⟩
  · rw [Storage.read_congr hbuilder]
    exact h.builder b hb
  · rw [Storage.read_congr hsnapshot]
    exact h.manager m hm

theorem stored_of_read {is : List Value} (h : storage.read es registryKey registrySchema = .ok (.list is)) :
    stored storage es = .ok is := by
  rw [stored, h]
  rfl

-- The accounts after one is saved.

theorem HasAccounts.saved (h : HasAccounts storage es m) (a : SavableAccount) {is : List Value}
    (hw : storage.Wrote (saved is a.account) es es') : HasAccounts storage es' (m.put a.index a.account) := by
  rw [Session.saved, a.named] at hw
  have hself := hw.texts _ (List.mem_cons_of_mem _ List.mem_cons_self)
  have hother (i : Int) (hi : i ≠ a.index) :
      es'.get? (accountKey (.int i)) = es.get? (accountKey (.int i)) := by
    have hne : accountKey (.int i) ≠ accountKey (.int a.index) := fun hk => hi (accountKey_injective hk)
    exact hw.others _ (by simp [Entries.keys, hne, accountKey_ne_registryKey])
  refine ⟨fun i b hi => ?_, fun i hi => ?_⟩
  · rw [Entries.get?_put] at hi
    by_cases hself' : i = a.index
    · subst hself'
      obtain rfl : a.account = b := by simpa using hi
      obtain ⟨text, henc, hread⟩ := hself
      exact ⟨text, henc, hread accountSchema⟩
    · have hne : ¬(a.index : Int) = i := fun hk => hself' hk.symm
      rw [Storage.read_congr (hother i hself')]
      exact h.account i b (by simpa [hne] using hi)
  · rw [Entries.get?_put] at hi
    have hne : ¬(a.index : Int) = i := by
      intro hk
      simp [hk] at hi
    rw [hother i fun hk => hne hk.symm]
    exact h.absent i (by simpa [hne] using hi)

theorem Lists.saved (h : Lists storage es m) (a : TypedAccount)
    (hw : storage.Wrote (saved (registryOf m) a.account) es es') :
    Lists storage es' (m.put a.index a.account) := by
  have hrange : InRange (m.put a.index a.account) := h.range.put a.range a.account
  have haccounts := h.accounts.saved a.savable hw
  rw [Session.saved, a.typed.index, register_registryOf m _ a.account] at hw
  have hregistry := hw.reads _ List.mem_cons_self registrySchema (fits_registryOf hrange)
  refine ⟨Entries.nodup_put m _ _ h.nodup, hrange, stored_of_read hregistry, haccounts,
    fun i b hi => ?_⟩
  rw [Entries.get?_put] at hi
  by_cases hself : (a.index : Int) = i
  · obtain rfl : a.account = b := by simpa [hself] using hi
    rw [← hself]
    exact a.typed
  · exact h.typed i b (by simpa [hself] using hi)

-- The accounts after the record of one is removed and the registry is written without it.
theorem Lists.removed (h : Lists storage es m) (i : Int)
    (hw : storage.Wrote [(registryKey, .list (registryOf (m.erase i)))] (es.erase (accountKey (.int i)))
      es') : Lists storage es' (m.erase i) := by
  have hrange : InRange (m.erase i) := h.range.erase i
  have hregistry := hw.reads _ List.mem_cons_self registrySchema (fits_registryOf hrange)
  have hget (j : Int) : es'.get? (accountKey (.int j)) =
      if j = i then none else es.get? (accountKey (.int j)) := by
    rw [hw.others _ (by simp [Entries.keys, accountKey_ne_registryKey]), Entries.get?_erase]
    by_cases hj : j = i
    · simp [hj]
    · have hne : ¬accountKey (.int i) = accountKey (.int j) := fun hk => hj (accountKey_injective hk).symm
      simp [hj, hne]
  have hne {j : Int} {a : Account} (hj : (m.erase i).get? j = some a) : j ≠ i := by
    rintro rfl
    simp [Entries.get?_erase] at hj
  have hold {j : Int} {a : Account} (hj : (m.erase i).get? j = some a) : m.get? j = some a := by
    have hji := hne hj
    simpa [Entries.get?_erase, hji.symm] using hj
  refine ⟨Entries.nodup_erase m i h.nodup, hrange, stored_of_read hregistry,
    ⟨fun j a hj => ?_, fun j hj => ?_⟩, fun j a hj => h.typed j a (hold hj)⟩
  · have hsame := hget j
    rw [if_neg (hne hj)] at hsame
    rw [Storage.read_congr hsame]
    exact h.accounts.account j a (hold hj)
  · rw [hget]
    split
    · rfl
    · rename_i hne
      rw [Entries.get?_erase] at hj
      exact h.accounts.absent j (by simpa [Ne.symm hne] using hj)

-- The configuration after it is saved, with no manager or with one that may be stored or not.

theorem Configures.saved (h : Configures storage es b? m?) (b : TypedBuilder)
    (hw : storage.Wrote [(builderKey, b.builder.toRecord)] es es') :
    Configures storage es' (some b.builder) m? := by
  have hbuilder := hw.reads _ List.mem_cons_self builderSchema (fits_builder b.typed)
  have hsnapshot : es'.get? snapshotKey = es.get? snapshotKey :=
    hw.others _ (by simp [Entries.keys, builderKey, snapshotKey])
  refine ⟨fun c hc => ?_, by simp, fun m hm => ?_, fun hm => hsnapshot.trans (h.unmanaged hm)⟩
  · rw [← Option.some.inj hc]
    exact hbuilder
  · rw [Storage.read_congr hsnapshot]
    exact h.manager m hm

theorem configures_savedWith (b : TypedBuilder) {m : SecretManager} (hm : m.IsTyped)
    (hpersists : Policy.shouldPersist m.snapshot = .ok true)
    (hw : storage.Wrote [(builderKey, b.builder.toRecord), (snapshotKey, m.snapshot.toValue)] es es') :
    Configures storage es' (some b.builder) (some m) := by
  have hbuilder := hw.reads _ List.mem_cons_self builderSchema (fits_builder b.typed)
  have hsnapshot := hw.reads _ (List.mem_cons_of_mem _ List.mem_cons_self) snapshotSchema
    (fits_snapshot hm)
  refine ⟨fun c hc => ?_, by simp, fun m' hm' => ?_, by simp⟩
  · rw [← Option.some.inj hc]
    exact hbuilder
  · rw [← Option.some.inj hm']
    exact ⟨hm, hpersists, hsnapshot⟩

theorem Configures.dropped (h : Configures storage es b? m?) :
    Configures storage (es.erase snapshotKey) b? none := by
  have hbuilder : (es.erase snapshotKey).get? builderKey = es.get? builderKey := by
    rw [Entries.get?_erase]
    simp [builderKey, snapshotKey]
  refine ⟨fun b hb => ?_, fun hb => hbuilder.trans (h.unconfigured hb), by simp, fun _ => ?_⟩
  · rw [Storage.read_congr hbuilder]
    exact h.builder b hb
  · rw [Entries.get?_erase]
    simp

end Records

end Coffer.Wallet.Session
