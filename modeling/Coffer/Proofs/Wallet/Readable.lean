import Coffer.Proofs.Wallet.Order

namespace Coffer.Wallet.Session

open Json (Conforms Schema)

section Session

variable {σ : Type} [RecordStore σ] {W V : String → Prop} {B : Reliable σ} {storage : Storage}
  {s t : Session σ}

-- What a session finds

theorem accountsOf_orderly {es : Entries String String} (hes : Orderly W storage es)
    (hW : ∀ n : Int, W (accountKey (.int n))) {is : List Value}
    (his : Conforms registrySchema (.list is)) :
    (∃ accounts, accountsOf storage es is = .ok accounts) ∨
      ∃ index ∈ is, accountKey index ∉ es.keys ∧
        accountsOf storage es is = .error (.danglingAccount index) := by
  cases his with
  | list _ _ hitems =>
      induction is with
      | nil => exact .inl ⟨[], rfl⟩
      | cons index rest ih =>
          obtain ⟨hindex, hrest⟩ := List.forall_mem_cons.mp hitems
          obtain ⟨n, rfl⟩ := int_of_conforms hindex
          rw [accountsOf]
          rcases hes.read (.account n (hW n)) with ⟨habsent, hread⟩ | ⟨-, account, -, hread⟩
          · rw [hread]
            exact .inr ⟨_, List.mem_cons_self, habsent, rfl⟩
          · rw [hread]
            rcases ih hrest with ⟨accounts, haccounts⟩ | ⟨i, hi, habsent, herror⟩
            · rw [haccounts]
              exact .inl ⟨_, rfl⟩
            · rw [herror]
              exact .inr ⟨i, List.mem_cons_of_mem _ hi, habsent, rfl⟩

-- What a session asks for is read, where it is of interest; the registry always is. Only an index
-- without a record is reported, and that as such.
structure Readable (W : String → Prop) (B : Reliable σ) (s : Session σ) : Prop where
  indexes : ∃ is, (loadRegistry s).1 = .ok is
  account : ∀ n : Int, W (accountKey (.int n)) →
    (∃ account, (getAccount (.int n) s).1 = .ok account) ∨
      (getAccount (.int n) s).1 = .error (.notFound (accountKey (.int n)))
  accounts : (∀ n : Int, W (accountKey (.int n))) →
    (∃ accounts, (getAccounts s).1 = .ok accounts) ∨
      ∃ index, accountKey index ∉ (B.view s.store).keys ∧
        (getAccounts s).1 = .error (.danglingAccount index)
  builder : W builderKey → W snapshotKey → ∃ b?, (getBuilder s).1 = .ok b?

theorem InOrder.readable (hs : InOrder W B storage s) : Readable W B s := by
  obtain ⟨is, hknown, his⟩ := hs.known
  refine ⟨⟨is, ?_⟩, fun n hn => ?_, fun hall => ?_, fun hbuilder hsnapshot => ?_⟩
  · rw [loadRegistry_of_known hs.sound hknown]
  · rw [getAccount_eq hs.sound]
    exact (hs.records.read (.account n hn)).symm.imp (fun ⟨_, v, _, hread⟩ => ⟨v, hread⟩) And.right
  · rw [getAccounts_of_known hs.sound hknown]
    exact (accountsOf_orderly hs.records hall his).imp id fun ⟨index, _, habsent, herror⟩ =>
      ⟨index, habsent, herror⟩
  · obtain ⟨b?, hget, -⟩ := hs.getBuilder hbuilder hsnapshot
    rw [hget]
    exact ⟨b?, rfl⟩

-- What has been written is there and in order

theorem protects_keys {records : Entries String Value} {batch : Entries String String}
    (h : storage.Protects records batch) : batch.keys = records.keys := by
  induction h with
  | nil => rfl
  | cons hb _ ih => exact List.cons_eq_cons.mpr ⟨hb.1, ih⟩

theorem InOrder.settle (hs : InOrder W B storage s) {records : Entries String Value}
    (hV : ∀ k, V k → W k ∨ k ∈ records.keys) (hrecords : Filed V records)
    (h : onStore (fun storage => storage.setAll records) s = (.ok (), t)) :
    InOrder V B storage t ∧ ∀ key ∈ records.keys, key ∈ (B.view t.store).keys := by
  obtain ⟨r, t', hset, hwrites⟩ := setAll_writes hs.sound records
  cases hset.symm.trans h
  cases hwrites with
  | made batch t ht hbatch hview =>
      refine ⟨hs.withStore ht ?_, fun key hkey => ?_⟩
      · rw [hview]
        exact hs.records.putAll hV hrecords hbatch
      · rw [hview, Entries.mem_keys_putAll, protects_keys hbatch]
        exact .inr hkey

theorem InOrder.removed (hs : InOrder W B storage s) {key : String} (hV : ∀ k, V k → W k ∨ k = key)
    (h : onStore (fun storage => storage.remove key) s = (.ok (), t)) :
    InOrder V B storage t ∧ ∀ k, k ≠ key → k ∈ (B.view s.store).keys → k ∈ (B.view t.store).keys := by
  obtain ⟨r, t', herase, ht, hends⟩ := B.erase_ends s.store key hs.sound
  cases (onStore_of_eq (s := s) (f := fun storage => storage.remove key) herase).symm.trans h
  have hview : B.view t' = (B.view s.store).erase key := by
    generalize B.view t' = new at hends
    cases hends
    rfl
  refine ⟨hs.withStore ht ?_, fun k hne hmem => ?_⟩
  · rw [hview]
    exact hs.records.erase hV
  · rwa [hview, ← Entries.get?_isSome_iff, Entries.get?_erase, if_neg fun h => hne (beq_iff_eq.mp h).symm,
      Entries.get?_isSome_iff]

-- A record that has been saved is in order from then on, whatever has been saved before.
theorem InOrder.savedAccount (hs : InOrder W B storage s) {a : Account} (ha : a.IsProper)
    (h : saveAccount a s = (.ok (), t)) :
    InOrder (fun k => W k ∨ k = accountKey a.index) B storage t ∧
      accountKey a.index ∈ (B.view t.store).keys := by
  obtain ⟨is, u, hload, h⟩ := Action.bind_eq_ok h
  obtain ⟨hu, his⟩ := loadRegistry_yields s hs
  rw [hload] at hu his
  obtain ⟨_, v, hset, h⟩ := Action.bind_eq_ok h
  cases h
  have hkey : accountKey a.index ∈ Entries.keys (saved is a) :=
    List.mem_cons_of_mem _ List.mem_cons_self
  have hfiled : Filed (fun k => W k ∨ k = accountKey a.index) (saved is a) :=
    filed_saved (his is rfl) ha.index fun _ => ha
  obtain ⟨hv, hpresent⟩ := hu.settle (fun k => Or.imp_right fun hk => by rwa [hk]) hfiled hset
  have hregistry := conforms_register (his is rfl) ha.index
  exact ⟨(yields_setRegistry hregistry v hv).1, hpresent _ hkey⟩

-- A builder without a secret manager leaves the snapshot that is stored.
theorem InOrder.savedBuilder (hs : InOrder W B storage s) {b : Builder} (hb : b.IsProper)
    (hsecret : b.IsRestorable) (h : saveBuilder b s = (.ok (), t)) :
    InOrder (fun k => W k ∨ k = builderKey ∨ (k = snapshotKey ∧ b.secret ≠ .none)) B storage t ∧
      builderKey ∈ (B.view t.store).keys := by
  let V : String → Prop := fun k => W k ∨ k = builderKey ∨ (k = snapshotKey ∧ b.secret ≠ .none)
  obtain ⟨snapshot?, _, hattached, h⟩ := Action.bind_eq_ok h
  obtain ⟨hsnapshot, rfl⟩ := Prod.mk.inj hattached
  simp only [Reliable.set_eq_setAll] at h
  split at h
  · have hnone : b.secret = .none := by
      cases hsecret : b.secret with
      | none => rfl
      | _ => cases hsecret ▸ hsnapshot
    have hV (k : String) (hk : V k) : W k ∨ k ∈ [builderKey] := by
      rcases hk with hk | rfl | ⟨-, hsome⟩
      · exact .inl hk
      · exact .inr List.mem_cons_self
      · exact absurd hnone hsome
    obtain ⟨ht, hpresent⟩ := hs.settle hV (filed_builder fun _ => hb) h
    exact ⟨ht, hpresent _ List.mem_cons_self⟩
  · obtain ⟨persists, _, hpolicy, h⟩ := Action.bind_eq_ok h
    obtain ⟨hpersists, rfl⟩ := Prod.mk.inj hpolicy
    split at h
    · have hfiled := filed_snapshot (W := V) fun _ => hsecret _ hsnapshot (‹_ = true› ▸ hpersists)
      have hV (k : String) (hk : V k) : W k ∨ k ∈ [builderKey, snapshotKey] := by
        rcases hk with hk | rfl | ⟨rfl, -⟩
        · exact .inl hk
        · exact .inr List.mem_cons_self
        · exact .inr (List.mem_cons_of_mem _ List.mem_cons_self)
      obtain ⟨ht, hpresent⟩ := hs.settle hV
        (List.forall_mem_append.mpr ⟨filed_builder fun _ => hb, hfiled⟩) h
      exact ⟨ht, hpresent _ List.mem_cons_self⟩
    · obtain ⟨_, u, hset, hremove⟩ := Action.bind_eq_ok h
      have hV (k : String) (hk : V k) : (W k ∨ k ∈ [builderKey]) ∨ k = snapshotKey := by
        rcases hk with hk | rfl | ⟨rfl, -⟩
        · exact .inl (.inl hk)
        · exact .inl (.inr List.mem_cons_self)
        · exact .inr rfl
      obtain ⟨hu, hpresent⟩ := hs.settle (fun _ => id) (filed_builder fun _ => hb) hset
      obtain ⟨ht, hstays⟩ := hu.removed hV hremove
      exact ⟨ht, hstays _ (by decide) (hpresent _ List.mem_cons_self)⟩

end Session

-- Sessions on a backend

-- A new session on the records that another one has left, whether the store has been closed and
-- opened again in between or not.
def Later (s n : Session (Seat Backend)) : Prop :=
  ∃ t version u, Backend.Sound t ∧ Backend.view t = Backend.view s.store ∧
    gate s.storage version t = (.ok (), u) ∧ n = ⟨s.storage, none, u⟩

-- The sessions that come of a store opened without records, with anything asked of them that is proper
-- where it is of interest, and anything planned to go wrong on the way. One that has rested keeps the
-- registry it knew, whatever others have made of the store.
inductive Reachable (W : String → Prop) (storage : Storage) : Session (Seat Backend) → Prop where
  | opened (st : Seat Backend) (hst : Backend.Opened st) (hempty : Backend.view st = []) :
      Reachable W storage ⟨storage, none, st⟩
  | asked (s : Session (Seat Backend)) (hs : Reachable W storage s) (deed : Deed)
      (hdeed : deed.IsProper W) : Reachable W storage (carryOut s deed)
  | planned (s : Session (Seat Backend)) (hs : Reachable W storage s) (event : Event)
      (hevent : ∀ op, event ≠ .ask op) : Reachable W storage (happen s event)
  | resumed (s n : Session (Seat Backend)) (hs : Reachable W storage s) (hn : Later s n) :
      Reachable W storage n
  | rested (r s : Session (Seat Backend)) (hr : Reachable W storage r) (hs : Reachable W storage s) :
      Reachable W storage ⟨storage, r.registry, s.store⟩

section Backend

variable {W : String → Prop} {storage : Storage} {s t n : Session (Seat Backend)}

theorem later_inOrder (hs : InOrder W Backend.reliable storage s) (hn : Later s n) :
    InOrder W Backend.reliable storage n ∧
      ∀ key, key ≠ versionKey → key ∈ (Backend.view s.store).keys → key ∈ (Backend.view n.store).keys := by
  obtain ⟨t, version, u, ht, hview, hgate, rfl⟩ := hn
  have hagrees := gate_agreesBut (B := Backend.reliable) s.storage version t ht
  rw [hgate] at hagrees
  obtain ⟨hu, hsame⟩ := hagrees
  have hsame (key : String) (hkey : key ≠ versionKey) :
      (Backend.view u).get? key = (Backend.view s.store).get? key :=
    (hsame key hkey).trans (congrArg (Entries.get? · key) hview)
  refine ⟨⟨hs.storage, hu, hs.records.congr hsame, nofun⟩, fun key hkey hmem => ?_⟩
  rwa [← Entries.get?_isSome_iff, hsame key hkey, Entries.get?_isSome_iff]

-- A store that has been closed and opened again is one that a new session may start on.
theorem later_of_reopen (hs : Backend.Sound s.store) (hlasting : Backend.Lasting s.store)
    (kind : BackendKind) (threshold : Int) :
    ∃ t, Backend.reopen kind threshold s.store = (.ok (), t) ∧
      ∀ version u, gate s.storage version t = (.ok (), u) → Later s ⟨s.storage, none, u⟩ := by
  obtain ⟨t, hreopen, ht, hview⟩ := Backend.reopen_same hs hlasting kind threshold
  exact ⟨t, hreopen, fun version u hgate => ⟨t, version, u, ht, hview, hgate, rfl⟩⟩

theorem happen_inOrder (hs : InOrder W Backend.reliable storage s) {event : Event}
    (hevent : ∀ op, event ≠ .ask op) : InOrder W Backend.reliable storage (happen s event) := by
  have hstore {t : Seat Backend} (ht : Backend.Sound t ∧ Backend.view t = Backend.view s.store) :
      InOrder W Backend.reliable storage { s with store := t } := by
    refine hs.withStore ht.1 ?_
    have hview : Backend.reliable.view t = Backend.reliable.view s.store := ht.2
    rw [hview]
    exact hs.records
  cases event with
  | ask op => exact absurd rfl (hevent op)
  | plan plans => exact hstore (Backend.planned hs.sound plans)
  | cut fault => exact hstore (Backend.plan_same hs.sound fault)
  | deny key => exact hstore (Backend.deny_same hs.sound key)

theorem reachable_inOrder (hs : Reachable W storage s) : InOrder W Backend.reliable storage s := by
  induction hs with
  | opened st hst hempty =>
      refine ⟨rfl, hst.sound, ?_, nofun⟩
      have hview : Backend.reliable.view st = [] := hempty
      rw [hview]
      exact orderly_empty W storage
  | asked s hs deed hdeed ih => exact carryOut_inOrder ih hdeed
  | planned s hs event hevent ih => exact happen_inOrder ih hevent
  | resumed s n hs hn ih => exact (later_inOrder ih hn).1
  | rested r s hr hs ihr ihs => exact ⟨rfl, ihs.sound, ihs.storage ▸ ihs.records, ihr.registry⟩

-- The session itself may go on, or a later one.
theorem next_inOrder (ht : InOrder W Backend.reliable storage t) (hn : n = t ∨ Later t n) :
    InOrder W Backend.reliable storage n ∧ ∀ key, key ≠ versionKey →
      key ∈ (Backend.view t.store).keys → key ∈ (Backend.view n.store).keys := by
  rcases hn with rfl | hn
  · exact ⟨ht, fun _ _ h => h⟩
  · exact later_inOrder ht hn

-- What a session has saved, it and every later one on the same store can read. Of all that was ever
-- handed in only what is read has to be proper, but every index of an account has to be one.
theorem what_is_saved_is_read (W : String → Prop) (storage : Storage) {s : Session (Seat Backend)}
    (hs : Reachable W storage s) :
    Readable W Backend.reliable s ∧
    (∀ (a : Account) (t n : Session (Seat Backend)), a.IsProper → saveAccount a s = (.ok (), t) →
      n = t ∨ Later t n →
      Readable W Backend.reliable n ∧ ∃ account, (getAccount a.index n).1 = .ok account) ∧
    ∀ (b : Builder) (t n : Session (Seat Backend)), b.IsProper → b.IsRestorable →
      saveBuilder b s = (.ok (), t) → n = t ∨ Later t n →
      Readable W Backend.reliable n ∧
        (W snapshotKey ∨ b.secret ≠ .none → ∃ b, (getBuilder n).1 = .ok (some b)) := by
  have hs := reachable_inOrder hs
  refine ⟨hs.readable, fun a t n ha hsave hn => ?_, fun b t n hb hsecret hsave hn => ?_⟩
  · obtain ⟨ht, hpresent⟩ := hs.savedAccount ha hsave
    obtain ⟨hn, hstays⟩ := next_inOrder ht hn
    refine ⟨(hn.mono fun _ => .inl).readable, ?_⟩
    obtain ⟨m, hm⟩ := int_of_conforms ha.index
    have hmem := hstays _ (versionKey_ne_accountKey _).symm hpresent
    rw [getAccount_eq hn.sound]
    rw [hm] at hmem ⊢
    rcases hn.records.read (.account m (.inr (by rw [hm]))) with ⟨habsent, -⟩ | ⟨-, account, -, hread⟩
    · exact absurd hmem habsent
    · exact ⟨account, hread⟩
  · obtain ⟨ht, hpresent⟩ := hs.savedBuilder hb hsecret hsave
    obtain ⟨hn, hstays⟩ := next_inOrder ht hn
    refine ⟨(hn.mono fun _ => .inl).readable, fun hsnapshot => ?_⟩
    obtain ⟨b?, hget, hsome⟩ := hn.getBuilder (.inr (.inl rfl))
      (hsnapshot.imp id fun hsome => .inr ⟨rfl, hsome⟩)
    obtain ⟨b, rfl⟩ := Option.ne_none_iff_exists'.mp (hsome (hstays _ (by decide) hpresent))
    rw [hget]
    exact ⟨b, rfl⟩

-- No schema would give the account that is saved here, with a number for a key, a float that is no
-- number, and bytes; the builder before it is no proper one.
set_option maxRecDepth 4000 in
theorem what_is_saved_is_read_of_odd_values :
    ∃ (a : Account) (b : Builder) (s t n t' n' : Session (Seat Backend)),
      a = { Account.ofIndex (.int 7) with
        incomingTransactions := .dict [(.int 1, .float Double.nan), (.text "x", .bytes [0xFF])] } ∧
      b = ⟨.null, .null, .int 60, .manager (.stronghold (.ofText "vault") (.int 30))⟩ ∧
      s = carryOut ⟨⟨none⟩, none, ⟨Host.empty, .memory MemoryStore.empty⟩⟩
        (.saveBuilder (Builder.empty.withStorageOptions (.int 5))) ∧
      Reachable (· ≠ builderKey) ⟨none⟩ s ∧ a.IsProper ∧ b.IsProper ∧ b.IsRestorable ∧
      saveAccount a s = (.ok (), t) ∧ Later t n ∧ saveBuilder b s = (.ok (), t') ∧ Later t' n' ∧
      Readable (· ≠ builderKey) Backend.reliable n ∧
      (∃ account, (getAccount (.int 7) n).1 = .ok account) ∧
      Readable (· ≠ builderKey) Backend.reliable n' ∧ ∃ b, (getBuilder n').1 = .ok (some b) := by
  let a : Account := { Account.ofIndex (.int 7) with
    incomingTransactions := .dict [(.int 1, .float Double.nan), (.text "x", .bytes [0xFF])] }
  let b : Builder := ⟨.null, .null, .int 60, .manager (.stronghold (.ofText "vault") (.int 30))⟩
  let s : Session (Seat Backend) := carryOut ⟨⟨none⟩, none, ⟨Host.empty, .memory MemoryStore.empty⟩⟩
    (.saveBuilder (Builder.empty.withStorageOptions (.int 5)))
  have ha : a.IsProper := by
    refine { isProper_ofIndex (.int _ 7 (by decide) rfl) with incomingTransactions := .dict _ _ ?_ }
    simp only [List.forall_mem_cons, List.not_mem_nil, false_imp_iff, implies_true, and_true]
    exact ⟨.any _ (Json.isLegible_float _), .any _ (by rintro n ⟨⟩)⟩
  have hb : b.IsProper := ⟨.null _, .null _, .nullable _ _ (.int _ _ (by decide) rfl)⟩
  have hsecret : b.IsRestorable := by
    intro snapshot hsnapshot _
    obtain rfl := Option.some.inj (Except.ok.inj hsnapshot)
    refine .variant _ strongholdKind _ _ _ rfl rfl rfl ?_
    simp only [List.zip_cons_cons, List.zip_nil_right, List.forall_mem_cons]
    exact ⟨.text _, .nullable _ _ (.int _ _ (by decide) rfl), by simp⟩
  have hs : Reachable (· ≠ builderKey) ⟨none⟩ s :=
    .asked _ (.opened _ (.memory Host.empty) rfl) _ ⟨fun h => absurd rfl h, fun _ => nofun⟩
  obtain ⟨t, u, hsave, ht, hgate⟩ : ∃ (t : Session (Seat Backend)) (u : Seat Backend),
      saveAccount a s = (.ok (), t) ∧ Backend.Sound t.store ∧
        gate t.storage (.int 1) t.store = (.ok (), u) := ⟨_, _, rfl, trivial, rfl⟩
  obtain ⟨t', u', hsave', ht', hgate'⟩ : ∃ (t : Session (Seat Backend)) (u : Seat Backend),
      saveBuilder b s = (.ok (), t) ∧ Backend.Sound t.store ∧
        gate t.storage (.int 1) t.store = (.ok (), u) := ⟨_, _, rfl, trivial, rfl⟩
  have hlater : Later t ⟨t.storage, none, u⟩ := ⟨t.store, .int 1, u, ht, rfl, hgate, rfl⟩
  have hlater' : Later t' ⟨t'.storage, none, u'⟩ := ⟨t'.store, .int 1, u', ht', rfl, hgate', rfl⟩
  obtain ⟨-, haccount, hbuilder⟩ := what_is_saved_is_read (· ≠ builderKey) ⟨none⟩ hs
  obtain ⟨hreadable, hget⟩ := haccount a t _ ha hsave (.inr hlater)
  obtain ⟨hreadable', hget'⟩ := hbuilder b t' _ hb hsecret hsave' (.inr hlater')
  exact ⟨a, b, s, t, _, t', _, rfl, rfl, rfl, hs, ha, hb, hsecret, hsave, hlater, hsave', hlater',
    hreadable, hget, hreadable', hget' (.inr nofun)⟩

end Backend

-- Sessions that cannot read what has been saved

theorem read_of_invalid {es : Entries String String} {key text : String} {schema : Schema}
    {complaint : Json.Complaint} {path : List Json.Step} (hget : es.get? key = some text)
    (hdecode : Json.decode schema text = .error (.invalid complaint path)) :
    (⟨none⟩ : Storage).read es key schema =
      .error (.unreadable key (Utf8.encode text).length (.invalid complaint path)) := by
  rw [Storage.read, MemoryStore.lookup, hget]
  change Storage.decode key schema text = _
  rw [Storage.decode, hdecode]
  rfl

theorem getBuilder_of_unreadable {σ : Type} [RecordStore σ] {B : Reliable σ} {s : Session σ}
    (hs : B.sound s.store) {size : Nat} {error : Json.Error}
    (h : s.storage.read (B.view s.store) builderKey builderSchema =
      .error (.unreadable builderKey size error)) :
    getBuilder s = (.error (.unreadable builderKey size error), s) := by
  have hget := onStore_get hs builderKey builderSchema
  rw [h] at hget
  exact Action.bind_of_error ((Action.bind_of_ok (Action.attempt_of_eq hget)).trans rfl)

theorem written_of_chars {key : String} {schema : Schema} {v : Value} {chars : List Char}
    {r : Except Json.Error Value} (hchars : Json.valueChars Json.maxEncodeDepth v = .ok chars)
    (hdecode : Json.decodeBytes schema (Utf8.encodeChars chars) = r) :
    ∃ text, Storage.encode key v = .ok text ∧ Json.decode schema text = r := by
  refine ⟨String.ofList chars, ?_, ?_⟩
  · rw [Storage.encode, Json.encode, hchars]
    rfl
  · rw [Json.decode, Utf8.encode, String.toList_ofList, hdecode]

-- A power of ten below zero takes two characters more than its exponent says.
theorem lt_length_intChars (k : Nat) (hk : 0 < k) :
    k + 1 < (Json.intChars (-((10 ^ k : Nat) : Int))).length := by
  have hpos : 0 < 10 ^ k := Nat.pow_pos (by decide)
  have hdigits : k < (Nat.toDigits 10 (10 ^ k)).length := by
    rw [← Nat.not_le, Nat.length_toDigits_le_iff (by decide) hk]
    exact Nat.lt_irrefl _
  rw [Json.intChars, Double.signed, decide_eq_true (by omega), if_pos rfl, Int.natAbs_neg,
    Int.natAbs_natCast, Double.digitsOf, List.length_cons]
  omega

theorem not_isShort_neg_pow : ¬Json.IsShort (-((10 ^ 4299 : Nat) : Int)) :=
  Nat.not_le.mpr (lt_length_intChars 4299 (by decide))

-- An integer of more characters than reading takes is written all the same.
theorem written_of_long {n : Int} (hn : ¬Json.IsShort n) :
    ∃ text, Storage.encode builderKey (Builder.empty.withCoinType (.int n)).toRecord = .ok text ∧
      Json.decode builderSchema text = .error (.invalid .tooManyDigits [.field "coin_type"]) := by
  let w : Json.Written Value := ⟨"coin_type", Json.intChars n, .int n⟩
  have hvalue := Json.value_record_of_error 969 builderSchema builderKind _ w [] rfl rfl
    (fun _ hrest => Json.value_of_long 969 _ hn (.inr ⟨none, rfl⟩) hrest) []
  rw [List.append_nil] at hvalue
  have hchars : Json.valueChars Json.maxEncodeDepth (Builder.empty.withCoinType (.int n)).toRecord =
      .ok (Json.writtenChars [w]) := rfl
  refine written_of_chars hchars ?_
  rw [Json.decodeBytes, Json.decodeWithin, Json.maxDepth, hvalue]
  rfl

theorem saveBuilder_of_long {n : Int} (hn : ¬Json.IsShort n) (host : Host) :
    ∃ t later size, saveBuilder (Builder.empty.withCoinType (.int n))
        ⟨⟨none⟩, none, ⟨host, .memory .empty⟩⟩ = (.ok (), t) ∧ Later t later ∧
      (getBuilder later).1 =
        .error (.unreadable builderKey size (.invalid .tooManyDigits [.field "coin_type"])) := by
  let b := Builder.empty.withCoinType (.int n)
  let s : Session (Seat Backend) := ⟨⟨none⟩, none, ⟨host, .memory .empty⟩⟩
  obtain ⟨text, hencode, hdecode⟩ := written_of_long hn
  let store : Seat Backend := ⟨host, .memory ⟨[(builderKey, text)]⟩⟩
  have hset : s.storage.set builderKey b.toRecord s.store = (.ok (), store) := by
    rw [Storage.set, hencode]
    rfl
  have hsave := onStore_of_eq (s := s) (f := fun storage => storage.set builderKey b.toRecord) hset
  obtain ⟨u, hgate, hu, hget⟩ : ∃ u : Seat Backend, gate s.storage (.int 1) store = (.ok (), u) ∧
      Backend.Sound u ∧ (Backend.view u).get? builderKey = some text :=
    ⟨(gate s.storage (.int 1) store).2, rfl, trivial, rfl⟩
  refine ⟨_, ⟨⟨none⟩, none, u⟩, (Utf8.encode text).length, hsave,
    ⟨store, .int 1, u, trivial, rfl, hgate, rfl⟩, ?_⟩
  rw [getBuilder_of_unreadable (B := Backend.reliable) (s := ⟨⟨none⟩, none, u⟩) hu
    (read_of_invalid hget hdecode)]

set_option maxRecDepth 4000 in
theorem saveAccount_below_zero (host : Host) :
    ∃ t later size size', saveAccount (Account.ofIndex (.int (-1)))
        ⟨⟨none⟩, none, ⟨host, .memory .empty⟩⟩ = (.ok (), t) ∧ Later t later ∧
      loadRegistry later =
        (.error (.unreadable registryKey size (.invalid (.below 0) [.item 0])), later) ∧
      (getAccount (.int (-1)) later).1 = .error
        (.unreadable (accountKey (.int (-1))) size' (.invalid (.below 0) [.field "index"])) := by
  let key := accountKey (.int (-1))
  let a : Account := Account.ofIndex (.int (-1))
  let s : Session (Seat Backend) := ⟨⟨none⟩, some [], ⟨host, .memory .empty⟩⟩
  obtain ⟨indexes, hindexes, hunread⟩ : ∃ text,
      Storage.encode registryKey (.list [.int (-1)]) = .ok text ∧
      Json.decode registrySchema text = .error (.invalid (.below 0) [.item 0]) :=
    written_of_chars rfl rfl
  obtain ⟨record, hrecord, hunread'⟩ : ∃ text, Storage.encode key a.toValue = .ok text ∧
      Json.decode accountSchema text = .error (.invalid (.below 0) [.field "index"]) :=
    written_of_chars rfl rfl
  let store : Seat Backend := ⟨host, .memory ⟨[(registryKey, indexes), (key, record)]⟩⟩
  have hset : s.storage.setAll [(registryKey, .list [.int (-1)]), (key, a.toValue)] s.store =
      (.ok (), store) := by
    simp only [Storage.setAll, Storage.protectAll, hindexes, hrecord]
    rfl
  have hload : loadRegistry { s with registry := none } = (.ok [], s) := rfl
  have hsave : saveAccount a { s with registry := none } =
      (.ok (), ⟨⟨none⟩, some [.int (-1)], store⟩) :=
    (Action.bind_of_ok hload).trans (Action.bind_of_ok (onStore_of_eq (s := s)
      (f := fun storage => storage.setAll [(registryKey, .list [.int (-1)]), (key, a.toValue)]) hset))
  obtain ⟨u, hgate, hu, hregistry, haccount⟩ : ∃ u : Seat Backend,
      gate s.storage (.int 1) store = (.ok (), u) ∧ Backend.Sound u ∧
      (Backend.reliable.view u).get? registryKey = some indexes ∧
      (Backend.reliable.view u).get? key = some record :=
    ⟨(gate s.storage (.int 1) store).2, rfl, trivial, rfl, rfl⟩
  refine ⟨_, ⟨⟨none⟩, none, u⟩, (Utf8.encode indexes).length, (Utf8.encode record).length, hsave,
    ⟨store, .int 1, u, trivial, rfl, hgate, rfl⟩, ?_, ?_⟩
  · refine loadRegistry_of_known_error (B := Backend.reliable) hu ?_
    simp only [known, stored, read_of_invalid hregistry hunread]
  · rw [getAccount_eq (B := Backend.reliable) (s := ⟨⟨none⟩, none, u⟩) hu]
    exact read_of_invalid haccount hunread'

-- What is saved is not asked to be of its type. With an index below zero the registry itself becomes
-- unreadable.
theorem unreadable_once_saved :
    ∃ (start : Session (Seat Backend)) (a : Account) (b : Builder), Reachable (fun _ => True) ⟨none⟩ start ∧
      a = Account.ofIndex (.int (-1)) ∧
      b = Builder.empty.withCoinType (.int (-((10 ^ 4299 : Nat) : Int))) ∧
      (∃ t n size size' error error', saveAccount a start = (.ok (), t) ∧ Later t n ∧
        (loadRegistry n).1 = .error (.unreadable registryKey size error) ∧
        (getAccounts n).1 = .error (.unreadable registryKey size error) ∧
        (getAccount a.index n).1 = .error (.unreadable (accountKey a.index) size' error')) ∧
      ∃ t n size error, saveBuilder b start = (.ok (), t) ∧ Later t n ∧
        (getBuilder n).1 = .error (.unreadable builderKey size error) := by
  refine ⟨⟨⟨none⟩, none, ⟨Host.empty, .memory .empty⟩⟩, _, _, .opened _ (.memory Host.empty) rfl, rfl, rfl,
    ?_, ?_⟩
  · obtain ⟨t, n, size, size', hsave, hlater, hindexes, haccount⟩ := saveAccount_below_zero Host.empty
    exact ⟨t, n, size, size', _, _, hsave, hlater, congrArg Prod.fst hindexes,
      congrArg Prod.fst (Action.bind_of_error hindexes), haccount⟩
  · obtain ⟨t, n, size, hsave, hlater, hbuilder⟩ := saveBuilder_of_long not_isShort_neg_pow Host.empty
    exact ⟨t, n, size, _, hsave, hlater, hbuilder⟩

end Coffer.Wallet.Session
