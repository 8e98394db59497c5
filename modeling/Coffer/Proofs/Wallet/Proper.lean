import Coffer.Wallet.Session
import Coffer.Proofs.Json.Conforms

-- What is handed to a wallet is proper if every member is of the type it is declared with.

namespace Coffer.Wallet

open Json (Conforms Lawful LawfulFields Member Schema)

-- The schemas of what is stored

-- What stands for an absent member passes for one.
def LawfulMember (m : Member Schema) : Prop :=
  Lawful m.schema ∧ ∀ v, m.absent = some v → Conforms m.schema v

theorem lawful_required (name : String) {schema : Schema} (h : Lawful schema) :
    LawfulMember (required name schema) :=
  ⟨h, by rintro v ⟨⟩⟩

theorem lawful_optional (name : String) {schema : Schema} {absent : Value} (h : Lawful schema)
    (habsent : Conforms schema absent) : LawfulMember (optional name schema absent) := by
  refine ⟨h, fun v hv => ?_⟩
  rw [← Option.some.inj hv]
  exact habsent

theorem lawfulFields_of_members {kind : RecordKind} {fields : List (Member Schema)}
    (hnodup : (fields.map Member.name).Nodup)
    (homitted : kind.omitsNull = true → ∀ f ∈ fields, f.absent ≠ none)
    (h : ∀ f ∈ fields, LawfulMember f) : LawfulFields kind fields :=
  ⟨hnodup, fun f hf => (h f hf).2, homitted⟩

theorem lawful_record {kind : RecordKind} {fields : List (Member Schema)}
    (hnodup : (fields.map Member.name).Nodup)
    (homitted : kind.omitsNull = true → ∀ f ∈ fields, f.absent ≠ none)
    (h : ∀ f ∈ fields, LawfulMember f) : Lawful (.record kind fields) :=
  .record kind fields (lawfulFields_of_members hnodup homitted h) fun f hf => (h f hf).1

theorem lawful_variants {kinds : List (RecordKind × List (Member Schema))}
    (hnodup : ∀ k ∈ kinds, (k.2.map Member.name).Nodup) (homitted : ∀ k ∈ kinds, k.1.omitsNull = false)
    (h : ∀ k ∈ kinds, ∀ f ∈ k.2, LawfulMember f) : Lawful (.variants kinds) := by
  refine .variants kinds (fun k hk => ?_) fun k hk f hf => (h k hk f hf).1
  refine lawfulFields_of_members (hnodup k hk) (fun homits => ?_) (h k hk)
  rw [homitted k hk] at homits
  cases homits

theorem lawful_registrySchema : Lawful Session.registrySchema := .list _ (.int _)

theorem lawful_addressSchema : Lawful addressSchema := by
  refine lawful_record (by decide) (by rintro ⟨⟩) ?_
  simp only [List.forall_mem_cons, List.not_mem_nil, false_imp_iff, implies_true, and_true]
  exact ⟨lawful_required _ .text, lawful_required _ (.int none),
    lawful_optional _ .bool (.bool false), lawful_optional _ .bool (.bool false)⟩

theorem conforms_nil {item : Schema} : Conforms (.list item) (.list []) := .list item [] (by simp)

theorem conforms_empty {member : Schema} : Conforms (.dict member) (.dict []) := .dict member [] (by simp)

theorem lawful_accountSchema : Lawful accountSchema := by
  have haddresses : Lawful (.list addressSchema) := .list _ lawful_addressSchema
  refine lawful_record (by decide) (by rintro ⟨⟩) ?_
  simp only [List.forall_mem_cons, List.not_mem_nil, false_imp_iff, implies_true, and_true]
  exact ⟨lawful_required _ (.int _), lawful_optional _ (.int none) (.int none _ (by decide) rfl),
    lawful_optional _ .text (.text ""), lawful_optional _ haddresses conforms_nil,
    lawful_optional _ haddresses conforms_nil, lawful_optional _ (.list _ .text) conforms_nil,
    lawful_optional _ (.dict _ .any) conforms_empty⟩

theorem lawful_optionsSchema : Lawful optionsSchema := by
  refine lawful_record (by decide) (by rintro ⟨⟩) ?_
  simp only [optionsFields, List.forall_mem_cons, List.not_mem_nil, false_imp_iff, implies_true, and_true]
  exact ⟨lawful_optional _ (.options _) (.option _ _ (by decide)),
    lawful_optional _ (.nullable _ .text) (.nullable _ _ (.text "walletdb")),
    lawful_optional _ (.nullable _ .text) (.null _)⟩

theorem lawful_builderSchema : Lawful builderSchema := by
  refine lawful_record (by decide) (fun _ => ?_) ?_
  all_goals simp only [List.forall_mem_cons, List.not_mem_nil, false_imp_iff, implies_true, and_true]
  · exact ⟨nofun, nofun, nofun, nofun⟩
  · exact ⟨lawful_optional _ (.nullable _ lawful_optionsSchema) (.null _),
      lawful_optional _ (.nullable _ (.dict _ .any)) (.null _),
      lawful_optional _ (.nullable _ (.int none)) (.null _),
      lawful_optional _ .any (.any _ Json.isLegible_null)⟩

theorem lawful_snapshotSchema : Lawful snapshotSchema := by
  refine lawful_variants (by decide) (by decide) ?_
  simp only [List.forall_mem_cons, List.not_mem_nil, false_imp_iff, implies_true, and_true, true_and]
  exact ⟨⟨lawful_required _ .text, lawful_optional _ (.nullable _ (.int none)) (.null _)⟩,
    lawful_optional _ .bool (.bool false)⟩

-- What is handed in

structure Account.IsProper (a : Account) : Prop where
  index : Conforms indexSchema a.index
  coinType : Conforms (.int none) a.coinType
  label : Conforms .text a.label
  publicAddresses : Conforms (.list addressSchema) a.publicAddresses
  internalAddresses : Conforms (.list addressSchema) a.internalAddresses
  pendingTransactions : Conforms (.list .text) a.pendingTransactions
  incomingTransactions : Conforms (.dict .any) a.incomingTransactions

structure Builder.IsProper (b : Builder) : Prop where
  storageOptions : Conforms (.nullable optionsSchema) b.storageOptions
  clientOptions : Conforms (.nullable (.dict .any)) b.clientOptions
  coinType : Conforms (.nullable (.int none)) b.coinType

-- Of a secret manager nothing is stored but its snapshot, and that only if it may be.
def Builder.IsRestorable (b : Builder) : Prop :=
  ∀ s, b.secret.snapshot? = .ok (some s) → Policy.shouldPersist s = .ok true →
    Conforms snapshotSchema s.toValue

theorem Account.IsProper.conforms {a : Account} (h : a.IsProper) : Conforms accountSchema a.toValue := by
  refine .record _ _ _ rfl rfl ?_
  simp only [List.zip_cons_cons, List.zip_nil_right, List.forall_mem_cons]
  exact ⟨h.index, h.coinType, h.label, h.publicAddresses, h.internalAddresses, h.pendingTransactions,
    h.incomingTransactions, by simp⟩

theorem Builder.IsProper.conforms {b : Builder} (h : b.IsProper) : Conforms builderSchema b.toRecord := by
  refine .record _ _ _ rfl rfl ?_
  simp only [List.zip_cons_cons, List.zip_nil_right, List.forall_mem_cons]
  exact ⟨h.storageOptions, h.clientOptions, h.coinType, .any _ Json.isLegible_null, by simp⟩

theorem isProper_ofIndex {index : Value} (h : Conforms indexSchema index) :
    (Account.ofIndex index).IsProper :=
  ⟨h, .int none _ (by decide) rfl, .text "", conforms_nil, conforms_nil, conforms_nil, conforms_empty⟩

theorem int_of_conforms {bounds : Option (Int × Int)} {v : Value} (h : Conforms (.int bounds) v) :
    ∃ n, v = .int n := by
  cases h with
  | int _ n _ _ => exact ⟨n, rfl⟩

-- What is read again is proper.

theorem Builder.isProper_ofValue {v : Value} (h : Conforms builderSchema v) :
    (Builder.ofValue v).IsProper := by
  cases h with
  | record _ _ vs _ hnames hfields =>
      simp only [Entries.keys, List.map_cons, List.map_nil, List.map_eq_cons_iff,
        List.map_eq_nil_iff] at hnames
      obtain ⟨⟨_, storage⟩, _, rfl, -, ⟨_, client⟩, _, rfl, -, ⟨_, coin⟩, _, rfl, -, ⟨_, secret⟩, _,
        rfl, -, rfl⟩ := hnames
      simp only [List.zip_cons_cons, List.zip_nil_right, List.forall_mem_cons] at hfields
      obtain ⟨hstorage, hclient, hcoin, -, -⟩ := hfields
      exact ⟨hstorage, hclient, hcoin⟩

theorem Builder.isRestorable_ofValue (v : Value) : (Builder.ofValue v).IsRestorable := by
  intro s hs
  have hnone (w : Value) : (Attachment.ofValue w).snapshot? ≠ .ok (some s) := by
    unfold Attachment.ofValue
    split <;> exact nofun
  unfold Builder.ofValue at hs
  split at hs
  · exact absurd hs (hnone _)
  · cases hs

theorem Builder.IsProper.withSecret {b : Builder} (h : b.IsProper) (secret : Attachment) :
    (b.withSecret secret).IsProper :=
  ⟨h.storageOptions, h.clientOptions, h.coinType⟩

theorem Builder.isRestorable_withSecret (b : Builder) {m : SecretManager}
    (hm : Conforms snapshotSchema m.snapshot.toValue) : (b.withSecret (.manager m)).IsRestorable := by
  intro s hs _
  obtain rfl : m.snapshot = s := Option.some.inj (Except.ok.inj hs)
  exact hm

-- The manager behind a snapshot that was stored can be made again, unless it is never to be stored.
theorem Snapshot.ofValue_conforms {v : Value} (h : Conforms snapshotSchema v) :
    ∃ persists, Policy.shouldPersist (Snapshot.ofValue v) = .ok persists ∧
      (persists = true → ∃ m, SecretManager.ofSnapshot (Snapshot.ofValue v) = .ok m ∧
        Conforms snapshotSchema m.snapshot.toValue) := by
  cases h with
  | variant _ kind tag fields vs htag hkind hnames hfields =>
      have hmem := List.mem_of_find?_eq_some hkind
      simp only [List.mem_cons, Prod.mk.injEq, List.not_mem_nil, or_false] at hmem
      rcases hmem with ⟨rfl, rfl⟩ | ⟨rfl, rfl⟩ | ⟨rfl, rfl⟩ | ⟨rfl, rfl⟩
      · exact ⟨false, rfl, nofun⟩
      · simp only [Entries.keys, List.map_cons, List.map_nil, List.map_eq_cons_iff,
          List.map_eq_nil_iff] at hnames
        obtain ⟨⟨_, path⟩, _, rfl, -, ⟨_, timeout⟩, _, rfl, -, rfl⟩ := hnames
        simp only [List.zip_cons_cons, List.zip_nil_right, List.forall_mem_cons] at hfields
        obtain ⟨hpath, htimeout, -⟩ := hfields
        cases hpath with
        | text s =>
            refine ⟨true, rfl, fun _ => ⟨.stronghold (.ofText s) timeout, rfl, ?_⟩⟩
            refine .variant _ strongholdKind _ _ _ rfl rfl rfl ?_
            simp only [List.zip_cons_cons, List.zip_nil_right, List.forall_mem_cons]
            exact ⟨.text _, htimeout, by simp⟩
      · simp only [Entries.keys, List.map_cons, List.map_nil, List.map_eq_cons_iff,
          List.map_eq_nil_iff] at hnames
        obtain ⟨⟨_, isSimulator⟩, _, rfl, -, rfl⟩ := hnames
        simp only [List.zip_cons_cons, List.zip_nil_right, List.forall_mem_cons] at hfields
        refine ⟨true, rfl, fun _ => ⟨.ledgerNano isSimulator, rfl, ?_⟩⟩
        refine .variant _ ledgerNanoKind _ _ _ rfl rfl rfl ?_
        simp only [List.zip_cons_cons, List.zip_nil_right, List.forall_mem_cons]
        exact ⟨hfields.1, by simp⟩
      · exact ⟨true, rfl, fun _ => ⟨.placeholder, rfl,
          .variant _ placeholderKind _ _ [] rfl rfl rfl (by simp)⟩⟩

end Coffer.Wallet
