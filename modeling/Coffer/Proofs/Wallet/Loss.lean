import Coffer.Proofs.Json.Shape
import Coffer.Proofs.Wallet.Run

namespace Coffer.Wallet.Session

-- The registry that is stored is a list of indexes

theorem indexes_injective {is js : List Nat} (h : indexes is = indexes js) : is = js := by
  refine List.map_injective_iff.mpr (fun i j hij => ?_) h
  exact Int.natCast_inj.mp (Value.int.inj hij)

theorem decode_registry {text : String} {v : Value}
    (h : Json.decode registrySchema text = .ok v) :
    ∃ is : List Nat, v = .list (indexes is) ∧ ∀ i ∈ is, i ≤ 0xFFFFFFFF := by
  obtain ⟨vs, rfl, hvs⟩ : ∃ vs, v = .list vs ∧ ∀ v ∈ vs, Json.HasType indexSchema v := by
    cases Json.decodeBytes_hasType h with
    | list _ vs hvs => exact ⟨vs, rfl, hvs⟩
  clear h
  induction vs with
  | nil => exact ⟨[], rfl, by simp⟩
  | cons v vs ih =>
      obtain ⟨hv, hrest⟩ := List.forall_mem_cons.mp hvs
      obtain ⟨is, hlist, hbound⟩ := ih hrest
      obtain rfl : vs = indexes is := Value.list.inj hlist
      cases hv with
      | int _ n hn =>
          obtain ⟨hlow, hhigh⟩ := hn _ rfl
          refine ⟨n.toNat :: is, ?_, List.forall_mem_cons.mpr ⟨by omega, hbound⟩⟩
          have hn : (n.toNat : Int) = n := Int.toNat_of_nonneg hlow
          simp only [indexes, List.map_cons, hn]

theorem stored_eq_ok {storage : Storage} {es : Entries String String} {vs : List Value}
    (h : stored storage es = .ok vs) :
    ∃ is : List Nat, vs = indexes is ∧ ∀ i ∈ is, i ≤ 0xFFFFFFFF := by
  unfold stored at h
  split at h
  · cases h
    obtain ⟨text, hdecode⟩ := Storage.read_eq_ok ‹_›
    obtain ⟨is, rfl, hbound⟩ := decode_registry hdecode
    exact ⟨is, rfl, hbound⟩
  · cases h
    exact ⟨[], rfl, by simp⟩
  · cases h

section

variable {σ : Type} [RecordStore σ]

-- The registry in the store.
def persisted (B : Reliable σ) (s : Session σ) : Except Failure (List Value) :=
  stored s.storage (B.view s.store)

-- The index is in the registry of the store, and its account is there.
def Stored (B : Reliable σ) (s : Session σ) (i : Nat) : Prop :=
  (∃ is : List Nat, persisted B s = .ok (indexes is) ∧ i ∈ is) ∧ HasAccount (B.view s.store) i

-- Whether an account is stored, as a check that can be run.
theorem contains_iff_stored {B : Reliable σ} {s : Session σ} {i : Nat} :
    (((persisted B s).toOption.any fun vs => vs.contains (.int i)) = true ∧
      (B.view s.store).get? (accountKey (.int i)) ≠ none) ↔ Stored B s i := by
  refine and_congr_left' ⟨fun h => ?_, ?_⟩
  · cases hpersisted : persisted B s with
    | error e =>
        rw [hpersisted] at h
        cases h
    | ok vs =>
        obtain ⟨is, rfl, -⟩ := stored_eq_ok hpersisted
        rw [hpersisted] at h
        exact ⟨is, rfl, of_decide_eq_true ((contains_indexes is i).symm.trans h)⟩
  · rintro ⟨is, his, hmem⟩
    rw [his]
    exact (contains_indexes is i).trans (decide_eq_true hmem)

instance {B : Reliable σ} {s : Session σ} {i : Nat} : Decidable (Stored B s i) :=
  decidable_of_iff _ contains_iff_stored

-- The registry has been loaded and lacks the index.
def Forgotten (s : Session σ) (i : Nat) : Prop :=
  ∃ cs : List Nat, s.registry = some (indexes cs) ∧ i ∉ cs

structure Tracked (B : Reliable σ) (s : Session σ) : Prop where
  sound : B.sound s.store
  cache : s.registry = none ∨
    ∃ cs : List Nat, s.registry = some (indexes cs) ∧ ∀ i ∈ cs, i ≤ 0xFFFFFFFF

-- The indexes that a session goes by.
structure Knows (B : Reliable σ) (s : Session σ) (cs : List Nat) : Prop where
  known : known B s = .ok (indexes cs)
  bound : ∀ i ∈ cs, i ≤ 0xFFFFFFFF
  source : s.registry = some (indexes cs) ∨ (s.registry = none ∧ persisted B s = .ok (indexes cs))

variable {B : Reliable σ} {s t : Session σ} {cs cs' : List Nat} {i j : Nat}

theorem knows_of_tracked (hs : Tracked B s) :
    (∃ e, known B s = .error e) ∨ ∃ cs, Knows B s cs := by
  rcases hs.cache with hnone | ⟨cs, hsome, hbound⟩
  · have hknown : known B s = persisted B s := by
      rw [known, hnone]
      rfl
    cases hp : persisted B s with
    | error e => exact .inl ⟨e, hknown.trans hp⟩
    | ok vs =>
        obtain ⟨cs, rfl, hbound⟩ := stored_eq_ok hp
        exact .inr ⟨cs, hknown.trans hp, hbound, .inr ⟨hnone, hp⟩⟩
  · refine .inr ⟨cs, ?_, hbound, .inl hsome⟩
    rw [known, hsome]

theorem Stored.mem_iff (hi : Stored B s i) (hk : Knows B s cs) : i ∈ cs ↔ ¬Forgotten s i := by
  obtain ⟨⟨is, his, hmem⟩, -⟩ := hi
  rcases hk.source with hsome | ⟨hnone, hp⟩
  · constructor
    · rintro h ⟨cs', hcs', hn⟩
      rw [hsome] at hcs'
      rw [indexes_injective (Option.some.inj hcs')] at h
      exact hn h
    · intro h
      by_contra hn
      exact h ⟨cs, hsome, hn⟩
  · obtain rfl := indexes_injective (Except.ok.inj (his.symm.trans hp))
    refine ⟨fun _ => ?_, fun _ => hmem⟩
    rintro ⟨cs', hcs', -⟩
    rw [hnone] at hcs'
    cases hcs'

-- What an operation on one index leaves of a session that goes by the indexes `cs`: nothing has
-- changed for any other index, but the registry may have been written.
structure Leaves (B : Reliable σ) (s : Session σ) (cs : List Nat) (j : Nat) (t : Session σ)
    (cs' : List Nat) : Prop where
  sound : B.sound t.store
  registry : t.registry = some (indexes cs')
  bound : ∀ i ∈ cs', i ≤ 0xFFFFFFFF
  cache : ∀ i, i ≠ j → (i ∈ cs' ↔ i ∈ cs)
  has : ∀ i, i ≠ j → (HasAccount (B.view t.store) i ↔ HasAccount (B.view s.store) i)
  persisted : persisted B t = persisted B s ∨
    ∃ ls : List Nat, persisted B t = .ok (indexes ls) ∧ ∀ i, i ≠ j → (i ∈ ls ↔ i ∈ cs)

theorem Leaves.tracked (h : Leaves B s cs j t cs') : Tracked B t :=
  ⟨h.sound, .inr ⟨cs', h.registry, h.bound⟩⟩

theorem Leaves.forgotten_iff (h : Leaves B s cs j t cs') : Forgotten t i ↔ i ∉ cs' := by
  constructor
  · rintro ⟨cs'', hcs'', hn⟩
    rw [h.registry] at hcs''
    rwa [indexes_injective (Option.some.inj hcs'')]
  · exact fun hn => ⟨cs', h.registry, hn⟩

theorem Leaves.stored_iff (h : Leaves B s cs j t cs') (hk : Knows B s cs) (hij : i ≠ j)
    (hi : Stored B s i) :
    Stored B t i ↔ ¬(Forgotten s i ∧ Session.persisted B t ≠ Session.persisted B s) := by
  have hmem := hi.mem_iff hk
  obtain ⟨⟨is, his, hin⟩, hhas⟩ := hi
  have hhas := (h.has i hij).mpr hhas
  rcases h.persisted with hsame | ⟨ls, hls, hlsmem⟩
  · refine ⟨fun _ hn => hn.2 hsame, fun _ => ⟨⟨is, hsame.trans his, hin⟩, hhas⟩⟩
  · constructor
    · rintro ⟨⟨is', his', hin'⟩, -⟩ ⟨hforgotten, -⟩
      obtain rfl := indexes_injective (Except.ok.inj (hls.symm.trans his'))
      exact hmem.mp ((hlsmem i hij).mp hin') hforgotten
    · intro hn
      refine ⟨⟨ls, hls, (hlsmem i hij).mpr (hmem.mpr fun hforgotten => hn ⟨hforgotten, ?_⟩)⟩, hhas⟩
      intro hsame
      have hls' : ls = is := indexes_injective (Except.ok.inj (hls.symm.trans (hsame.trans his)))
      rw [← hls'] at hin
      exact hmem.mp ((hlsmem i hij).mp hin) hforgotten

theorem Leaves.of_forgotten (h : Leaves B s cs j t cs') (hk : Knows B s cs) (hij : i ≠ j)
    (hi : Stored B t i) (hforgotten : Forgotten t i) : Stored B s i ∧ Forgotten s i := by
  have hn := (h.cache i hij).not.mp (h.forgotten_iff.mp hforgotten)
  obtain ⟨⟨is, his, hin⟩, hhas⟩ := hi
  have hhas := (h.has i hij).mp hhas
  rcases h.persisted with hsame | ⟨ls, hls, hlsmem⟩
  · have hs : Stored B s i := ⟨⟨is, hsame.symm.trans his, hin⟩, hhas⟩
    refine ⟨hs, ?_⟩
    by_contra hnot
    exact hn ((hs.mem_iff hk).mpr hnot)
  · obtain rfl := indexes_injective (Except.ok.inj (hls.symm.trans his))
    exact absurd ((hlsmem i hij).mp hin) hn

-- Saving

theorem leaves_of_saved (hk : Knows B s cs) {a : Account} (hindex : a.index = .int j)
    (hj : j ≤ 0xFFFFFFFF) {batch : Entries String String}
    (hbatch : s.storage.Protects (saved (indexes cs) a) batch) (ht : B.sound t.store)
    (hstorage : t.storage = s.storage)
    (hview : B.view t.store = (B.view s.store).putAll batch)
    (hregistry : t.registry = some (indexes cs')) (hcs' : cs' = added cs j ∨ cs' = cs) :
    Leaves B s cs j t cs' ∧ persisted B t = .ok (indexes (added cs j)) ∧
      HasAccount (B.view t.store) j := by
  obtain ⟨hstored, hother, sealedText, text, hself, -, -⟩ :=
    of_saved (B.view s.store) hk.bound hj hindex hbatch
  have hhas := hasAccount_saved hother hself
  rw [← hview] at hhas
  rw [← hview, ← hstorage] at hstored
  have hadded (i : Nat) (hij : i ≠ j) : i ∈ added cs j ↔ i ∈ cs := by simp [mem_added, hij]
  have hself : HasAccount (B.view t.store) j := (hhas j).mpr (.inr rfl)
  have hrest (i : Nat) (hij : i ≠ j) :
      HasAccount (B.view t.store) i ↔ HasAccount (B.view s.store) i := by simp [hhas, hij]
  rcases hcs' with rfl | rfl
  · exact ⟨⟨ht, hregistry, bound_added hk.bound hj, hadded, hrest, .inr ⟨_, hstored, hadded⟩⟩,
      hstored, hself⟩
  · exact ⟨⟨ht, hregistry, hk.bound, fun _ _ => Iff.rfl, hrest, .inr ⟨_, hstored, hadded⟩⟩,
      hstored, hself⟩

-- The registry is written with the index in it, whatever is said of it, or nothing is.
theorem saveAccount_leaves (hs : B.sound s.store) (hk : Knows B s cs) {a : Account}
    (hindex : a.index = .int j) (hj : j ≤ 0xFFFFFFFF) :
    ∃ r t cs', saveAccount a s = (r, t) ∧ Leaves B s cs j t cs' ∧
      ((persisted B t = persisted B s ∧ cs' = cs ∧
          (HasAccount (B.view t.store) j ↔ HasAccount (B.view s.store) j) ∧
          ∃ e, r = .error e ∧ Reliable.Refuses B e) ∨
        (persisted B t = .ok (indexes (added cs j)) ∧ HasAccount (B.view t.store) j ∧
          ((r = .ok () ∧ cs' = added cs j) ∨ ∃ e, r = .error e ∧ B.late s.store e ∧ cs' = cs))) := by
  obtain ⟨r, t, hsave, t₁, hwrites, rfl⟩ := saveAccount_cases hs a hk.known
  cases hwrites with
  | refused e t ht hview he =>
      refine ⟨_, _, cs, hsave, ⟨ht, rfl, hk.bound, fun _ _ => Iff.rfl, fun i _ => ?_, .inl ?_⟩,
        .inl ⟨?_, rfl, ?_, e, rfl, he⟩⟩
      all_goals simp only [persisted, hview]
  | made batch t ht hbatch hview =>
      have hregistry : register (indexes cs) a.index = indexes (added cs j) := by
        rw [hindex, register_indexes]
        rfl
      obtain ⟨hleaves, hpersisted, hhas⟩ := leaves_of_saved (t :=
        { s with registry := some (register (indexes cs) a.index), store := t }) hk hindex hj hbatch ht
        rfl hview (congrArg some hregistry) (.inl rfl)
      exact ⟨_, _, _, hsave, hleaves, .inr ⟨hpersisted, hhas, .inl ⟨rfl, rfl⟩⟩⟩
  | reported e batch t ht hbatch hview he =>
      obtain ⟨hleaves, hpersisted, hhas⟩ := leaves_of_saved (t :=
        { s with registry := some (indexes cs), store := t }) hk hindex hj hbatch ht rfl hview rfl
        (.inr rfl)
      exact ⟨_, _, _, hsave, hleaves, .inr ⟨hpersisted, hhas, .inr ⟨e, rfl, he, rfl⟩⟩⟩

-- Removing

def without (cs : List Nat) (j : Nat) : List Nat := cs.filter fun k => k ≠ j

theorem mem_without (cs : List Nat) (hij : i ≠ j) : i ∈ without cs j ↔ i ∈ cs := by
  simp [without, hij]

theorem bound_without (hbound : ∀ k ∈ cs, k ≤ 0xFFFFFFFF) (j : Nat) : ∀ k ∈ without cs j, k ≤ 0xFFFFFFFF :=
  fun k hk => hbound k (List.mem_filter.mp hk).1

-- The record is gone, or nothing has changed.
theorem removeAccount_leaves (hs : B.sound s.store) (hk : Knows B s cs) (j : Nat) :
    ∃ cs', Leaves B s cs j (removeAccount (.int j) s).2 cs' ∧
      (¬HasAccount (B.view (removeAccount (.int j) s).2.store) j ∨
        (persisted B (removeAccount (.int j) s).2 = persisted B s ∧ cs' = cs ∧
          (HasAccount (B.view (removeAccount (.int j) s).2.store) j ↔
            HasAccount (B.view s.store) j))) := by
  obtain ⟨hstored, hother, hhas⟩ := of_erased s.storage (B.view s.store) j
  obtain ⟨t, ht, ⟨e, hdrop, hsame | ⟨-, hview⟩⟩ | ⟨hdrop, hview⟩⟩ :=
    dropRecord_cases hs (.int j) hk.known
  · rw [removeAccount_eq, Action.bind_of_error hdrop]
    refine ⟨cs, ⟨ht, rfl, hk.bound, fun _ _ => Iff.rfl, fun i _ => ?_, .inl ?_⟩, .inr ⟨?_, rfl, ?_⟩⟩
    all_goals simp only [persisted, hsame]
  · rw [← hview] at hstored hhas
    rw [removeAccount_eq, Action.bind_of_error hdrop]
    refine ⟨cs, ⟨ht, rfl, hk.bound, fun _ _ => Iff.rfl, fun i hij => ?_, .inl hstored⟩, .inl ?_⟩
    · simp [hhas, hij]
    · simp [hhas]
  · rw [← hview] at hstored hhas
    rw [filter_indexes] at hdrop
    let s₁ : Session σ := { s with registry := some (indexes (without cs j)), store := t }
    obtain ⟨r, t₂, hset, hwrites⟩ := set_writes (s := s₁) ht registryKey
      (.list (indexes (without cs j)))
    have hremove : (removeAccount (.int j) s).2 = t₂ := by
      rw [removeAccount_eq, Action.bind_of_ok hdrop]
      exact congrArg Prod.snd hset
    obtain ⟨ht₂, hstorage, hregistry, houtcome⟩ := hwrites.outcome
    rw [hremove]
    have hcache (i : Nat) (hij : i ≠ j) := mem_without cs hij
    have hbound := bound_without hk.bound j
    rcases houtcome with hview₂ | ⟨batch, hbatch, hview₂⟩
    · have hview₂ : B.view t₂.store = B.view t := hview₂
      have hpersisted : persisted B t₂ = persisted B s := by
        rw [persisted, hview₂, hstorage]
        exact hstored
      rw [← hview₂] at hhas
      refine ⟨without cs j, ⟨ht₂, hregistry, hbound, hcache, fun i hij => ?_, .inl hpersisted⟩,
        .inl ?_⟩
      · simp [hhas, hij]
      · simp [hhas]
    · have hview₂ : B.view t₂.store = (B.view t).putAll batch := hview₂
      obtain ⟨hwritten, hother₂⟩ := of_rewritten (B.view t) hbound hbatch
      rw [← hview₂] at hwritten hother₂
      have hpersisted : persisted B t₂ = .ok (indexes (without cs j)) := by
        rw [persisted, hstorage]
        exact hwritten
      have hhas₂ (i : Nat) : HasAccount (B.view t₂.store) i ↔ HasAccount (B.view s.store) i ∧ i ≠ j :=
        (hasAccount_congr (hother₂ i)).trans (hhas i)
      refine ⟨without cs j, ⟨ht₂, hregistry, hbound, hcache, fun i hij => ?_,
        .inr ⟨without cs j, hpersisted, hcache⟩⟩, .inl ?_⟩
      · simp [hhas₂, hij]
      · simp [hhas₂]

-- One operation

-- Nothing that matters has changed, but a new session may have started.
structure Idle (B : Reliable σ) (s t : Session σ) : Prop where
  sound : B.sound t.store
  registry : t.registry = s.registry ∨ t.registry = none
  has : ∀ i, HasAccount (B.view t.store) i ↔ HasAccount (B.view s.store) i
  persisted : persisted B t = persisted B s

theorem Idle.refl (hs : B.sound s.store) : Idle B s s := ⟨hs, .inl rfl, fun _ => Iff.rfl, rfl⟩

theorem Idle.tracked (h : Idle B s t) (hs : Tracked B s) : Tracked B t := by
  refine ⟨h.sound, ?_⟩
  rcases h.registry with hsame | hnone
  · rw [hsame]
    exact hs.cache
  · exact .inl hnone

theorem Idle.stored_iff (h : Idle B s t) : Stored B t i ↔ Stored B s i := by
  rw [Stored, Stored, h.has i, h.persisted]

theorem Idle.forgotten (h : Idle B s t) (hi : Forgotten t i) : Forgotten s i := by
  obtain ⟨cs, hcs, hn⟩ := hi
  rcases h.registry with hsame | hnone
  · exact ⟨cs, hsame.symm.trans hcs, hn⟩
  · rw [hnone] at hcs
    cases hcs

theorem leaves_of_loaded (hs : B.sound s.store) (hk : Knows B s cs) (j : Nat) :
    Leaves B s cs j { s with registry := some (indexes cs) } cs :=
  ⟨hs, rfl, hk.bound, fun _ _ => Iff.rfl, fun _ _ => Iff.rfl, .inl rfl⟩

-- An account that is saved has an index in range.
def Op.Fits : Op → Prop
  | .save a => ∃ j : Nat, j ≤ 0xFFFFFFFF ∧ a.index = .int j
  | _ => True

def Op.Saves (i : Nat) : Op → Prop
  | .save a => a.index = .int i
  | _ => False

-- How an operation goes: it changes nothing, it loads the registry, or it does so and works on one
-- index.
inductive Course (B : Reliable σ) (s : Session σ) (op : Op) : Session σ → Prop where
  | idle (t : Session σ) (h : Idle B s t) : Course B s op t
  | loaded (cs : List Nat) (t : Session σ) (hk : Knows B s cs) (h : ∀ j, Leaves B s cs j t cs) :
      Course B s op t
  | worked (cs cs' : List Nat) (j : Nat) (t : Session σ) (hk : Knows B s cs)
      (hj : op = .remove j ∨ op.Saves j) (h : Leaves B s cs j t cs') : Course B s op t

theorem startSession_idle (hs : B.sound s.store) (version : Value) :
    Idle B s (startSession version s) := by
  have hgate := gate_agreesBut (B := B) s.storage version s.store hs
  unfold startSession
  cases hg : gate s.storage version s.store with
  | mk r t =>
      rw [hg] at hgate
      obtain ⟨ht, hview⟩ := hgate
      have hpersisted := stored_congr s.storage
        (hview registryKey versionKey_ne_registryKey.symm)
      have hhas (i : Nat) : HasAccount (B.view t) i ↔ HasAccount (B.view s.store) i :=
        hasAccount_congr (hview _ (versionKey_ne_accountKey _).symm)
      cases r with
      | ok u => exact ⟨ht, .inr rfl, hhas, hpersisted⟩
      | error e => exact ⟨ht, .inl rfl, hhas, hpersisted⟩

theorem step_course (hs : Tracked B s) (op : Op) (hop : op.Fits) : Course B s op (step s op) := by
  have hidle : Course B s op s := .idle s (Idle.refl hs.sound)
  cases op with
  | getAccount i =>
      rw [step, getAccount_eq hs.sound]
      exact hidle
  | newSession version => exact .idle _ (startSession_idle hs.sound version)
  | save a =>
      obtain ⟨j, hj, hindex⟩ := hop
      rcases knows_of_tracked hs with ⟨e, he⟩ | ⟨cs, hk⟩
      · rw [step, saveAccount_of_known_error hs.sound a he]
        exact hidle
      · obtain ⟨r, t, cs', hsave, hleaves, -⟩ := saveAccount_leaves hs.sound hk hindex hj
        rw [step, hsave]
        exact .worked cs cs' j t hk (.inr hindex) hleaves
  | remove j =>
      rcases knows_of_tracked hs with ⟨e, he⟩ | ⟨cs, hk⟩
      · rw [step, removeAccount_eq, Action.bind_of_error (dropRecord_of_known_error hs.sound _ he)]
        exact hidle
      · obtain ⟨cs', hleaves, -⟩ := removeAccount_leaves hs.sound hk j
        exact .worked cs cs' j _ hk (.inl rfl) hleaves
  | getAccounts =>
      rcases knows_of_tracked hs with ⟨e, he⟩ | ⟨cs, hk⟩
      · rw [step, getAccounts_of_known_error hs.sound he]
        exact hidle
      · rw [step, getAccounts_of_known hs.sound hk.known]
        exact .loaded cs _ hk (leaves_of_loaded hs.sound hk)
  | getIndexes =>
      rcases knows_of_tracked hs with ⟨e, he⟩ | ⟨cs, hk⟩
      · rw [step, loadRegistry_of_known_error hs.sound he]
        exact hidle
      · rw [step, loadRegistry_of_known hs.sound hk.known]
        exact .loaded cs _ hk (leaves_of_loaded hs.sound hk)

theorem step_tracked (hs : Tracked B s) (op : Op) (hop : op.Fits) : Tracked B (step s op) := by
  cases step_course hs op hop with
  | idle t h => exact h.tracked hs
  | loaded cs t hk h => exact (h 0).tracked
  | worked cs cs' j t hk hj h => exact h.tracked

-- An index with an account stays, unless it has been forgotten and the registry is written for
-- another one.
theorem step_stored_iff (hs : Tracked B s) (op : Op) (hop : op.Fits) (hremove : op ≠ .remove i)
    (hi : Stored B s i) :
    Stored B (step s op) i ↔
      ¬(Forgotten s i ∧ ¬op.Saves i ∧ persisted B (step s op) ≠ persisted B s) := by
  by_cases hsaves : op.Saves i
  · have hright : ¬(Forgotten s i ∧ ¬op.Saves i ∧ persisted B (step s op) ≠ persisted B s) :=
      fun h => h.2.1 hsaves
    refine iff_of_true ?_ hright
    cases op with
    | save a =>
        have hindex : a.index = .int i := hsaves
        obtain ⟨j, hj, hindex'⟩ := hop
        obtain rfl : i = j := Int.natCast_inj.mp (Value.int.inj (hindex.symm.trans hindex'))
        rcases knows_of_tracked hs with ⟨e, he⟩ | ⟨cs, hk⟩
        · rw [step, saveAccount_of_known_error hs.sound a he]
          exact hi
        · obtain ⟨r, t, cs', hsave, -, ⟨hsame, -, hhas, -⟩ | ⟨hwritten, hhas, -⟩⟩ :=
            saveAccount_leaves hs.sound hk hindex hj
          · rw [step, hsave, Stored, hsame, hhas]
            exact hi
          · rw [step, hsave]
            exact ⟨⟨added cs i, hwritten, (mem_added cs i i).mpr (.inr rfl)⟩, hhas⟩
    | _ => cases hsaves
  · have hstrip : ¬(Forgotten s i ∧ ¬op.Saves i ∧ persisted B (step s op) ≠ persisted B s) ↔
        ¬(Forgotten s i ∧ persisted B (step s op) ≠ persisted B s) := by simp [hsaves]
    rw [hstrip]
    cases step_course hs op hop with
    | idle t h => exact iff_of_true (h.stored_iff.mpr hi) fun hn => hn.2 h.persisted
    | loaded cs t hk h => exact (h (i + 1)).stored_iff hk (by omega) hi
    | worked cs cs' j t hk hj h =>
        refine h.stored_iff hk ?_ hi
        rintro rfl
        exact hj.elim hremove hsaves

-- What was stored and went unchanged was forgotten before.
theorem Leaves.forgotten_of_same (h : Leaves B s cs j t cs) (hk : Knows B s cs)
    (hsame : Session.persisted B t = Session.persisted B s)
    (hhas : HasAccount (B.view t.store) j ↔ HasAccount (B.view s.store) j)
    (hi : Stored B t j) (hforgotten : Forgotten t j) : Stored B s j ∧ Forgotten s j := by
  rw [Stored, hsame, hhas] at hi
  have hs : Stored B s j := hi
  refine ⟨hs, ?_⟩
  by_contra hnot
  exact h.forgotten_iff.mp hforgotten ((hs.mem_iff hk).mpr hnot)

theorem save_forgets_iff (hlate : ∀ st e, B.late st e → ¬Reliable.Refuses B e) (hs : Tracked B s)
    {a : Account} (hindex : a.index = .int i) (hi : i ≤ 0xFFFFFFFF)
    (hn : ¬(Stored B s i ∧ Forgotten s i)) :
    (Stored B (saveAccount a s).2 i ∧ Forgotten (saveAccount a s).2 i) ↔
      ∃ cs e, known B s = .ok (indexes cs) ∧ i ∉ cs ∧ (saveAccount a s).1 = .error e ∧
        ¬Reliable.Refuses B e := by
  rcases knows_of_tracked hs with ⟨e, he⟩ | ⟨cs, hk⟩
  · rw [saveAccount_of_known_error hs.sound a he]
    refine iff_of_false hn ?_
    rintro ⟨cs, -, hknown, -⟩
    cases he.symm.trans hknown
  obtain ⟨r, t, cs', hsave, hleaves, ⟨hsame, rfl, hhas, e, rfl, hrefuses⟩ | ⟨hwritten, hhas, hr⟩⟩ :=
    saveAccount_leaves hs.sound hk hindex hi
  · rw [hsave]
    refine iff_of_false (fun h => hn (hleaves.forgotten_of_same hk hsame hhas h.1 h.2)) ?_
    rintro ⟨-, e', -, -, herror, hnot⟩
    cases herror
    exact hnot hrefuses
  · have hstored : Stored B t i :=
      ⟨⟨added cs i, hwritten, (mem_added cs i i).mpr (.inr rfl)⟩, hhas⟩
    rw [hsave]
    rcases hr with ⟨rfl, rfl⟩ | ⟨e, rfl, he, rfl⟩
    · refine iff_of_false (fun h => ?_) ?_
      · exact hleaves.forgotten_iff.mp h.2 ((mem_added cs i i).mpr (.inr rfl))
      · rintro ⟨-, e', -, -, herror, -⟩
        cases herror
    · constructor
      · exact fun h => ⟨cs', e, hk.known, hleaves.forgotten_iff.mp h.2, rfl, hlate _ _ he⟩
      · rintro ⟨cs, -, hknown, hmem, -, -⟩
        obtain rfl := indexes_injective (Except.ok.inj (hknown.symm.trans hk.known))
        exact ⟨hstored, hleaves.forgotten_iff.mpr hmem⟩

-- An index is forgotten by a save that fails after it has been made, of an account that was not
-- there before, and by nothing else.
theorem step_forgets_iff (hlate : ∀ st e, B.late st e → ¬Reliable.Refuses B e) (hs : Tracked B s)
    (op : Op) (hop : op.Fits) (hn : ¬(Stored B s i ∧ Forgotten s i)) :
    (Stored B (step s op) i ∧ Forgotten (step s op) i) ↔
      ∃ a cs e, op = .save a ∧ a.index = .int i ∧ known B s = .ok (indexes cs) ∧ i ∉ cs ∧
        (saveAccount a s).1 = .error e ∧ ¬Reliable.Refuses B e := by
  by_cases hsaves : op.Saves i
  · cases op with
    | save a =>
        have hindex : a.index = .int i := hsaves
        obtain ⟨j, hj, hindex'⟩ := hop
        obtain rfl : i = j := Int.natCast_inj.mp (Value.int.inj (hindex.symm.trans hindex'))
        refine (save_forgets_iff hlate hs hindex hj hn).trans ⟨?_, ?_⟩
        · rintro ⟨cs, e, hrest⟩
          exact ⟨a, cs, e, rfl, hindex, hrest⟩
        · rintro ⟨_, cs, e, hop, -, hrest⟩
          cases hop
          exact ⟨cs, e, hrest⟩
    | _ => cases hsaves
  · refine iff_of_false (fun h => ?_) ?_
    · by_cases hremove : op = .remove i
      · subst hremove
        rcases knows_of_tracked hs with ⟨e, he⟩ | ⟨cs, hk⟩
        · rw [step, removeAccount_eq, Action.bind_of_error (dropRecord_of_known_error hs.sound _ he)] at h
          exact hn h
        · obtain ⟨cs', hleaves, hgone | ⟨hsame, rfl, hhas⟩⟩ := removeAccount_leaves hs.sound hk i
          · exact hgone h.1.2
          · exact hn (hleaves.forgotten_of_same hk hsame hhas h.1 h.2)
      · cases step_course hs op hop with
        | idle t hidle => exact hn ⟨hidle.stored_iff.mp h.1, hidle.forgotten h.2⟩
        | loaded cs t hk hleaves =>
            exact hn ((hleaves (i + 1)).of_forgotten hk (by omega) h.1 h.2)
        | worked cs cs' j t hk hj hleaves =>
            refine hn (hleaves.of_forgotten hk ?_ h.1 h.2)
            rintro rfl
            exact hj.elim hremove hsaves
    · rintro ⟨a, -, -, rfl, hindex, -⟩
      exact hsaves hindex

end

end Coffer.Wallet.Session
