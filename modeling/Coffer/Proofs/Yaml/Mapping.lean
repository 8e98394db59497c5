import Coffer.Yaml.Document
import Coffer.Proofs.Except
import Coffer.Proofs.Json.Conforms
import Coffer.Proofs.Mapping

-- The mappings that a document holds have no key twice, however deep they stand.

namespace Coffer.Yaml

open Entries (Distinct)
open Json (Occurs)

-- No mapping in the value has a key twice.
def IsOrderly (v : Value) : Prop := ∀ entries, Occurs (.dict entries) v → Distinct entries

theorem changeable?_of_mem {fields : List (String × Value)} (h : Value.changeableField? fields = none)
    {e : String × Value} (he : e ∈ fields) : e.2.IsKey := by
  induction fields with
  | nil => cases he
  | cons f rest ih =>
      rw [Value.changeableField?, Option.or_eq_none_iff] at h
      rcases List.mem_cons.mp he with rfl | he
      · exact h.1
      · exact ih h.2 he

theorem isKey_field {kind : RecordKind} {fields : List (String × Value)}
    (h : (Value.record kind fields).IsKey) {e : String × Value} (he : e ∈ fields) : e.2.IsKey := by
  rw [Value.IsKey, Value.changeable?] at h
  split at h
  · exact changeable?_of_mem h he
  · cases h

theorem not_occurs_in_key {v : Value} {entries : List (Value × Value)} (hv : v.IsKey) :
    ¬Occurs (.dict entries) v := by
  intro h
  induction h with
  | here => cases hv
  | item items w hw h ih => cases hv
  | member entries e he h ih => cases hv
  | field kind fields e he h ih => exact ih (isKey_field hv he)

theorem isOrderly_of_key {v : Value} (hv : v.IsKey) : IsOrderly v :=
  fun _ h => absurd h (not_occurs_in_key hv)

theorem isOrderly_list {items : List Value} (h : ∀ v ∈ items, IsOrderly v) : IsOrderly (.list items) := by
  intro entries hoccurs
  cases hoccurs with
  | item _ v hv hoccurs => exact h v hv entries hoccurs

theorem isOrderly_dict {entries : List (Value × Value)} (hentries : Distinct entries)
    (h : ∀ e ∈ entries, IsOrderly e.2) : IsOrderly (.dict entries) := by
  intro inner hoccurs
  cases hoccurs with
  | here => exact hentries
  | member _ e he hoccurs => exact h e he inner hoccurs

theorem isOrderly_foreign (typeName shown : String) : IsOrderly (.foreign typeName shown) := nofun

theorem isOrderly_again (isMapping : Bool) : IsOrderly (.again isMapping) := nofun

-- Contents

-- A value that is a part of a collection is no collection itself.
def Part.IsSound : Part → Prop
  | .value v => v.IsKey
  | .collection _ => True

def Content.IsSound : Content → Prop
  | .list items => ∀ p ∈ items, p.IsSound
  | .dict entries => Distinct entries ∧ ∀ e ∈ entries, e.2.IsSound
  | .set _ | .pairs _ => True

structure Making.IsSound (m : Making) : Prop where
  parts : ∀ p : Part, some p ∈ m.parts → p.IsSound
  contents : ∀ c : Content, some c ∈ m.contents → c.IsSound

theorem mem_of_getD {α : Type} {xs : Array α} {id : Nat} {a b : α} (h : xs.getD id b = a) (hne : a ≠ b) :
    a ∈ xs := by
  rw [Array.getD_eq_getD_getElem?] at h
  cases hget : xs[id]? with
  | none =>
      rw [hget] at h
      exact absurd h.symm hne
  | some c =>
      rw [hget, Option.getD_some] at h
      exact h ▸ Array.mem_of_getElem? hget

namespace Maker

variable {α β : Type} {x : Maker α} {Q : α → Prop} {R : β → Prop}

-- The maker keeps what has been made sound, and what it gives has the property.
def Makes (x : Maker α) (Q : α → Prop) : Prop :=
  ∀ m a m', m.IsSound → x m = .ok (a, m') → m'.IsSound ∧ Q a

theorem makes_pure {a : α} (h : Q a) : Makes (pure a) Q := by
  rintro m b m' hm hx
  cases hx
  exact ⟨hm, h⟩

theorem makes_refuse : Makes (refuse : Maker α) Q := nofun

theorem Makes.bind {f : α → Maker β} (hx : Makes x Q) (hf : ∀ a, Q a → Makes (f a) R) :
    Makes (x >>= f) R := by
  intro m b m'' hm hrun
  obtain ⟨⟨a, m'⟩, hfirst, hrest⟩ := bind_eq_ok (x := x m) hrun
  obtain ⟨hm', ha⟩ := hx m a m' hm hfirst
  exact hf a ha m' b m'' hm' hrest

theorem Makes.map {f : α → β} (hx : Makes x Q) (hf : ∀ a, Q a → R (f a)) : Makes (f <$> x) R := by
  rw [map_eq_pure_bind]
  exact hx.bind fun a ha => makes_pure (hf a ha)

theorem makes_mapM {γ : Type} {f : γ → Maker β} (hf : ∀ c, Makes (f c) R) (xs : List γ) :
    Makes (xs.mapM f) fun ys => ∀ y ∈ ys, R y := by
  induction xs with
  | nil => exact makes_pure nofun
  | cons c xs ih =>
      rw [List.mapM_cons]
      exact (hf c).bind fun y hy => ih.bind fun ys hys =>
        makes_pure (List.forall_mem_cons.mpr ⟨hy, hys⟩)

theorem makes_node (id : NodeId) : Makes (nodeOf id) fun _ => True := by
  rintro m n m' hm hx
  cases hx
  exact ⟨hm, trivial⟩

theorem makes_get : Makes (get : Maker Making) Making.IsSound := by
  rintro m n m' hm hx
  cases hx
  exact ⟨hm, hm⟩

theorem makes_modify {f : Making → Making} (hf : ∀ m, m.IsSound → (f m).IsSound) :
    Makes (modify f) fun _ => True := by
  rintro m n m' hm hx
  cases hx
  exact ⟨hf m hm, trivial⟩

end Maker

-- No text gives a collection.
theorem Scalar.isKey_of_value {name text : String} {v : Value}
    (h : Scalar.value? name text = some (.ok v)) : v.IsKey := by
  unfold Scalar.value? at h
  split at h
  · cases h
    rfl
  · rw [Option.some.injEq, Scalar.boolOf] at h
    split at h
    · cases h
      rfl
    · split at h <;> cases h
      rfl
  · obtain ⟨n, -, rfl⟩ := map_eq_ok (Option.some.inj h)
    rfl
  · obtain ⟨x, -, rfl⟩ := map_eq_ok (Option.some.inj h)
    rfl
  · rw [Option.some.injEq, Scalar.bytesOf] at h
    split at h
    · cases h
    · split at h <;> cases h
      rfl
  · rw [Option.some.injEq, Scalar.momentOf] at h
    split at h
    · cases h
    · split at h <;> cases h
      rfl
  · cases h
    rfl
  · cases h

namespace Maker

variable {α β : Type} {x : Maker α} {Q : α → Prop} {R : β → Prop}

theorem isSound_scalar {name text : String} {m m' : Making} {p : Part}
    (h : (match Scalar.value? name text with
      | some r => do return (Part.value (← r), m)
      | none => malformed) = .ok (p, m')) : m' = m ∧ p.IsSound := by
  split at h
  · next r hvalue =>
    obtain ⟨v, rfl, h⟩ := bind_eq_ok h
    cases h
    exact ⟨rfl, Scalar.isKey_of_value hvalue⟩
  · cases h

theorem makes_scalar (id : NodeId) (n : Node) (name : String) : Makes (scalar id n name) Part.IsSound := by
  intro m p m' hm hx
  unfold scalar at hx
  obtain ⟨text, -, hx⟩ := bind_eq_ok hx
  split at hx <;> split at hx
  · cases hx
  · obtain ⟨rfl, hp⟩ := isSound_scalar hx
    exact ⟨hm, hp⟩
  · cases hx
  · obtain ⟨rfl, hp⟩ := isSound_scalar hx
    exact ⟨hm, hp⟩

theorem makes_start (id : NodeId) : Makes (start id) Part.IsSound := by
  refine (makes_node id).bind fun n _ => ?_
  split
  · exact makes_refuse
  · next name _ =>
    split
    · exact Makes.bind (makes_modify fun m hm => ⟨hm.parts, hm.contents⟩) fun _ _ => makes_pure trivial
    · split
      · exact makes_scalar id n name
      · exact makes_refuse

theorem makes_part (id : NodeId) : Makes (part id) Part.IsSound := by
  refine makes_get.bind fun m hm => ?_
  split
  · next p hp => exact makes_pure (hm.parts p (mem_of_getD hp nofun))
  · refine (makes_start id).bind fun p hp => ?_
    refine Makes.bind (makes_modify fun m hm => ⟨fun q hq => ?_, hm.contents⟩) fun _ _ => makes_pure hp
    rcases Array.mem_or_eq_of_mem_setIfInBounds hq with hq | hq
    · exact hm.parts q hq
    · cases hq
      exact hp

theorem makes_key (id : NodeId) : Makes (key id) Value.IsKey := by
  refine (makes_part id).bind fun p hp => ?_
  cases p with
  | value v => exact makes_pure hp
  | collection id => exact makes_refuse

theorem makes_entry (e : NodeId × NodeId) : Makes (entry e) fun e => e.1.IsKey ∧ e.2.IsSound :=
  (makes_key e.1).bind fun _ hk => (makes_part e.2).bind fun _ hp => makes_pure ⟨hk, hp⟩

theorem isSound_putAll {entries : List (Value × Part)} (h : ∀ e ∈ entries, e.1.IsKey ∧ e.2.IsSound) :
    (Content.dict (Entries.putAll [] entries)).IsSound := by
  refine ⟨Distinct.nil.putAll fun e he => (h e he).1, fun e he => ?_⟩
  rcases Entries.value_of_mem_putAll he with he | ⟨f, hf, heq⟩
  · cases he
  · exact heq ▸ (h f hf).2

theorem makes_merging (id : NodeId) : Makes (fun m => (Merging.run id m.graph).map (·, m)) fun _ => True := by
  intro m g m' hm hx
  obtain ⟨g, -, hx⟩ := map_eq_ok hx
  cases hx
  exact ⟨hm, trivial⟩

theorem makes_entriesOf (id : NodeId) :
    Makes (entriesOf id) fun entries => (Content.dict entries).IsSound := by
  refine (makes_node id).bind fun n _ => ?_
  split
  · refine (makes_merging id).bind fun graph _ => ?_
    refine Makes.bind (makes_modify fun m hm => ⟨hm.parts, hm.contents⟩) fun _ _ => ?_
    exact (makes_mapM makes_entry _).bind fun entries hentries => makes_pure (isSound_putAll hentries)
  · exact makes_refuse

theorem makes_itemsOf (id : NodeId) : Makes (itemsOf id) fun _ => True := by
  refine (makes_node id).bind fun n _ => ?_
  split
  · exact makes_pure trivial
  · exact makes_refuse

theorem makes_pair (id : NodeId) : Makes (pair id) fun _ => True := by
  refine (makes_node id).bind fun n _ => ?_
  split
  · exact (makes_part _).bind fun _ _ => (makes_part _).bind fun _ _ => makes_pure trivial
  · exact makes_refuse

theorem makes_fill (id : NodeId) : Makes (fill id) fun _ => True := by
  have store (c : Content) (hc : c.IsSound) :
      Makes (modify fun m => { m with contents := m.contents.setIfInBounds id (some c) }) fun _ => True := by
    refine makes_modify fun m hm => ⟨hm.parts, fun c' hc' => ?_⟩
    rcases Array.mem_or_eq_of_mem_setIfInBounds hc' with hc' | hc'
    · exact hm.contents c' hc'
    · cases hc'
      exact hc
  refine (makes_node id).bind fun n _ => ?_
  dsimp only
  split
  · refine (makes_itemsOf id).bind fun items _ => ?_
    exact ((makes_mapM makes_part items).map fun _ hparts => hparts).bind store
  · exact ((makes_entriesOf id).map fun _ hentries => hentries).bind store
  · exact ((makes_entriesOf id).map fun _ _ => trivial).bind store
  · refine (makes_itemsOf id).bind fun items _ => ?_
    exact ((makes_mapM makes_pair items).map fun _ _ => trivial).bind store

theorem makes_forM {γ : Type} {f : γ → Maker Unit} (hf : ∀ c, Makes (f c) fun _ => True) (xs : List γ) :
    Makes (xs.forM f) fun _ => True := by
  induction xs with
  | nil => exact makes_pure trivial
  | cons c xs ih => exact (hf c).bind fun _ _ => ih

theorem makes_fillLevels (fuel : Nat) : Makes (fillLevels fuel) fun _ => True := by
  induction fuel with
  | zero => exact makes_pure trivial
  | succ fuel ih =>
      refine makes_get.bind fun m _ => ?_
      dsimp only
      split
      · exact makes_pure trivial
      · refine Makes.bind (makes_modify fun m hm => ⟨hm.parts, hm.contents⟩) fun _ _ => ?_
        exact (makes_forM makes_fill _).bind fun _ _ => ih

end Maker

-- What a graph holds

theorem isSound_contents {g : Graph} {root : NodeId} {p : Part} {contents : Array (Option Content)}
    (h : g.contents root = .ok (p, contents)) :
    p.IsSound ∧ ∀ c : Content, some c ∈ contents → c.IsSound := by
  obtain ⟨⟨p', m⟩, hmade, h⟩ := bind_eq_ok h
  cases h
  have hmakes : Maker.Makes (do
      let p ← Maker.part root
      Maker.fillLevels (g.nodes.size + 1)
      return p : Maker Part) Part.IsSound :=
    (Maker.makes_part root).bind fun p hp => (Maker.makes_fillLevels _).bind fun _ _ =>
      Maker.makes_pure hp
  refine (hmakes _ _ _ ⟨?_, ?_⟩ hmade).symm.imp id fun hm => hm.contents
  · intro p hp
    cases (Array.mem_replicate.mp hp).2
  · intro c hc
    cases (Array.mem_replicate.mp hc).2

-- Unrolling

namespace Unrolling

structure IsSound (u : Unrolling) : Prop where
  progress : ∀ v, Progress.done v ∈ u.progress → IsOrderly v
  earlier : ∀ v ∈ u.earlier, IsOrderly v

section

variable {α β : Type} {contents : Array (Option Content)}

-- The unrolling stays sound, and what comes out has the property.
def Unrolls (x : StateM Unrolling α) (Q : α → Prop) : Prop := ∀ u : Unrolling, u.IsSound → (x u).2.IsSound ∧ Q (x u).1

theorem unrolls_pure {a : α} {Q : α → Prop} (h : Q a) : Unrolls (pure a) Q := fun _ hu => ⟨hu, h⟩

theorem Unrolls.bind {x : StateM Unrolling α} {f : α → StateM Unrolling β} {Q : α → Prop} {R : β → Prop}
    (hx : Unrolls x Q) (hf : ∀ a, Q a → Unrolls (f a) R) : Unrolls (x >>= f) R := by
  intro u hu
  obtain ⟨hu', ha⟩ := hx u hu
  exact hf _ ha _ hu'

-- Each item comes out as one that is related to it.
theorem unrolls_mapM {f : α → StateM Unrolling β} {R : α → β → Prop} {xs : List α}
    (hf : ∀ a ∈ xs, Unrolls (f a) (R a)) : Unrolls (xs.mapM f) (List.Forall₂ R xs) := by
  induction xs with
  | nil => exact unrolls_pure .nil
  | cons a xs ih =>
      obtain ⟨ha, hxs⟩ := List.forall_mem_cons.mp hf
      rw [List.mapM_cons]
      exact ha.bind fun b hb => (ih hxs).bind fun bs hbs => unrolls_pure (.cons hb hbs)

theorem unrolls_get : Unrolls (get : StateM Unrolling Unrolling) IsSound := fun _ hu => ⟨hu, hu⟩

theorem unrolls_modify {f : Unrolling → Unrolling} (hf : ∀ u, u.IsSound → (f u).IsSound) :
    Unrolls (modify f) fun _ => True := fun u hu => ⟨hf u hu, trivial⟩

theorem unrolls_partWith {collection : NodeId → StateM Unrolling Value}
    (hcollection : ∀ id, Unrolls (collection id) IsOrderly) {p : Part} (hp : p.IsSound) :
    Unrolls (partWith collection p) IsOrderly := by
  cases p with
  | value v => exact unrolls_pure (isOrderly_of_key hp)
  | collection id => exact hcollection id

theorem Unrolls.map {x : StateM Unrolling α} {f : α → β} {Q : α → Prop} {R : β → Prop}
    (hx : Unrolls x Q) (hf : ∀ a, Q a → R (f a)) : Unrolls (f <$> x) R := by
  rw [map_eq_pure_bind]
  exact hx.bind fun a ha => unrolls_pure (hf a ha)

-- A part of a pair may be any, since the pair is shown only.
theorem unrolls_anyPart {collection : NodeId → StateM Unrolling Value}
    (hcollection : ∀ id, Unrolls (collection id) IsOrderly) (p : Part) :
    Unrolls (partWith collection p) fun _ => True := by
  cases p with
  | value v => exact unrolls_pure trivial
  | collection id => exact fun u hu => ⟨(hcollection id u hu).1, trivial⟩

theorem forall_of_forall₂ {R : α → β → Prop} {P : β → Prop} {xs : List α} {ys : List β}
    (h : List.Forall₂ R xs ys) (hP : ∀ a b, R a b → P b) : ∀ b ∈ ys, P b := by
  induction h with
  | nil => exact nofun
  | cons hab h ih => exact List.forall_mem_cons.mpr ⟨hP _ _ hab, ih⟩

-- The keys of a mapping stay as they are.
theorem isOrderly_unrolled {entries : List (Value × Part)} {unrolled : List (Value × Value)}
    (hentries : Distinct entries)
    (h : List.Forall₂ (fun e f => f.1 = e.1 ∧ IsOrderly f.2) entries unrolled) :
    IsOrderly (.dict unrolled) := by
  have hkeys : Entries.keys unrolled = Entries.keys entries := by
    clear hentries
    induction h with
    | nil => rfl
    | cons hef h ih =>
        rw [Entries.keys, Entries.keys, List.map_cons, List.map_cons, hef.1]
        exact congrArg _ ih
  exact isOrderly_dict (hentries.of_keys hkeys) (forall_of_forall₂ h fun _ _ hef => hef.2)

theorem unrolls_valueOf (hcontents : ∀ c : Content, some c ∈ contents → c.IsSound) (fuel : Nat)
    (id : NodeId) : Unrolls (valueOf contents fuel id) IsOrderly := by
  induction fuel generalizing id with
  | zero => exact unrolls_pure (isOrderly_of_key rfl)
  | succ fuel ih =>
      have hpart (p : Part) (hp : p.IsSound) := unrolls_partWith ih hp
      have store (v : Value) (hv : IsOrderly v) :
          Unrolls (do
            modify fun u => { u with progress := u.progress.setIfInBounds id (.done v) }
            return v) IsOrderly := by
        refine Unrolls.bind (unrolls_modify fun u hu => ⟨fun w hw => ?_, hu.earlier⟩) fun _ _ =>
          unrolls_pure hv
        rcases Array.mem_or_eq_of_mem_setIfInBounds hw with hw | hw
        · exact hu.progress w hw
        · cases hw
          exact hv
      refine unrolls_get.bind fun u hu => ?_
      split
      · next v hv => exact unrolls_pure (hu.progress v (mem_of_getD hv nofun))
      · refine Unrolls.bind (unrolls_modify fun u hu => ⟨hu.progress, hu.earlier⟩) fun _ _ => ?_
        refine unrolls_get.bind fun u hu => unrolls_pure ?_
        by_cases hnull : u.earlier.getD id .null = .null
        · rw [hnull]
          exact isOrderly_of_key rfl
        · exact hu.earlier _ (mem_of_getD rfl hnull)
      · refine Unrolls.bind (unrolls_modify fun u hu => ⟨fun v hv => ?_, hu.earlier⟩) fun _ _ => ?_
        · rcases Array.mem_or_eq_of_mem_setIfInBounds hv with hv | hv
          · exact hu.progress v hv
          · cases hv
        dsimp only
        split
        · next items hitems =>
          have hsound := hcontents (.list items) (mem_of_getD hitems nofun)
          refine ((unrolls_mapM fun p hp => hpart p (hsound p hp)).map fun vs hvs => ?_).bind store
          exact isOrderly_list (forall_of_forall₂ hvs fun _ _ hv => hv)
        · next entries hentries =>
          obtain ⟨hdistinct, hsound⟩ := hcontents (.dict entries) (mem_of_getD hentries nofun)
          refine ((unrolls_mapM fun e he => ?_).map fun vs hvs => isOrderly_unrolled hdistinct hvs).bind store
          exact (hpart e.2 (hsound e he)).bind fun v hv => unrolls_pure ⟨rfl, hv⟩
        · next keys hkeys => exact store _ (isOrderly_foreign _ _)
        · next entries hentries =>
          refine ((unrolls_mapM (R := fun _ => IsOrderly) fun e _ => ?_).map fun vs hvs => ?_).bind store
          · exact (unrolls_anyPart ih e.1).bind fun k _ => (unrolls_anyPart ih e.2).bind fun v _ =>
              unrolls_pure (isOrderly_foreign _ _)
          · exact isOrderly_list (forall_of_forall₂ hvs fun _ _ hv => hv)
        · exact store _ (isOrderly_of_key rfl)

theorem pass_sound (hcontents : ∀ c : Content, some c ∈ contents → c.IsSound) {root : Part}
    (hroot : root.IsSound) {earlier : Array Value} (hearlier : ∀ v ∈ earlier, IsOrderly v) :
    IsOrderly (pass contents root earlier).1 ∧ (pass contents root earlier).2.IsSound := by
  refine (unrolls_partWith (unrolls_valueOf hcontents _) hroot _ ⟨fun v hv => ?_, hearlier⟩).symm
  cases (Array.mem_replicate.mp hv).2

theorem isOrderly_repeated (hcontents : ∀ c : Content, some c ∈ contents → c.IsSound) {root : Part}
    (hroot : root.IsSound) (passes : Nat) {earlier : Array Value} (hearlier : ∀ v ∈ earlier, IsOrderly v) :
    IsOrderly (repeated contents root passes earlier) := by
  induction passes generalizing earlier with
  | zero => exact (pass_sound hcontents hroot hearlier).1
  | succ passes ih =>
      obtain ⟨hvalue, hu⟩ := pass_sound hcontents hroot hearlier
      unfold repeated
      generalize pass contents root earlier = made at hvalue hu ⊢
      dsimp only
      split
      · refine ih fun v hv => ?_
        obtain ⟨⟨p, w⟩, hpair, rfl⟩ := Array.mem_map.mp hv
        obtain ⟨hp, hw⟩ := Array.of_mem_zip hpair
        cases p with
        | done v => exact hu.progress v hp
        | fresh => exact hearlier w hw
        | underWay => exact hearlier w hw
      · exact hvalue

end

end Unrolling

-- However deep it stands, no mapping of a document has a key twice.
theorem isOrderly_of_load {source : Source} {v : Value} (h : Document.load source = .ok v) : IsOrderly v := by
  obtain ⟨⟨g, root⟩, -, h⟩ := bind_eq_ok h
  cases root with
  | none =>
      cases h
      exact isOrderly_of_key rfl
  | some root =>
      obtain ⟨⟨p, contents⟩, hcontents, h⟩ := bind_eq_ok h
      cases h
      obtain ⟨hp, hsound⟩ := isSound_contents hcontents
      refine Unrolling.isOrderly_repeated hsound hp _ fun v hv => ?_
      obtain ⟨c, -, rfl⟩ := Array.mem_map.mp hv
      cases c with
      | none => exact isOrderly_of_key rfl
      | some c => cases c <;> exact isOrderly_again _

end Coffer.Yaml
