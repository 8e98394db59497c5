import Coffer.Proofs.Json.Value

namespace Coffer.Json

-- What a schema promises of the values that are read by it. A field that was not there holds what the
-- record has for it.
inductive HasType : Schema → Value → Prop where
  | any (v : Value) : HasType .any v
  | int (bounds : Option (Int × Int)) (n : Int) (hn : ∀ b ∈ bounds, b.1 ≤ n ∧ n ≤ b.2) :
      HasType (.int bounds) (.int n)
  | float (x : Double) (hx : ¬x.isInfinite) : HasType .float (.float x)
  | text (s : String) : HasType .text (.text s)
  | bool (b : Bool) : HasType .bool (.bool b)
  | null (inner : Schema) : HasType (.nullable inner) .null
  | nullable (inner : Schema) (v : Value) (h : HasType inner v) : HasType (.nullable inner) v
  | option (choices : List Choice) (c : Choice) (hc : c ∈ choices) :
      HasType (.options choices) (.choice c)
  | list (item : Schema) (vs : List Value) (h : ∀ v ∈ vs, HasType item v) :
      HasType (.list item) (.list vs)
  | dict (member : Schema) (members : Entries String Value) (hnodup : members.keys.Nodup)
      (h : ∀ m ∈ members, HasType member m.2) : HasType (.dict member) (Value.ofMembers members)
  | record (kind : RecordKind) (fields : List (Member Schema)) (vs : Entries String Value)
      (hnames : vs.keys = fields.map Member.name)
      (h : (fields.map Member.name).Nodup → ∀ p ∈ fields.zip vs,
        p.1.absent ≠ some p.2.2 → HasType p.1.schema p.2.2) :
      HasType (.record kind fields) (.record kind vs)
  | variant (kinds : List (RecordKind × List (Member Schema))) (kind : RecordKind)
      (fields : List (Member Schema)) (v : Value) (hkind : (kind, fields) ∈ kinds)
      (h : HasType (.record kind fields) v) : HasType (.variants kinds) v

theorem HasType.of_solid {v : Value} : (schema : Schema) → HasType schema.solid v → HasType schema v
  | .nullable inner, h => .nullable inner v (of_solid inner h)
  | .any, h | .int _, h | .float, h | .text, h | .bool, h | .list _, h | .dict _, h | .options _, h
  | .record .., h | .variants _, h => h

theorem hasType_null {schema : Schema} (h : schema.acceptsNull = true) : HasType schema .null := by
  cases schema with
  | any => exact .any .null
  | nullable inner => exact .null inner
  | _ => cases h

-- Texts and numbers

theorem textValue_hasType {schema : Schema} {s rest : Bytes} {v : Value}
    (h : textValue schema s = .ok (v, rest)) : HasType schema v := by
  refine HasType.of_solid schema ?_
  unfold textValue at h
  split at h
  · next hsolid =>
    rw [hsolid]
    exact .any v
  · next hsolid =>
    obtain ⟨⟨b, rest⟩, -, h⟩ := bind_eq_ok h
    obtain ⟨text, -, h⟩ := bind_eq_ok h
    cases h
    rw [hsolid]
    exact .text text
  · next choices hsolid =>
    obtain ⟨⟨b, rest⟩, -, h⟩ := bind_eq_ok h
    obtain ⟨text, -, h⟩ := bind_eq_ok h
    split at h
    · next c hfind =>
      cases h
      rw [hsolid]
      exact .option choices c (List.mem_of_find?_eq_some hfind)
    · cases h
  · obtain ⟨b, -, h⟩ := bind_eq_ok h
    cases h

theorem checkBounds_eq_ok {bounds : Option (Int × Int)} {n : Int} {v : Value}
    (h : checkBounds bounds n = .ok v) : v = .int n ∧ ∀ b ∈ bounds, b.1 ≤ n ∧ n ≤ b.2 := by
  unfold checkBounds at h
  split at h
  · cases h
    exact ⟨rfl, by simp⟩
  · split at h
    · cases h
    split at h
    · cases h
    · cases h
      refine ⟨rfl, fun b hb => ?_⟩
      cases hb
      exact ⟨by omega, by omega⟩

theorem finite_eq_ok {x y : Double} (h : finite x = .ok y) : ¬y.isInfinite := by
  unfold finite at h
  split at h
  · cases h
  · cases h
    assumption

theorem integerValue_hasType {schema : Schema} {n : Int} {length : Nat} {v : Value}
    (h : integerValue schema n length = .ok v) : HasType schema v := by
  refine HasType.of_solid schema ?_
  simp only [integerValue] at h
  split at h
  · next hsolid =>
    rw [hsolid]
    exact .any v
  · next bounds hsolid =>
    split at h
    · cases h
    · obtain ⟨rfl, hn⟩ := checkBounds_eq_ok h
      rw [hsolid]
      exact .int bounds n hn
  · next hsolid =>
    obtain ⟨x, hx, h⟩ := bind_eq_ok h
    cases h
    rw [hsolid]
    exact .float x (finite_eq_ok hx)
  · split at h
    · cases h
    · obtain ⟨x, -, h⟩ := bind_eq_ok h
      cases h

theorem numberValue_hasType {schema : Schema} {n : Number} {v : Value}
    (h : numberValue schema n = .ok v) : HasType schema v := by
  cases n with
  | integer n length => exact integerValue_hasType h
  | decimal negative digits exponent =>
      refine HasType.of_solid schema ?_
      obtain ⟨x, hx, h⟩ := bind_eq_ok h
      split at h
      · next hsolid =>
        rw [hsolid]
        exact .any v
      · next hsolid =>
        cases h
        rw [hsolid]
        exact .float x (finite_eq_ok hx)
      · cases h

-- Lists and mappings

-- What every member keeps, the members of a mapping keep.
theorem membersFrom_keeps {κ σ : Type} {skipped : Bool} {key : Bytes → Except Error κ}
    {member : σ → κ → Bytes → Except Error (σ × Bytes)} {P : σ → Prop}
    (hmember : ∀ state k s state' rest, P state → member state k s = .ok (state', rest) → P state')
    (fuel : Nat) (first : Bool) (state : σ) (s : Bytes) {state' : σ} {rest : Bytes} (hs : P state)
    (h : membersFrom skipped key member fuel first state s = .ok (state', rest)) : P state' := by
  induction fuel generalizing first state s with
  | zero => cases h
  | succ fuel ih =>
      rw [membersFrom] at h
      obtain ⟨slot, -, h⟩ := bind_eq_ok h
      cases slot with
      | closed rest =>
          cases h
          exact hs
      | element s =>
          obtain ⟨⟨raw, s₁⟩, -, h⟩ := bind_eq_ok h
          obtain ⟨k, -, h⟩ := bind_eq_ok h
          obtain ⟨s₂, -, h⟩ := bind_eq_ok h
          obtain ⟨⟨state₁, s₃⟩, hstep, h⟩ := bind_eq_ok h
          exact ih false state₁ s₃ (hmember _ _ _ _ _ hs hstep) h

-- So do the items of a list.
theorem itemsFrom_forall {α : Type} {item : Bytes → Except Error (α × Bytes)} {P : α → Prop}
    (hitem : ∀ s v rest, item s = .ok (v, rest) → P v) (fuel index : Nat) (s : Bytes) {vs : List α}
    {rest : Bytes} (h : itemsFrom item fuel index s = .ok (vs, rest)) : ∀ v ∈ vs, P v := by
  induction fuel generalizing index s vs with
  | zero => cases h
  | succ fuel ih =>
      rw [itemsFrom] at h
      obtain ⟨slot, -, h⟩ := bind_eq_ok h
      cases slot with
      | closed rest =>
          cases h
          simp
      | element s =>
          obtain ⟨⟨v, s₁⟩, hv, h⟩ := bind_eq_ok h
          obtain ⟨⟨vs, s₂⟩, hvs, h⟩ := bind_eq_ok h
          cases h
          have hv := hitem s v s₁ (mapError_eq_ok hv)
          exact List.forall_mem_cons.mpr ⟨hv, ih _ _ hvs⟩

-- A record has every field once, with what was found for it or what it has for its absence.
theorem fill_cases {found vs : Entries String Value} {fields : List (Member Schema)}
    (h : fill found fields = .ok vs) : vs.keys = fields.map Member.name ∧
      ∀ p ∈ fields.zip vs, p.1.absent = some p.2.2 ∨ found.get? p.1.name = some p.2.2 := by
  induction fields generalizing vs with
  | nil =>
      cases h
      exact ⟨rfl, by simp⟩
  | cons field fields ih =>
      rw [fill] at h
      split at h
      · next v absent hget =>
        obtain ⟨vs, hvs, h⟩ := bind_eq_ok h
        cases h
        obtain ⟨hkeys, hzip⟩ := ih hvs
        exact ⟨congrArg (field.name :: ·) hkeys, List.forall_mem_cons.mpr ⟨.inr hget, hzip⟩⟩
      · next v hget habsent =>
        obtain ⟨vs, hvs, h⟩ := bind_eq_ok h
        cases h
        obtain ⟨hkeys, hzip⟩ := ih hvs
        exact ⟨congrArg (field.name :: ·) hkeys, List.forall_mem_cons.mpr ⟨.inl habsent, hzip⟩⟩
      · cases h

section Objects

variable {value : Schema → Bytes → Except Error (Value × Bytes)} {skip : Bytes → Except Error Bytes}
  {rest : Bytes}

-- What has been found of a mapping: text keys, no key twice, and members of the type.
def Keyed (member : Schema) (entries : Entries Value Value) : Prop :=
  ∃ members : Entries String Value, members.keys.Nodup ∧
    entries = members.map (fun e => (Value.text e.1, e.2)) ∧ ∀ m ∈ members, HasType member m.2

theorem keyed_nil (member : Schema) : Keyed member [] := ⟨[], List.nodup_nil, rfl, by simp⟩

theorem Keyed.put {member : Schema} {entries : Entries Value Value} (h : Keyed member entries) (k : String)
    {v : Value} (hv : HasType member v) : Keyed member (entries.put (.text k) v) := by
  obtain ⟨members, hnodup, rfl, htypes⟩ := h
  refine ⟨members.put k v, Entries.nodup_put members k v hnodup, put_text members k v, fun m hm => ?_⟩
  rcases Entries.mem_put hm with hm | rfl
  · exact htypes m hm
  · exact hv

-- What has been found of a record, each value by the schema of its field.
def FoundBy (fields : List (Member Schema)) (found : Entries String Value) : Prop :=
  ∀ f ∈ fields, ∀ v, fields.find? (fun g => g.name == f.name) = some f →
    found.get? f.name = some v → HasType f.schema v

theorem recordMember_found (hvalue : ∀ schema s v rest, value schema s = .ok (v, rest) → HasType schema v)
    {kind : RecordKind} {fields : List (Member Schema)} {found found' : Entries String Value}
    {key s : Bytes} (hfound : FoundBy fields found)
    (h : recordMember value skip kind fields found key s = .ok (found', rest)) :
    FoundBy fields found' := by
  unfold recordMember at h
  split at h
  · next field hfind =>
    obtain ⟨⟨v, s'⟩, hv, h⟩ := bind_eq_ok h
    cases h
    have hv : HasType field.schema v := hvalue _ _ _ _ (mapError_eq_ok hv)
    obtain rfl : Utf8.encode field.name = key := by simpa using List.find?_some hfind
    rw [find?_encode] at hfind
    intro f hf w hself hget
    rw [Entries.get?_put] at hget
    split at hget
    · next hname =>
      rw [eq_of_beq hname, hself] at hfind
      cases hfind
      cases hget
      exact hv
    · exact hfound f hf w hself hget
  split at h
  · split at h
    · obtain ⟨⟨tag, s'⟩, -, h⟩ := bind_eq_ok h
      dsimp only at h
      split at h
      · cases h
        exact hfound
      · cases h
    · obtain ⟨s', -, h⟩ := bind_eq_ok h
      cases h
      exact hfound
  · obtain ⟨s', -, h⟩ := bind_eq_ok h
    cases h
    exact hfound

theorem objectValue_hasType (hvalue : ∀ schema s v rest, value schema s = .ok (v, rest) → HasType schema v)
    {schema : Schema} {s : Bytes} {v : Value} (h : objectValue value skip schema s = .ok (v, rest)) :
    HasType schema v := by
  refine HasType.of_solid schema ?_
  unfold objectValue at h
  extract_lets dict record at h
  have hdict (member : Schema) (h : dict member = .ok (v, rest)) : HasType (.dict member) v := by
    obtain ⟨⟨entries, rest⟩, hmembers, h⟩ := bind_eq_ok h
    cases h
    obtain ⟨members, hnodup, rfl, htypes⟩ : Keyed member entries := by
      refine membersFrom_keeps (fun state k s state' rest hstate hstep => ?_) _ _ _ _ (keyed_nil member) hmembers
      obtain ⟨⟨v, s'⟩, hv, hstep⟩ := bind_eq_ok hstep
      cases hstep
      exact hstate.put k (hvalue _ _ _ _ (mapError_eq_ok hv))
    exact .dict member members hnodup htypes
  have hrecord (kind : RecordKind) (fields : List (Member Schema)) (first : Bool) (s : Bytes)
      (h : record kind fields first s = .ok (v, rest)) : HasType (.record kind fields) v := by
    obtain ⟨⟨found, rest⟩, hmembers, h⟩ := bind_eq_ok h
    obtain ⟨vs, hfill, h⟩ := bind_eq_ok h
    cases h
    have hfound : FoundBy fields found :=
      membersFrom_keeps (fun _ _ _ _ _ hfound hstep => recordMember_found hvalue hfound hstep) _ _ _ _
        (by rintro f - v - ⟨⟩) hmembers
    obtain ⟨hkeys, hzip⟩ := fill_cases hfill
    refine .record kind fields vs hkeys fun hnodup p hp habsent => ?_
    have hp' : p.1 ∈ fields := (List.of_mem_zip hp).1
    exact hfound p.1 hp' p.2.2 (find?_self hnodup hp') ((hzip p hp).resolve_left habsent)
  split at h
  · next hsolid =>
    rw [hsolid]
    exact .any v
  · next member hsolid =>
    rw [hsolid]
    exact hdict member h
  · next kind fields hsolid =>
    rw [hsolid]
    exact hrecord kind fields true s h
  · next kinds hsolid =>
    rw [hsolid]
    obtain ⟨⟨tag, s', first⟩, -, h⟩ := bind_eq_ok h
    dsimp only at h
    split at h
    · cases h
    · next kind fields hfind =>
      refine .variant kinds kind fields v (List.mem_of_find?_eq_some hfind) ?_
      split at h
      · exact hrecord kind fields false s' h
      · exact hrecord kind fields true s h
  · cases h

theorem valueWith_hasType {inner : Option (Schema → Bytes → Except Error (Value × Bytes))}
    (hinner : ∀ f, inner = some f → ∀ schema s v rest, f schema s = .ok (v, rest) → HasType schema v)
    {schema : Schema} {s : Bytes} {v : Value} (h : valueWith inner skip schema s = .ok (v, rest)) :
    HasType schema v := by
  obtain ⟨⟨b, s⟩, -, h⟩ := bind_eq_ok h
  dsimp only at h
  split at h
  · exact textValue_hasType h
  split at h
  · obtain ⟨rest, -, h⟩ := bind_eq_ok h
    split at h
    · next hnull =>
      cases h
      exact hasType_null hnull
    · cases h
  split at h
  · obtain ⟨rest, -, h⟩ := bind_eq_ok h
    refine HasType.of_solid schema ?_
    split at h
    · next hsolid =>
      rw [hsolid]
      exact .any v
    · next hsolid =>
      cases h
      rw [hsolid]
      exact .bool _
    · cases h
  split at h
  · refine HasType.of_solid schema ?_
    split at h
    · next hsolid _ =>
      rw [hsolid]
      exact .any v
    · next item f hsolid _ =>
      obtain ⟨⟨vs, rest⟩, hitems, h⟩ := bind_eq_ok h
      cases h
      rw [hsolid]
      exact .list item vs (itemsFrom_forall (hinner f rfl item) _ _ _ hitems)
    all_goals cases h
  split at h
  · split at h
    · exact objectValue_hasType (hinner _ rfl) h
    · split at h <;> cases h
  · obtain ⟨⟨n, rest⟩, -, h⟩ := bind_eq_ok h
    obtain ⟨v, hv, h⟩ := bind_eq_ok h
    cases h
    exact numberValue_hasType hv

end Objects

-- Induction on the depth: what is nested is read with one level less.
theorem value_hasType (d : Nat) (schema : Schema) (s : Bytes) (v : Value) (rest : Bytes)
    (h : value d schema s = .ok (v, rest)) : HasType schema v := by
  induction d generalizing schema s v rest with
  | zero => exact valueWith_hasType (fun f hf => by cases hf) h
  | succ d ih =>
      refine valueWith_hasType (fun f hf => ?_) h
      cases hf
      exact ih

-- A value that was decoded has the type that was asked for.
theorem decodeBytes_hasType {schema : Schema} {b : Bytes} {v : Value}
    (h : decodeBytes schema b = .ok v) : HasType schema v := by
  obtain ⟨⟨v', rest⟩, hv, h⟩ := bind_eq_ok h
  dsimp only at h
  split at h
  · cases h
    exact value_hasType maxDepth schema b v rest hv
  · cases h

end Coffer.Json
