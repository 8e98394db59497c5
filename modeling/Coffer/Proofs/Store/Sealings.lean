import Coffer.Proofs.Store.Keeping

-- A storage with a book beside its store, of the nonces that it draws and of the texts that it
-- seals. The operations are those of the storage: forgetting the book gives them back.

namespace Coffer

open Coffer.Action (Agrees Within)

namespace Seal

-- A text that is sealed for a record, under the nonce that is drawn for it.
structure Sealing where
  recordKey : String
  text : String
  drawn : Nat
  deriving DecidableEq

def Sealing.sealedText (k : Key) (x : Sealing) : String :=
  sealRecord k (nonce x.drawn) x.recordKey x.text

end Seal

open Seal (Sealing)

namespace Storage

variable {σ : Type} [RecordStore σ]

-- One text of a batch whose keys may be any values.
def protectUnder (s : Storage) (key : Value) (text : String) : Action σ String :=
  match key, s.key with
  | .text k, _ => s.protect k text
  | _, none => return text
  | v, some _ => do
      let _ ← (RecordStore.draw : Action σ Nat)
      .fail (.noMember v.typeName "encode")

theorem protectValues_cons (s : Storage) (key record : Value) (rest : Entries Value Value) :
    (s.protectValues ((key, record) :: rest) : Action σ (Entries Value Value)) = do
      let text ← .ofExcept (encode key.asText record)
      let sealedText ← s.protectUnder key text
      return (key, .text sealedText) :: (← s.protectValues rest) := by
  have hfail {α β : Type} (e : Failure) (f : α → Action σ β) :
      (Action.fail e >>= f : Action σ β) = .fail e := rfl
  obtain ⟨key?⟩ := s
  rw [protectValues]
  congr 1
  funext text
  cases key with
  | text k => rfl
  | _ =>
      cases key? with
      | none => rfl
      | some k => simp only [protectUnder, bind_assoc, hfail]

end Storage

structure Booked (σ : Type) where
  state : σ
  drawn : List Nat
  sealings : List Sealing

namespace Booked

section Operations

variable {σ α : Type}

-- What seals nothing leaves the book as it is.
def quietly (x : Action σ α) : Action (Booked σ) α :=
  Action.onPart Booked.state (fun b s => { b with state := s }) x

def enter (x : Sealing) : Action (Booked σ) Unit :=
  Action.update fun b => { b with sealings := b.sealings ++ [x] }

variable [RecordStore σ]

def draw : Action (Booked σ) Nat := do
  let n ← quietly RecordStore.draw
  Action.update fun b => { b with drawn := b.drawn ++ [n] }
  return n

def protect (s : Storage) (key text : String) : Action (Booked σ) String :=
  match s.key with
  | none => return text
  | some k => do
      let n ← draw
      enter ⟨key, text, n⟩
      return Sealing.sealedText k ⟨key, text, n⟩

def setText (s : Storage) (key text : String) : Action (Booked σ) Unit := do
  let sealedText ← protect s key text
  quietly (RecordStore.put [(key, sealedText)])

def setValue (s : Storage) (key : String) (value : Value) : Action (Booked σ) Unit :=
  match value, s.key with
  | .text text, _ => setText s key text
  | v, none => .fail (.mistyped (.notText (.text key) v))
  | v, some _ => do
      let _ ← (draw : Action (Booked σ) Nat)
      .fail (.noMember v.typeName "encode")

def protectAll (s : Storage) : Entries String Value → Action (Booked σ) (Entries String String)
  | [] => return []
  | (key, record) :: rest => do
      let text ← .ofExcept (Storage.encode key record)
      let sealedText ← protect s key text
      return (key, sealedText) :: (← protectAll s rest)

def setAll (s : Storage) (records : Entries String Value) : Action (Booked σ) Unit := do
  let batch ← protectAll s records
  quietly (RecordStore.put batch)

def set (s : Storage) (key : String) (record : Value) : Action (Booked σ) Unit :=
  setAll s [(key, record)]

def protectUnder (s : Storage) (key : Value) (text : String) : Action (Booked σ) String :=
  match key, s.key with
  | .text k, _ => protect s k text
  | _, none => return text
  | v, some _ => do
      let _ ← (draw : Action (Booked σ) Nat)
      .fail (.noMember v.typeName "encode")

def protectValues (s : Storage) : Entries Value Value → Action (Booked σ) (Entries Value Value)
  | [] => return []
  | (key, record) :: rest => do
      let text ← .ofExcept (Storage.encode key.asText record)
      let sealedText ← protectUnder s key text
      return (key, .text sealedText) :: (← protectValues s rest)

def setBatch (s : Storage) (records : Value) : Action (Booked σ) Unit := do
  match records with
  | .dict entries =>
      let batch ← .ofExcept (textRecords (← protectValues s entries))
      quietly (RecordStore.put batch)
  | v => .fail (.noMember v.typeName "items")

-- The same, but for the book

def Forgets (b : Booked σ) (s : σ) : Prop := b.state = s

omit [RecordStore σ] in
theorem quietly_agrees (x : Action σ α) : Agrees Forgets (quietly x) x := by
  rintro b s rfl
  exact ⟨rfl, rfl⟩

theorem draw_agrees : Agrees Forgets (draw : Action (Booked σ) Nat) RecordStore.draw := by
  have hbook (n : Nat) : Agrees Forgets (do
      Action.update fun b : Booked σ => { b with drawn := b.drawn ++ [n] }
      return n) (pure n) := fun b s h => ⟨rfl, h⟩
  have hdraw := (quietly_agrees (RecordStore.draw : Action σ Nat)).bind hbook
  rwa [bind_pure] at hdraw

theorem protect_agrees (storage : Storage) (key text : String) :
    Agrees Forgets (protect storage key text : Action (Booked σ) String) (storage.protect key text) := by
  obtain ⟨key?⟩ := storage
  cases key? with
  | none => exact Action.agrees_pure text
  | some k => exact draw_agrees.bind fun n b s h => ⟨rfl, h⟩

theorem setText_agrees (storage : Storage) (key text : String) :
    Agrees Forgets (setText storage key text : Action (Booked σ) Unit) (storage.setText key text) :=
  (protect_agrees storage key text).bind fun _ => quietly_agrees _

theorem setValue_agrees (storage : Storage) (key : String) (value : Value) :
    Agrees Forgets (setValue storage key value : Action (Booked σ) Unit) (storage.setValue key value) := by
  obtain ⟨key?⟩ := storage
  cases value with
  | text text => exact setText_agrees ⟨key?⟩ key text
  | _ =>
      cases key? with
      | none => exact Action.agrees_fail _
      | some k => exact draw_agrees.bind fun _ => Action.agrees_fail _

theorem protectAll_agrees (storage : Storage) (records : Entries String Value) :
    Agrees Forgets (protectAll storage records : Action (Booked σ) (Entries String String))
      (storage.protectAll records) := by
  induction records with
  | nil => exact Action.agrees_pure []
  | cons r rest ih =>
      refine (Action.agrees_ofExcept _).bind fun text => ?_
      exact (protect_agrees storage _ _).bind fun _ => ih.bind fun _ => Action.agrees_pure _

theorem setAll_agrees (storage : Storage) (records : Entries String Value) :
    Agrees Forgets (setAll storage records : Action (Booked σ) Unit) (storage.setAll records) :=
  (protectAll_agrees storage records).bind fun _ => quietly_agrees _

theorem set_agrees (storage : Storage) (key : String) (record : Value) :
    Agrees Forgets (set storage key record : Action (Booked σ) Unit) (storage.set key record) := by
  rw [Reliable.set_eq_setAll]
  exact setAll_agrees storage [(key, record)]

theorem protectUnder_agrees (storage : Storage) (key : Value) (text : String) :
    Agrees Forgets (protectUnder storage key text : Action (Booked σ) String)
      (storage.protectUnder key text) := by
  obtain ⟨key?⟩ := storage
  cases key with
  | text k => exact protect_agrees ⟨key?⟩ k text
  | _ =>
      cases key? with
      | none => exact Action.agrees_pure text
      | some k => exact draw_agrees.bind fun _ => Action.agrees_fail _

theorem protectValues_agrees (storage : Storage) (records : Entries Value Value) :
    Agrees Forgets (protectValues storage records : Action (Booked σ) (Entries Value Value))
      (storage.protectValues records) := by
  induction records with
  | nil => exact Action.agrees_pure []
  | cons r rest ih =>
      rw [Storage.protectValues_cons]
      refine (Action.agrees_ofExcept _).bind fun text => ?_
      exact (protectUnder_agrees storage _ _).bind fun _ => ih.bind fun _ => Action.agrees_pure _

theorem setBatch_agrees (storage : Storage) (records : Value) :
    Agrees Forgets (setBatch storage records : Action (Booked σ) Unit) (storage.setBatch records) := by
  cases records with
  | dict entries =>
      refine (protectValues_agrees storage entries).bind fun batch => ?_
      exact (Action.agrees_ofExcept _).bind fun _ => quietly_agrees _
  | _ => exact Action.agrees_fail _

end Operations

-- What is booked

section Book

variable {σ : Type} [RecordStore σ] {K : Keeping σ} {storage : Storage} {k : Seal.Key} {b c : Booked σ}

-- On the way from one state to another the nonces are drawn and the sealings are made in this
-- order, none of them with the nonce of another.
structure Books (draws : List Nat) (page : List Sealing) (b c : Booked σ) : Prop where
  drawn : c.drawn = b.drawn ++ draws
  sealings : c.sealings = b.sealings ++ page
  fresh : (page.map Sealing.drawn).Sublist draws

omit [RecordStore σ] in
theorem Books.refl (b : Booked σ) : Books [] [] b b := ⟨by simp, by simp, .slnil⟩

omit [RecordStore σ] in
theorem Books.trans {a : Booked σ} {draws draws' : List Nat} {page page' : List Sealing}
    (h : Books draws page a b) (h' : Books draws' page' b c) :
    Books (draws ++ draws') (page ++ page') a c := by
  refine ⟨?_, ?_, ?_⟩
  · rw [h'.drawn, h.drawn, List.append_assoc]
  · rw [h'.sealings, h.sealings, List.append_assoc]
  · rw [List.map_append]
    exact h.fresh.append h'.fresh

-- The store comes to hold nothing, while something may be booked.
structure Prepares (K : Keeping σ) (draws : List Nat) (page : List Sealing) (b c : Booked σ) : Prop where
  sound : K.sound c.state
  view : K.view c.state ⊆ K.view b.state
  books : Books draws page b c

theorem Prepares.refl (hs : K.sound b.state) : Prepares K [] [] b b :=
  ⟨hs, List.Subset.refl _, .refl b⟩

theorem Prepares.trans {a : Booked σ} {draws draws' : List Nat} {page page' : List Sealing}
    (h : Prepares K draws page a b) (h' : Prepares K draws' page' b c) :
    Prepares K (draws ++ draws') (page ++ page') a c :=
  ⟨h'.sound, List.Subset.trans h'.view h.view, h.books.trans h'.books⟩

theorem draw_books (hs : K.sound b.state) :
    ∃ n c, draw b = (.ok n, c) ∧ Prepares K [n] [] b c := by
  obtain ⟨n, t, hdraw, ht, hview⟩ := K.draw_eq b.state hs
  have hquiet : quietly RecordStore.draw b = (.ok n, { b with state := t }) := by
    rw [quietly, Action.onPart, hdraw]
  refine ⟨n, _, (Action.bind_of_ok hquiet).trans rfl, ht, hview, rfl, ?_, List.nil_sublist _⟩
  exact (List.append_nil _).symm

theorem protect_books (hk : storage.key = some k) (hs : K.sound b.state) (key text : String) :
    ∃ n c, protect storage key text b = (.ok (Sealing.sealedText k ⟨key, text, n⟩), c) ∧
      Prepares K [n] [⟨key, text, n⟩] b c := by
  obtain ⟨n, c, hdraw, hc, hview, hbooks⟩ := draw_books hs
  refine ⟨n, { c with sealings := c.sealings ++ [⟨key, text, n⟩] }, ?_, hc, hview, hbooks.drawn, ?_,
    List.Sublist.refl _⟩
  · rw [protect, hk]
    exact (Action.bind_of_ok hdraw).trans rfl
  · rw [hbooks.sealings, List.append_nil]

-- The batch is what was sealed; one that is not finished has been sealed in part.
theorem protectAll_books (hk : storage.key = some k) (hs : K.sound b.state)
    (records : Entries String Value) :
    ∃ r c draws page, protectAll storage records b = (r, c) ∧ Prepares K draws page b c ∧
      ∀ batch, r = .ok batch → batch = page.map fun x => (x.recordKey, x.sealedText k) := by
  induction records generalizing b with
  | nil =>
      refine ⟨_, b, [], [], rfl, .refl hs, fun batch h => ?_⟩
      cases h
      rfl
  | cons r rest ih =>
      obtain ⟨key, record⟩ := r
      cases henc : Storage.encode key record with
      | error e =>
          refine ⟨.error e, b, [], [], ?_, .refl hs, nofun⟩
          refine Action.bind_of_error ?_
          rw [henc]
          rfl
      | ok text =>
          obtain ⟨n, c₁, hprotect, hprepares₁⟩ := protect_books hk hs key text
          obtain ⟨r, c₂, draws, page, hrest, hprepares₂, hbatch⟩ := ih hprepares₁.sound
          have hall : protectAll storage ((key, record) :: rest) b =
              (do return (key, Sealing.sealedText k ⟨key, text, n⟩) :: (← protectAll storage rest)) c₁ := by
            refine (Action.bind_of_ok (a := text) (t := b) ?_).trans (Action.bind_of_ok hprotect)
            rw [henc]
            rfl
          have hprepares := hprepares₁.trans hprepares₂
          cases r with
          | error e => exact ⟨.error e, c₂, _, _, hall.trans (Action.bind_of_error hrest), hprepares, nofun⟩
          | ok batch =>
              refine ⟨_, c₂, _, _, hall.trans (Action.bind_of_ok hrest), hprepares, fun batch' h => ?_⟩
              cases h
              rw [hbatch batch rfl]
              rfl

-- A key that is no text is refused by the cipher, with a nonce drawn for nothing.
theorem protectUnder_books (hk : storage.key = some k) (hs : K.sound b.state) (key : Value) (text : String) :
    ∃ r c draws page, protectUnder storage key text b = (r, c) ∧ Prepares K draws page b c ∧
      ∀ sealedText, r = .ok sealedText → ∃ x : Sealing, page = [x] ∧ key = .text x.recordKey ∧
        sealedText = x.sealedText k := by
  by_cases hkey : ∃ name, key = .text name
  · obtain ⟨name, rfl⟩ := hkey
    obtain ⟨n, c, hprotect, hprepares⟩ := protect_books hk hs name text
    refine ⟨_, c, _, _, hprotect, hprepares, fun sealedText h => ?_⟩
    cases h
    exact ⟨_, rfl, rfl, rfl⟩
  · obtain ⟨n, c, hdraw, hprepares⟩ := draw_books hs
    refine ⟨.error (.noMember key.typeName "encode"), c, _, _, ?_, hprepares, nofun⟩
    unfold protectUnder
    rw [hk]
    cases key with
    | text name => exact absurd ⟨name, rfl⟩ hkey
    | _ => exact (Action.bind_of_ok hdraw).trans rfl

theorem protectValues_books (hk : storage.key = some k) (hs : K.sound b.state)
    (records : Entries Value Value) :
    ∃ r c draws page, protectValues storage records b = (r, c) ∧ Prepares K draws page b c ∧
      ∀ batch, r = .ok batch →
        batch = page.map fun x => (.text x.recordKey, .text (x.sealedText k)) := by
  induction records generalizing b with
  | nil =>
      refine ⟨_, b, [], [], rfl, .refl hs, fun batch h => ?_⟩
      cases h
      rfl
  | cons r rest ih =>
      obtain ⟨key, record⟩ := r
      cases henc : Storage.encode key.asText record with
      | error e =>
          refine ⟨.error e, b, [], [], ?_, .refl hs, nofun⟩
          refine Action.bind_of_error ?_
          rw [henc]
          rfl
      | ok text =>
          have hencode : (Action.ofExcept (Storage.encode key.asText record) : Action (Booked σ) String) b =
              (.ok text, b) := by
            rw [henc]
            rfl
          obtain ⟨r, c₁, draws₁, page₁, hprotect, hprepares₁, hsealed⟩ := protectUnder_books hk hs key text
          cases r with
          | error e =>
              exact ⟨.error e, c₁, _, _, (Action.bind_of_ok hencode).trans (Action.bind_of_error hprotect),
                hprepares₁, nofun⟩
          | ok sealedText =>
              obtain ⟨x, rfl, rfl, rfl⟩ := hsealed sealedText rfl
              obtain ⟨r, c₂, draws₂, page₂, hrest, hprepares₂, hbatch⟩ := ih hprepares₁.sound
              have hall : protectValues storage ((.text x.recordKey, record) :: rest) b =
                  (do return (Value.text x.recordKey, Value.text (x.sealedText k)) ::
                    (← protectValues storage rest)) c₁ :=
                (Action.bind_of_ok hencode).trans (Action.bind_of_ok hprotect)
              have hprepares := hprepares₁.trans hprepares₂
              cases r with
              | error e =>
                  exact ⟨.error e, c₂, _, _, hall.trans (Action.bind_of_error hrest), hprepares, nofun⟩
              | ok batch =>
                  refine ⟨_, c₂, _, _, hall.trans (Action.bind_of_ok hrest), hprepares, fun batch' h => ?_⟩
                  cases h
                  rw [hbatch batch rfl]
                  rfl

-- Every text that has come into the store on the way has been sealed on the way, for the record
-- that it is stored as.
def Grows (K : Keeping σ) (k : Seal.Key) (b c : Booked σ) : Prop :=
  K.sound b.state → K.sound c.state ∧ ∃ draws page, Books draws page b c ∧
    ∀ e ∈ K.view c.state, e ∈ K.view b.state ∨ ∃ x ∈ page, e = (x.recordKey, x.sealedText k)

instance (k : Seal.Key) : IsPreorder (Booked σ) (Grows K k) where
  refl b hs := ⟨hs, [], [], .refl b, fun _ he => .inl he⟩
  trans a b c hab hbc hs := by
    obtain ⟨hb, draws, page, hbooks, hentries⟩ := hab hs
    obtain ⟨hc, draws', page', hbooks', hentries'⟩ := hbc hb
    refine ⟨hc, _, _, hbooks.trans hbooks', fun e he => ?_⟩
    rcases hentries' e he with he | ⟨x, hx, he⟩
    · rcases hentries e he with he | ⟨x, hx, he⟩
      · exact .inl he
      · exact .inr ⟨x, List.mem_append_left _ hx, he⟩
    · exact .inr ⟨x, List.mem_append_right _ hx, he⟩

theorem Prepares.grows {draws : List Nat} {page : List Sealing} (h : Prepares K draws page b c) :
    Grows K k b c :=
  fun _ => ⟨h.sound, draws, page, h.books, fun _ he => .inl (h.view he)⟩

theorem quietly_grows {α : Type} {x : Action σ α}
    (hx : ∀ s, K.sound s → K.sound (x s).2 ∧ K.view (x s).2 ⊆ K.view s) :
    Within (Grows K k) (quietly x) := by
  intro b hs
  obtain ⟨hsound, hview⟩ := hx b.state hs
  have hbooks : Books [] [] b (quietly x b).2 :=
    ⟨(List.append_nil _).symm, (List.append_nil _).symm, .slnil⟩
  exact ⟨hsound, [], [], hbooks, fun _ he => .inl (hview he)⟩

theorem erase_grows (key : String) :
    Within (Grows K k) (quietly (RecordStore.erase key : Action σ Unit)) :=
  quietly_grows fun s hs => K.erase_view s key hs

-- A batch of what was sealed right before is written.
theorem put_grows {draws : List Nat} {page : List Sealing} (h : Prepares K draws page b c) :
    Grows K k b (quietly (RecordStore.put (page.map fun x => (x.recordKey, x.sealedText k))) c).2 := by
  intro _
  let batch := page.map fun x => (x.recordKey, x.sealedText k)
  obtain ⟨ht, hview⟩ := K.put_view c.state batch h.sound
  have hbooks : Books draws page b (quietly (RecordStore.put batch) c).2 :=
    ⟨h.books.drawn, h.books.sealings, h.books.fresh⟩
  refine ⟨ht, draws, page, hbooks, fun e he => ?_⟩
  refine (hview e he).imp (fun hmem => h.view hmem) fun hmem => ?_
  obtain ⟨x, hx, heq⟩ := List.mem_map.mp hmem
  exact ⟨x, hx, heq.symm⟩

theorem setText_grows (hk : storage.key = some k) (key text : String) :
    Within (Grows K k) (setText storage key text) := by
  intro b hs
  obtain ⟨n, c, hprotect, hprepares⟩ := protect_books hk hs key text
  rw [setText, Action.bind_of_ok hprotect]
  exact put_grows hprepares hs

theorem setValue_grows (hk : storage.key = some k) (key : String) (value : Value) :
    Within (Grows K k) (setValue storage key value) := by
  by_cases hvalue : ∃ text, value = .text text
  · obtain ⟨text, rfl⟩ := hvalue
    exact setText_grows hk key text
  · intro b hs
    obtain ⟨n, c, hdraw, hprepares⟩ := draw_books hs
    have hset : setValue storage key value b = (.error (.noMember value.typeName "encode"), c) := by
      unfold setValue
      rw [hk]
      cases value with
      | text text => exact absurd ⟨text, rfl⟩ hvalue
      | _ => exact (Action.bind_of_ok hdraw).trans rfl
    rw [hset]
    exact hprepares.grows hs

theorem setAll_grows (hk : storage.key = some k) (records : Entries String Value) :
    Within (Grows K k) (setAll storage records) := by
  intro b hs
  obtain ⟨r, c, draws, page, hprotect, hprepares, hbatch⟩ := protectAll_books hk hs records
  cases r with
  | error e =>
      rw [setAll, Action.bind_of_error hprotect]
      exact hprepares.grows hs
  | ok batch =>
      rw [setAll, Action.bind_of_ok hprotect, hbatch batch rfl]
      exact put_grows hprepares hs

theorem set_grows (hk : storage.key = some k) (key : String) (record : Value) :
    Within (Grows K k) (set storage key record) :=
  setAll_grows hk [(key, record)]

theorem textRecords_map (page : List Sealing) :
    textRecords (page.map fun x => (.text x.recordKey, .text (x.sealedText k))) =
      .ok (page.map fun x => (x.recordKey, x.sealedText k)) := by
  induction page with
  | nil => rfl
  | cons x page ih =>
      rw [List.map_cons, textRecords, ih]
      rfl

theorem setBatch_grows (hk : storage.key = some k) (records : Value) :
    Within (Grows K k) (setBatch storage records) := by
  cases records with
  | dict entries =>
      intro b hs
      obtain ⟨r, c, draws, page, hprotect, hprepares, hbatch⟩ := protectValues_books hk hs entries
      cases r with
      | error e =>
          have hset : setBatch storage (.dict entries) b = (.error e, c) := Action.bind_of_error hprotect
          rw [hset]
          exact hprepares.grows hs
      | ok batch =>
          obtain rfl := hbatch batch rfl
          have hset : setBatch storage (.dict entries) b =
              quietly (RecordStore.put (page.map fun x => (x.recordKey, x.sealedText k))) c := by
            refine (Action.bind_of_ok hprotect).trans (Action.bind_of_ok ?_)
            rw [textRecords_map]
            rfl
          rw [hset]
          exact put_grows hprepares hs
  | _ => exact Action.within_fail _

end Book

end Booked

end Coffer
