import Coffer.Proofs.Store.Alike
import Coffer.Proofs.Store.Calm
import Coffer.Proofs.Wallet.Order

-- Whether records are sealed makes no difference to any answer.

namespace Coffer.Wallet.Session

open Coffer.Action (Agrees)

-- Sessions on stores whose records open to the same plain texts

section Sessions

variable {σ τ α : Type} [RecordStore σ] [RecordStore τ]

structure AlikeSessions (B : Reliable σ) (C : Reliable τ) (S T : Storage) (s : Session σ)
    (t : Session τ) : Prop where
  left : s.storage = S
  right : t.storage = T
  registry : s.registry = t.registry
  stores : Alike B C S T s.store t.store

variable {B : Reliable σ} {C : Reliable τ} {S T : Storage}

theorem onStore_agrees {f : Storage → Action σ α} {g : Storage → Action τ α}
    (h : Agrees (Alike B C S T) (f S) (g T)) :
    Agrees (AlikeSessions B C S T) (onStore f) (onStore g) := by
  rintro ⟨storage, registry, st⟩ ⟨storage', registry', st'⟩ ⟨hS, hT, hregistry, hstores⟩
  obtain rfl : storage = S := hS
  obtain rfl : storage' = T := hT
  obtain ⟨hresult, hstates⟩ := h st st' hstores
  exact ⟨hresult, rfl, rfl, hregistry, hstates⟩

theorem setRegistry_agrees (is : List Value) :
    Agrees (AlikeSessions B C S T) (setRegistry is) (setRegistry is) :=
  fun _ _ h => ⟨rfl, h.left, h.right, rfl, h.stores⟩

theorem get_agrees (key : String) (schema : Json.Schema) :
    Agrees (AlikeSessions B C S T) (onStore fun storage => storage.get key schema)
      (onStore fun storage => storage.get key schema) :=
  onStore_agrees (Storage.get_agrees key schema)

theorem loadRegistry_agrees : Agrees (AlikeSessions B C S T) loadRegistry loadRegistry := by
  intro s t h
  unfold loadRegistry
  rw [h.registry]
  cases t.registry with
  | some is => exact ⟨rfl, h⟩
  | none =>
      refine ((get_agrees registryKey registrySchema).attempt.bind fun found => ?_) s t h
      rcases found with e | v
      · cases e with
        | notFound _ => exact (setRegistry_agrees []).bind fun _ => Action.agrees_pure _
        | _ => exact Action.agrees_fail _
      · exact (setRegistry_agrees _).bind fun _ => Action.agrees_pure _

-- Accounts

theorem saveAccount_agrees (hB : B.Faultless) (hC : C.Faultless) (a : Account) :
    Agrees (AlikeSessions B C S T) (saveAccount a) (saveAccount a) := by
  refine Agrees.bind loadRegistry_agrees fun is => ?_
  refine (onStore_agrees (Storage.setAll_agrees hB hC _)).bind fun _ => ?_
  exact setRegistry_agrees _

theorem removeAccount_agrees (hB : B.Faultless) (hC : C.Faultless) (index : Value) :
    Agrees (AlikeSessions B C S T) (removeAccount index) (removeAccount index) := by
  refine Agrees.bind loadRegistry_agrees fun is => ?_
  refine (onStore_agrees (Storage.remove_agrees hB hC _)).bind fun _ => ?_
  refine (setRegistry_agrees _).bind fun _ => ?_
  exact onStore_agrees (Storage.set_agrees hB hC _ _)

theorem getAccount_agrees (index : Value) :
    Agrees (AlikeSessions B C S T) (getAccount index) (getAccount index) :=
  get_agrees _ _

theorem getRegistered_agrees (is : List Value) :
    Agrees (AlikeSessions B C S T) (getRegistered is) (getRegistered is) := by
  induction is with
  | nil => exact Action.agrees_pure []
  | cons index is ih =>
      refine ((getAccount_agrees index).orElse fun e => ?_).bind fun account => ?_
      · cases e with
        | notFound _ => exact Action.agrees_fail _
        | _ => exact Action.agrees_fail _
      · exact ih.bind fun _ => Action.agrees_pure _

theorem getAccounts_agrees : Agrees (AlikeSessions B C S T) getAccounts getAccounts :=
  Agrees.bind loadRegistry_agrees getRegistered_agrees

-- The configuration

theorem saveBuilder_agrees (hB : B.Faultless) (hC : C.Faultless) (b : Builder) :
    Agrees (AlikeSessions B C S T) (saveBuilder b) (saveBuilder b) := by
  refine (Action.agrees_ofExcept _).bind fun snapshot? => ?_
  cases snapshot? with
  | none => exact onStore_agrees (Storage.set_agrees hB hC _ _)
  | some snapshot =>
      refine (Action.agrees_ofExcept _).bind fun persists => ?_
      cases persists with
      | true =>
          simp only [if_true]
          exact onStore_agrees (Storage.setAll_agrees hB hC _)
      | false =>
          refine (onStore_agrees (Storage.set_agrees hB hC _ _)).bind fun _ => ?_
          exact onStore_agrees (Storage.remove_agrees hB hC _)

theorem getIfPresent_agrees (key : String) (schema : Json.Schema) :
    Agrees (AlikeSessions B C S T) (getIfPresent key schema) (getIfPresent key schema) := by
  refine (get_agrees key schema).attempt.bind fun found => ?_
  rcases found with e | v
  · cases e with
    | notFound _ => exact Action.agrees_pure none
    | _ => exact Action.agrees_fail _
  · exact Action.agrees_pure (some v)

theorem getBuilder_agrees : Agrees (AlikeSessions B C S T) getBuilder getBuilder := by
  refine (getIfPresent_agrees _ _).bind fun v? => ?_
  cases v? with
  | none => exact Action.agrees_pure none
  | some v =>
      refine (getIfPresent_agrees _ _).bind fun w? => ?_
      cases w? with
      | none => exact Action.agrees_pure _
      | some w =>
          refine (Action.agrees_ofExcept _).bind fun persists => ?_
          cases persists with
          | true => exact (Action.agrees_ofExcept _).bind fun _ => Action.agrees_pure _
          | false => exact Action.agrees_pure _

theorem resaveBuilder_agrees (hB : B.Faultless) (hC : C.Faultless) :
    Agrees (AlikeSessions B C S T) resaveBuilder resaveBuilder := by
  refine getBuilder_agrees.bind fun b? => ?_
  cases b? with
  | none => exact Action.agrees_fail _
  | some b => exact saveBuilder_agrees hB hC b

-- The notice of the gate names the kind of the store, its answer does not.
theorem gate_agrees (hB : B.Faultless) (hC : C.Faultless) (version : Value) :
    Agrees (Alike B C S T) (gate S version) (gate T version) := by
  refine (Action.agrees_ofExcept _).bind fun inRange => ?_
  cases inRange with
  | false => exact Action.agrees_fail _
  | true =>
      simp only [Bool.not_true, Bool.false_eq_true, if_false]
      refine Action.agrees_of_reading _ _ fun label label' => ?_
      refine (Storage.get_agrees versionKey .any).attempt.bind fun found => ?_
      rcases found with e | v
      · cases e with
        | notFound _ => exact (Storage.note_agrees _ _).bind fun _ => Storage.set_agrees hB hC _ _
        | unreadable _ _ _ => exact Action.agrees_fail _
        | _ => exact Action.agrees_fail _
      · dsimp only
        split
        · exact Action.agrees_pure ()
        · exact (Storage.note_agrees _ _).bind fun _ => Action.agrees_fail _

-- What can be asked of a session

inductive Reply where
  | done
  | text (s : String)
  | value (v : Value)
  | values (vs : List Value)
  | builder (b? : Option Builder)
  | unopened

def answer : Deed → Action (Session σ) Reply
  | .save a => do
      saveAccount a
      return .done
  | .remove index => do
      removeAccount index
      return .done
  | .getAccount index => return .value (← getAccount index)
  | .getAccounts => return .values (← getAccounts)
  | .getIndexes => return .values (← loadRegistry)
  | .saveBuilder b => do
      saveBuilder b
      return .done
  | .resaveBuilder => do
      resaveBuilder
      return .done
  | .getBuilder => return .builder (← getBuilder)
  | .get key schema => return .value (← onStore fun storage => storage.get key schema)

theorem answer_agrees (hB : B.Faultless) (hC : C.Faultless) (deed : Deed) :
    Agrees (AlikeSessions B C S T) (answer deed) (answer deed) := by
  cases deed with
  | save a => exact (saveAccount_agrees hB hC a).bind fun _ => Action.agrees_pure _
  | remove index => exact (removeAccount_agrees hB hC index).bind fun _ => Action.agrees_pure _
  | getAccount index => exact (getAccount_agrees index).bind fun _ => Action.agrees_pure _
  | getAccounts => exact getAccounts_agrees.bind fun _ => Action.agrees_pure _
  | getIndexes => exact Agrees.bind loadRegistry_agrees fun _ => Action.agrees_pure _
  | saveBuilder b => exact (saveBuilder_agrees hB hC b).bind fun _ => Action.agrees_pure _
  | resaveBuilder => exact (resaveBuilder_agrees hB hC).bind fun _ => Action.agrees_pure _
  | getBuilder => exact getBuilder_agrees.bind fun _ => Action.agrees_pure _
  | get key schema => exact (get_agrees key schema).bind fun _ => Action.agrees_pure _

end Sessions

-- One store with the storage and the sessions that go by it

-- Every open session has the registry that it has loaded, if it has.
structure Desk where
  store : Seat Backend
  sessions : Nat → Option (Option (List Value))

def Desk.unused (st : Seat Backend) : Desk := ⟨st, fun _ => none⟩

inductive Call where
  | get (key : String) (schema : Json.Schema)
  | getRaw (key : String)
  | set (key : String) (record : Value)
  | setRaw (key text : String)
  | setBatch (records : Entries String Value)
  | remove (key : String)
  | openSession (i : Nat) (version : Value)
  | ask (i : Nat) (deed : Deed)
  | reopen (kind : BackendKind) (threshold : Int)

def onDesk (x : Action (Seat Backend) Reply) : Action Desk Reply :=
  Action.onPart Desk.store (fun d store => { d with store }) x

-- A session that is refused leaves the one there was, if any.
def openSession (storage : Storage) (i : Nat) (version : Value) : Action Desk Reply := fun d =>
  match gate storage version d.store with
  | (.ok (), t) => (.ok .done, ⟨t, Function.update d.sessions i (some none)⟩)
  | (.error e, t) => (.error e, { d with store := t })

def ask (storage : Storage) (i : Nat) (deed : Deed) : Action Desk Reply := fun d =>
  match d.sessions i with
  | none => (.ok .unopened, d)
  | some registry =>
      match answer deed ⟨storage, registry, d.store⟩ with
      | (r, s) => (r, ⟨s.store, Function.update d.sessions i (some s.registry)⟩)

-- When the store is closed and opened again, all sessions are over.
def reopenDesk (kind : BackendKind) (threshold : Int) : Action Desk Reply := fun d =>
  match Backend.reopen kind threshold d.store with
  | (r, t) => (r.map fun _ => .done, .unused t)

def serve (storage : Storage) : Call → Action Desk Reply
  | .get key schema => onDesk do return .value (← storage.get key schema)
  | .getRaw key => onDesk do return .text (← storage.getText key)
  | .set key record => onDesk do
      storage.set key record
      return .done
  | .setRaw key text => onDesk do
      storage.setValue key (.text text)
      return .done
  | .setBatch records => onDesk do
      storage.setBatch (Value.ofMembers records)
      return .done
  | .remove key => onDesk do
      storage.remove key
      return .done
  | .openSession i version => openSession storage i version
  | .ask i deed => ask storage i deed
  | .reopen kind threshold => reopenDesk kind threshold

def answers (storage : Storage) (d : Desk) : List Call → List (Except Failure Reply)
  | [] => []
  | call :: rest => (serve storage call d).1 :: answers storage (serve storage call d).2 rest

section Desks

variable {lasting lasting' : Prop} {S T : Storage}

structure AlikeDesks (lasting lasting' : Prop) (S T : Storage) (d e : Desk) : Prop where
  sessions : d.sessions = e.sessions
  stores : Alike (Backend.calm lasting) (Backend.calm lasting') S T d.store e.store

theorem onDesk_agrees {x y : Action (Seat Backend) Reply}
    (h : Agrees (Alike (Backend.calm lasting) (Backend.calm lasting') S T) x y) :
    Agrees (AlikeDesks lasting lasting' S T) (onDesk x) (onDesk y) := by
  rintro d e ⟨hsessions, hstores⟩
  obtain ⟨hresult, hstates⟩ := h d.store e.store hstores
  exact ⟨hresult, hsessions, hstates⟩

theorem openSession_agrees (i : Nat) (version : Value) :
    Agrees (AlikeDesks lasting lasting' S T) (openSession S i version) (openSession T i version) := by
  rintro d e ⟨hsessions, hstores⟩
  obtain ⟨hresult, hstates⟩ := gate_agrees (Backend.calm_faultless lasting)
    (Backend.calm_faultless lasting') version d.store e.store hstores
  unfold openSession
  rcases hd : gate S version d.store with ⟨r, s⟩
  rcases he : gate T version e.store with ⟨r', t⟩
  rw [hd, he] at hresult hstates
  obtain rfl : r = r' := hresult
  cases r with
  | ok u => exact ⟨rfl, congrArg (Function.update · i (some none)) hsessions, hstates⟩
  | error f => exact ⟨rfl, hsessions, hstates⟩

theorem ask_agrees (i : Nat) (deed : Deed) :
    Agrees (AlikeDesks lasting lasting' S T) (ask S i deed) (ask T i deed) := by
  rintro d e ⟨hsessions, hstores⟩
  unfold ask
  rw [hsessions]
  cases e.sessions i with
  | none => exact ⟨rfl, hsessions, hstores⟩
  | some registry =>
      obtain ⟨hresult, hleft, hright, hregistry, hstates⟩ := answer_agrees
        (Backend.calm_faultless lasting) (Backend.calm_faultless lasting') deed
        ⟨S, registry, d.store⟩ ⟨T, registry, e.store⟩ ⟨rfl, rfl, rfl, hstores⟩
      have hsessions' := congrArg (fun is => Function.update e.sessions i (some is)) hregistry
      exact ⟨hresult, hsessions', hstates⟩

theorem reopenDesk_agrees (hlasting : lasting) (hlasting' : lasting') (kind : BackendKind)
    (threshold : Int) :
    Agrees (AlikeDesks lasting lasting' S T) (reopenDesk kind threshold)
      (reopenDesk kind threshold) := by
  rintro d e ⟨hsessions, hstores⟩
  obtain ⟨plain, hd, he⟩ := hstores.plain
  obtain ⟨s, hreopen, hs, hview⟩ := Backend.calm_reopen hstores.left hlasting kind threshold
  obtain ⟨t, hreopen', ht, hview'⟩ := Backend.calm_reopen hstores.right hlasting' kind threshold
  unfold reopenDesk
  rw [hreopen, hreopen']
  exact ⟨rfl, rfl, hs, ht, plain, hview ▸ hd, hview' ▸ he⟩

theorem serve_agrees (call : Call)
    (hlasting : ∀ kind threshold, call = .reopen kind threshold → lasting ∧ lasting') :
    Agrees (AlikeDesks lasting lasting' S T) (serve S call) (serve T call) := by
  have hB := Backend.calm_faultless lasting
  have hC := Backend.calm_faultless lasting'
  cases call with
  | get key schema =>
      exact onDesk_agrees ((Storage.get_agrees key schema).bind fun _ => Action.agrees_pure _)
  | getRaw key => exact onDesk_agrees ((Storage.getText_agrees key).bind fun _ => Action.agrees_pure _)
  | set key record =>
      exact onDesk_agrees ((Storage.set_agrees hB hC key record).bind fun _ => Action.agrees_pure _)
  | setRaw key text =>
      exact onDesk_agrees ((Storage.setText_agrees hB hC key text).bind fun _ => Action.agrees_pure _)
  | setBatch records =>
      exact onDesk_agrees ((Storage.setBatch_agrees hB hC records).bind fun _ => Action.agrees_pure _)
  | remove key =>
      exact onDesk_agrees ((Storage.remove_agrees hB hC key).bind fun _ => Action.agrees_pure _)
  | openSession i version => exact openSession_agrees i version
  | ask i deed => exact ask_agrees i deed
  | reopen kind threshold =>
      obtain ⟨hl, hl'⟩ := hlasting kind threshold rfl
      exact reopenDesk_agrees hl hl' kind threshold

theorem answers_agree {d e : Desk} (h : AlikeDesks lasting lasting' S T d e) (calls : List Call)
    (hlasting : ∀ kind threshold, .reopen kind threshold ∈ calls → lasting ∧ lasting') :
    answers S d calls = answers T e calls := by
  induction calls generalizing d e with
  | nil => rfl
  | cons call rest ih =>
      obtain ⟨hresult, hstates⟩ := serve_agrees call (fun kind threshold hcall =>
        hlasting kind threshold (hcall ▸ List.mem_cons_self)) d e h
      have hrest := ih hstates fun kind threshold hcall =>
        hlasting kind threshold (List.mem_cons_of_mem _ hcall)
      rw [answers, answers, hresult, hrest]

end Desks

-- On a new store that nothing goes wrong with, all calls have the same answers with a key as without
-- one: the same values, and the same failures.
theorem answers_with_key (key : Seal.Key) {st : Seat Backend} (hst : Backend.Begun st)
    (calls : List Call)
    (hreopen : ∀ kind threshold, .reopen kind threshold ∈ calls → Backend.Lasts st) :
    answers ⟨some key⟩ (.unused st) calls = answers ⟨none⟩ (.unused st) calls := by
  have hsound := hst.sound
  have hview := hst.view_eq
  have hcalls : ∀ kind threshold, .reopen kind threshold ∈ calls →
      Backend.Lasts st ∧ Backend.Lasts st := fun kind threshold hcall =>
    ⟨hreopen kind threshold hcall, hreopen kind threshold hcall⟩
  refine answers_agree ⟨rfl, hsound, hsound, [], ?_, ?_⟩ calls hcalls
  · rw [Desk.unused, hview]
    exact .nil
  · rw [Desk.unused, hview]
    exact .nil

-- Two sessions are open at a time, the first saves over a registry that is no longer readable, and
-- the store is closed and opened.
theorem answers_with_key_of_unreadable_texts :
    ∃ (h : Host) (l : LogStore) (key : Seal.Key) (calls : List Call),
      LogStore.openAt ⟨.here, ["wallet"]⟩ 0 Host.empty = (.ok l, h) ∧ Backend.Begun ⟨h, .log l⟩ ∧
      Backend.Lasts ⟨h, .log l⟩ ∧
      calls = [.getRaw "a", .openSession 0 (.int 1), .openSession 1 (.int 2),
        .openSession 1 (.int 1), .ask 0 (.save (.ofIndex (.int 7))),
        .setBatch [("a", .bytes [0, 255]), ("b", .int 3)], .setRaw registryKey "[7,", .remove "b",
        .ask 1 .getAccounts, .ask 0 (.save (.ofIndex (.int 8))), .reopen .log 1, .ask 0 .getIndexes,
        .openSession 2 (.int 1), .ask 2 .getAccounts, .ask 2 .getBuilder] ∧
      answers ⟨some key⟩ (.unused ⟨h, .log l⟩) calls = answers ⟨none⟩ (.unused ⟨h, .log l⟩) calls := by
  obtain ⟨l, h, hopen, hempty⟩ : ∃ l h,
      LogStore.openAt ⟨.here, ["wallet"]⟩ 0 Host.empty = (.ok l, h) ∧ l.records = [] :=
    ⟨_, _, rfl, rfl⟩
  have hst : Backend.Begun ⟨h, .log l⟩ := .log _ _ _ _ _ Disk.empty_sound Host.empty_spares hopen hempty
  have hlasts : Backend.Lasts ⟨h, .log l⟩ := nofun
  exact ⟨h, l, ⟨List.replicate 32 0, rfl⟩, _, hopen, hst, hlasts, rfl,
    answers_with_key _ hst _ fun _ _ _ => hlasts⟩

end Coffer.Wallet.Session
