import Coffer.Proofs.Store.Simulation

-- Stores on one directory share its document. Each commit goes into the document as the last one
-- left it, whoever made that one, and a store answers with what it saw when it last looked.

namespace Coffer.Sharing

open DocumentStore (Kept Document Follows)

-- A store of documents looks at its document for every change, and when it is opened again.
def looksOf : Request → Bool
  | .set _ _ | .put _ | .erase _ => true
  | .get _ | .keys => false
  | .reopen kind _ => kind = .document

-- What can be done to the stores of a host, each under a number of its own.
inductive Call where
  | opens (i : Nat) (directory : PathName)
  | reload (i : Nat)
  | ask (i : Nat) (request : Request)

namespace Call

def store : Call → Nat
  | .opens i _ | .reload i | .ask i _ => i

-- What the call makes of the document.
def apply (document : Entries String String) : Call → Entries String String
  | .opens _ _ | .reload _ => document
  | .ask _ request => request.apply document

-- After the call its store has seen the document.
def looks : Call → Bool
  | .opens _ _ | .reload _ => true
  | .ask _ request => looksOf request

-- The numbers of the stores that have been opened.
def opened (numbers : List Nat) : Call → List Nat
  | .opens i _ => i :: numbers
  | .reload _ | .ask _ _ => numbers

end Call

-- The document that the calls leave, one commit after the other.
def documentAfter (document : Entries String String) (calls : List Call) : Entries String String :=
  calls.foldl Call.apply document

-- No store is called before it has been opened.
def Legal (numbers : List Nat) : List Call → Prop
  | [] => True
  | call :: rest => call.store ∈ call.opened numbers ∧ Legal (call.opened numbers) rest

structure World where
  host : Host
  stores : Nat → Option Backend

namespace World

def onStore (w : World) (i : Nat) (f : Seat Backend → Answer × Seat Backend) : Answer × World :=
  match w.stores i with
  | none => (.done (.ok ()), w)
  | some b => (f ⟨w.host, b⟩).map id fun s => ⟨s.host, Function.update w.stores i (some s.store)⟩

def serve (w : World) : Call → Answer × World
  | .opens i directory =>
      match DocumentStore.openAt directory w.host with
      | (.ok d, h) => (.done (.ok ()), ⟨h, Function.update w.stores i (some (.document d))⟩)
      | (.error e, h) => (.done (.error e), { w with host := h })
  | .reload i => w.onStore i fun s => (Backend.reload s).map .done id
  | .ask i request => w.onStore i fun s => Backend.serve s request

def run (w : World) (calls : List Call) : World := calls.foldl (fun w call => (w.serve call).2) w

end World

section

variable {names : PathName → Prop} {place : Place} {w : World} {document : Entries String String}
  {numbers : List Nat}

-- The document is there under all the names of its directory, whatever each store has last seen
-- of it.
structure Shared (names : PathName → Prop) (place : Place) (w : World)
    (document : Entries String String) (numbers : List Nat) : Prop where
  calm : ∀ call, w.host.Spares call
  kept : ∀ directory, names directory → Kept w.host ⟨directory, document⟩ place
  stores : ∀ i ∈ numbers, ∃ d, w.stores i = some (.document d) ∧ names d.directory

-- How a call ends: nothing fails, only its own store changes, and after a look that store has
-- the document.
structure Ended (names : PathName → Prop) (place : Place) (w : World)
    (document : Entries String String) (numbers : List Nat) (call : Call) (w' : World) : Prop where
  shared : Shared names place w' (call.apply document) (call.opened numbers)
  others : ∀ i ≠ call.store, w'.stores i = w.stores i
  looked : call.looks = true → ∃ directory, w'.stores call.store =
    some (.document ⟨directory, call.apply document⟩)
  ignored : call.looks = false → w' = w

theorem onStore_of_eq {i : Nat} {b : Backend} {f : Seat Backend → Answer × Seat Backend}
    {a : Answer} {s : Seat Backend} (hb : w.stores i = some b) (hf : f ⟨w.host, b⟩ = (a, s)) :
    w.onStore i f = (a, ⟨s.host, Function.update w.stores i (some s.store)⟩) := by
  simp only [World.onStore, hb, hf, Prod.map_apply, id]

-- One store has seen the document that the host has now.
theorem ended_of_looked (hs : Shared names place w document numbers) {call : Call} {h' : Host}
    {directory : PathName} (hname : names directory) (hlooks : call.looks = true)
    (hcalm : ∀ c, w.host.Spares c → h'.Spares c)
    (hfollows : Follows w.host h' place document (call.apply document))
    (hlegal : ∀ i ∈ call.opened numbers, i ≠ call.store → i ∈ numbers) :
    Ended names place w document numbers call
      ⟨h', Function.update w.stores call.store
        (some (.document ⟨directory, call.apply document⟩))⟩ where
  shared := by
    refine ⟨fun c => hcalm c (hs.calm c), fun d hd => hfollows d (hs.kept d hd), fun i hi => ?_⟩
    by_cases hi' : i = call.store
    · refine ⟨⟨directory, call.apply document⟩, ?_, hname⟩
      rw [hi']
      exact Function.update_self ..
    · obtain ⟨d, hd, hdname⟩ := hs.stores i (hlegal i hi hi')
      exact ⟨d, (Function.update_of_ne hi' ..).trans hd, hdname⟩
  others i hi := Function.update_of_ne hi ..
  looked _ := ⟨directory, Function.update_self ..⟩
  ignored h := by rw [hlooks] at h; cases h

-- A request of a store that may have missed commits.

theorem serve_looking {h : Host} {d : DocumentStore} {request : Request}
    (hcalm : ∀ call, h.Spares call) (hd : Kept h ⟨d.directory, document⟩ place)
    (hlooks : looksOf request = true) :
    ∃ h', Backend.serve ⟨h, .document d⟩ request =
        (.done (.ok ()), ⟨h', .document ⟨d.directory, request.apply document⟩⟩) ∧
      h.Keeps h' ∧ Follows h h' place document (request.apply document) := by
  have hput (batch : Entries String String) : ∃ h', Backend.put batch ⟨h, .document d⟩ =
      (.ok (), ⟨h', .document ⟨d.directory, document.putAll batch⟩⟩) ∧ h.Keeps h' ∧
      Follows h h' place document (document.putAll batch) := by
    rcases DocumentStore.put_follows (s := ⟨h, d⟩) hd batch with
      ⟨-, -, -, -, -, hspares⟩ | ⟨h', hput, hk, hfollows⟩
    · exact absurd hcalm hspares
    · exact ⟨h', Seat.focus_of_eq hput, hk, hfollows⟩
  cases request with
  | set key value =>
      obtain ⟨h', hset, hk, hfollows⟩ := hput [(key, value)]
      refine ⟨h', ?_, hk, hfollows⟩
      rw [Backend.serve, Backend.putAt_text, hset]
      rfl
  | put batch =>
      obtain ⟨h', hput, hk, hfollows⟩ := hput batch
      refine ⟨h', ?_, hk, hfollows⟩
      rw [Backend.serve, hput]
      rfl
  | erase key =>
      rcases DocumentStore.erase_follows (s := ⟨h, d⟩) hd key with
        ⟨-, -, -, -, -, hspares⟩ | ⟨h', herase, hk, hfollows⟩
      · exact absurd hcalm hspares
      · have herased : Backend.erase key ⟨h, .document d⟩ =
            (.ok (), ⟨h', .document ⟨d.directory, document.erase key⟩⟩) := Seat.focus_of_eq herase
        refine ⟨h', ?_, hk, hfollows⟩
        rw [Backend.serve, herased]
        rfl
  | get key => cases hlooks
  | keys => cases hlooks
  | reopen kind threshold =>
      obtain rfl : kind = .document := of_decide_eq_true hlooks
      have hclose : Backend.close ⟨h, .document d⟩ = (.ok (), ⟨h, .document d⟩) := rfl
      have hreopen : Backend.reopen .document threshold ⟨h, .document d⟩ =
          (.ok (), ⟨h, .document ⟨d.directory, document⟩⟩) := by
        refine (Action.bind_of_ok hclose).trans ?_
        have hopen := DocumentStore.openAt_of_kept hd
        exact (Action.bind_of_ok (Seat.onHost_of_eq hopen)).trans rfl
      refine ⟨h, ?_, Host.Keeps.refl h, fun _ ht => ht⟩
      rw [Backend.serve, hreopen]
      rfl

theorem serve_ignoring (document : Entries String String) (h : Host) (d : DocumentStore)
    {request : Request} (hlooks : looksOf request = false) :
    request.apply document = document ∧
      ∃ a, Backend.serve ⟨h, .document d⟩ request = (a, ⟨h, .document d⟩) := by
  cases request with
  | get key => exact ⟨rfl, _, rfl⟩
  | keys => exact ⟨rfl, _, rfl⟩
  | reopen kind threshold =>
      cases kind with
      | document => cases hlooks
      | _ => exact ⟨rfl, _, rfl⟩
  | _ => cases hlooks

-- A call of a store among others.

theorem ended_of_ask (hs : Shared names place w document numbers) {i : Nat} (hi : i ∈ numbers)
    (request : Request) :
    ∃ a w', w.serve (.ask i request) = (a, w') ∧
      Ended names place w document numbers (.ask i request) w' ∧
      (looksOf request = true → a = .done (.ok ())) := by
  obtain ⟨d, hd, hname⟩ := hs.stores i hi
  cases hlooks : looksOf request with
  | true =>
      obtain ⟨h', hserve, hk, hfollows⟩ := serve_looking hs.calm (hs.kept _ hname) hlooks
      have hended : Ended names place w document numbers (.ask i request) _ :=
        ended_of_looked hs hname hlooks hk.spares hfollows fun j hj _ => hj
      have hasked := onStore_of_eq (f := fun s => Backend.serve s request) hd hserve
      exact ⟨_, _, hasked, hended, fun _ => rfl⟩
  | false =>
      obtain ⟨happly, a, hserve⟩ := serve_ignoring document w.host d hlooks
      have hasked : w.serve (.ask i request) = (a, w) := by
        refine (onStore_of_eq (f := fun s => Backend.serve s request) hd hserve).trans ?_
        rw [← hd, Function.update_eq_self]
      refine ⟨a, w, hasked, ⟨?_, fun _ _ => rfl, fun h => ?_, fun _ => rfl⟩, fun h => by cases h⟩
      · have hsame : (Call.ask i request).apply document = document := happly
        rw [hsame]
        exact hs
      · cases hlooks.symm.trans h

theorem serve_ended (hs : Shared names place w document numbers) {call : Call}
    (hlegal : call.store ∈ call.opened numbers)
    (hnames : ∀ i directory, call = .opens i directory → names directory) :
    ∃ a w', w.serve call = (a, w') ∧ Ended names place w document numbers call w' ∧
      (call.looks = true → a = .done (.ok ())) := by
  cases call with
  | opens i directory =>
      have hname := hnames i directory rfl
      have hopen := DocumentStore.openAt_of_kept (hs.kept directory hname)
      have hended : Ended names place w document numbers (.opens i directory) _ :=
        ended_of_looked hs hname rfl (fun _ h => h) (fun _ h => h)
          fun j hj hne => (List.mem_cons.mp hj).resolve_left hne
      refine ⟨.done (.ok ()), _, ?_, hended, fun _ => rfl⟩
      simp only [World.serve, hopen]
      rfl
  | reload i =>
      obtain ⟨d, hd, hname⟩ := hs.stores i hlegal
      have hreload : (Backend.reload ⟨w.host, .document d⟩).map Answer.done id =
          (.done (.ok ()), ⟨w.host, .document ⟨d.directory, document⟩⟩) := by
        have hload := DocumentStore.reload_of_kept (s := ⟨w.host, d⟩) (hs.kept _ hname)
        exact congrArg (Prod.map Answer.done id) (Seat.focus_of_eq hload)
      have hended : Ended names place w document numbers (.reload i) _ :=
        ended_of_looked hs hname rfl (fun _ h => h) (fun _ h => h) fun j hj _ => hj
      have hasked := onStore_of_eq (f := fun s => (Backend.reload s).map .done id) hd hreload
      exact ⟨_, _, hasked, hended, fun _ => rfl⟩
  | ask i request => exact ended_of_ask hs hlegal request

-- A run of calls.

theorem run_cons (hs : Shared names place w document numbers) {call : Call} {rest : List Call}
    (hlegal : Legal numbers (call :: rest))
    (hnames : ∀ i directory, .opens i directory ∈ call :: rest → names directory) :
    ∃ w', w.run (call :: rest) = w'.run rest ∧ Ended names place w document numbers call w' := by
  obtain ⟨a, w', hserve, hended, -⟩ := serve_ended hs hlegal.1 fun i directory hopens =>
    hnames i directory (by rw [hopens]; exact List.mem_cons_self)
  refine ⟨w', ?_, hended⟩
  rw [World.run, List.foldl_cons, hserve]
  rfl

theorem run_shared (hs : Shared names place w document numbers) {calls : List Call}
    (hlegal : Legal numbers calls)
    (hnames : ∀ i directory, .opens i directory ∈ calls → names directory) :
    Shared names place (w.run calls) (documentAfter document calls)
      (calls.foldl Call.opened numbers) := by
  induction calls generalizing w document numbers with
  | nil => exact hs
  | cons call rest ih =>
      obtain ⟨w', hrun, hended⟩ := run_cons hs hlegal hnames
      rw [hrun]
      exact ih hended.shared hlegal.2 fun i directory hmem =>
        hnames i directory (List.mem_cons_of_mem _ hmem)

-- A store that does not look keeps what it has seen, whatever the others do.
theorem run_of_not_looking (hs : Shared names place w document numbers) {calls : List Call}
    (hlegal : Legal numbers calls)
    (hnames : ∀ i directory, .opens i directory ∈ calls → names directory) {i : Nat}
    (hlooks : ∀ call ∈ calls, call.store = i → call.looks = false) :
    (w.run calls).stores i = w.stores i := by
  induction calls generalizing w document numbers with
  | nil => rfl
  | cons call rest ih =>
      obtain ⟨w', hrun, hended⟩ := run_cons hs hlegal hnames
      have hstill : w'.stores i = w.stores i := by
        by_cases hi : i = call.store
        · rw [hended.ignored (hlooks call List.mem_cons_self hi.symm)]
        · exact hended.others i hi
      rw [hrun, ← hstill]
      exact ih hended.shared hlegal.2
        (fun i directory hmem => hnames i directory (List.mem_cons_of_mem _ hmem))
        fun c hc => hlooks c (List.mem_cons_of_mem _ hc)

theorem legal_append {before after : List Call} :
    Legal numbers (before ++ after) ↔
      Legal numbers before ∧ Legal (before.foldl Call.opened numbers) after := by
  induction before generalizing numbers with
  | nil => simp [Legal]
  | cons call rest ih => rw [List.cons_append, Legal, Legal, ih, List.foldl_cons, and_assoc]

theorem run_append (w : World) (before after : List Call) :
    w.run (before ++ after) = (w.run before).run after := List.foldl_append ..

-- A call in a run: everything before it has gone well, and so does it.
theorem serve_in_run (hs : Shared names place w document numbers) {before after : List Call}
    {call : Call} (hlegal : Legal numbers (before ++ call :: after))
    (hnames : ∀ i directory, .opens i directory ∈ before ++ call :: after → names directory) :
    ∃ a w', (w.run before).serve call = (a, w') ∧ w.run (before ++ call :: after) = w'.run after ∧
      Ended names place (w.run before) (documentAfter document before)
        (before.foldl Call.opened numbers) call w' ∧
      (call.looks = true → a = .done (.ok ())) := by
  obtain ⟨hbefore, hcall, -⟩ := legal_append.mp hlegal
  have hshared := run_shared hs hbefore fun i directory hmem =>
    hnames i directory (List.mem_append_left _ hmem)
  obtain ⟨a, w', hserve, hended, hdone⟩ := serve_ended hshared hcall fun i directory hopens =>
    hnames i directory (by rw [hopens]; exact List.mem_append_right _ List.mem_cons_self)
  refine ⟨a, w', hserve, ?_, hended, hdone⟩
  rw [run_append, World.run, List.foldl_cons, hserve]
  rfl

-- What a store has seen is the document that its latest look left.
theorem seen_of_looked (hs : Shared names place w document numbers) {before after : List Call}
    {call : Call} (hlegal : Legal numbers (before ++ call :: after))
    (hnames : ∀ i directory, .opens i directory ∈ before ++ call :: after → names directory)
    (hlooks : call.looks = true)
    (hlatest : ∀ c ∈ after, c.store = call.store → c.looks = false) :
    ∃ directory, (w.run (before ++ call :: after)).stores call.store =
      some (.document ⟨directory, documentAfter document (before ++ [call])⟩) := by
  obtain ⟨a, w', -, hrun, hended, -⟩ := serve_in_run hs hlegal hnames
  obtain ⟨directory, hlooked⟩ := hended.looked hlooks
  have hafter := run_of_not_looking hended.shared (legal_append.mp hlegal).2.2
    (fun i directory hmem => hnames i directory
      (List.mem_append_right _ (List.mem_cons_of_mem _ hmem))) hlatest
  refine ⟨directory, ?_⟩
  rw [hrun, hafter, hlooked, documentAfter, documentAfter, List.foldl_append]
  rfl

end

-- The directory has the other name, too, and stores open under it.
def IsName (h : Host) (directory other : PathName) : Prop :=
  h.disk.find other = h.disk.find directory ∧
    ∃ d h', DocumentStore.openAt other h = (.ok d, h')

-- Under another name a store finds the same lock file and the same document.
theorem kept_of_isName {h : Host} {d : DocumentStore} {place : Place} {other : PathName}
    (hd : h.disk.Sound) (hs : Kept h d place) (hname : IsName h d.directory other) :
    Kept h ⟨other, d.records⟩ place := by
  obtain ⟨hsame, d', h', hopen⟩ := hname
  have hfind : h.disk.find other = .ok (place, .directory) := hsame.trans hs.directory
  obtain ⟨u, h₁, hensure, hok⟩ := Action.bind_eq_ok (Action.guarded_eq_ok hopen)
  obtain ⟨hnamed, -⟩ := Host.ensureDirectories_eq_ok hensure
  rw [Host.ensureDirectories_of_find hnamed hfind] at hensure
  cases hensure
  obtain ⟨records, h₂, hload, -⟩ := Action.bind_eq_ok hok
  obtain ⟨lock, h₃, hobtain, hread⟩ := Action.bind_eq_ok hload
  obtain ⟨hlockNamed, disk, hdisk, rfl⟩ := Host.obtainFile_eq_ok hobtain
  obtain ⟨id, hlock⟩ := hs.lock
  obtain ⟨lockPlace, hlocate, -⟩ := Disk.obtain_eq_ok hdisk
  have hlockPlace : lockPlace = place ++ ["store.lock"] := by
    have hjoin : h.disk.locate (DocumentStore.lockPath other) = .ok (place ++ ["store.lock"]) ∨
        h.disk.locate (DocumentStore.lockPath other) = .error .nameTooLong :=
      Disk.locate_join hfind (by decide) (by decide)
    rcases hjoin with hjoin | hjoin
    · exact Except.ok.inj (hlocate.symm.trans hjoin)
    · cases hlocate.symm.trans hjoin
  subst hlockPlace
  have hreaches : Disk.Reaches h.disk (DocumentStore.lockPath other) _ id :=
    ⟨hlocate, hlock.node, hlock.allocated⟩
  rw [hreaches.obtain_eq] at hdisk
  cases hdisk
  obtain ⟨-, hnull, hlocated, -⟩ := DocumentStore.document_of_read hd hfind hread
  exact ⟨hnamed, hnull, hlockNamed, hfind, ⟨_, hreaches⟩, hlocated, hs.document, hs.nodup⟩

-- A host on which no store has been opened.
def unopened (h : Host) : World := ⟨h, fun _ => none⟩

-- Whatever the stores on a directory are asked and in whatever order: each commit is in the
-- document for good, in the place where it was made, no call fails, and a store answers with
-- the document as its latest look has left it.
theorem no_commit_is_lost {h h₀ : Host} {directory : PathName} {d : DocumentStore}
    (hd : h.disk.Sound) (hcalm : ∀ call, h.Spares call)
    (hopen : DocumentStore.openAt directory h = (.ok d, h₀)) (i : Nat) {rest calls : List Call}
    (hcalls : calls = .opens i directory :: rest) (hlegal : Legal [] calls)
    (hnames : ∀ j other, .opens j other ∈ rest → IsName h₀ directory other) :
    (∃ place, h₀.disk.find directory = .ok (place, .directory) ∧
      Document ((unopened h).run calls).host.disk (place ++ ["store.json"])
        (documentAfter d.records calls)) ∧
    ∀ before call after, calls = before ++ call :: after → call.looks = true →
      (((unopened h).run before).serve call).1 = .done (.ok ()) ∧
      ((∀ c ∈ after, c.store = call.store → c.looks = false) →
        (((unopened h).run calls).serve (.ask call.store .keys)).1 =
          .listed (.ok (documentAfter d.records (before ++ [call])).keys) ∧
        ∀ key, (((unopened h).run calls).serve (.ask call.store (.get key))).1 =
          .found (MemoryStore.lookup (documentAfter d.records (before ++ [call])) key)) := by
  obtain ⟨hdirectory, place, hkept⟩ := DocumentStore.openAt_eq_ok hd hopen
  have hevolves := DocumentStore.openAt_within directory h
  rw [hopen] at hevolves
  -- the first store changes nothing that a second opening would find
  have hagain : DocumentStore.openAt directory h₀ = (.ok d, h₀) := by
    rw [← hdirectory]
    exact DocumentStore.openAt_of_kept hkept
  have hserve : (unopened h).serve (.opens i directory) =
      (unopened h₀).serve (.opens i directory) := by
    simp only [unopened, World.serve, hopen, hagain]
  have hrun (calls : List Call) : (unopened h).run (.opens i directory :: calls) =
      (unopened h₀).run (.opens i directory :: calls) := by
    rw [World.run, World.run, List.foldl_cons, List.foldl_cons, hserve]
  let names (other : PathName) : Prop := Kept h₀ ⟨other, d.records⟩ place
  have hshared : Shared names place (unopened h₀) d.records [] :=
    ⟨fun call => hevolves.spares call (hcalm call), fun _ hs => hs, nofun⟩
  have hopens : ∀ j other, .opens j other ∈ calls → names other := by
    intro j other hmem
    rw [hcalls] at hmem
    rcases List.mem_cons.mp hmem with hfirst | hrest
    · obtain ⟨-, rfl⟩ := Call.opens.inj hfirst
      rw [← hdirectory]
      exact hkept
    · refine kept_of_isName (hevolves.sound hd) hkept ?_
      rw [hdirectory]
      exact hnames j other hrest
  have hall : (unopened h).run calls = (unopened h₀).run calls := by
    rw [hcalls, hrun]
  refine ⟨⟨place, ?_, ?_⟩, fun before call after hsplit hlooks => ⟨?_, fun hlatest => ?_⟩⟩
  · rw [← hdirectory]
    exact hkept.directory
  · have hend := run_shared hshared hlegal hopens
    have hfirst : names directory := hopens i directory (by rw [hcalls]; exact List.mem_cons_self)
    rw [hall]
    exact (hend.kept directory hfirst).document
  · rw [hsplit] at hlegal hopens
    obtain ⟨a, w', hcall, -, -, hdone⟩ := serve_in_run hshared hlegal hopens
    have hsame : ((unopened h).run before).serve call = ((unopened h₀).run before).serve call := by
      cases before with
      | nil =>
          obtain rfl : call = .opens i directory := (List.cons.inj (hsplit.symm.trans hcalls)).1
          exact hserve
      | cons first before =>
          obtain rfl : first = .opens i directory := (List.cons.inj (hsplit.symm.trans hcalls)).1
          rw [hrun]
    rw [hsame, hcall]
    exact hdone hlooks
  · rw [hsplit] at hlegal hopens
    obtain ⟨name, hseen⟩ := seen_of_looked hshared hlegal hopens hlooks hlatest
    rw [← hsplit, ← hall] at hseen
    have hask (request : Request) : (((unopened h).run calls).serve (.ask call.store request)).1 =
        (Backend.serve ⟨((unopened h).run calls).host,
          .document ⟨name, documentAfter d.records (before ++ [call])⟩⟩ request).1 :=
      congrArg Prod.fst (onStore_of_eq (f := fun s => Backend.serve s request) hseen rfl)
    exact ⟨hask .keys, fun key => hask (.get key)⟩

-- Two stores under two names of a directory. The second has not seen what the first one puts when
-- it commits itself; the last commit changes nothing.
def twoStores : List Call :=
  [.opens 0 ⟨.here, ["s"]⟩, .opens 1 ⟨.here, ["s", "..", "s"]⟩, .ask 0 (.put [("a", "1"), ("b", "2")]),
    .ask 1 (.set "c" "3"), .ask 0 (.erase "a"), .ask 1 (.get "a"), .reload 1, .ask 0 (.set "a" "4"),
    .ask 1 (.erase "d")]

theorem no_commit_is_lost_of_two_stores :
    ∃ h₀ d calls, DocumentStore.openAt ⟨.here, ["s"]⟩ Host.empty = (.ok d, h₀) ∧
      calls = twoStores ∧ Legal [] calls ∧
      (∀ j other, .opens j other ∈ twoStores.tail → IsName h₀ ⟨.here, ["s"]⟩ other) ∧
      (∃ place, h₀.disk.find ⟨.here, ["s"]⟩ = .ok (place, .directory) ∧
        Document ((unopened Host.empty).run calls).host.disk (place ++ ["store.json"])
          (documentAfter d.records calls)) ∧
      ∀ before call after, calls = before ++ call :: after → call.looks = true →
        (((unopened Host.empty).run before).serve call).1 = .done (.ok ()) ∧
        ((∀ c ∈ after, c.store = call.store → c.looks = false) →
          (((unopened Host.empty).run calls).serve (.ask call.store .keys)).1 =
            .listed (.ok (documentAfter d.records (before ++ [call])).keys) ∧
          ∀ key, (((unopened Host.empty).run calls).serve (.ask call.store (.get key))).1 =
            .found (MemoryStore.lookup (documentAfter d.records (before ++ [call])) key)) := by
  have hlegal : Legal [] twoStores := by simp [twoStores, Legal, Call.opened, Call.store]
  have hnames : ∀ j other, .opens j other ∈ twoStores.tail →
      IsName (DocumentStore.openAt ⟨.here, ["s"]⟩ Host.empty).2 ⟨.here, ["s"]⟩ other := by
    intro j other hmem
    obtain ⟨-, rfl⟩ : j = 1 ∧ other = ⟨.here, ["s", "..", "s"]⟩ := by simpa [twoStores] using hmem
    exact ⟨rfl, _, _, rfl⟩
  have hcalm (call : SystemCall) : Host.empty.Spares call := fun plan hplan => by cases hplan
  refine ⟨_, _, _, rfl, rfl, hlegal, hnames, ?_⟩
  exact no_commit_is_lost Disk.empty_sound hcalm rfl 0 rfl hlegal hnames

end Coffer.Sharing
