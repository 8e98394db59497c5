import Coffer.Proofs.Wallet.Contents

-- The list of accounts of a directory that several sessions save to, each on a store of its own. The
-- list is one record, and a session puts there the one that it goes by.

namespace Coffer.Wallet.Directory

open Session

inductive Step where
  | openStore (i : Nat) (directory : PathName)
  | openSession (i : Nat)
  | save (i : Nat) (a : SavableAccount)

-- A session is opened on a store that is open, and saves after that.
def Legal : List Nat → List Nat → List Step → Prop
  | _, _, [] => True
  | stores, sessions, .openStore i _ :: rest => Legal (i :: stores) (sessions.filter (· != i)) rest
  | stores, sessions, .openSession i :: rest => i ∈ stores ∧ Legal stores (i :: sessions) rest
  | stores, sessions, .save i _ :: rest => i ∈ sessions ∧ Legal stores sessions rest

-- The indexes that are listed in the document, and those that each session goes by: what its store
-- has seen of the list, and what it has saved itself. There is no list before the first session.
structure Views where
  listed : Option (List Nat)
  seen : Nat → Option (List Nat)

def Views.puts (v : Views) (i : Nat) (is : List Nat) : Views :=
  ⟨some is, Function.update v.seen i (some is)⟩

def Views.after (v : Views) : Step → Views
  | .openStore i _ => { v with seen := Function.update v.seen i v.listed }
  | .openSession i =>
      match v.seen i with
      | some _ => v
      | none => v.puts i (v.listed.getD [])
  | .save i a => v.puts i (added ((v.seen i).getD []) a.index)

def viewsAfter (listed : Option (List Nat)) (steps : List Step) : Views :=
  steps.foldl Views.after ⟨listed, fun _ => none⟩

-- The indexes that a session saves, and those that all of them do.

def savedBy (i : Nat) (steps : List Step) : List Nat :=
  steps.filterMap fun
    | .save j a => if j = i then some a.index else none
    | _ => none

def savedIn (steps : List Step) : List Nat :=
  steps.filterMap fun
    | .save _ a => some a.index
    | _ => none

def SavesLast (i : Nat) (steps : List Step) : Prop :=
  ∃ before a after, steps = before ++ .save i a :: after ∧ ∀ j b, .save j b ∉ after

-- No session saves once the store of another one has been opened.
def Successive : Option Nat → List Step → Prop
  | _, [] => True
  | _, .openStore i _ :: rest => Successive (some i) rest
  | current, .openSession _ :: rest => Successive current rest
  | current, .save i _ :: rest => current = some i ∧ Successive current rest

def change (m : Entries Int Account) : Step → Entries Int Account
  | .save _ a => m.put a.index a.account
  | _ => m

def accountsAfter (m : Entries Int Account) (steps : List Step) : Entries Int Account :=
  steps.foldl change m

-- The lists of a run

section Views

variable {v : Views} {i : Nat} {is : List Nat} {steps : List Step}

theorem seen_puts (v : Views) (i j : Nat) (is : List Nat) :
    (v.puts i is).seen j = if j = i then some is else v.seen j := Function.update_apply ..

-- A session goes by the list that it knows and by what it saves, whatever the others do.
theorem seen_of_run (hseen : v.seen i = some is) (hopen : ∀ directory, .openStore i directory ∉ steps) :
    (steps.foldl Views.after v).seen i = some ((savedBy i steps).foldl added is) := by
  induction steps generalizing v is with
  | nil => exact hseen
  | cons step rest ih =>
      have hrest : ∀ directory, .openStore i directory ∉ rest := fun directory hmem =>
        hopen directory (List.mem_cons_of_mem _ hmem)
      rw [List.foldl_cons]
      cases step with
      | openStore j directory =>
          have hne : i ≠ j := by
            rintro rfl
            exact hopen directory List.mem_cons_self
          exact ih ((Function.update_of_ne hne ..).trans hseen) hrest
      | openSession j =>
          refine ih ?_ hrest
          cases hj : v.seen j with
          | some js => simpa only [Views.after, hj] using hseen
          | none =>
              have hne : ¬i = j := by
                rintro rfl
                simp [hj] at hseen
              simp only [Views.after, hj, seen_puts, hne, if_false]
              exact hseen
      | save j a =>
          by_cases hj : j = i
          · subst hj
            have hsaved : savedBy j (.save j a :: rest) = a.index :: savedBy j rest := by simp [savedBy]
            rw [hsaved, List.foldl_cons]
            refine ih ?_ hrest
            simp only [Views.after, seen_puts, hseen, Option.getD_some, if_true]
          · have hsaved : savedBy i (.save j a :: rest) = savedBy i rest := by simp [savedBy, hj]
            have hne : ¬i = j := fun h => hj h.symm
            rw [hsaved]
            refine ih ?_ hrest
            simp only [Views.after, seen_puts, hne, if_false]
            exact hseen

theorem listed_of_no_saves (hlisted : v.listed = some is) (hsaves : ∀ j b, .save j b ∉ steps) :
    (steps.foldl Views.after v).listed = some is := by
  induction steps generalizing v with
  | nil => exact hlisted
  | cons step rest ih =>
      refine ih ?_ fun j b hmem => hsaves j b (List.mem_cons_of_mem _ hmem)
      cases step with
      | openStore j directory => exact hlisted
      | openSession j =>
          cases hj : v.seen j with
          | some js => simpa only [Views.after, hj] using hlisted
          | none => simp only [Views.after, hj, Views.puts, hlisted, Option.getD_some]
      | save j a => exact absurd List.mem_cons_self (hsaves j a)

theorem listed_of_savesLast (hseen : v.seen i = some is)
    (hopen : ∀ directory, .openStore i directory ∉ steps) (hlast : SavesLast i steps) :
    (steps.foldl Views.after v).listed = some ((savedBy i steps).foldl added is) := by
  obtain ⟨before, a, after, rfl, hafter⟩ := hlast
  have hbefore := seen_of_run hseen fun directory hmem => hopen directory (List.mem_append_left _ hmem)
  have hnone : savedBy i after = [] := by
    refine List.filterMap_eq_nil_iff.mpr fun step hstep => ?_
    cases step with
    | save j b => exact absurd hstep (hafter j b)
    | _ => rfl
  have hsaved : savedBy i (before ++ .save i a :: after) = savedBy i before ++ [a.index] := by
    rw [savedBy, List.filterMap_append, List.filterMap_cons]
    simp only [if_true]
    exact congrArg (savedBy i before ++ a.index :: ·) hnone
  rw [hsaved, List.foldl_append, List.foldl_append, List.foldl_cons]
  refine listed_of_no_saves ?_ hafter
  simp only [Views.after, Views.puts, hbefore, Option.getD_some, List.foldl_cons, List.foldl_nil]

theorem listed_of_successive {current : Option Nat}
    (hcurrent : ∀ i, current = some i → (v.seen i).getD [] = v.listed.getD [])
    (hsteps : Successive current steps) :
    (steps.foldl Views.after v).listed.getD [] = (savedIn steps).foldl added (v.listed.getD []) := by
  induction steps generalizing v current with
  | nil => rfl
  | cons step rest ih =>
      cases step with
      | openStore j directory =>
          refine ih (fun i hi => ?_) hsteps
          obtain rfl : j = i := Option.some.inj hi
          exact congrArg (Option.getD · []) (Function.update_self ..)
      | openSession j =>
          have hlisted : (v.after (.openSession j)).listed.getD [] = v.listed.getD [] := by
            cases hj : v.seen j <;> simp [Views.after, Views.puts, hj]
          have hrest := @ih (v.after (.openSession j)) current (fun i hi => ?_) hsteps
          · rw [hlisted] at hrest
            exact hrest
          · rw [hlisted, ← hcurrent i hi]
            cases hj : v.seen j with
            | some js => simp only [Views.after, hj]
            | none =>
                by_cases hij : i = j
                · subst hij
                  simp [Views.after, hj, seen_puts, ← hcurrent i hi]
                · simp [Views.after, hj, seen_puts, hij]
      | save j a =>
          obtain ⟨hj, hsteps⟩ := hsteps
          have hlist : v.after (.save j a) = v.puts j (added (v.listed.getD []) a.index) := by
            simp only [Views.after, hcurrent j hj]
          rw [List.foldl_cons, hlist]
          refine ih (fun i hi => ?_) hsteps
          obtain rfl : j = i := Option.some.inj (hj.symm.trans hi)
          simp [Views.puts]

end Views

end Coffer.Wallet.Directory
