import Coffer.Proofs.Store.Backend
import Coffer.Proofs.Wallet.Registry

namespace Coffer.Wallet.Session

section Answers

variable {storage : Storage} {es : Entries String String} {is cs : List Nat}

-- What the accounts of a registry are: every index's account in its place, or the first index
-- that has none.
inductive Answers (storage : Storage) (es : Entries String String) :
    List Nat → Except Failure (List Value) → Prop where
  | all (is : List Nat) (accounts : List Account)
      (h : List.Forall₂ (fun (i : Nat) (a : Account) => a.IsTyped i ∧
        storage.read es (accountKey (.int i)) accountSchema = .ok a.toValue) is accounts) :
      Answers storage es is (.ok (accounts.map Account.toValue))
  | dangling (before : List Nat) (i : Nat) (after : List Nat)
      (hbefore : ∀ j ∈ before, HasAccount es j) (hi : ¬HasAccount es i) :
      Answers storage es (before ++ i :: after) (.error (.danglingAccount (.int i)))

theorem accountsOf_answers (h : Ledger storage es is) (cs : List Nat) :
    Answers storage es cs (accountsOf storage es (indexes cs)) := by
  induction cs with
  | nil => exact .all [] [] .nil
  | cons i cs ih =>
      change Answers storage es (i :: cs) (accountsOf storage es (.int i :: indexes cs))
      rw [accountsOf]
      by_cases hi : HasAccount es i
      · obtain ⟨-, a, ha, hread⟩ := h.account i hi
        rw [hread]
        generalize accountsOf storage es (indexes cs) = r at ih
        cases ih with
        | all cs accounts hall => exact .all (i :: cs) (a :: accounts) (.cons ⟨ha, hread⟩ hall)
        | dangling before j after hbefore hj =>
            refine .dangling (i :: before) j after (fun k hk => ?_) hj
            rcases List.mem_cons.mp hk with rfl | hk
            · exact hi
            · exact hbefore k hk
      · rw [Storage.read_of_absent (not_not.mp hi)]
        exact .dangling [] i cs (by simp) hi

end Answers

section Run

variable {σ : Type} [RecordStore σ] {B : Reliable σ} {storage : Storage}

-- What is asked of a wallet. A session that does not pass the gate leaves the one there was.
inductive Op where
  | save (a : Account)
  | remove (i : Nat)
  | getAccount (i : Nat)
  | getAccounts
  | getIndexes
  | newSession (version : Value)

def startSession (version : Value) (s : Session σ) : Session σ :=
  match gate s.storage version s.store with
  | (.ok (), t) => ⟨s.storage, none, t⟩
  | (.error _, t) => { s with store := t }

def step (s : Session σ) : Op → Session σ
  | .save a => (saveAccount a s).2
  | .remove i => (removeAccount (.int i) s).2
  | .getAccount i => (Session.getAccount (.int i) s).2
  | .getAccounts => (Session.getAccounts s).2
  | .getIndexes => (loadRegistry s).2
  | .newSession version => startSession version s

def run (s : Session σ) (ops : List Op) : Session σ := ops.foldl step s

theorem run_append_singleton (s : Session σ) (ops : List Op) (op : Op) :
    run s (ops ++ [op]) = step (run s ops) op := by
  simp [run]

theorem startSession_consistent {s : Session σ} {is : List Nat} (hs : Consistent B storage s is)
    (version : Value) :
    Consistent B storage (startSession version s) is ∧
      ∀ j, HasAccount (B.view (startSession version s).store) j ↔ HasAccount (B.view s.store) j := by
  have hgate := gate_agreesBut (B := B) s.storage version s.store hs.sound
  unfold startSession
  cases hg : gate s.storage version s.store with
  | mk r t =>
      rw [hg] at hgate
      obtain ⟨ht, hview⟩ := hgate
      have hregistry := hview registryKey versionKey_ne_registryKey.symm
      have haccount (i : Nat) := hview (accountKey (.int i)) (versionKey_ne_accountKey _).symm
      have hledger := hs.ledger.congr hregistry haccount
      have hhas (j : Nat) := hasAccount_congr (haccount j)
      cases r with
      | ok u => exact ⟨⟨hs.storage, ht, hledger, .inl rfl⟩, hhas⟩
      | error e =>
          exact ⟨⟨hs.storage, ht, hledger, hs.cache.imp id fun ⟨cs, hcs, hc⟩ =>
            ⟨cs, hcs, hc.congr fun j => (hhas j).mp⟩⟩, hhas⟩

-- One operation keeps the registry consistent, and only a removal that fails at the registry
-- makes a gap in it.
theorem step_consistent (hlate : ∀ st e, ¬B.late st e) {s : Session σ} {is : List Nat}
    (hs : Consistent B storage s is) (op : Op) (hop : ∀ a, op = .save a → ∃ i, a.IsTyped i) :
    ∃ is', Consistent B storage (step s op) is' ∧
      ∀ j, Gap (B.view (step s op).store) is' j →
        Gap (B.view s.store) is j ∨ (op = .remove j ∧ FailsAtRegistry s (.int j)) := by
  cases op with
  | save a =>
      obtain ⟨i, ha⟩ := hop a rfl
      obtain ⟨is', hs', hgap⟩ := saveAccount_consistent hlate hs ha
      exact ⟨is', hs', fun j hj => .inl (hgap j hj)⟩
  | remove i =>
      obtain ⟨is', hs', hgap⟩ := removeAccount_consistent hlate hs i
      refine ⟨is', hs', fun j hj => (hgap j hj).imp id fun h => ?_⟩
      obtain ⟨rfl, hfails⟩ := h
      exact ⟨rfl, hfails⟩
  | getAccount i =>
      have hsame : step s (.getAccount i) = s := getAccount_consistent hs (.int i)
      rw [hsame]
      exact ⟨is, hs, fun j hj => .inl hj⟩
  | getAccounts =>
      obtain ⟨hs', hstore⟩ := getAccounts_consistent hs
      refine ⟨is, hs', fun j hj => .inl ?_⟩
      rw [step, hstore] at hj
      exact hj
  | getIndexes =>
      obtain ⟨hs', hstore⟩ := loadRegistry_consistent hs
      refine ⟨is, hs', fun j hj => .inl ?_⟩
      rw [step, hstore] at hj
      exact hj
  | newSession version =>
      obtain ⟨hs', hhas⟩ := startSession_consistent hs version
      exact ⟨is, hs', fun j hj => .inl ⟨hj.1, fun h => hj.2 ((hhas j).mpr h)⟩⟩

-- A gap goes back to a removal that failed at the registry.
theorem run_consistent (hlate : ∀ st e, ¬B.late st e) {s : Session σ} (hs : Consistent B storage s [])
    (ops : List Op) (hops : ∀ a, .save a ∈ ops → ∃ i, a.IsTyped i) :
    ∃ is, Consistent B storage (run s ops) is ∧
      ∀ j, Gap (B.view (run s ops).store) is j →
        ∃ before after, ops = before ++ .remove j :: after ∧
          FailsAtRegistry (run s before) (.int j) := by
  induction ops using List.reverseRecOn with
  | nil => exact ⟨[], hs, fun j hj => absurd hj.1 List.not_mem_nil⟩
  | append_singleton ops op ih =>
      obtain ⟨is, hrun, hgap⟩ := ih fun a ha => hops a (List.mem_append_left _ ha)
      rw [run_append_singleton]
      obtain ⟨is', hstep, hgap'⟩ := step_consistent hlate hrun op fun a ha =>
        hops a (List.mem_append_right _ (by simp [ha]))
      refine ⟨is', hstep, fun j hj => ?_⟩
      rcases hgap' j hj with hold | ⟨rfl, hfails⟩
      · obtain ⟨before, after, rfl, hfails⟩ := hgap j hold
        exact ⟨before, after ++ [op], by simp, hfails⟩
      · exact ⟨ops, [], by simp, hfails⟩

-- Over a store whose failed writes leave it as it was, whatever is asked of a wallet and
-- whatever fails: the registry has no duplicates and names every account that is stored, the
-- cache leaves out only what is not there, and what is missing was lost by a removal that failed
-- at the registry and is what reading the accounts reports.
theorem registry_invariant (B : Reliable σ) (hlate : ∀ st e, ¬B.late st e) (storage : Storage)
    (st : σ) (hst : B.sound st) (hempty : B.view st = []) (ops : List Op)
    (hops : ∀ a, .save a ∈ ops → ∃ i, a.IsTyped i) :
    let s := run ⟨storage, none, st⟩ ops
    let es := B.view s.store
    ∃ is : List Nat, stored storage es = .ok (indexes is) ∧ is.Nodup ∧
      (∀ i, HasAccount es i →
        i ∈ is ∧ ∃ a : Account, a.IsTyped i ∧ (getAccount (.int i) s).1 = .ok a.toValue) ∧
      (s.registry = none ∨ ∃ cs, s.registry = some (indexes cs) ∧ cs.Sublist is ∧
        ∀ i ∈ is, i ∉ cs → ¬HasAccount es i) ∧
      (∀ i ∈ is, ¬HasAccount es i → ∃ before after, ops = before ++ .remove i :: after ∧
        FailsAtRegistry (run ⟨storage, none, st⟩ before) (.int i)) ∧
      ∃ cs, (s.registry = some (indexes cs) ∨ (s.registry = none ∧ cs = is)) ∧
        Answers storage es cs (getAccounts s).1 := by
  have hledger : Ledger storage (B.view st) [] := by
    rw [hempty]
    exact ledger_empty storage
  obtain ⟨is, hs, hgap⟩ := run_consistent hlate
    (⟨rfl, hst, hledger, .inl rfl⟩ : Consistent B storage ⟨storage, none, st⟩ []) ops hops
  obtain ⟨hstorage, hsound, hledger, hcache⟩ := hs
  dsimp only
  rw [hstorage] at hledger
  refine ⟨is, hledger.registry, hledger.nodup, fun i hi => ?_, ?_, fun i hi hn => hgap i ⟨hi, hn⟩, ?_⟩
  · obtain ⟨hmem, a, ha, hread⟩ := hledger.account i hi
    refine ⟨hmem, a, ha, ?_⟩
    rw [getAccount_eq hsound, hstorage]
    exact hread
  · exact hcache.imp id fun ⟨cs, hcs, hc⟩ => ⟨cs, hcs, hc.sublist, hc.rest⟩
  · rcases hcache with hnone | ⟨cs, hsome, -⟩
    · have hknown : known B (run ⟨storage, none, st⟩ ops) = .ok (indexes is) := by
        rw [known, hnone, hstorage]
        exact hledger.registry
      refine ⟨is, .inr ⟨hnone, rfl⟩, ?_⟩
      rw [getAccounts_of_known hsound hknown, hstorage]
      exact accountsOf_answers hledger is
    · have hknown : known B (run ⟨storage, none, st⟩ ops) = .ok (indexes cs) := by
        rw [known, hsome]
      refine ⟨cs, .inl hsome, ?_⟩
      rw [getAccounts_of_known hsound hknown, hstorage]
      exact accountsOf_answers hledger cs

-- A document whose fourth replacement fails, which is the registry's in the removal of an account.
theorem registry_invariant_of_failed_removal :
    ∃ (d : DocumentStore) (h : Host) (start s : Session (Seat Backend)) (ops : List Op)
        (es : Entries String String),
      DocumentStore.openAt ⟨.here, ["wallet"]⟩
        { Host.empty with plans := [⟨.replace, 3, 1, "full"⟩] } = (.ok d, h) ∧
      ops = [.save (Account.ofIndex (.int 1)), .save (Account.ofIndex (.int 7)), .remove 1,
        .newSession (.int 1), .getIndexes] ∧
      (∀ st e, ¬Backend.withoutLog.late st e) ∧ Backend.withoutLog.sound ⟨h, .document d⟩ ∧
      Backend.withoutLog.view ⟨h, .document d⟩ = [] ∧ (∀ a, .save a ∈ ops → ∃ i, a.IsTyped i) ∧
      start = ⟨⟨none⟩, none, ⟨h, .document d⟩⟩ ∧ s = run start ops ∧
      es = Backend.withoutLog.view s.store ∧
      ∃ is : List Nat, stored ⟨none⟩ es = .ok (indexes is) ∧ is.Nodup ∧
        (∀ i, HasAccount es i →
          i ∈ is ∧ ∃ a : Account, a.IsTyped i ∧ (getAccount (.int i) s).1 = .ok a.toValue) ∧
        (s.registry = none ∨ ∃ cs, s.registry = some (indexes cs) ∧ cs.Sublist is ∧
          ∀ i ∈ is, i ∉ cs → ¬HasAccount es i) ∧
        (∀ i ∈ is, ¬HasAccount es i → ∃ before after, ops = before ++ .remove i :: after ∧
          FailsAtRegistry (run start before) (.int i)) ∧
        ∃ cs, (s.registry = some (indexes cs) ∨ (s.registry = none ∧ cs = is)) ∧
          Answers ⟨none⟩ es cs (getAccounts s).1 := by
  let host : Host := { Host.empty with plans := [⟨.replace, 3, 1, "full"⟩] }
  obtain ⟨d, h, hopen, hempty⟩ : ∃ d h, DocumentStore.openAt ⟨.here, ["wallet"]⟩ host = (.ok d, h) ∧
      d.records = [] := ⟨_, _, rfl, rfl⟩
  obtain ⟨-, place, hkept⟩ := DocumentStore.openAt_eq_ok (h := host) Disk.empty_sound hopen
  have hsound : Backend.withoutLog.sound ⟨h, .document d⟩ := by
    refine ⟨⟨place, hkept⟩, ?_⟩
    rintro ⟨l, hl⟩
    cases hl
  have htyped : ∀ a, Op.save a ∈ [Op.save (Account.ofIndex (.int 1)),
      .save (Account.ofIndex (.int 7)), .remove 1, .newSession (.int 1), .getIndexes] →
      ∃ i, a.IsTyped i := by
    intro a ha
    simp only [List.mem_cons, Op.save.injEq, List.not_mem_nil, reduceCtorEq, or_false] at ha
    rcases ha with rfl | rfl
    · exact ⟨1, isTyped_ofIndex (by decide)⟩
    · exact ⟨7, isTyped_ofIndex (by decide)⟩
  exact ⟨d, h, _, _, _, _, hopen, rfl, fun _ _ => id, hsound, hempty, htyped, rfl, rfl, rfl,
    registry_invariant Backend.withoutLog (fun _ _ => id) ⟨none⟩ ⟨h, .document d⟩ hsound hempty _
      htyped⟩

end Run

end Coffer.Wallet.Session
