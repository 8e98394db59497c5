import Coffer.Proofs.Wallet.Loss

namespace Coffer.Wallet.Session

-- What happens to a wallet: something is asked of it, or something is planned to go wrong with the
-- calls of its host, with the writes of its log or with a key of its database.
inductive Event where
  | ask (op : Op)
  | plan (plans : List FaultPlan)
  | cut (fault : ShortWrite)
  | deny (key : String)

def happen (s : Session (Seat Backend)) : Event → Session (Seat Backend)
  | .ask op => step s op
  | .plan plans => { s with store := { s.store with host := { s.store.host with plans } } }
  | .cut fault => { s with store := (Backend.plan fault s.store).2 }
  | .deny key => { s with store := (Backend.deny key s.store).2 }

def live (s : Session (Seat Backend)) (events : List Event) : Session (Seat Backend) :=
  events.foldl happen s

theorem live_append_singleton (s : Session (Seat Backend)) (events : List Event) (event : Event) :
    live s (events ++ [event]) = happen (live s events) event := by
  simp [live]

section

variable {s : Session (Seat Backend)} {i : Nat}

theorem idle_withStore {t : Seat Backend} (ht : Backend.Sound t)
    (hview : Backend.view t = Backend.view s.store) :
    Idle Backend.reliable s { s with store := t } := by
  have hview : Backend.reliable.view t = Backend.reliable.view s.store := hview
  refine ⟨ht, .inl rfl, fun i => ?_, ?_⟩
  · simp only [hview]
  · simp only [persisted, hview]

theorem happen_idle (hs : Backend.Sound s.store) {event : Event} (hevent : ∀ op, event ≠ .ask op) :
    Idle Backend.reliable s (happen s event) := by
  cases event with
  | ask op => exact absurd rfl (hevent op)
  | plan plans =>
      obtain ⟨hsound, hview⟩ := Backend.planned hs plans
      exact idle_withStore hsound hview
  | cut fault =>
      obtain ⟨hsound, hview⟩ := Backend.plan_same hs fault
      exact idle_withStore hsound hview
  | deny key =>
      obtain ⟨hsound, hview⟩ := Backend.deny_same hs key
      exact idle_withStore hsound hview

theorem happen_tracked (hs : Tracked Backend.reliable s) (event : Event)
    (hevent : ∀ op, event = .ask op → op.Fits) : Tracked Backend.reliable (happen s event) := by
  cases event with
  | ask op => exact step_tracked hs op (hevent op rfl)
  | _ => exact (happen_idle hs.sound (by simp)).tracked hs

-- The failures that a store never refuses a write with are those of the system.

theorem not_refuses_injected (m : String) :
    ¬Reliable.Refuses Backend.reliable (.system (.injected m)) := by
  rintro (⟨f, hf⟩ | ⟨key, error, he⟩)
  · cases hf
  · cases error <;> cases he

theorem injected_of_late {st : Seat Backend} {e : Failure} (h : Backend.reliable.late st e) :
    ∃ m, e = .system (.injected m) := by
  obtain ⟨host, store⟩ := st
  cases store with
  | log l => exact h.1
  | memory m => exact h.elim
  | document d => exact h.elim
  | database d => exact h.elim

theorem not_refuses_of_late (st : Seat Backend) (e : Failure) (h : Backend.reliable.late st e) :
    ¬Reliable.Refuses Backend.reliable e := by
  obtain ⟨m, rfl⟩ := injected_of_late h
  exact not_refuses_injected m

theorem injected_of_not_refuses (hs : Tracked Backend.reliable s) {cs : List Nat}
    (hk : Knows Backend.reliable s cs) {a : Account} {j : Nat} (hindex : a.index = .int j)
    (hj : j ≤ 0xFFFFFFFF) {e : Failure} (he : (saveAccount a s).1 = .error e)
    (hnot : ¬Reliable.Refuses Backend.reliable e) : ∃ m, e = .system (.injected m) := by
  obtain ⟨r, t, cs', hsave, -, ⟨-, -, -, e', rfl, hrefuses⟩ | ⟨-, -, ⟨rfl, -⟩ | ⟨e', rfl, hlate, -⟩⟩⟩ :=
    saveAccount_leaves hs.sound hk hindex hj
  · rw [hsave] at he
    cases he
    exact absurd hrefuses hnot
  · rw [hsave] at he
    cases he
  · rw [hsave] at he
    cases he
    exact injected_of_late hlate

-- A save of an account that was not there before, whose failure comes from the system itself.
def Forgets (s : Session (Seat Backend)) (i : Nat) (op : Op) : Prop :=
  ∃ a cs m, op = .save a ∧ a.index = .int i ∧ known Backend.reliable s = .ok (indexes cs) ∧
    i ∉ cs ∧ (saveAccount a s).1 = .error (.system (.injected m))

-- It takes a log whose size cannot be told.
theorem Forgets.cause (hs : Tracked Backend.reliable s) {op : Op} (hop : op.Fits)
    (h : Forgets s i op) : ∃ l, s.store.store = .log l ∧ ¬s.store.host.Spares .fstat := by
  obtain ⟨a, cs, m, rfl, hindex, hknown, -, herror⟩ := h
  obtain ⟨j, hj, hindex⟩ := hop
  rcases knows_of_tracked hs with ⟨e, he⟩ | ⟨cs, hk⟩
  · cases he.symm.trans hknown
  obtain ⟨r, t, cs', hsave, -, ⟨-, -, -, e, rfl, hrefuses⟩ | ⟨-, -, ⟨rfl, -⟩ | ⟨e, rfl, hlate, -⟩⟩⟩ :=
    saveAccount_leaves hs.sound hk hindex hj
  · rw [hsave] at herror
    cases herror
    exact absurd hrefuses (not_refuses_injected m)
  · rw [hsave] at herror
    cases herror
  · have hlate : Backend.Late s.store e := hlate
    unfold Backend.Late at hlate
    split at hlate
    · exact ⟨_, ‹_›, hlate.2⟩
    · exact hlate.elim

theorem step_forgets (hs : Tracked Backend.reliable s) (op : Op) (hop : op.Fits)
    (hn : ¬(Stored Backend.reliable s i ∧ Forgotten s i)) :
    (Stored Backend.reliable (step s op) i ∧ Forgotten (step s op) i) ↔ Forgets s i op := by
  rw [step_forgets_iff not_refuses_of_late hs op hop hn]
  constructor
  · rintro ⟨a, cs, e, rfl, hindex, hknown, hmem, herror, hnot⟩
    obtain ⟨j, hj, hindex'⟩ := hop
    rcases knows_of_tracked hs with ⟨e', he'⟩ | ⟨cs', hk⟩
    · cases he'.symm.trans hknown
    obtain ⟨m, rfl⟩ := injected_of_not_refuses hs hk hindex' hj herror hnot
    exact ⟨a, cs, m, rfl, hindex, hknown, hmem, herror⟩
  · rintro ⟨a, cs, m, hop, hindex, hknown, hmem, herror⟩
    exact ⟨a, cs, _, hop, hindex, hknown, hmem, herror, not_refuses_injected m⟩

theorem live_tracked (hs : Tracked Backend.reliable s) (events : List Event)
    (hevents : ∀ op, .ask op ∈ events → op.Fits) : Tracked Backend.reliable (live s events) := by
  induction events generalizing s with
  | nil => exact hs
  | cons event rest ih =>
      refine ih (happen_tracked hs event fun op hop => hevents op ?_) fun op hop =>
        hevents op (List.mem_cons_of_mem _ hop)
      rw [hop]
      exact List.mem_cons_self

-- What is forgotten goes back to a save that forgot it.
theorem forgets_of_live (hs : Tracked Backend.reliable s) (hnone : s.registry = none)
    (events : List Event) (hevents : ∀ op, .ask op ∈ events → op.Fits)
    (hi : Stored Backend.reliable (live s events) i) (hforgotten : Forgotten (live s events) i) :
    ∃ before op after, events = before ++ .ask op :: after ∧ Forgets (live s before) i op := by
  induction events using List.reverseRecOn with
  | nil =>
      obtain ⟨cs, hcs, -⟩ := hforgotten
      rw [live, List.foldl_nil, hnone] at hcs
      cases hcs
  | append_singleton events event ih =>
      rw [live_append_singleton] at hi hforgotten
      have hearlier : ∀ op, .ask op ∈ events → op.Fits :=
        fun op hop => hevents op (List.mem_append_left _ hop)
      have htracked := live_tracked hs events hearlier
      by_cases hold : Stored Backend.reliable (live s events) i ∧ Forgotten (live s events) i
      · obtain ⟨before, op, after, rfl, hforgets⟩ := ih hearlier hold.1 hold.2
        exact ⟨before, op, after ++ [event], by simp, hforgets⟩
      · by_cases hask : ∃ op, event = .ask op
        · obtain ⟨op, rfl⟩ := hask
          have hop := hevents op (List.mem_append_right _ (by simp))
          exact ⟨events, op, [], rfl, (step_forgets htracked op hop hold).mp ⟨hi, hforgotten⟩⟩
        · have hidle := happen_idle htracked.sound fun op hop => hask ⟨op, hop⟩
          exact absurd ⟨hidle.stored_iff.mp hi, hidle.forgotten hforgotten⟩ hold

end

-- An index with an account stays in the stored registry, whatever fails, under everything but its
-- removal, as long as no save of it has been made and then failed for the system. Such a save, and
-- nothing else, has the loaded registry lack the index, and the next one that is written for
-- another account drops it. It takes a log that is compacted and cannot tell its size.
theorem account_stays_iff (storage : Storage) {st : Seat Backend} (hst : Backend.Opened st)
    (events : List Event) (hevents : ∀ op, .ask op ∈ events → op.Fits) (i : Nat) :
    let s := live ⟨storage, none, st⟩ events
    ((∀ before op after, events = before ++ .ask op :: after →
        ¬Forgets (live ⟨storage, none, st⟩ before) i op) →
      ∀ op, op.Fits → op ≠ .remove i → Stored Backend.reliable s i →
        Stored Backend.reliable (step s op) i) ∧
    (∀ op, op.Fits → op ≠ .remove i → Stored Backend.reliable s i →
      (Stored Backend.reliable (step s op) i ↔ ¬(Forgotten s i ∧ ¬op.Saves i ∧
        persisted Backend.reliable (step s op) ≠ persisted Backend.reliable s))) ∧
    (∀ op, op.Fits → ¬(Stored Backend.reliable s i ∧ Forgotten s i) →
      ((Stored Backend.reliable (step s op) i ∧ Forgotten (step s op) i) ↔ Forgets s i op)) ∧
    ∀ op, op.Fits → Forgets s i op →
      ∃ l, s.store.store = .log l ∧ ¬s.store.host.Spares .fstat := by
  have hstart : Tracked Backend.reliable ⟨storage, none, st⟩ := ⟨hst.sound, .inl rfl⟩
  have hs := live_tracked hstart events hevents
  dsimp only
  refine ⟨fun hforgets op hop hremove hi => ?_, fun op hop hremove hi => step_stored_iff hs op hop hremove hi,
    fun op hop hn => step_forgets hs op hop hn, fun op hop h => h.cause hs hop⟩
  refine (step_stored_iff hs op hop hremove hi).mpr fun h => ?_
  obtain ⟨before, op, after, hevents, hsave⟩ := forgets_of_live hstart rfl events hevents hi h.1
  exact hforgets before op after hevents hsave

-- A save whose compaction fails at once.
theorem account_stays_iff_after_failed_compaction :
    ∃ (l : LogStore) (h : Host) (events : List Event) (start s : Session (Seat Backend)),
      LogStore.openAt ⟨.here, ["log"]⟩ 0 Host.empty = (.ok l, h) ∧
      events = [.plan [⟨.fstat, 1, 1, "stale"⟩], .ask (.save (Account.ofIndex (.int 1)))] ∧
      Backend.Opened ⟨h, .log l⟩ ∧ (∀ op, .ask op ∈ events → op.Fits) ∧
      start = ⟨⟨none⟩, none, ⟨h, .log l⟩⟩ ∧ s = live start events ∧
      ((∀ before op after, events = before ++ .ask op :: after →
          ¬Forgets (live start before) 1 op) →
        ∀ op, op.Fits → op ≠ .remove 1 → Stored Backend.reliable s 1 →
          Stored Backend.reliable (step s op) 1) ∧
      (∀ op, op.Fits → op ≠ .remove 1 → Stored Backend.reliable s 1 →
        (Stored Backend.reliable (step s op) 1 ↔ ¬(Forgotten s 1 ∧ ¬op.Saves 1 ∧
          persisted Backend.reliable (step s op) ≠ persisted Backend.reliable s))) ∧
      (∀ op, op.Fits → ¬(Stored Backend.reliable s 1 ∧ Forgotten s 1) →
        ((Stored Backend.reliable (step s op) 1 ∧ Forgotten (step s op) 1) ↔ Forgets s 1 op)) ∧
      ∀ op, op.Fits → Forgets s 1 op →
        ∃ l, s.store.store = .log l ∧ ¬s.store.host.Spares .fstat := by
  obtain ⟨l, h, hopen⟩ : ∃ l h, LogStore.openAt ⟨.here, ["log"]⟩ 0 Host.empty = (.ok l, h) :=
    ⟨_, _, rfl⟩
  have hopened : Backend.Opened ⟨h, .log l⟩ := .log Host.empty h _ 0 l Disk.empty_sound hopen
  have hfits : ∀ op, Event.ask op ∈ [Event.plan [⟨.fstat, 1, 1, "stale"⟩],
      .ask (.save (Account.ofIndex (.int 1)))] → op.Fits := by
    intro op hop
    simp only [List.mem_cons, Event.ask.injEq, List.not_mem_nil, reduceCtorEq, or_false,
      false_or] at hop
    rw [hop]
    exact ⟨1, by decide, rfl⟩
  exact ⟨l, h, _, _, _, hopen, rfl, hopened, hfits, rfl, rfl,
    account_stays_iff ⟨none⟩ hopened _ hfits 1⟩

-- The next account that is saved drops the first one.
theorem account_lost :
    ∃ (l : LogStore) (h : Host) (s : Session (Seat Backend)),
      LogStore.openAt ⟨.here, ["log"]⟩ 0 Host.empty = (.ok l, h) ∧
      s = live ⟨⟨none⟩, none, ⟨h, .log l⟩⟩ [.plan [⟨.fstat, 1, 1, "stale"⟩],
        .ask (.save (Account.ofIndex (.int 1)))] ∧
      Stored Backend.reliable s 1 ∧
      (saveAccount (Account.ofIndex (.int 2)) s).1 = .ok () ∧
      ¬Stored Backend.reliable (step s (.save (Account.ofIndex (.int 2)))) 1 := by
  -- One evaluation serves both sessions, so that the store is opened once.
  have hfacts : ((LogStore.openAt ⟨.here, ["log"]⟩ 0 Host.empty).1.toOption.any fun l =>
      let h := (LogStore.openAt ⟨.here, ["log"]⟩ 0 Host.empty).2
      let s := live ⟨⟨none⟩, none, ⟨h, .log l⟩⟩ [.plan [⟨.fstat, 1, 1, "stale"⟩],
        .ask (.save (Account.ofIndex (.int 1)))]
      decide (Stored Backend.reliable s 1 ∧
        (saveAccount (Account.ofIndex (.int 2)) s).1.isOk = true ∧
        ¬Stored Backend.reliable (step s (.save (Account.ofIndex (.int 2)))) 1)) = true := by
    decide +kernel
  cases hopen : LogStore.openAt ⟨.here, ["log"]⟩ 0 Host.empty with
  | mk opened h =>
    rw [hopen] at hfacts
    cases opened with
    | error e => cases hfacts
    | ok l =>
      obtain ⟨hstored, hok, hlost⟩ := of_decide_eq_true hfacts
      refine ⟨l, h, _, rfl, rfl, hstored, ?_, hlost⟩
      generalize (saveAccount (Account.ofIndex (.int 2))
        (live ⟨⟨none⟩, none, ⟨h, .log l⟩⟩ _)).1 = r at hok ⊢
      cases r with
      | error e => cases hok
      | ok u => rfl

end Coffer.Wallet.Session
