import Coffer.Wallet.Debug
import Coffer.Proofs.Wallet.Transparent

-- What a mnemonic leaves in the store, in the files and in what is told of a wallet: nothing.

namespace Coffer

namespace Text

theorem ne_nil_of_mem_blankSeparatedFrom {w : List Char} {word cs : List Char}
    (h : w ∈ blankSeparatedFrom word cs) : w ≠ [] := by
  induction cs generalizing word with
  | nil =>
      rw [blankSeparatedFrom] at h
      split at h
      · cases h
      · obtain rfl := List.mem_singleton.mp h
        simpa using ‹¬word.isEmpty = true›
  | cons c rest ih =>
      rw [blankSeparatedFrom] at h
      split at h
      · split at h
        · exact ih h
        · rcases List.mem_cons.mp h with rfl | h
          · simpa using ‹¬word.isEmpty = true›
          · exact ih h
      · exact ih h

end Text

namespace Mnemonic

def HasWord (phrase : String) : Prop := Text.blankSeparated (Text.decompose phrase.toList) ≠ []

instance (phrase : String) : Decidable (HasWord phrase) := inferInstanceAs (Decidable (_ ≠ _))

variable {phrase : String}

theorem normalize_ne_nil (h : HasWord phrase) : normalize phrase ≠ [] := by
  have hwords : ∀ w ∈ Text.blankSeparated (Text.decompose phrase.toList), w ≠ [] :=
    fun w hw => Text.ne_nil_of_mem_blankSeparatedFrom hw
  unfold HasWord at h
  rw [normalize]
  generalize Text.blankSeparated (Text.decompose phrase.toList) = words at h hwords
  match words, h with
  | [w], _ => simpa using hwords
  | w :: v :: rest, _ => simp [List.intercalate]

-- A phrase has a seed, under whatever passphrase, if there is a word in it and only then.
theorem seed_eq_ok_iff (phrase passphrase : String) :
    (∃ s, seed phrase passphrase = .ok s) ↔ HasWord phrase := by
  constructor
  · rintro ⟨s, hs⟩ hnone
    have hempty : normalize phrase = [] := by
      rw [normalize, hnone]
      rfl
    rw [seed, hempty] at hs
    cases hs
  · intro h
    rw [seed, if_neg (by simpa using normalize_ne_nil h)]
    exact ⟨_, rfl⟩

end Mnemonic

namespace Wallet

theorem SecretManager.ofMnemonic_of_hasWord {phrase : String} (h : Mnemonic.HasWord phrase)
    (passphrase : String) : ∃ seed, ofMnemonic phrase passphrase = .ok (.mnemonic seed) := by
  obtain ⟨seed, hseed⟩ := (Mnemonic.seed_eq_ok_iff phrase passphrase).mpr h
  refine ⟨seed, ?_⟩
  rw [ofMnemonic, hseed]
  rfl

namespace Session

-- Of what is attached to a builder, saving it asks for the snapshot and for nothing else.
theorem saveBuilder_congr {σ : Type} [RecordStore σ] (b : Builder) {secret secret' : Attachment}
    (h : secret.snapshot? = secret'.snapshot?) :
    (saveBuilder (b.withSecret secret) : Action (Session σ) Unit) =
      saveBuilder (b.withSecret secret') := by
  change (Action.ofExcept secret.snapshot? >>= _) = (Action.ofExcept secret'.snapshot? >>= _)
  rw [h]
  rfl

-- What is told of a session

def Deed.told {σ : Type} [RecordStore σ] (s : Session σ) : Deed → List String
  | .save a => toldOfSave a
  | .remove index => toldOfRemoval index
  | .saveBuilder _ => toldOfBuilder
  | .resaveBuilder => toldOfResave s
  | .getBuilder => toldOfLoad s
  | .getAccount _ | .getAccounts | .getIndexes | .get _ _ => []

def Call.told (storage : Storage) (d : Desk) : Call → List String
  | .ask i deed =>
      match d.sessions i with
      | some registry => deed.told ⟨storage, registry, d.store⟩
      | none => []
  | _ => []

-- What can be seen of a step: the answer, what is told, and all there is after it, with the files.
structure Seen where
  answer : Except Failure Reply
  told : List String
  desk : Desk

-- What happens next. A builder is saved as it is, or with the manager of a mnemonic phrase.
inductive Move where
  | call (call : Call)
  | saveMnemonic (i : Nat) (b : Builder) (phrase passphrase : String)
  | plan (plans : List FaultPlan)
  | cut (fault : ShortWrite)
  | deny (key : String)

def seen (x : Action Desk Reply) (told : List String) (d : Desk) : Seen := ⟨(x d).1, told, (x d).2⟩

def seenOf (storage : Storage) (call : Call) (d : Desk) : Seen :=
  seen (serve storage call) (call.told storage d) d

def move (storage : Storage) (d : Desk) : Move → Seen
  | .call call => seenOf storage call d
  | .saveMnemonic i b phrase passphrase =>
      match SecretManager.ofMnemonic phrase passphrase with
      | .ok m => seenOf storage (.ask i (.saveBuilder (b.withSecret (.manager m)))) d
      | .error e => ⟨.error e, [], d⟩
  | .plan plans => ⟨.ok .done, [], { d with store := { d.store with host := { d.store.host with plans } } }⟩
  | .cut fault => seen (onDesk do
      Backend.plan fault
      return .done) [] d
  | .deny key => seen (onDesk do
      Backend.deny key
      return .done) [] d

-- A program goes by all that it has seen, the last first, until it stops.
def proceed (storage : Storage) (program : List Seen → Option Move) (start : Desk) (past : List Seen) :
    List Seen :=
  match program past with
  | some m => move storage ((past.head?.map Seen.desk).getD start) m :: past
  | none => past

def observe (storage : Storage) (program : List Seen → Option Move) (start : Desk) (n : Nat) :
    List Seen := (proceed storage program start)^[n] []

-- The same moves but for mnemonics and their passphrases.
inductive Move.Mirrors : Move → Move → Prop where
  | same (move : Move) : Mirrors move move
  | mnemonic (i : Nat) (b : Builder) {phrase phrase' : String} (h : Mnemonic.HasWord phrase)
      (h' : Mnemonic.HasWord phrase') (passphrase passphrase' : String) :
      Mirrors (.saveMnemonic i b phrase passphrase) (.saveMnemonic i b phrase' passphrase')

-- It makes no difference what the seed of an attached manager is.
theorem answer_saveMnemonic (b : Builder) (seed seed' : Bytes) :
    (answer (.saveBuilder (b.withSecret (.manager (.mnemonic seed)))) :
      Action (Session (Seat Backend)) Reply) =
      answer (.saveBuilder (b.withSecret (.manager (.mnemonic seed')))) := by
  have hsnapshot : (Attachment.manager (.mnemonic seed)).snapshot? =
      (Attachment.manager (.mnemonic seed')).snapshot? := rfl
  rw [answer, answer, saveBuilder_congr b hsnapshot]

theorem seenOf_saveMnemonic (storage : Storage) (i : Nat) (b : Builder) (seed seed' : Bytes) (d : Desk) :
    seenOf storage (.ask i (.saveBuilder (b.withSecret (.manager (.mnemonic seed))))) d =
      seenOf storage (.ask i (.saveBuilder (b.withSecret (.manager (.mnemonic seed'))))) d := by
  have hserve : serve storage (.ask i (.saveBuilder (b.withSecret (.manager (.mnemonic seed))))) =
      serve storage (.ask i (.saveBuilder (b.withSecret (.manager (.mnemonic seed'))))) := by
    funext d
    rw [serve, serve, ask, ask, answer_saveMnemonic b seed seed']
  rw [seenOf, seenOf, hserve]
  rfl

-- What is seen is as if the seed were empty.
theorem move_saveMnemonic {phrase : String} (h : Mnemonic.HasWord phrase) (storage : Storage) (d : Desk)
    (i : Nat) (b : Builder) (passphrase : String) :
    move storage d (.saveMnemonic i b phrase passphrase) =
      seenOf storage (.ask i (.saveBuilder (b.withSecret (.manager (.mnemonic []))))) d := by
  obtain ⟨seed, hseed⟩ := SecretManager.ofMnemonic_of_hasWord h passphrase
  rw [move, hseed]
  exact seenOf_saveMnemonic storage i b seed [] d

theorem move_of_mirrors {m m' : Move} (h : m.Mirrors m') (storage : Storage) (d : Desk) :
    move storage d m = move storage d m' := by
  cases h with
  | same => rfl
  | mnemonic i b h h' passphrase passphrase' =>
      rw [move_saveMnemonic h, move_saveMnemonic h']

theorem proceed_of_mirrors {program program' : List Seen → Option Move} {past : List Seen}
    (h : Option.Rel Move.Mirrors (program past) (program' past)) (storage : Storage) (start : Desk) :
    proceed storage program start past = proceed storage program' start past := by
  unfold proceed
  generalize program past = m?, program' past = m?' at h
  cases h with
  | none => rfl
  | some hmirrors => exact congrArg (· :: past) (move_of_mirrors hmirrors storage _)

-- Programs that differ only in their mnemonics see the same, however long they run.
theorem observe_of_mirrors (storage : Storage) (start : Desk)
    {program program' : List Seen → Option Move}
    (h : ∀ past, Option.Rel Move.Mirrors (program past) (program' past)) (n : Nat) :
    observe storage program start n = observe storage program' start n := by
  have hstep : proceed storage program start = proceed storage program' start :=
    funext fun past => proceed_of_mirrors (h past) storage start
  rw [observe, observe, hstep]

-- The moves one after the other, whatever is seen.
def script (moves : List Move) (past : List Seen) : Option Move := moves[past.length]?

theorem script_mirrors {moves moves' : List Move} (h : List.Forall₂ Move.Mirrors moves moves')
    (past : List Seen) : Option.Rel Move.Mirrors (script moves past) (script moves' past) := by
  unfold script
  generalize past.length = i
  induction h generalizing i with
  | nil => exact .none
  | cons hm _ ih =>
      cases i with
      | zero => exact .some hm
      | succ i => exact ih i

-- A save that is made, one of which the database refuses the record, and a load.
theorem observe_of_mirrors_saving :
    ∃ (d : DatabaseStore) (h : Host) (k : Seal.Key) (moves moves' : List Move),
      DatabaseStore.openAt ⟨.here, ["wallet"]⟩ Host.empty = (.ok d, h) ∧
      moves = [.call (.openSession 0 (.int 1)), .saveMnemonic 0 .empty "abandon ability" "one",
        .deny builderKey, .saveMnemonic 0 (Builder.empty.withCoinType (.int 1)) "zoo" "",
        .call (.ask 0 .getBuilder)] ∧
      moves' = [.call (.openSession 0 (.int 1)), .saveMnemonic 0 .empty "legal winner" "",
        .deny builderKey, .saveMnemonic 0 (Builder.empty.withCoinType (.int 1)) "abandon" "two",
        .call (.ask 0 .getBuilder)] ∧
      (∀ past, Option.Rel Move.Mirrors (script moves past) (script moves' past)) ∧
      observe ⟨some k⟩ (script moves) (.unused ⟨h, .database d⟩) 5 =
        observe ⟨some k⟩ (script moves') (.unused ⟨h, .database d⟩) 5 := by
  obtain ⟨d, h, hopen⟩ : ∃ d h,
      DatabaseStore.openAt ⟨.here, ["wallet"]⟩ Host.empty = (.ok d, h) := ⟨_, _, rfl⟩
  have hsaves (b : Builder) : Move.Mirrors (.saveMnemonic 0 b "abandon ability" "one")
      (.saveMnemonic 0 b "legal winner" "") := .mnemonic 0 b (by decide) (by decide) _ _
  have hfails (b : Builder) : Move.Mirrors (.saveMnemonic 0 b "zoo" "")
      (.saveMnemonic 0 b "abandon" "two") := .mnemonic 0 b (by decide) (by decide) _ _
  have hmirrors := script_mirrors (.cons (.same (.call (.openSession 0 (.int 1)))) <|
    .cons (hsaves .empty) <| .cons (.same (.deny builderKey)) <|
    .cons (hfails (Builder.empty.withCoinType (.int 1))) <|
    .cons (.same (.call (.ask 0 .getBuilder))) .nil)
  exact ⟨d, h, ⟨List.replicate 32 7, rfl⟩, _, _, hopen, rfl, rfl, hmirrors,
    observe_of_mirrors _ _ hmirrors 5⟩

end Session

end Wallet

end Coffer
