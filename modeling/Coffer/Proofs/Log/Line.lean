import Coffer.Store.Commit
import Coffer.Proofs.Json.Texts

namespace Coffer.Commit

open Json (Written writtenChars textValues)

-- The members that a commit is written with.
def written (c : Commit) : List (Written Value) :=
  (if c.puts.isEmpty then []
    else [⟨"puts", Json.textMembers c.puts, textValues (Entries.putAll [] c.puts)⟩]) ++
  (if c.deletes.isEmpty then []
    else [⟨"deletes", Json.textList c.deletes, .list (c.deletes.map Value.text)⟩])

theorem encode_eq (c : Commit) : c.encode = Utf8.encodeChars (writtenChars c.written) := by
  rw [encode, members, writtenChars, written, List.map_append]
  congr 3 <;> split <;> rfl

theorem fill_written (c : Commit) :
    Json.fill (Entries.putAll [] (Json.pairs c.written))
        [⟨"puts", .dict .text, some (.dict [])⟩, ⟨"deletes", .list .text, some (.list [])⟩] =
      .ok [("puts", textValues (Entries.putAll [] c.puts)),
        ("deletes", .list (c.deletes.map Value.text))] := by
  obtain ⟨puts, deletes⟩ := c
  cases puts <;> cases deletes <;>
    simp [written, Json.pairs, Json.fill, Entries.put, Entries.get?, textValues, Value.ofMembers]

-- A commit is read back with the last value of every key in its first place.
theorem decode_encode (c : Commit) :
    decode c.encode = .ok ⟨Entries.putAll [] c.puts, c.deletes⟩ := by
  have hdepth : Json.maxDepth = 968 + 1 + 1 := rfl
  have hread := Json.reads_record (968 + 1) schema ⟨"LogCommit", none, false⟩
    [⟨"puts", .dict .text, some (.dict [])⟩, ⟨"deletes", .list .text, some (.list [])⟩]
    c.written _ rfl (by
      intro w hw
      rcases List.mem_append.mp hw with hw | hw <;> split at hw <;> simp only [List.mem_cons,
        List.not_mem_nil, or_false] at hw
      · subst hw
        exact ⟨_, rfl, Json.reads_textMembers 968 c.puts⟩
      · subst hw
        exact ⟨_, rfl, Json.reads_textList 968 c.deletes⟩) (fill_written c)
  rw [← hdepth] at hread
  have hitems : (Value.list (c.deletes.map Value.text)).textItems = c.deletes := by
    simp only [Value.textItems, List.map_map]
    exact List.map_id c.deletes
  rw [decode, encode_eq, Json.decodeBytes_of_reads schema _ _ hread, ok_map, ofValue,
    Json.textEntries_textValues, hitems]

theorem isPlain_encode (c : Commit) (b : UInt8) (hb : b ∈ c.encode) : 0x20 ≤ b.toNat := by
  apply Json.isPlain_objectChars c.members _ b hb
  intro m hm
  rcases List.mem_append.mp hm with hm | hm <;> split at hm <;> simp only [List.mem_cons,
    List.not_mem_nil, or_false] at hm <;> subst hm
  · exact ⟨Json.le_of_mem_textChars _, Json.isPlain_textMembers c.puts⟩
  · exact ⟨Json.le_of_mem_textChars _, Json.isPlain_textList c.deletes⟩

theorem newline_not_mem_encode (c : Commit) : newline ∉ c.encode := fun h =>
  absurd (isPlain_encode c newline h) (by decide)

-- The first part of a line has no newline, unless it is the whole line.
theorem eq_line_or_not_mem {c : Commit} {written : Bytes} (h : written <+: c.line) :
    written = c.line ∨ newline ∉ written := by
  rcases List.prefix_concat_iff.mp h with hwhole | hpart
  · exact .inl hwhole
  · exact .inr fun hmem => newline_not_mem_encode c (hpart.subset hmem)

theorem encode_not_blank (c : Commit) : c.encode.all isBlankByte = false := by
  rw [encode_eq, Json.encodeChars_writtenChars, List.all_cons]
  rfl

-- Applying a commit as it is read back is applying it.
theorem apply_decoded (c : Commit) (records : Entries String String) :
    apply ⟨Entries.putAll [] c.puts, c.deletes⟩ records = c.apply records := by
  rw [apply, Entries.putAll_putAll_nil]
  rfl

-- Whole lines, each with its newline.
def joined (lines : List Bytes) : Bytes := lines.flatMap fun line => line ++ [newline]

theorem joined_append (first second : List Bytes) :
    joined (first ++ second) = joined first ++ joined second := by
  simp [joined]

theorem splitLines_tail (tail : Bytes) (htail : newline ∉ tail) : splitLines tail = ([], tail) := by
  induction tail with
  | nil => rfl
  | cons b tail ih =>
      have hb : ¬b = newline ∧ newline ∉ tail := by
        simpa [eq_comm, not_or] using htail
      simp only [splitLines, ih hb.2, hb.1, if_false]

theorem splitLines_line (line rest : Bytes) (hline : newline ∉ line) :
    splitLines (line ++ newline :: rest) = (line :: (splitLines rest).1, (splitLines rest).2) := by
  induction line with
  | nil => simp [splitLines]
  | cons b line ih =>
      have hb : ¬b = newline ∧ newline ∉ line := by
        simpa [eq_comm, not_or] using hline
      simp only [List.cons_append, splitLines, ih hb.2, hb.1, if_false]

-- A log is cut into its lines in one way only.
theorem splitLines_joined (lines : List Bytes) (tail : Bytes)
    (hlines : ∀ line ∈ lines, newline ∉ line) (htail : newline ∉ tail) :
    splitLines (joined lines ++ tail) = (lines, tail) := by
  induction lines with
  | nil => exact splitLines_tail tail htail
  | cons line lines ih =>
      have ih := ih fun l hl => hlines l (List.mem_cons_of_mem _ hl)
      have hsplit : joined (line :: lines) ++ tail = line ++ newline :: (joined lines ++ tail) := by
        simp [joined]
      rw [hsplit, splitLines_line line _ (hlines line List.mem_cons_self), ih]

theorem joined_splitLines (b : Bytes) :
    b = joined (splitLines b).1 ++ (splitLines b).2 ∧
      (∀ line ∈ (splitLines b).1, newline ∉ line) ∧ newline ∉ (splitLines b).2 := by
  induction b with
  | nil => simp [splitLines, joined]
  | cons x b ih =>
      obtain ⟨hb, hlines, htail⟩ := ih
      by_cases hx : x = newline
      · subst hx
        simp only [splitLines, if_true]
        refine ⟨?_, ?_, htail⟩
        · change _ = newline :: (joined (splitLines b).1 ++ (splitLines b).2)
          rw [← hb]
        · intro line hline
          rcases List.mem_cons.mp hline with rfl | hline
          · simp
          · exact hlines line hline
      · simp only [splitLines, hx, if_false]
        cases hs : (splitLines b).1 with
        | nil =>
            simp only [hs] at hb hlines htail ⊢
            refine ⟨?_, by simp, ?_⟩
            · simpa [joined] using hb
            · simpa [eq_comm, hx] using htail
        | cons line lines =>
            simp only [hs] at hb hlines htail ⊢
            refine ⟨?_, ?_, htail⟩
            · simpa [joined] using hb
            · intro l hl
              rcases List.mem_cons.mp hl with rfl | hl
              · have := hlines line List.mem_cons_self
                simpa [eq_comm, hx] using this
              · exact hlines l (List.mem_cons_of_mem _ hl)

theorem replayFrom_append (number : Nat) (records : Entries String String)
    (first second : List Bytes) :
    replayFrom number records (first ++ second) =
      replayFrom number records first >>= fun records =>
        replayFrom (number + first.length) records second := by
  induction first generalizing number records with
  | nil => rfl
  | cons line first ih =>
      have hnumber : number + (line :: first).length = number + 1 + first.length := by
        rw [List.length_cons]
        omega
      rw [List.cons_append, replayFrom, replayFrom, hnumber]
      split
      · exact ih _ _
      · cases decode line with
        | ok c => exact ih _ _
        | error e => rfl

-- The line of a commit replays as the commit.
theorem replayFrom_encode (number : Nat) (records : Entries String String) (c : Commit)
    (rest : List Bytes) :
    replayFrom number records (c.encode :: rest) = replayFrom (number + 1) (c.apply records) rest := by
  rw [replayFrom, encode_not_blank, decode_encode]
  simp only [Bool.false_eq_true, if_false, apply_decoded]

theorem nodup_apply (c : Commit) (records : Entries String String) (h : records.keys.Nodup) :
    (c.apply records).keys.Nodup :=
  Entries.nodup_eraseAll _ _ (Entries.nodup_putAll _ _ h)

theorem nodup_of_replayFrom (number : Nat) (records : Entries String String) (lines : List Bytes)
    (result : Entries String String) (hrecords : records.keys.Nodup)
    (h : replayFrom number records lines = .ok result) : result.keys.Nodup := by
  induction lines generalizing number records with
  | nil =>
      cases h
      exact hrecords
  | cons line lines ih =>
      rw [replayFrom] at h
      split at h
      · exact ih _ _ hrecords h
      · split at h
        · exact ih _ _ (nodup_apply _ _ hrecords) h
        · cases h

-- The bytes are whole lines, and they replay as the records.
def Durable (b : Bytes) (records : Entries String String) : Prop :=
  (splitLines b).2 = [] ∧ replay (splitLines b).1 = .ok records

namespace Durable

variable {b : Bytes} {records : Entries String String}

theorem eq_joined (h : Durable b records) :
    b = joined (splitLines b).1 ∧ ∀ line ∈ (splitLines b).1, newline ∉ line := by
  obtain ⟨hb, hlines, -⟩ := joined_splitLines b
  rw [h.1, List.append_nil] at hb
  exact ⟨hb, hlines⟩

-- What comes behind the whole lines, short of a newline, is the torn tail.
theorem splitLines_append (h : Durable b records) {torn : Bytes} (htorn : newline ∉ torn) :
    splitLines (b ++ torn) = ((splitLines b).1, torn) := by
  obtain ⟨hb, hlines⟩ := h.eq_joined
  conv_lhs => rw [hb]
  exact splitLines_joined _ _ hlines htorn

theorem of_joined {lines : List Bytes} (hlines : ∀ line ∈ lines, newline ∉ line)
    (h : replay lines = .ok records) : Durable (joined lines) records := by
  have hsplit := splitLines_joined lines [] hlines (by simp)
  rw [List.append_nil] at hsplit
  exact ⟨by rw [hsplit], by rw [hsplit]; exact h⟩

theorem nodup (h : Durable b records) : records.keys.Nodup :=
  nodup_of_replayFrom 1 [] _ _ List.nodup_nil h.2

theorem empty_or_newline (h : Durable b records) : b = [] ∨ b.getLast? = some newline := by
  obtain ⟨hb, -⟩ := h.eq_joined
  generalize (splitLines b).1 = lines at hb
  subst hb
  induction lines using List.reverseRecOn with
  | nil => exact .inl rfl
  | append_singleton lines line ih =>
      right
      rw [joined_append]
      simp [joined]

-- A commit's line carries the records on to what the commit makes of them.
theorem append (h : Durable b records) (c : Commit) : Durable (b ++ c.line) (c.apply records) := by
  obtain ⟨hb, hlines⟩ := h.eq_joined
  have hjoined : b ++ c.line = joined ((splitLines b).1 ++ [c.encode]) := by
    rw [joined_append, ← hb]
    simp [joined, line]
  rw [hjoined]
  apply of_joined
  · intro line hline
    rcases List.mem_append.mp hline with hline | hline
    · exact hlines line hline
    · rw [List.mem_singleton.mp hline]
      exact newline_not_mem_encode c
  · have hreplay := h.2
    unfold replay at hreplay ⊢
    rw [replayFrom_append, hreplay, ok_bind, replayFrom_encode]
    rfl

theorem empty : Durable [] [] := ⟨rfl, rfl⟩

theorem of_line (h : records.keys.Nodup) : Durable (Commit.line ⟨records, []⟩) records := by
  have hline := empty.append ⟨records, []⟩
  rw [List.nil_append, apply, Entries.eraseAll_nil, Entries.putAll_nil_of_nodup _ h] at hline
  exact hline

-- Cutting off the torn last line leaves whole lines.
theorem of_cut (data : Bytes) (h : replay (splitLines data).1 = .ok records) :
    Durable (data.take (data.length - (splitLines data).2.length)) records := by
  obtain ⟨hdata, hlines, -⟩ := joined_splitLines data
  have hcut : data.take (data.length - (splitLines data).2.length) = joined (splitLines data).1 := by
    generalize (splitLines data).1 = lines at hdata
    generalize (splitLines data).2 = tail at hdata
    subst hdata
    rw [List.length_append, Nat.add_sub_cancel, List.take_left]
  rw [hcut]
  exact of_joined hlines h

end Durable

-- Logs of known commits

-- What commits look like in a log, and the records they leave.
def lines (commits : List Commit) : Bytes := commits.flatMap line

def applyAll (commits : List Commit) : Entries String String :=
  commits.foldl (fun records c => c.apply records) []

theorem lines_concat (commits : List Commit) (c : Commit) :
    lines (commits ++ [c]) = lines commits ++ c.line := by
  rw [lines, List.flatMap_append, List.flatMap_singleton]
  rfl

theorem applyAll_concat (commits : List Commit) (c : Commit) :
    applyAll (commits ++ [c]) = c.apply (applyAll commits) := List.foldl_concat ..

theorem durable_lines (commits : List Commit) : Durable (lines commits) (applyAll commits) := by
  induction commits using List.reverseRecOn with
  | nil => exact Durable.empty
  | append_singleton commits c ih =>
      rw [lines_concat, applyAll_concat]
      exact ih.append c

theorem lines_eq_joined (commits : List Commit) : lines commits = joined (commits.map encode) := by
  rw [lines, joined, List.flatMap_map]
  rfl

-- A log that ends with a whole line is cut into the commits it was made of.
theorem splitLines_lines (commits : List Commit) :
    splitLines (lines commits) = (commits.map encode, []) := by
  have hlines : ∀ line ∈ commits.map encode, newline ∉ line := by
    intro line hline
    obtain ⟨c, -, rfl⟩ := List.mem_map.mp hline
    exact newline_not_mem_encode c
  have hsplit := splitLines_joined (commits.map encode) [] hlines List.not_mem_nil
  rwa [List.append_nil, ← lines_eq_joined] at hsplit

-- Where no key is put twice, a commit is read back as it was.
theorem decode_encode_of_nodup (c : Commit) (hkeys : c.puts.keys.Nodup) :
    decode c.encode = .ok c := by
  rw [decode_encode, Entries.putAll_nil_of_nodup _ hkeys]

theorem mapM_decode_encode (commits : List Commit) (hkeys : ∀ c ∈ commits, c.puts.keys.Nodup) :
    (commits.map encode).mapM decode = .ok commits := by
  induction commits with
  | nil => rfl
  | cons c rest ih =>
      obtain ⟨hc, hrest⟩ := List.forall_mem_cons.mp hkeys
      rw [List.map_cons, List.mapM_cons, decode_encode_of_nodup c hc, ok_bind, ih hrest]
      rfl

-- Whatever characters are in its texts, a commit is one line that is not blank and is read back
-- with its puts and deletes in their order. So a log of commits is read back as their list.
theorem commits_reread :
    (∀ c : Commit, c.puts.keys.Nodup →
      0x0A ∉ c.encode ∧ 0x0D ∉ c.encode ∧ c.encode.all isBlankByte = false ∧
        decode c.encode = .ok c) ∧
    ∀ commits : List Commit, (∀ c ∈ commits, c.puts.keys.Nodup) →
      (splitLines (lines commits)).2 = [] ∧
        (splitLines (lines commits)).1 = commits.map encode ∧
        (splitLines (lines commits)).1.mapM decode = .ok commits := by
  refine ⟨fun c hkeys => ⟨fun h => ?_, fun h => ?_, encode_not_blank c,
    decode_encode_of_nodup c hkeys⟩, fun commits hkeys => ?_⟩
  · exact absurd (isPlain_encode c _ h) (by decide)
  · exact absurd (isPlain_encode c _ h) (by decide)
  · rw [splitLines_lines]
    exact ⟨rfl, rfl, mapM_decode_encode commits hkeys⟩

-- Line ends, a quote and a backslash in the texts, and a key that is deleted twice.
theorem commits_reread_of_line_ends :
    ∃ c : Commit, c = ⟨[("\n\"", "\r\\"), ("", "é")], ["a", "a"]⟩ ∧ c.puts.keys.Nodup ∧
      (0x0A ∉ c.encode ∧ 0x0D ∉ c.encode ∧ c.encode.all isBlankByte = false ∧
        decode c.encode = .ok c) ∧
      (splitLines (lines [c, c])).2 = [] ∧
        (splitLines (lines [c, c])).1 = [c, c].map encode ∧
        (splitLines (lines [c, c])).1.mapM decode = .ok [c, c] := by
  let c : Commit := ⟨[("\n\"", "\r\\"), ("", "é")], ["a", "a"]⟩
  have hkeys : c.puts.keys.Nodup := by decide
  exact ⟨c, rfl, hkeys, commits_reread.1 c hkeys, commits_reread.2 [c, c] (by simp [hkeys])⟩

-- A log that is cut anywhere is whole lines and the start of one more. A commit is among the
-- whole lines exactly if its line ends before the cut.
theorem take_lines (commits : List Commit) (torn : Bytes) (htorn : newline ∉ torn) (n : Nat) :
    ∃ k cut, (lines commits ++ torn).take n = lines (commits.take k) ++ cut ∧ newline ∉ cut ∧
      ∀ i < commits.length, i < k ↔ (lines (commits.take (i + 1))).length ≤ n := by
  induction commits generalizing n with
  | nil => exact ⟨0, torn.take n, rfl, fun h => htorn (List.mem_of_mem_take h), nofun⟩
  | cons c commits ih =>
      have hlines (rest : List Commit) : lines (c :: rest) = c.line ++ lines rest := List.flatMap_cons
      by_cases hn : n < c.line.length
      · refine ⟨0, c.encode.take n, ?_, fun h => ?_, fun i hi => ?_⟩
        · have hencode : n ≤ c.encode.length := by
            rw [line, List.length_append, List.length_singleton] at hn
            omega
          rw [hlines, List.append_assoc, List.take_append_of_le_length (Nat.le_of_lt hn), line,
            List.take_append_of_le_length hencode]
          rfl
        · exact newline_not_mem_encode c (List.mem_of_mem_take h)
        · rw [List.take_succ_cons, hlines, List.length_append]
          omega
      · obtain ⟨k, cut, htake, hcut, hwhole⟩ := ih (n - c.line.length)
        refine ⟨k + 1, cut, ?_, hcut, fun i hi => ?_⟩
        · rw [hlines, List.append_assoc, List.take_append, List.take_of_length_le (by omega), htake,
            List.take_succ_cons, hlines, List.append_assoc]
        · rw [List.take_succ_cons, hlines, List.length_append]
          cases i with
          | zero => simp [lines]; omega
          | succ i =>
              have hi := hwhole i (by simpa using hi)
              omega

end Coffer.Commit
