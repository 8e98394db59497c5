import Coffer.Proofs.Except
import Coffer.Proofs.Text.Utf8

-- Bytes that are read as a text are what the text is written as: no other bytes spell it.

namespace Coffer.Utf8

-- The bytes of the character whose number is put together from a lead byte and its tails.

theorem encodeChar_of_two (m t : Nat) (hm : 0xC2 ≤ m ∧ m < 0xE0) (ht : 0x80 ≤ t ∧ t ≤ 0xBF) :
    encodeChar (Char.ofNat (64 * (m - 0xC0) + t % 64)) = [UInt8.ofNat m, UInt8.ofNat t] := by
  generalize hn : 64 * (m - 0xC0) + t % 64 = n
  have hlead : 0xC0 + n / 64 = m := by omega
  have htail : 0x80 + n % 64 = t := by omega
  unfold encodeChar
  rw [toNat_ofNat n (by omega)]
  simp only [hlead, htail]
  rw [if_neg (by omega), if_pos (by omega)]

theorem encodeChar_of_three (m t u : Nat) (hm : 0xE0 ≤ m ∧ m < 0xF0) (ht : 0x80 ≤ t ∧ t ≤ 0xBF)
    (hu : 0x80 ≤ u ∧ u ≤ 0xBF) (hlong : m = 0xE0 → 0xA0 ≤ t) (hscalar : m = 0xED → t ≤ 0x9F) :
    encodeChar (Char.ofNat (64 * (64 * (m - 0xE0) + t % 64) + u % 64)) =
      [UInt8.ofNat m, UInt8.ofNat t, UInt8.ofNat u] := by
  generalize hn : 64 * (64 * (m - 0xE0) + t % 64) + u % 64 = n
  have hlead : 0xE0 + n / 4096 = m := by omega
  have hsecond : 0x80 + n / 64 % 64 = t := by omega
  have hthird : 0x80 + n % 64 = u := by omega
  unfold encodeChar
  rw [toNat_ofNat n (by omega)]
  simp only [hlead, hsecond, hthird]
  rw [if_neg (by omega), if_neg (by omega), if_pos (by omega)]

theorem encodeChar_of_four (m t u v : Nat) (hm : 0xF0 ≤ m ∧ m ≤ 0xF4) (ht : 0x80 ≤ t ∧ t ≤ 0xBF)
    (hu : 0x80 ≤ u ∧ u ≤ 0xBF) (hv : 0x80 ≤ v ∧ v ≤ 0xBF) (hlong : m = 0xF0 → 0x90 ≤ t)
    (hlast : m = 0xF4 → t ≤ 0x8F) :
    encodeChar (Char.ofNat (64 * (64 * (64 * (m - 0xF0) + t % 64) + u % 64) + v % 64)) =
      [UInt8.ofNat m, UInt8.ofNat t, UInt8.ofNat u, UInt8.ofNat v] := by
  generalize hn : 64 * (64 * (64 * (m - 0xF0) + t % 64) + u % 64) + v % 64 = n
  have hlead : 0xF0 + n / 262144 = m := by omega
  have hsecond : 0x80 + n / 4096 % 64 = t := by omega
  have hthird : 0x80 + n / 64 % 64 = u := by omega
  have hfourth : 0x80 + n % 64 = v := by omega
  unfold encodeChar
  rw [toNat_ofNat n (by omega)]
  simp only [hlead, hsecond, hthird, hfourth]
  rw [if_neg (by omega), if_neg (by omega), if_neg (by omega)]

-- Whatever bytes within the bounds still come, all of them together are a character as it is
-- written.
def Completes : Nat → Pending → Bytes → Prop
  | 0, p, read => encodeChar (Char.ofNat p.code) = read
  | more + 1, p, read =>
      ∀ b, p.low ≤ b → b ≤ p.high → Completes more (p.push b) (read ++ [b])

theorem tail_bounds {low high b : UInt8} (hlow : low ≤ b) (hhigh : b ≤ high) :
    low.toNat ≤ b.toNat ∧ b.toNat ≤ high.toNat :=
  ⟨UInt8.le_iff_toNat_le.mp hlow, UInt8.le_iff_toNat_le.mp hhigh⟩

theorem completes_one {p : Pending} (hmore : p.more = 1) (hlow : p.low = 0x80) (hhigh : p.high = 0xBF)
    {m : Nat} (hm : 0xC2 ≤ m ∧ m < 0xE0) (hcode : p.code = m - 0xC0) :
    Completes p.more p [UInt8.ofNat m] := by
  rw [hmore]
  intro t hlow' hhigh'
  rw [hlow] at hlow'
  rw [hhigh] at hhigh'
  have ht : 128 ≤ t.toNat ∧ t.toNat ≤ 191 := tail_bounds hlow' hhigh'
  have hchar := encodeChar_of_two m t.toNat hm ht
  rw [UInt8.ofNat_toNat, ← hcode] at hchar
  exact hchar

theorem completes_two {p : Pending} (hmore : p.more = 2) {m : Nat} (hm : 0xE0 ≤ m ∧ m < 0xF0)
    (hcode : p.code = m - 0xE0)
    (hbounds : ∀ t : UInt8, p.low ≤ t → t ≤ p.high → (0x80 ≤ t.toNat ∧ t.toNat ≤ 0xBF) ∧
      (m = 0xE0 → 0xA0 ≤ t.toNat) ∧ (m = 0xED → t.toNat ≤ 0x9F)) :
    Completes p.more p [UInt8.ofNat m] := by
  rw [hmore]
  intro t htlow hthigh u hulow huhigh
  obtain ⟨ht, hlong, hscalar⟩ := hbounds t htlow hthigh
  have hu : 128 ≤ u.toNat ∧ u.toNat ≤ 191 := tail_bounds hulow huhigh
  have hchar := encodeChar_of_three m t.toNat u.toNat hm ht hu hlong hscalar
  rw [UInt8.ofNat_toNat, UInt8.ofNat_toNat, ← hcode] at hchar
  exact hchar

theorem completes_three {p : Pending} (hmore : p.more = 3) {m : Nat} (hm : 0xF0 ≤ m ∧ m ≤ 0xF4)
    (hcode : p.code = m - 0xF0)
    (hbounds : ∀ t : UInt8, p.low ≤ t → t ≤ p.high → (0x80 ≤ t.toNat ∧ t.toNat ≤ 0xBF) ∧
      (m = 0xF0 → 0x90 ≤ t.toNat) ∧ (m = 0xF4 → t.toNat ≤ 0x8F)) :
    Completes p.more p [UInt8.ofNat m] := by
  rw [hmore]
  intro t htlow hthigh u hulow huhigh v hvlow hvhigh
  obtain ⟨ht, hlong, hlast⟩ := hbounds t htlow hthigh
  have hu : 128 ≤ u.toNat ∧ u.toNat ≤ 191 := tail_bounds hulow huhigh
  have hv : 128 ≤ v.toNat ∧ v.toNat ≤ 191 := tail_bounds hvlow hvhigh
  have hchar := encodeChar_of_four m t.toNat u.toNat v.toNat hm ht hu hv hlong hlast
  rw [UInt8.ofNat_toNat, UInt8.ofNat_toNat, UInt8.ofNat_toNat, ← hcode] at hchar
  exact hchar

-- A lead byte lets through what completes a character, and nothing else.
theorem completes_lead {b : UInt8} {p : Pending} (h : Pending.ofLead? b = some p) :
    Completes p.more p [b] := by
  have hm := b.toNat_lt
  rw [← UInt8.ofNat_toNat (x := b)] at h ⊢
  generalize b.toNat = m at h hm
  rw [ofLead?_ofNat m hm] at h
  split at h
  · cases h
    exact encodeChar_ofNat m ‹_›
  split at h
  · cases h
  split at h
  · cases h
    exact completes_one rfl rfl rfl (by omega) rfl
  split at h
  · cases h
    refine completes_two rfl (by omega) (by simp [‹m = 0xE0›]) fun t hlow hhigh => ?_
    have ht : 0xA0 ≤ t.toNat ∧ t.toNat ≤ 0xBF := tail_bounds hlow hhigh
    omega
  split at h
  · cases h
    refine completes_two rfl (by omega) (by simp [‹m = 0xED›]) fun t hlow hhigh => ?_
    have ht : 0x80 ≤ t.toNat ∧ t.toNat ≤ 0x9F := tail_bounds hlow hhigh
    omega
  split at h
  · cases h
    refine completes_two rfl (by omega) rfl fun t hlow hhigh => ?_
    have ht : 0x80 ≤ t.toNat ∧ t.toNat ≤ 0xBF := tail_bounds hlow hhigh
    omega
  split at h
  · cases h
    refine completes_three rfl (by omega) (by simp [‹m = 0xF0›]) fun t hlow hhigh => ?_
    have ht : 0x90 ≤ t.toNat ∧ t.toNat ≤ 0xBF := tail_bounds hlow hhigh
    omega
  split at h
  · cases h
    refine completes_three rfl (by omega) rfl fun t hlow hhigh => ?_
    have ht : 0x80 ≤ t.toNat ∧ t.toNat ≤ 0xBF := tail_bounds hlow hhigh
    omega
  split at h
  · cases h
    refine completes_three rfl (by omega) (by simp [‹m = 0xF4›]) fun t hlow hhigh => ?_
    have ht : 0x80 ≤ t.toNat ∧ t.toNat ≤ 0x8F := tail_bounds hlow hhigh
    omega
  · cases h

theorem Completes.push {more : Nat} {p : Pending} {read : Bytes} {b : UInt8}
    (h : Completes p.more p read) (hmore : p.more = more + 1) (hlow : p.low ≤ b) (hhigh : b ≤ p.high) :
    Completes (p.push b).more (p.push b) (read ++ [b]) := by
  rw [hmore] at h
  have hpush : (p.push b).more = more := by
    rw [Pending.push, hmore, Nat.add_sub_cancel]
  rw [hpush]
  exact h b hlow hhigh

-- A character that is complete is followed by what the rest is decoded to.
theorem encodeChars_of_complete {p : Pending} {read rest : Bytes} {next : Nat} {cs : List Char}
    (hcomplete : Completes p.more p read) (hmore : p.more = 0)
    (h : (Char.ofNat p.code :: ·) <$> decodeFrom none next rest = .ok cs)
    (hrest : ∀ ds, decodeFrom none next rest = .ok ds → rest = encodeChars ds) :
    read ++ rest = encodeChars cs := by
  obtain ⟨ds, hds, rfl⟩ := map_eq_ok h
  rw [hmore] at hcomplete
  rw [encodeChars_cons, ← hrest ds hds]
  exact congrArg (· ++ rest) hcomplete.symm

-- Decoded is what the bytes read so far and those to come are the writing of. The induction is
-- on the bytes to come, between two characters and within one.
theorem decodeFrom_eq_ok (b : Bytes) :
    (∀ pos cs, decodeFrom none pos b = .ok cs → b = encodeChars cs) ∧
    ∀ p pos cs read, p.more ≠ 0 → Completes p.more p read → decodeFrom (some p) pos b = .ok cs →
      read ++ b = encodeChars cs := by
  induction b with
  | nil =>
      refine ⟨fun pos cs h => ?_, fun p pos cs read _ _ h => ?_⟩
      · cases h
        rfl
      · cases h
  | cons b rest ih =>
      obtain ⟨hnone, hsome⟩ := ih
      refine ⟨fun pos cs h => ?_, fun p pos cs read hmore hcompletes h => ?_⟩
      · rw [decodeFrom] at h
        cases hlead : Pending.ofLead? b with
        | none => simp [hlead] at h
        | some p =>
            have hcompletes := completes_lead hlead
            simp only [hlead] at h
            split at h
            · exact encodeChars_of_complete hcompletes ‹_› h (hnone _)
            · exact hsome p _ cs [b] ‹_› hcompletes h
      · rw [decodeFrom] at h
        split at h
        · next hbounds =>
          obtain ⟨more, hsucc⟩ := Nat.exists_eq_succ_of_ne_zero hmore
          have hpushed := hcompletes.push hsucc hbounds.1 hbounds.2
          rw [← List.singleton_append, ← List.append_assoc]
          dsimp only at h
          split at h
          · exact encodeChars_of_complete hpushed ‹_› h (hnone _)
          · exact hsome _ _ cs _ ‹_› hpushed h
        · cases h

-- A text is read from its own bytes only.
theorem decode_eq_ok_iff {b : Bytes} {s : String} : decode b = .ok s ↔ b = encode s := by
  refine ⟨fun h => ?_, fun h => by rw [h, decode_encode]⟩
  obtain ⟨cs, hcs, rfl⟩ := map_eq_ok h
  rw [encode, String.toList_ofList]
  exact (decodeFrom_eq_ok b).1 0 cs hcs

end Coffer.Utf8
