import CommitPipeline.Proofs.TailPhases
import Mathlib.Data.Set.Function

/-!
# The rows of summaries

A row has three fields of fixed width: 32 bytes of a digest, eight of a time stamp, four of a count.
Every byte string of these 44 bytes is the row of one summary, and of one only, so that what a tail
reads back depends on nothing but the length of its rows. A tail that starts from a store stops at
the lowest row of its window that has another length.

The module introduces:

* `Summary.encode_decode` — a row that is read was written for what it is read as;
* `Summary.bijOn_encode` — summaries and byte strings of the length of a row correspond;
* `Summary.rows_bijective` — this with both directions written out, and when a start fails.
-/

namespace CommitPipeline

namespace BigEndian

/-- The width of a string is all that it takes to write it again. -/
theorem encode_decode_of_length {bytes : Bytes} {width : Nat} (hlength : bytes.length = width) :
    encode width (decode bytes) = bytes := by
  rw [← hlength, encode_decode]

theorem decode_lt_of_length {bytes : Bytes} {width : Nat} (hlength : bytes.length = width) :
    decode bytes < capacity width := by
  rw [← hlength]
  exact decode_lt bytes

end BigEndian

namespace Summary

/-- A row that is read was written for the summary that it is read as. -/
theorem encode_decode {row : Bytes} {s : Summary} (h : decode row = .ok s) : s.encode = row := by
  unfold decode at h
  split at h
  swap
  · cases h
  next hlength =>
  cases h
  rw [encodedLength] at hlength
  -- The words have room for whatever the bytes of their fields write.
  have htime : ((row.drop 32).take 8).length = 8 := by
    rw [List.length_take, List.length_drop, hlength]
    decide
  have hcount : (row.drop 40).length = 4 := by
    rw [List.length_drop, hlength]
  have hword : (UInt64.ofNat (BigEndian.decode ((row.drop 32).take 8))).toNat =
      BigEndian.decode ((row.drop 32).take 8) :=
    UInt64.toNat_ofNat_of_lt' (BigEndian.decode_lt_of_length htime)
  have hhalf : (UInt32.ofNat (BigEndian.decode (row.drop 40))).toNat =
      BigEndian.decode (row.drop 40) :=
    UInt32.toNat_ofNat_of_lt' (BigEndian.decode_lt_of_length hcount)
  rw [encode, hword, hhalf, BigEndian.encode_decode_of_length htime,
    BigEndian.encode_decode_of_length hcount]
  -- What is left are the three parts of the row, cut at bytes 32 and 40.
  calc row.take 32 ++ (row.drop 32).take 8 ++ row.drop 40
      = row.take 40 ++ row.drop 40 := by rw [← List.take_add]
    _ = row := List.take_append_drop 40 row

/-- Summaries and byte strings of the length of a row correspond. -/
theorem bijOn_encode : Set.BijOn encode Set.univ {row | row.length = encodedLength} := by
  refine ⟨fun s _ => length_encode s, fun s _ s' _ heq => ?_, fun row hrow => ?_⟩
  · have hread := decode_encode s
    rw [heq, decode_encode] at hread
    exact (Except.ok.inj hread).symm
  · obtain ⟨s, hs⟩ := exists_decode hrow
    exact ⟨s, trivial, encode_decode hs⟩

end Summary

/-- Summaries and strings of 44 bytes correspond: what is written for a summary is read as this
summary, a string is read if it has 44 bytes, and is then what is written for what it is read as,
and every other string is reported with its length. So no two summaries share a row, and a tail that
starts from a store fails if some row of its window has another length, and only then; it reports
the lowest such row. At the last round there is, the window has no floor, and instead of an error
there is a fault. -/
theorem Summary.rows_bijective :
    (∀ s, decode s.encode = .ok s) ∧
      (∀ row, (∃ s, decode row = .ok s) ↔ row.length = 44) ∧
      (∀ row s, decode row = .ok s → s.encode = row) ∧
      (∀ row, row.length ≠ 44 → decode row = .error (.summaryLength row.length 44)) ∧
      Set.BijOn encode Set.univ {row | row.length = 44} ∧
      ∀ (u : Tail) (store : Store) (durable : Round),
        ((∃ e, u.reload store durable = .error (.error e)) ↔
            ∃ r row, u.Misshapen store durable r row) ∧
          (∀ e, u.reload store durable = .error (.error e) ↔
            ∃ r row, u.Misshapen store durable r row ∧
              (∀ q row', u.Misshapen store durable q row' → r ≤ q) ∧
              e = .store (.corrupt (.summaryLength row.length 44))) ∧
          ((∃ f, u.reload store durable = .error (.fault f)) ↔
            durable.toNat + 1 = Round.limit) := by
  refine ⟨decode_encode, fun row => ⟨?_, exists_decode⟩, fun _ _ => encode_decode,
    fun _ => decode_of_length_ne, bijOn_encode, fun u store durable => ?_⟩
  · rintro ⟨s, hs⟩
    rw [← encode_decode hs]
    exact length_encode s
  obtain ⟨hlast, f, hread⟩ | ⟨hlt, hnone, _, _, -, hread, -⟩ |
    ⟨hlt, r, row, hrow, hlowest, hread⟩ :=
    u.reload_cases store durable
  · -- At the last round there is no window that a row could stand in.
    have hnone : ∀ r row, ¬ u.Misshapen store durable r row := fun r row hrow => by
      obtain ⟨floor, hfloor, -⟩ := hrow.floor
      exact Nat.ne_of_lt (Tail.windowFloor_eq_ok_iff.1 hfloor).1 hlast
    simp [hlast, hread, hnone]
  · simp [hlt.ne, hread, hnone]
  · refine ⟨iff_of_true ⟨_, hread⟩ ⟨r, row, hrow⟩, fun e => ⟨fun he => ?_, ?_⟩,
      iff_of_false (by simp [hread]) hlt.ne⟩
    · exact ⟨r, row, hrow, hlowest, Stop.error.inj (Except.error.inj (he.symm.trans hread))⟩
    · rintro ⟨r', row', hrow', hlowest', rfl⟩
      -- There is one lowest round, and it has one row.
      obtain rfl : r' = r := Round.ext_toNat
        (Nat.le_antisymm (hlowest' r row hrow) (hlowest r' row' hrow'))
      obtain rfl : row' = row := Option.some.inj (hrow'.held.symm.trans hrow.held)
      exact hread

end CommitPipeline
