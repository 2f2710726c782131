import Mathlib.Data.List.Chain
import CommitPipeline.Ledger

/-!
# The last digest of a chain of headers

A header names the digest of the header before it, and its own digest is taken of 48 bytes from
which all its fields can be read off. So the digest of the last header of a chain fixes every
header before it. There are more strings of 48 bytes than digests, so two of them do have the same
digest; what is proved is that two chains which end in the same digest are the same, or part at a
place where the bytes of their two headers are such a pair.

The module introduces:

* `Digest.Collision` — two different strings of a given length with the same digest;
* `Header.Linked` — headers of which each names the digest of the one before it;
* `Header.PartAt` — the last place at which two lists of headers differ;
* `Chain.headers` — the headers of a ledger that appends blocks of its own making.
-/

namespace CommitPipeline

/-- Two different byte strings of a length with the same digest. -/
structure Digest.Collision (length : Nat) (x y : Bytes) : Prop where
  /-- The first string has the length. -/
  left : x.length = length
  /-- The second string has the length. -/
  right : y.length = length
  /-- The strings are different. -/
  ne : x ≠ y
  /-- Their digests are the same. -/
  same : Digest.of x = Digest.of y

namespace Header

variable {g h : Header} {gs hs : List Header}

/-- All fields of a header can be read off the bytes its digest is taken of: round, branch and time
stamp have a fixed width each. -/
theorem preimage_injective : Function.Injective preimage := by
  rintro ⟨⟨round⟩, branch, timestamp⟩ ⟨⟨round'⟩, branch', timestamp'⟩ heq
  obtain ⟨hfront, htimestamp⟩ := List.append_inj heq (by simp [Digest.length_bytes])
  obtain ⟨hround, hbranch⟩ := List.append_inj hfront (by simp)
  obtain rfl : round = round' := BigEndian.ofWord_inj.mp hround
  obtain rfl : branch = branch' := Digest.bytes_inj.mp hbranch
  obtain rfl : timestamp = timestamp' := BigEndian.ofWord_inj.mp htimestamp
  rfl

/-- Two headers with one digest are the same header, or their bytes collide. -/
theorem eq_or_collision (hdigest : g.digest = h.digest) :
    g = h ∨ Digest.Collision 48 g.preimage h.preimage := by
  by_cases heq : g = h
  · exact .inl heq
  · exact .inr ⟨g.length_preimage, h.length_preimage, fun e => heq (preimage_injective e), hdigest⟩

/-- Every header after the first names the digest of the one before it. -/
def Linked (hs : List Header) : Prop := hs.IsChain (fun older newer => newer.branch = older.digest)

instance : Decidable (Linked hs) := inferInstanceAs (Decidable (List.IsChain _ _))

theorem linked_concat_iff :
    Linked (hs ++ [h]) ↔ Linked hs ∧ ∀ last ∈ hs.getLast?, h.branch = last.digest := by
  simp [Linked, List.isChain_append]

/-- The digest that linked headers end in is the one the next header names. -/
theorem Linked.digest_getLast? (hlinked : Linked (hs ++ [h])) (hne : hs ≠ []) :
    hs.getLast?.map digest = some h.branch := by
  have hlast := List.getLast?_eq_some_getLast hne
  rw [hlast, Option.map_some, (linked_concat_iff.mp hlinked).2 _ hlast]

/-- Two lists hold two headers at one place, counted from the end, and are the same behind it. -/
def PartAt (gs hs : List Header) (g h : Header) : Prop :=
  ∃ olderG olderH newer, gs = olderG ++ g :: newer ∧ hs = olderH ++ h :: newer

theorem PartAt.mem_zip (hpart : PartAt gs hs g h) (hlength : gs.length = hs.length) :
    (g, h) ∈ gs.zip hs := by
  obtain ⟨olderG, olderH, newer, rfl, rfl⟩ := hpart
  have holder : olderG.length = olderH.length := by simpa using hlength
  simp [List.zip_append holder]

theorem PartAt.concat (hpart : PartAt gs hs g h) (last : Header) :
    PartAt (gs ++ [last]) (hs ++ [last]) g h := by
  obtain ⟨olderG, olderH, newer, rfl, rfl⟩ := hpart
  exact ⟨olderG, olderH, newer ++ [last], by simp, by simp⟩

/-- Chains of one length that end in the same digest are the same, or part at two headers whose
bytes collide. -/
theorem Linked.eq_or_partAt (hlength : gs.length = hs.length) (hgs : Linked gs) (hhs : Linked hs)
    (hlast : gs.getLast?.map digest = hs.getLast?.map digest) :
    gs = hs ∨ ∃ g h, PartAt gs hs g h ∧ Digest.Collision 48 g.preimage h.preimage := by
  -- From the last header towards the first: equal last headers name the digest that the rest of
  -- either list ends in.
  induction gs using List.reverseRecOn generalizing hs with
  | nil => exact .inl (List.length_eq_zero_iff.mp hlength.symm).symm
  | append_singleton gs g ih =>
    obtain rfl | ⟨hs, h, rfl⟩ := List.eq_nil_or_concat' hs
    · simp at hlength
    have hdigest : g.digest = h.digest := by simpa using hlast
    rcases eq_or_collision hdigest with rfl | hcollision
    · have hlength : gs.length = hs.length := by simpa using hlength
      have hrest : gs.getLast?.map digest = hs.getLast?.map digest := by
        by_cases hnil : gs = []
        · obtain rfl : hs = [] := List.length_eq_zero_iff.mp (by rw [← hlength, hnil]; rfl)
          rw [hnil]
        · have hnil' : hs ≠ [] := by rintro rfl; exact hnil (List.length_eq_zero_iff.mp hlength)
          rw [hgs.digest_getLast? hnil, hhs.digest_getLast? hnil']
      rcases ih hlength (linked_concat_iff.mp hgs).1 (linked_concat_iff.mp hhs).1 hrest with
        rfl | ⟨g', h', hpart, hcollision⟩
      · exact .inl rfl
      · exact .inr ⟨g', h', hpart.concat g, hcollision⟩
    · exact .inr ⟨g, h, ⟨gs, hs, [], rfl, rfl⟩, hcollision⟩

/-- The digest of the last header fixes the whole chain. The bytes hashed for a header determine
its fields; and two chains of one length that end in the same digest are the same header by header,
unless the headers at the last place where they differ show two strings of 48 bytes with one digest.
So chains that show no such pair at any place are told apart by the digest they end in. -/
theorem chain_fixed_by_last_digest {gs hs : List Header} (hlength : gs.length = hs.length)
    (hgs : Linked gs) (hhs : Linked hs) :
    Function.Injective preimage ∧
      (gs.getLast?.map digest = hs.getLast?.map digest →
        gs = hs ∨ ∃ g h, PartAt gs hs g h ∧ Digest.Collision 48 g.preimage h.preimage) ∧
      ((∀ p ∈ gs.zip hs, ¬ Digest.Collision 48 p.1.preimage p.2.preimage) →
        (gs.getLast?.map digest = hs.getLast?.map digest ↔ gs = hs)) := by
  have hparts := Linked.eq_or_partAt hlength hgs hhs
  refine ⟨preimage_injective, hparts, fun hfree => ⟨fun hlast => ?_, fun heq => heq ▸ rfl⟩⟩
  rcases hparts hlast with heq | ⟨g, h, hpart, hcollision⟩
  · exact heq
  · exact absurd hcollision (hfree (g, h) (hpart.mem_zip hlength))

/-- A header with a time stamp, and a header linked to it. -/
def pairFrom (timestamp : UInt64) : List Header :=
  let first : Header := { round := ⟨1⟩, branch := .zero, timestamp }
  [first, { round := ⟨2⟩, branch := first.digest, timestamp := 9 }]

/-- The two pairs do not start with the same header, so if they end in the same digest, the bytes
of two of their headers collide. -/
theorem pairFrom_parts :
    (pairFrom 5).length = (pairFrom 6).length ∧ Linked (pairFrom 5) ∧ Linked (pairFrom 6) ∧
      ((pairFrom 5).getLast?.map digest = (pairFrom 6).getLast?.map digest →
        ∃ g h, PartAt (pairFrom 5) (pairFrom 6) g h ∧
          Digest.Collision 48 g.preimage h.preimage) := by
  have hlength : (pairFrom 5).length = (pairFrom 6).length := by simp [pairFrom]
  have hleft : Linked (pairFrom 5) := by simp [pairFrom, Linked]
  have hright : Linked (pairFrom 6) := by simp [pairFrom, Linked]
  have hne : pairFrom 5 ≠ pairFrom 6 := by simp [pairFrom]
  refine ⟨hlength, hleft, hright, fun hlast => ?_⟩
  exact ((chain_fixed_by_last_digest hlength hleft hright).2.1 hlast).resolve_left hne

end Header

/-! ## A ledger of appended blocks -/

theorem RoundTable.insertRow_of_above {α : Type} {r : Round} {a : α} {rows : List (Round × α)}
    (h : ∀ row ∈ rows, row.1 < r) : insertRow r a rows = rows ++ [(r, a)] := by
  induction rows with
  | nil => rfl
  | cons row rows ih =>
    have hrow : row.1.toNat < r.toNat := h row List.mem_cons_self
    have hnlt : ¬ r < row.1 := by rw [Round.lt_def]; omega
    have hne : r ≠ row.1 := by rintro rfl; omega
    rw [insertRow, if_neg hnlt, if_neg hne, ih fun other hother => h other (.tail _ hother),
      List.cons_append]

/-- No row stands above the last one. -/
theorem RoundTable.le_of_getLast? {α : Type} {t : RoundTable α} {last row : Round × α}
    (hlast : t.rows.getLast? = some last) (hrow : row ∈ t.rows) : row.1 ≤ last.1 := by
  obtain ⟨front, hrows⟩ := List.getLast?_eq_some_iff.mp hlast
  have hascending := hrows ▸ t.ascending
  rw [hrows, List.mem_append, List.mem_singleton] at hrow
  rcases hrow with hrow | rfl
  · exact Nat.le_of_lt ((List.pairwise_append.mp hascending).2.2 row hrow last (by simp))
  · exact Nat.le_refl _

namespace Chain

variable {c : Chain}

/-- The headers of the blocks appended so far, oldest first. -/
def headers (c : Chain) : List Header := c.blocks.rows.map fun row => row.2.1.header

/-- The next block is linked to the digest the headers end in. -/
theorem tip_eq (c : Chain) : c.tip = (c.headers.getLast?.map Header.digest).getD .zero := by
  unfold tip head? headers
  rw [List.getLast?_map]
  cases c.blocks.rows.getLast? <;> rfl

/-- No block stands above the latest round. -/
theorem le_latest {row : Round × (Block × Delta)} (hrow : row ∈ c.blocks.rows) :
    row.1 ≤ c.latest := by
  have hlast := List.getLast?_eq_some_getLast (List.ne_nil_of_mem hrow)
  generalize c.blocks.rows.getLast _ = last at hlast
  have hlatest : c.latest = last.1 := by
    simp [latest, RoundTable.last?, RoundTable.rounds, List.getLast?_map, hlast]
  rw [hlatest]
  exact RoundTable.le_of_getLast? hlast hrow

/-- An appended block stands behind all others. -/
theorem rows_append {round : Round} (hnext : c.latest.next = .ok round) (timestamp : UInt64) :
    (c.append timestamp).2.blocks.rows =
      c.blocks.rows ++ [(round, blockAt round c.tip timestamp)] := by
  have habove : ∀ row ∈ c.blocks.rows, row.1 < round := fun row hrow =>
    (Round.lt_next_iff hnext).mpr (le_latest hrow)
  simp only [append, hnext, RoundTable.insert, RoundTable.insertRow_of_above habove]

/-- An appended block is one round on and linked to the last one before it. -/
theorem headers_append {round : Round} (hnext : c.latest.next = .ok round) (timestamp : UInt64) :
    (c.append timestamp).2.headers
      = c.headers ++ [{ round, branch := c.tip, timestamp }] := by
  rw [headers, rows_append hnext, List.map_append]
  rfl

/-- Appending keeps the headers linked. -/
theorem linked_append (h : Header.Linked c.headers) (timestamp : UInt64) :
    Header.Linked (c.append timestamp).2.headers := by
  cases hnext : c.latest.next with
  | error f => simpa [append, hnext] using h
  | ok round =>
    rw [headers_append hnext, Header.linked_concat_iff]
    refine ⟨h, fun last hlast => ?_⟩
    rw [tip_eq, Option.mem_def.mp hlast]
    rfl

/-- The headers of a ledger stay linked, whatever number of blocks is appended to it. -/
theorem linked_appendMany (h : Header.Linked c.headers) (timestamp : UInt64) (count : Nat) :
    Header.Linked (appendMany timestamp count c).2.headers := by
  induction count generalizing c with
  | zero => exact h
  | succ count ih => exact ih (linked_append h timestamp)

theorem linked_startingAt (base : Round) : Header.Linked (startingAt base).headers :=
  List.isChain_nil

/-- Two ledgers with linked headers, as many of them, and one tip hold the same headers, or two
whose bytes collide. -/
theorem headers_eq_or_partAt {d : Chain} (hlength : c.headers.length = d.headers.length)
    (hc : Header.Linked c.headers) (hd : Header.Linked d.headers) (htip : c.tip = d.tip) :
    c.headers = d.headers ∨ ∃ g h, Header.PartAt c.headers d.headers g h ∧
      Digest.Collision 48 g.preimage h.preimage := by
  apply Header.Linked.eq_or_partAt hlength hc hd
  by_cases hnil : c.headers = []
  · have hnil' : d.headers = [] := List.length_eq_zero_iff.mp (by rw [← hlength, hnil]; rfl)
    rw [hnil, hnil']
  · have hnil' : d.headers ≠ [] := fun e =>
      hnil (List.length_eq_zero_iff.mp (by rw [hlength, e]; rfl))
    have hleft := List.getLast?_eq_some_getLast hnil
    have hright := List.getLast?_eq_some_getLast hnil'
    rw [tip_eq, tip_eq, hleft, hright] at htip
    rw [hleft, hright]
    exact congrArg some htip

end Chain

end CommitPipeline
