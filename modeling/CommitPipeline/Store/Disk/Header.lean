import CommitPipeline.Bytes.BigEndian
import CommitPipeline.Error
import CommitPipeline.Round.Checked

/-!
# Headers of database files

A database file begins with a header: a mark, the sizes of its pages and regions, and two slots,
each with the version of the format it was written in. Behind the first page lie the regions, all
of one size but perhaps the last. Numbers in a header have their lowest byte first.

The content of a file is not taken from its bytes. A header is read to tell what is wrong with a
file that only begins like a database; if nothing else is, no slot can be read.

The module introduces:

* `FileHeader` — what a header says; `FileHeader.ofBytes?` — the header at the start of bytes;
* `FileHeader.fileBytes` — the size of the file that a header speaks of;
* `FileHeader.failure` — how the opening of the file fails.
-/

namespace CommitPipeline

/-- What the header of a database file says. -/
structure FileHeader where
  /-- Whether commits were written in two phases. -/
  twoPhase : Bool
  /-- The size of a page. -/
  pageBytes : UInt64
  /-- The pages that each region keeps for itself. -/
  reservedPages : UInt64
  /-- The pages for data in a full region. -/
  regionPages : UInt64
  /-- The number of full regions. -/
  fullRegions : UInt64
  /-- The pages for data in the region behind the full ones; zero if there is no such region. -/
  lastPages : UInt64
  /-- The versions of the two slots. -/
  versions : List Nat
  deriving DecidableEq, Repr

namespace FileHeader

/-- The bytes that the file of a database begins with. -/
def mark : Bytes := [0x72, 0x65, 0x64, 0x62, 0x1a, 0x0a, 0xa9, 0x0d, 0x0a]

/-- The number of bytes of a header. -/
def size : Nat := 320

/-- The size of a page that is known. -/
def knownPageBytes : UInt64 := 4096

/-- The number of four bytes at a position, the lowest first. -/
def number (bytes : Bytes) (position : Nat) : UInt64 :=
  ((bytes.drop position).take 4).foldr (fun b n => 256 * n + b.toUInt64) 0

/-- The header at the start of bytes that begin with the mark. -/
def ofBytes? (bytes : Bytes) : Option FileHeader :=
  if bytes.length < size then none
  else some {
    twoPhase := (bytes.getD 9 0).toNat / 4 % 2 = 1
    pageBytes := number bytes 12
    reservedPages := number bytes 16
    regionPages := number bytes 20
    fullRegions := number bytes 24
    lastPages := number bytes 28
    versions := [(bytes.getD 64 0).toNat, (bytes.getD 192 0).toNat] }

/-- Why a slot of a version cannot be read, if it cannot. -/
def versionError? (version : Nat) : Option StoreError :=
  if version = 1 then some (.outdated version)
  else if version = 2 || version = 3 then none
  else some (.damaged (.version version))

/-- The number of regions, which is counted in 32 bits. -/
def regions (h : FileHeader) : Except Fault UInt64 :=
  if h.lastPages = 0 then .ok h.fullRegions
  else if h.fullRegions = 0xffffffff then .error .addOverflow
  else .ok (h.fullRegions + 1)

/-- The size of a region with a number of pages for data. -/
def regionBytes (h : FileHeader) (pages : UInt64) : Except Fault UInt64 :=
  Word.mul (h.reservedPages + pages) h.pageBytes

/-- The size of the file: the first page, then the regions. There is no such file without a region,
nor with regions that hold no data. -/
def fileBytes (h : FileHeader) : Except Fault UInt64 := do
  if h.regionPages = 0 then throw .emptyRegion
  let before ← Word.sub (← h.regions) 1
  let start ← Word.add h.pageBytes (← Word.mul before (← h.regionBytes h.regionPages))
  let pages := if h.lastPages = 0 then h.regionPages else h.lastPages
  Word.add start (← h.regionBytes pages)

/-- How the opening of a file of a given size fails. -/
def failure (h : FileHeader) (found : Nat) : OpenFailure :=
  match h.versions.findSome? versionError? with
  | some e => .refused e
  | none =>
    if h.pageBytes ≠ knownPageBytes then
      .fault (.pageSize h.pageBytes.toNat knownPageBytes.toNat)
    else
      match h.fileBytes with
      | .error f => .fault f
      | .ok bytes =>
        if found < bytes.toNat then .fault .fileTooShort
        else .refused (.damaged (if h.twoPhase then .primarySlot else .bothSlots))

end FileHeader

end CommitPipeline
