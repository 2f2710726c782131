import CommitPipeline.Tracker

/-!
# Scripted trackers

A guest that does what a script tells it: object, fail, refuse, be cut short, write a row of its
own, or alter the range it is handed. An empty script goes along with everything.
-/

namespace CommitPipeline

/-- What a scripted tracker does when it is asked. -/
structure Script where
  /-- Fails to load. -/
  failLoad : Bool := false
  /-- The floor it needs, instead of the committed round. -/
  floor : Option Round := none
  /-- The lookback it asks for. -/
  lookback : UInt64 := 0
  /-- Refuses any range. -/
  veto : Bool := false
  /-- Narrows a proposed range to a round. -/
  clampNewest : Option Round := none
  /-- Replaces the length of a proposed range. -/
  length : Option UInt64 := none
  /-- Replaces the base of a proposed range. -/
  base : Option Round := none
  /-- Replaces the lookback of a proposed range. -/
  rangeLookback : Option UInt64 := none
  /-- Objects to every range. -/
  failPrepare : Bool := false
  /-- Objects to ranges with more rounds. -/
  maxLength : Option UInt64 := none
  /-- Replaces the length of the range once it has prepared. -/
  lengthAfterPrepare : Option UInt64 := none
  /-- Writes a row into a table, at the new durable round. -/
  writeTable : Option String := none
  /-- Fails to write. -/
  failWrite : Bool := false
  /-- Replaces the length of the range once it has written. -/
  lengthAfterWrite : Option UInt64 := none
  /-- Is cut short when it hears that a cycle has landed. -/
  faultOnLanded : Bool := false
  deriving DecidableEq, Repr, Inhabited

/-- A tracker that follows a script. -/
structure Scripted where
  /-- Its name. -/
  name : String
  /-- What it does. -/
  script : Script := {}
  deriving DecidableEq, Repr

namespace Scripted

/-- The text of the complaints a script asks for. -/
def complaint : String := "injected"

/-- What the script leaves of a proposed range. -/
def refined (s : Script) (range : CommitRange) : Option CommitRange :=
  if s.veto then none
  else
    let range := (s.clampNewest.map range.clampNewest).getD range
    some {
      base := s.base.getD range.base
      length := s.length.getD range.length
      lookback := s.rangeLookback.getD range.lookback }

/-- A range with another length, if one is given. -/
def withLength (k : Ticket) (length : Option UInt64) : Ticket :=
  { k with range := { k.range with length := length.getD k.range.length } }

/-- Whether the script objects to a range of a length. -/
def objects (s : Script) (length : UInt64) : Bool :=
  s.failPrepare || s.maxLength.any (· < length)

/-- The row that the script asks for: the tracker's name at the new durable round. -/
def putRow (name : String) (table : Option String) (k : Ticket) (s : Store) : Except Stop Store :=
  match table with
  | none => .ok s
  | some table =>
    -- The round comes before the table: of two flaws the missing round is the one reported.
    match k.newBase with
    | .error f => .error (.fault f)
    | .ok newBase =>
      match TableName.ofString table with
      | .error refusal => .error refusal.stop
      | .ok table => .ok (s.put table newBase name.toUTF8.toList)

instance : Guest Scripted where
  name t := t.name
  load _ _ _ t :=
    if t.script.failLoad then (.error (.error (.store (.corrupt (.other complaint)))), t)
    else (.ok (), t)
  newBlock _ _ t := (.ok (), t)
  need committed t := (.ok ⟨t.script.floor.getD committed, t.script.lookback⟩, t)
  refine _ _ range t := (.ok (refined t.script range), t)
  prepare := fun (t, k) =>
    if objects t.script k.range.length then
      (.error (.error (.cannotPrepare t.name (.tooLong k.range.length))), t, k)
    else (.ok (), t, withLength k t.script.lengthAfterPrepare)
  write := fun (t, k, s) =>
    match putRow t.name t.script.writeTable k s with
    | .error stop => (.error stop, t, k, s)
    | .ok s =>
      if t.script.failWrite then
        (.error (.error (.cannotWrite t.name (.other complaint))), t, k, s)
      else (.ok (), t, withLength k t.script.lengthAfterWrite, s)
  notice n _ t :=
    if n = .landed && t.script.faultOnLanded then (.error (.raised "injected panic"), t)
    else (.ok (), t)
  close t := (.ok (), t)

end Scripted

end CommitPipeline
