import CommitPipeline.Error

/-!
# Settings of the pipeline
-/

namespace CommitPipeline

/-- The settings of a pipeline. -/
structure Config where
  /-- The most rounds that one cycle makes durable. -/
  maxRounds : UInt64 := 64
  /-- How many rounds the block tail keeps behind the durable round. -/
  tailRetain : UInt64 := 8
  /-- How many tickets the queue to the worker holds. -/
  queueCapacity : UInt64 := 16
  /-- How often a range is halved after a tracker objected to it. -/
  prepareRetries : UInt32 := 2
  deriving DecidableEq, Repr

/-- Settings that a pipeline can run with: of several zeros the first one is reported. -/
def Config.validate (c : Config) : Except PipelineError Unit :=
  if c.maxRounds = 0 then .error (.zeroKnob .maxRounds)
  else if c.tailRetain = 0 then .error (.zeroKnob .tailRetain)
  else if c.queueCapacity = 0 then .error (.zeroKnob .queueCapacity)
  else .ok ()

end CommitPipeline
