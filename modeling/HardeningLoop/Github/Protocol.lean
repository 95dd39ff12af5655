import HardeningLoop.Domain.Enums

/-!
# What GitHub answers

The records the GitHub client returns: issues, pull requests, check runs, reviews and diff files. States and conclusions
are GitHub's own texts.
-/

namespace HardeningLoop

structure Issue where
  number : Nat
  url : String
  title : String := ""
  state : String := "open"
  labels : List String := []
  deriving DecidableEq, Repr

structure PullRequestInfo where
  repo : String
  number : Nat
  url : String
  state : String
  merged : Bool
  mergeCommitSha : Option String
  baseRef : String
  headRef : String
  headRepo : String
  headSha : String
  mergedAt : Option DateTime := none
  deriving DecidableEq, Repr

structure CheckRun where
  name : String
  status : String
  conclusion : Option String
  url : Option String := none
  deriving DecidableEq, Repr

/-- A pull request review on GitHub. -/
structure Review where
  author : String
  state : String
  commitSha : String
  deriving DecidableEq, Repr

structure DiffFile where
  filename : String
  status : String
  previousFilename : Option String := none
  deriving DecidableEq, Repr

end HardeningLoop
