import HardeningLoop.Devin.Enums
import HardeningLoop.Github.Protocol

/-!
# Policy checks

The diff policy of a pull request, its identity checks, and which work items may be dispatched.
-/

namespace HardeningLoop

/-- `IGNORE_FILE_NAMES`. -/
def ignoreFileNames : List String :=
  [".trivyignore", ".trivyignore.yaml", ".trivyignore.yml", ".grype.yaml", ".grype.yml"]

/-- `PROTECTED_PATHS`. -/
def protectedPaths : List String :=
  [".github/workflows/security-scan.yml", ".github/workflows/app-runs.yml", ".github/workflows/lean-smoke.yml",
    ".github/workflows/install-scanners.yml", ".github/workflows/vex-lint.yml"]

/-- `name.rsplit("/", 1)[-1]`. -/
def baseName (name : String) : String := String.ofList (name.toList.reverse.takeWhile (· ≠ '/')).reverse

/-- The regular expression `^pre.*suf$`: the dot is no newline, and `$` also matches before a final one. -/
def matchesAround (pre suf name : String) : Bool :=
  match dropLiteral pre name.toList with
  | none => false
  | some rest =>
    let body := if rest.getLast? = some '\n' then rest.dropLast else rest
    suf.toList.isSuffixOf body && !body.contains '\n'

/-- `GENERATED_REQUIREMENTS`. -/
def isGeneratedRequirements (name : String) : Bool := matchesAround "requirements/" ".txt" name

/-- `REQUIREMENT_SOURCES`. -/
def isRequirementSource (name : String) : Bool :=
  name == "pyproject.toml" || name == "pyproject.toml\n" || matchesAround "requirements/" ".in" name

/-- `VEX_APPROVED`. -/
def isVexApproved (name : String) : Bool := hasPrefix "security/vex/approved/" name

/-- `VEX_PROPOSED`. -/
def isVexProposed (name : String) : Bool := matchesAround "security/vex/proposed/" ".json" name

/-- What one file name violates. -/
def fileViolations (n : String) : List String :=
  (if baseName n ∈ ignoreFileNames || hasPrefix ".grype/" n || hasInfix "/.grype/" n then
    ["scanner ignore file: " ++ n] else []) ++
  (if n ∈ protectedPaths || hasPrefix "ci-negative/" n then ["protected CI path modified: " ++ n] else []) ++
  (if isVexApproved n then ["approved VEX directory touched: " ++ n] else []) ++
  (if hasPrefix "security/vex/" n && !isVexProposed n && !isVexApproved n then
    ["VEX outside security/vex/proposed/: " ++ n] else [])

/-- `diff_policy_violations`. -/
def diffPolicyViolations (files : List DiffFile) (kind : Kind) : List String :=
  let names := files.map DiffFile.filename
  let generated := names.filter isGeneratedRequirements
  let sources := names.filter isRequirementSource
  names.flatMap fileViolations ++
  (if generated ≠ [] && sources = [] && kind ≠ .dependencyUpgrade then
    ["generated requirements changed without pyproject.toml/*.in: " ++ commaJoin generated] else []) ++
  (if kind = .noFixReachability then
    (names.filter fun n => !(isVexProposed n || hasPrefix "security/analysis/" n)).map fun n =>
      "no-fix PR may only add proposed VEX/analysis, found: " ++ n
    else []) ++
  (if kind = .scannerDisagreement then ["scanner-disagreement work items are analysis-only; no PR expected"] else [])

/-- `verify_pull_request`. -/
def verifyPullRequest (pr : PullRequestInfo) (claimedUrl : Option String) : List String :=
  (if pr.repo ∉ repoAllowlist || pr.repo ≠ forkRepo then ["PR repo " ++ pr.repo ++ " is not the fork"] else []) ++
  (if pr.baseRef ≠ remediationBranch then
    ["PR base is " ++ reprText pr.baseRef ++ ", expected " ++ reprText remediationBranch] else []) ++
  (if pr.headRepo ≠ forkRepo then
    ["PR head repo " ++ pr.headRepo ++ " is not the fork (no cross-fork PRs)"] else []) ++
  (match claimedUrl with
    | some url =>
      if rstripChar '/' url ≠ rstripChar '/' pr.url then
        ["structured_output.pr_url " ++ url ++ " != session PR " ++ pr.url] else []
    | none => [])

/-- The number a text of decimal digits spells. -/
def digitsToNat (ext : External) (digits : List Char) : Nat :=
  digits.foldl (fun n c => 10 * n + (ext.digitValue c).getD 0) 0

/-- `parse_pr_url`: repository and number. -/
def parsePrUrl (ext : External) (url : String) : Option (String × Nat) := do
  let cs := (rstripChar '/' (strip ext url)).toList
  let (owner, rest) := spanChars (· ≠ '/') (← dropLiteral "https://github.com/" cs)
  let (repo, rest) := spanChars (· ≠ '/') (← dropLiteral "/" rest)
  let (digits, rest) := spanChars (fun c => (ext.digitValue c).isSome) (← dropLiteral "/pull/" rest)
  if owner ≠ [] && repo ≠ [] && digits ≠ [] && (rest = [] || rest = ['\n']) then
    some (String.ofList owner ++ "/" ++ String.ofList repo, digitsToNat ext digits)
  else none

/-- `DEFAULT_DISPATCH_SEVERITIES`. -/
def defaultDispatchSeverities : List Severity := [.high, .critical]

/-- `dispatch_allowed`. -/
def dispatchAllowed (severity : Severity) (labels : List String) : Bool :=
  severity ∈ defaultDispatchSeverities || HumanLabel.dispatchApproved.value ∈ labels

end HardeningLoop
