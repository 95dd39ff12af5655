import HardeningLoop.Ingest.Records

/-!
# Classification of normalized findings

`classify` assigns a finding its kind by the first rule that matches, with the trace of the rules it passed; a finding
no rule matches has no kind. Version arithmetic is `External`'s.
-/

namespace HardeningLoop

/-- `NO_FIX_STATES`. -/
def noFixStates : List String :=
  ["affected", "will_not_fix", "wont-fix", "fix_deferred", "end_of_life", "not-fixed", "unknown"]

/-- What the classifier knows about the run. A specifier set is its text. -/
structure ClassificationContext where
  scannerJobSuccess : Scanner → Bool
  upperBounds : List (String × String) := []

structure Classification where
  kind : Option Kind
  risk : Risk := .normal
  boundBlocked : Bool := false
  trace : String := ""
  unclassifiedReason : Option String := none
  deriving DecidableEq, Repr

/-- `_fix_allowed_by_bounds`: a version that does not parse is skipped. -/
def fixAllowedByBounds (ext : External) (fixVersions : List String) (spec : String) : Bool :=
  fixVersions.any fun fv => (ext.specContains spec fv).getD false

/-- `_fix_allowed_by_bounds` raises, at a version that it comes to before one that the bounds allow. -/
def fixBoundsRaise (ext : External) (spec : String) : List String → Bool
  | [] => false
  | fv :: fixVersions =>
    ext.specRaises spec fv || (!(ext.specContains spec fv).getD false && fixBoundsRaise ext spec fixVersions)

/-- `_comparable`: both scanners can match vulnerabilities of this ecosystem. -/
def comparable (f : NormalizedFinding) : Bool :=
  !f.isConfig && [Scanner.trivy, .grype].all fun s => f.ecosystem ∈ scannerEcosystems s

/-- `_no_fix_from_every_reporter`. -/
def noFixFromEveryReporter (f : NormalizedFinding) : Bool :=
  !f.hasFix && f.fixStateByScanner ≠ [] && f.fixStateByScanner.all fun kv => kv.2 ∈ noFixStates || kv.2 == ""

/-- `repr` of `fix_state_by_scanner`. -/
def fixStatesText (f : NormalizedFinding) : String :=
  reprDict (f.fixStateByScanner.map fun kv => (kv.1.value, reprText kv.2))

/-- `_unclassified_reason`. -/
def unclassifiedReason (f : NormalizedFinding) : String :=
  if f.ecosystem = .unknown then "unknown_ecosystem"
  else if f.isConfig then "config_layer_unsupported:" ++ f.layer.value
  else if f.reportedBy = [] then "no_reporter"
  else if f.hasFix then "fixable_but_unsupported_ecosystem:" ++ f.ecosystem.value
  else "fix_state_inconsistent:" ++ fixStatesText f

def Scanner.other : Scanner → Scanner
  | .trivy => .grype
  | .grype => .trivy

/-- The entry rule 2 leaves in the trace, or the classification it makes. -/
def classifyDisagreement (f : NormalizedFinding) (ctx : ClassificationContext) (trace : List String) :
    Classification ⊕ String :=
  match comparable f, f.reportedBy with
  | true, [reporter] =>
    if ctx.scannerJobSuccess reporter.other then
      .inl { kind := some .scannerDisagreement
             trace := ";".intercalate
               (trace ++ ["r2:only " ++ reporter.value ++ ", " ++ reporter.other.value ++ " job succeeded"]) }
    else .inr ("r2:no(" ++ reporter.other.value ++ " job did not succeed; not a disagreement)")
  | _, _ => .inr "r2:no(not comparable or reported by both)"

/-- Rule 3, once it applies: a fix that the declared bounds exclude is high risk. -/
def classifyPypiFix (ext : External) (f : NormalizedFinding) (ctx : ClassificationContext) (trace : List String) :
    Classification :=
  let entry := "r3:pypi fix " ++ reprList f.allFixVersions
  match Dict.get? ctx.upperBounds (f.pkgName.getD "") with
  | some spec =>
    if fixAllowedByBounds ext f.allFixVersions spec then
      { kind := some .dependencyUpgrade, trace := ";".intercalate (trace ++ [entry]) }
    else
      { kind := some .dependencyUpgrade, risk := .high, boundBlocked := true,
        trace := ";".intercalate (trace ++ [entry ++ " blocked by " ++ spec]) }
  | none => { kind := some .dependencyUpgrade, trace := ";".intercalate (trace ++ [entry]) }

/-- `classify` raises: it comes to rule 3 and there to a bound whose check raises. -/
def classifyRaises (ext : External) (f : NormalizedFinding) (ctx : ClassificationContext) : Bool :=
  !f.isConfig && (classifyDisagreement f ctx []).isRight && f.ecosystem = .pypi && f.hasFix &&
    (Dict.get? ctx.upperBounds (f.pkgName.getD "")).any fun spec => fixBoundsRaise ext spec f.allFixVersions

/-- `classify`, when it does not raise: the first matching rule wins. -/
def classify (ext : External) (f : NormalizedFinding) (ctx : ClassificationContext) : Classification :=
  if f.isConfig && (f.layer = .helm || f.layer = .compose) then
    { kind := some .helmDeployConfig, trace := "r1:config layer=" ++ f.layer.value }
  else
    let trace := ["r1:no(not helm/compose config)"]
    match classifyDisagreement f ctx trace with
    | .inl c => c
    | .inr entry =>
      let trace := trace ++ [entry]
      if !f.isConfig && f.ecosystem = .pypi && f.hasFix then classifyPypiFix ext f ctx trace
      else
        let trace := trace ++ ["r3:no(not fixable pypi)"]
        if !f.isConfig && noFixFromEveryReporter f then
          { kind := some .noFixReachability
            trace := ";".intercalate (trace ++ ["r4:no fix states=" ++ fixStatesText f]) }
        else
          let trace := trace ++ ["r4:no(some reporter has a fix or unknown state)"]
          if f.isConfig && f.layer = .dockerfile then
            { kind := some .containerHardening, trace := ";".intercalate (trace ++ ["r5:dockerfile config"]) }
          else if !f.isConfig && f.ecosystem ∈ [Ecosystem.deb, .binary, .npm, .golang] && f.hasFix then
            { kind := some .containerHardening
              trace := ";".intercalate
                (trace ++ ["r5:" ++ f.ecosystem.value ++ " fix " ++ reprList f.allFixVersions]) }
          else
            { kind := none
              trace := ";".intercalate (trace ++ ["r5:no(not fixable os/binary or dockerfile)"])
              unclassifiedReason := some (unclassifiedReason f) }

end HardeningLoop
