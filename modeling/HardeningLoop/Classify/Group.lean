import HardeningLoop.Domain.Enums
import HardeningLoop.Domain.Text

/-!
# Grouping keys and titles

A work item collects the findings of one kind and one grouping key (`groupKeyFor`); `titleFor` names it.
-/

namespace HardeningLoop

/-- An f-string's rendering of an optional text. -/
def fText (text : Option String) : String := text.getD "None"

/-- `group_key_for`. -/
def groupKeyFor (kind : Option Kind) (pkgName : Option String) (ecosystem : Ecosystem) (layer : Layer)
    (dedupeKey : String) : String :=
  match kind with
  | some .dependencyUpgrade => "pypi:" ++ fText pkgName
  | some .noFixReachability => "nofix:" ++ ecosystem.value ++ ":" ++ fText pkgName
  | some .containerHardening =>
    if layer ∈ configLayers then "container:dockerfile" else "container:" ++ layer.value ++ "-packages"
  | some .scannerDisagreement => "disagreement:" ++ ecosystem.value ++ ":" ++ fText pkgName
  | some .helmDeployConfig => "deploy:" ++ layer.value
  | none => "unclassified:" ++ dedupeKey

/-- `title_for`. -/
def titleFor (kind : Kind) (vulnIds : List String) (pkgName pkgVersion : Option String) (layer : Layer) : String :=
  let ids := sortedSet vulnIds
  let shown := commaJoin (ids.take 4) ++
    if ids.length > 4 then " (+" ++ toString (ids.length - 4) ++ " more)" else ""
  match kind with
  | .dependencyUpgrade => "Upgrade " ++ fText pkgName ++ " " ++ fText pkgVersion ++ ": " ++ shown
  | .noFixReachability => "Reachability analysis / OpenVEX for " ++ fText pkgName ++ ": " ++ shown
  | .containerHardening =>
    if layer ∈ configLayers then "Container hardening (Dockerfile): " ++ shown
    else "Container hardening (" ++ layer.value ++ " packages): " ++ shown
  | .scannerDisagreement => "Scanner disagreement on " ++ fText pkgName ++ ": " ++ shown
  | .helmDeployConfig => "Deployment security configuration (" ++ layer.value ++ "): " ++ shown

end HardeningLoop
