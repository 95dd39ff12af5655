import HardeningLoop.Domain.Enums
import HardeningLoop.Domain.Text
import HardeningLoop.Lib.Dict
import HardeningLoop.Lib.Fold

/-!
# Scanner records and their normalization

The scanner-neutral records the parsers produce, and `normalize`, which merges them into one finding for each dedupe
key. A vulnerability's layer is that of its ecosystem and a configuration finding is Trivy's, in a configuration layer:
the parsers build no others, so the records carry it. What ingestion relies on:

- `normalize_reportedBy`: a normalized finding has a reporter;
- `normalize_config`: Trivy alone reports a normalized finding in a configuration layer.
-/

namespace HardeningLoop

/-- `layer_for`. -/
def layerFor : Ecosystem → Layer
  | .pypi => .python
  | .deb => .os
  | _ => .binary

theorem layerFor_not_config (e : Ecosystem) : layerFor e ∉ configLayers := by cases e <;> decide

/-- `upper` of the characters that spell the prefixes of vulnerability ids. -/
def upperChar (c : Char) : Char := if c = 'ſ' then 'S' else c.toUpper

/-- `lower` of ASCII text. -/
def lowerText (text : String) : String := String.ofList (text.toList.map Char.toLower)

/-- `re.sub(r"[-_.]+", "-", name)`, on characters. -/
def pep503 : List Char → List Char
  | [] => []
  | c :: cs =>
    if c ∈ ['-', '_', '.'] then
      match cs with
      | d :: _ => if d ∈ ['-', '_', '.'] then pep503 cs else '-' :: pep503 cs
      | [] => ['-']
    else c :: pep503 cs

/-- `normalize_pkg_name`. -/
def normalizePkgName (name : String) (ecosystem : Ecosystem) : String :=
  if ecosystem = .pypi then lowerText (String.ofList (pep503 name.toList)) else name

/-- `canonical_vuln_id`: a CVE id if there is one, else a GHSA id, else the primary id. -/
def canonicalVulnId (primary : String) (aliases : List String) : String :=
  let candidates := primary :: aliases
  let starting (pre : String) :=
    sortTexts (candidates.filter fun c => hasPrefix pre (String.ofList (c.toList.map upperChar)))
  ((starting "CVE-").head?.orElse fun _ => (starting "GHSA-").head?).getD primary

structure RawVuln where
  scanner : Scanner
  primaryId : String
  aliases : List String := []
  pkgName : String
  pkgVersion : String
  purl : Option String := none
  ecosystem : Ecosystem
  layer : Layer := layerFor ecosystem
  severity : Severity
  fixedVersions : List String := []
  fixState : String
  title : Option String := none
  record : Json := .null
  /-- The parsers set the layer by `layer_for`. -/
  layer_eq : layer = layerFor ecosystem := by rfl

namespace RawVuln

variable (rv : RawVuln)

def canonicalId : String := canonicalVulnId rv.primaryId rv.aliases

def normalizedPkgName : String := normalizePkgName rv.pkgName rv.ecosystem

def dedupeKey : String :=
  "|".intercalate ["vuln", rv.canonicalId, rv.ecosystem.value, rv.normalizedPkgName, rv.pkgVersion, rv.layer.value]

end RawVuln

structure RawConfigFinding where
  scanner : Scanner := .trivy
  ruleId : String
  resource : String
  layer : Layer
  severity : Severity
  title : Option String := none
  fixAvailable : Bool := true
  record : Json := .null
  /-- Only Trivy's configuration reports are parsed into these records. -/
  scanner_eq : scanner = .trivy := by rfl
  layer_mem : layer ∈ configLayers := by decide

def RawConfigFinding.dedupeKey (rc : RawConfigFinding) : String :=
  "|".intercalate ["config", rc.ruleId, rc.layer.value, rc.resource]

structure NormalizedFinding where
  dedupeKey : String
  vulnId : String
  isConfig : Bool
  pkgName : Option String := none
  pkgVersion : Option String := none
  purl : Option String := none
  ecosystem : Ecosystem
  layer : Layer
  resource : Option String := none
  title : Option String := none
  severity : Severity := .unknown
  severityByScanner : List (Scanner × Severity) := []
  fixVersionsByScanner : List (Scanner × List String) := []
  fixStateByScanner : List (Scanner × String) := []
  records : List (Scanner × Json) := []
  reportedBy : List Scanner := []

namespace NormalizedFinding

variable (nf : NormalizedFinding)

def severityDisagreement : Bool := (nf.severityByScanner.map Prod.snd).eraseDups.length > 1

/-- The fix versions of all reporters, each once. -/
def allFixVersions : List String := (nf.fixVersionsByScanner.flatMap Prod.snd).eraseDups

def hasFix : Bool := nf.allFixVersions ≠ []

end NormalizedFinding

/-- The first normalized finding of a vulnerability record's key. -/
def RawVuln.toFinding (rv : RawVuln) : NormalizedFinding :=
  { dedupeKey := rv.dedupeKey, vulnId := rv.canonicalId, isConfig := false, pkgName := some rv.normalizedPkgName,
    pkgVersion := some rv.pkgVersion, purl := rv.purl, ecosystem := rv.ecosystem, layer := rv.layer, title := rv.title }

/-- Add a scanner to the set of reporters. -/
def addReporter (s : Scanner) (by_ : List Scanner) : List Scanner := if s ∈ by_ then by_ else by_ ++ [s]

/-- A text that is there and not empty. -/
def truthy (text : Option String) : Bool := text.any (· ≠ "")

/-- Merge a vulnerability record into the finding of its key. -/
def NormalizedFinding.addVuln (nf : NormalizedFinding) (rv : RawVuln) : NormalizedFinding :=
  { nf with
    title := if nf.title.isNone && truthy rv.title then rv.title else nf.title
    purl := if nf.purl.isNone && truthy rv.purl then rv.purl else nf.purl
    reportedBy := addReporter rv.scanner nf.reportedBy
    severityByScanner := Dict.set nf.severityByScanner rv.scanner rv.severity
    fixVersionsByScanner := Dict.set nf.fixVersionsByScanner rv.scanner rv.fixedVersions
    fixStateByScanner := Dict.set nf.fixStateByScanner rv.scanner rv.fixState
    records := Dict.set nf.records rv.scanner rv.record
    severity := if rv.severity.rank > nf.severity.rank then rv.severity else nf.severity }

/-- The first normalized finding of a configuration record's key. -/
def RawConfigFinding.toFinding (rc : RawConfigFinding) : NormalizedFinding :=
  { dedupeKey := rc.dedupeKey, vulnId := rc.ruleId, isConfig := true, ecosystem := .config, layer := rc.layer,
    resource := some rc.resource, title := rc.title, severity := rc.severity }

/-- Merge a configuration record into the finding of its key. -/
def NormalizedFinding.addConfig (nf : NormalizedFinding) (rc : RawConfigFinding) : NormalizedFinding :=
  { nf with
    reportedBy := addReporter rc.scanner nf.reportedBy
    severityByScanner := Dict.set nf.severityByScanner rc.scanner rc.severity
    fixStateByScanner := Dict.set nf.fixStateByScanner rc.scanner (if rc.fixAvailable then "fixed" else "unknown")
    records := Dict.set nf.records rc.scanner rc.record }

abbrev Merged := List (String × NormalizedFinding)

def mergeVuln (merged : Merged) (rv : RawVuln) : Merged :=
  Dict.set merged rv.dedupeKey (((Dict.get? merged rv.dedupeKey).getD rv.toFinding).addVuln rv)

def mergeConfig (merged : Merged) (rc : RawConfigFinding) : Merged :=
  Dict.set merged rc.dedupeKey (((Dict.get? merged rc.dedupeKey).getD rc.toFinding).addConfig rc)

/-- `normalize`: one finding for each dedupe key, in key order. -/
def normalize (vulns : List RawVuln) (configs : List RawConfigFinding) : List NormalizedFinding :=
  (Dict.values (configs.foldl mergeConfig (vulns.foldl mergeVuln []))).insertionSort fun a b =>
    a.dedupeKey ≤ b.dedupeKey

/-! ## What every normalized finding satisfies -/

theorem mem_addReporter {s s' : Scanner} {by_ : List Scanner} :
    s' ∈ addReporter s by_ ↔ s' ∈ by_ ∨ s' = s := by
  unfold addReporter
  split
  · rename_i h
    exact ⟨Or.inl, fun h' => h'.elim id fun e => e ▸ h⟩
  · simp

/-- A finding with a reporter which Trivy alone reports when its layer is a configuration layer. -/
def WellReported (nf : NormalizedFinding) : Prop :=
  nf.reportedBy ≠ [] ∧ (nf.layer ∈ configLayers → ∀ s ∈ nf.reportedBy, s = .trivy)

theorem addReporter_ne_nil (s : Scanner) (by_ : List Scanner) : addReporter s by_ ≠ [] :=
  List.ne_nil_of_mem (mem_addReporter.mpr (Or.inr rfl))

/-- Vulnerability records keep all findings out of the configuration layers. -/
theorem mergeVuln_inv {merged : Merged} {rv : RawVuln}
    (h : ∀ kv ∈ merged, kv.2.reportedBy ≠ [] ∧ kv.2.layer ∉ configLayers) :
    ∀ kv ∈ mergeVuln merged rv, kv.2.reportedBy ≠ [] ∧ kv.2.layer ∉ configLayers := by
  intro kv hkv
  rcases Dict.mem_set hkv with hkv | rfl
  · exact h kv hkv
  · refine ⟨addReporter_ne_nil _ _, ?_⟩
    cases hk : Dict.get? merged rv.dedupeKey with
    | none =>
      have hl : rv.layer ∉ configLayers := rv.layer_eq ▸ layerFor_not_config rv.ecosystem
      exact hl
    | some nf => exact (h _ (Dict.mem_of_get? hk)).2

/-- Configuration records add Trivy only. -/
theorem mergeConfig_inv {merged : Merged} {rc : RawConfigFinding} (h : ∀ kv ∈ merged, WellReported kv.2) :
    ∀ kv ∈ mergeConfig merged rc, WellReported kv.2 := by
  intro kv hkv
  rcases Dict.mem_set hkv with hkv | rfl
  · exact h kv hkv
  · refine ⟨addReporter_ne_nil _ _, fun hl s hs => ?_⟩
    rcases mem_addReporter.mp hs with hs | rfl
    · cases hk : Dict.get? merged rc.dedupeKey with
      | none => simp [hk, RawConfigFinding.toFinding] at hs
      | some nf =>
        simp only [hk, Option.getD_some] at hs
        have hl' : nf.layer ∈ configLayers := by rw [hk] at hl; exact hl
        exact (h _ (Dict.mem_of_get? hk)).2 hl' s hs
    · exact rc.scanner_eq

theorem normalize_wellReported {vulns : List RawVuln} {configs : List RawConfigFinding} {nf : NormalizedFinding}
    (h : nf ∈ normalize vulns configs) : WellReported nf := by
  have hv := Rows.foldl_invariant (fun m : Merged => ∀ kv ∈ m, kv.2.reportedBy ≠ [] ∧ kv.2.layer ∉ configLayers)
    (f := mergeVuln) (l := vulns) (fun _ _ _ => mergeVuln_inv) (fun _ h => absurd h List.not_mem_nil)
  have hc := Rows.foldl_invariant (fun m : Merged => ∀ kv ∈ m, WellReported kv.2) (f := mergeConfig) (l := configs)
    (fun _ _ _ => mergeConfig_inv) fun kv hkv => ⟨(hv kv hkv).1, fun hl => absurd hl (hv kv hkv).2⟩
  obtain ⟨kv, hkv, rfl⟩ := List.mem_map.mp ((List.mem_insertionSort _).mp h)
  exact hc kv hkv

theorem normalize_reportedBy {vulns : List RawVuln} {configs : List RawConfigFinding} {nf : NormalizedFinding}
    (h : nf ∈ normalize vulns configs) : nf.reportedBy ≠ [] := (normalize_wellReported h).1

theorem normalize_config {vulns : List RawVuln} {configs : List RawConfigFinding} {nf : NormalizedFinding}
    (h : nf ∈ normalize vulns configs) (hl : nf.layer ∈ configLayers) : ∀ s ∈ nf.reportedBy, s = .trivy :=
  (normalize_wellReported h).2 hl

end HardeningLoop
