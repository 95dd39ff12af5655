import HardeningLoop.Ingest.Records
import HardeningLoop.Ingest.Vex

/-!
# Scanner reports

The parsers of the scanners' JSON reports: Trivy's vulnerabilities and misconfigurations, Grype's vulnerabilities and
Syft's component inventory. A report is read value by value; one of another shape raises (`LoadError`), and a record is
only built from texts where it wants texts.
-/

namespace HardeningLoop

/-- What reading the files of a bundle raises, by the class of the exception or the message it carries. -/
inductive LoadError where
  | key (name : String)
  | value
  | type
  | attribute
  | os
  | trivySchema (version : Json)
  | notGrype
  | bomFormat (format : Json)
  | notAnObject (path : String)
  | missingFile (path : String)
  | checksum (path actual : String) (expected : Json)
  | jobSchema (path : String) (schema : Json)
  | rawListsVex (path : String)
  | vexEntry (where_ : String) (i : Nat)
  | vexChecksum (where_ : String) (i : Nat) (sha : Json) (evidenceFile : String)
  | vexSource (where_ : String) (i : Nat) (path : String)
  | vexCopy (where_ : String) (i : Nat) (path : String)
  | vex (where_ : String) (i : Nat) (error : VexEvidenceError)
  | vexApproval (where_ : String) (i : Nat)
  | record (path problem : String) (value : Json)
  | manifestSchema (schema : Json)
  | manifestSum
  | scannedOther (name imageRef : String)

/-! ## Reading a value -/

namespace Json

/-- `value.get(key)`, which only a dictionary has. -/
def lookup (value : Json) (key : String) : Except LoadError Json :=
  if value.isObj then .ok ((value.get? key).getD .null) else .error .attribute

/-- `value[key]`. -/
def item (value : Json) (key : String) : Except LoadError Json :=
  if value.isObj then
    match value.get? key with
    | some v => .ok v
    | none => .error (.key key)
  else .error .type

/-- What iterating over the value gives. -/
def elems : Json → Except LoadError (List Json)
  | .arr items => .ok items
  | .obj fields => .ok (fields.map fun kv => .str kv.1)
  | .str s => .ok (s.toList.map fun c => .str (String.ofList [c]))
  | _ => .error .type

/-- `for x in value.get(key) or []`. -/
def each (value : Json) (key : String) : Except LoadError (List Json) := do
  ((← value.lookup key).orElse (.arr [])).elems

/-- A field that is declared as text. -/
def text : Json → Except LoadError String
  | .str s => .ok s
  | _ => .error .value

/-- A field that is declared as text or nothing. -/
def text? : Json → Except LoadError (Option String)
  | .str s => .ok (some s)
  | .null => .ok none
  | _ => .error .value

/-- `str(value.get(key, ""))`. -/
def textOf (value : Json) (key : String) : Except LoadError String :=
  if value.isObj then .ok (((value.get? key).map strJson).getD "") else .error .attribute

end Json

/-! ## Ecosystems and severities -/

/-- `_PURL_TYPE_TO_ECOSYSTEM`. -/
def purlTypeToEcosystem : List (String × Ecosystem) :=
  [("pypi", .pypi), ("deb", .deb), ("npm", .npm), ("golang", .golang), ("generic", .binary)]

/-- `lower` of the letters that spell ecosystems, layers and severities. -/
def lowerWord (text : String) : String := String.ofList (text.toList.map fun c => if c = 'K' then 'k' else c.toLower)

/-- `ecosystem_from_purl`. -/
def ecosystemFromPurl (purl : Json) : Except LoadError Ecosystem :=
  if purl.truthy then
    match purl with
    | .str s =>
      if hasPrefix "pkg:" s then
        let ptype := lowerWord ((splitText '/' (String.ofList (s.toList.drop 4))).headD "")
        .ok ((Dict.get? purlTypeToEcosystem ptype).getD .unknown)
      else .ok .unknown
    | _ => .error .attribute
  else .ok .unknown

/-- `upper` of the letters that spell severities. -/
def upperWord (text : String) : String := String.ofList (text.toList.map fun c => if c = 'ı' then 'I' else c.toUpper)

/-- `Severity.parse`: Grype's "Negligible" is low, what is not a severity is unknown. -/
def Severity.parse : Json → Except LoadError Severity
  | .null => .ok .unknown
  | .str raw =>
    match [Severity.critical, .high, .medium, .low, .unknown].find? fun s => s.value == upperWord raw with
    | some s => .ok s
    | none => .ok (if lowerWord raw = "negligible" then .low else .unknown)
  | _ => .error .attribute

/-! ## Trivy -/

/-- `_TYPE_TO_ECOSYSTEM`. -/
def typeToEcosystem : List (String × Ecosystem) :=
  [("pip", .pypi), ("python-pkg", .pypi), ("pipenv", .pypi), ("poetry", .pypi), ("uv", .pypi), ("debian", .deb),
    ("ubuntu", .deb), ("npm", .npm), ("node-pkg", .npm), ("yarn", .npm), ("pnpm", .npm), ("gomod", .golang),
    ("gobinary", .golang)]

/-- `_CONFIG_TYPE_TO_LAYER`. -/
def configTypeToLayer : List (String × Layer) :=
  [("dockerfile", .dockerfile), ("helm", .helm), ("kubernetes", .helm), ("dockercompose", .compose),
    ("docker-compose", .compose), ("yaml", .compose)]

/-- `_require_schema`. -/
def requireSchema (report : Json) : Except LoadError Unit := do
  match ← report.lookup "SchemaVersion" with
  | .num 2 => .ok ()
  | version => .error (.trivySchema version)

/-- `_split_versions`. -/
def splitVersions (ext : External) (raw : Json) : Except LoadError (List String) :=
  if raw.truthy then
    match raw with
    | .str s => .ok (((splitText ',' s).map (strip ext)).filter (· ≠ ""))
    | _ => .error .attribute
  else .ok []

/-- One vulnerability of a result of the class `cls` and the type `rtype`. -/
def trivyVuln (ext : External) (cls : Json) (rtype : String) (v : Json) : Except LoadError RawVuln := do
  let purl ← ((← v.lookup "PkgIdentifier").orElse (.obj [])).lookup "PURL"
  let ecosystem ← match Dict.get? typeToEcosystem rtype with
    | some e => .ok e
    | none => ecosystemFromPurl purl
  let ecosystem := if ecosystem = .unknown && cls.str? = some "os-pkgs" && rtype ∈ ["debian", "ubuntu"] then .deb
    else ecosystem
  let fixed ← splitVersions ext (← v.lookup "FixedVersion")
  let aliases ← v.each "VendorIDs"
  let primaryId ← v.item "VulnerabilityID"
  let pkgName ← v.item "PkgName"
  let pkgVersion ← v.textOf "InstalledVersion"
  let severity ← Severity.parse (← v.lookup "Severity")
  let fixState := (← v.lookup "Status").orElse (.str (if fixed ≠ [] then "fixed" else "unknown"))
  let title ← (← v.lookup "Title").text?
  let purl ← purl.text?
  .ok { scanner := .trivy, primaryId := strJson primaryId, aliases := aliases.map strJson, pkgName := strJson pkgName
        pkgVersion := pkgVersion, purl := purl, ecosystem := ecosystem, severity := severity, fixedVersions := fixed
        fixState := strJson fixState, title := title, record := v }

/-- `parse_trivy_vulns`. -/
def parseTrivyVulns (ext : External) (report : Json) : Except LoadError (List RawVuln) := do
  requireSchema report
  let parts ← (← report.each "Results").mapM fun result => do
    let cls ← result.lookup "Class"
    if cls.str?.any (· ∈ ["lang-pkgs", "os-pkgs"]) then
      let rtype ← result.textOf "Type"
      (← result.each "Vulnerabilities").mapM (trivyVuln ext cls rtype)
    else .ok []
  .ok parts.flatten

/-- `_layer_from_target`. -/
def layerFromTarget (target : String) : Layer :=
  let t := lowerWord target
  if hasInfix "dockerfile" t then .dockerfile
  else if hasInfix "helm" t || hasSuffix ".tpl" t || hasInfix "/templates/" t then .helm
  else .compose

/-- The layer of a misconfiguration result: that of its type, else of its target; a compose file in a chart is
Helm's. -/
def configLayer (rtype target : String) : Layer :=
  let layer := (Dict.get? configTypeToLayer rtype).getD (layerFromTarget target)
  if layer = .compose && hasInfix "helm" (lowerWord target) then .helm else layer

theorem layerFromTarget_mem (target : String) : layerFromTarget target ∈ configLayers := by
  dsimp only [layerFromTarget]
  split
  · decide
  · split <;> decide

theorem configLayer_mem (rtype target : String) : configLayer rtype target ∈ configLayers := by
  have hlayer : (Dict.get? configTypeToLayer rtype).getD (layerFromTarget target) ∈ configLayers := by
    cases h : Dict.get? configTypeToLayer rtype with
    | none => exact layerFromTarget_mem target
    | some layer =>
      have hall : ∀ kv ∈ configTypeToLayer, kv.2 ∈ configLayers := by decide
      exact hall _ (Dict.mem_of_get? h)
  unfold configLayer
  dsimp only
  split
  · decide
  · exact hlayer

/-- `_resource`: the start line tells the findings of one rule in one file apart. -/
def resourceOf (target : String) (m : Json) : Except LoadError String := do
  let start ← ((← m.lookup "CauseMetadata").orElse (.obj [])).lookup "StartLine"
  .ok (if start.truthy then target ++ ":" ++ strJson start else target)

/-- One failed misconfiguration of a result. -/
def trivyMisconfig (rtype target : String) (m : Json) : Except LoadError RawConfigFinding := do
  let avdId ← m.lookup "AVDID"
  let ruleId ← if avdId.truthy then .ok avdId else m.item "ID"
  let resource ← resourceOf target m
  let _ ← (← m.lookup "Message").text?
  let severity ← Severity.parse (← m.lookup "Severity")
  let title ← (← m.lookup "Title").text?
  let resolution ← m.lookup "Resolution"
  .ok { ruleId := strJson ruleId, resource := resource, layer := configLayer (lowerWord rtype) target
        severity := severity, title := title, fixAvailable := resolution.truthy, record := m
        layer_mem := configLayer_mem _ _ }

/-- `parse_trivy_misconfigs`: the failed checks. (`image_ref` replaces a target only by itself.) -/
def parseTrivyMisconfigs (report : Json) : Except LoadError (List RawConfigFinding) := do
  requireSchema report
  let parts ← (← report.each "Results").mapM fun result => do
    let cls ← result.lookup "Class"
    if cls.str? = some "config" then
      let rtype ← result.textOf "Type"
      let target ← result.textOf "Target"
      let failed ← (← result.each "Misconfigurations").filterM fun m => do
        let status ← m.lookup "Status"
        .ok (status.str? = some "FAIL" : Bool)
      failed.mapM (trivyMisconfig rtype target)
    else .ok []
  .ok parts.flatten

/-! ## Grype -/

/-- `_ARTIFACT_TYPE_TO_ECOSYSTEM`. -/
def artifactTypeToEcosystem : List (String × Ecosystem) :=
  [("python", .pypi), ("deb", .deb), ("npm", .npm), ("go-module", .golang), ("binary", .binary)]

/-- The aliases of a match: the ids of its related vulnerabilities. -/
def relatedIds (m : Json) : Except LoadError (List String) := do
  let ids ← (← m.each "relatedVulnerabilities").mapM fun r => r.lookup "id"
  .ok ((ids.filter Json.truthy).map strJson)

/-- The paths of an artifact, which are joined and so have to be texts. -/
def locationPaths (art : Json) : Except LoadError Unit := do
  let paths ← (← art.each "locations").mapM fun loc => do
    if loc.isObj then .ok ((loc.get? "path").getD (.str "")) else .error .attribute
  if (paths.filter Json.truthy).all fun path => path.str?.isSome then .ok () else .error .type

/-- One match of a Grype report. -/
def grypeVuln (m : Json) : Except LoadError RawVuln := do
  let vuln ← m.item "vulnerability"
  let art ← m.item "artifact"
  let purl ← art.lookup "purl"
  let ecosystem ← match Dict.get? artifactTypeToEcosystem (← art.textOf "type") with
    | some e => .ok e
    | none => ecosystemFromPurl purl
  let fix := (← vuln.lookup "fix").orElse (.obj [])
  let versions ← fix.each "versions"
  let fixed := (versions.filter Json.truthy).map strJson
  let aliases ← relatedIds m
  locationPaths art
  let primaryId ← vuln.item "id"
  let pkgName ← art.item "name"
  let pkgVersion ← art.textOf "version"
  let severity ← Severity.parse (← vuln.lookup "severity")
  let fixState := (← fix.lookup "state").orElse (.str (if fixed ≠ [] then "fixed" else "unknown"))
  let purl ← purl.text?
  .ok { scanner := .grype, primaryId := strJson primaryId, aliases := aliases, pkgName := strJson pkgName
        pkgVersion := pkgVersion, purl := purl, ecosystem := ecosystem, severity := severity, fixedVersions := fixed
        fixState := strJson fixState, record := m }

/-- `parse_grype_vulns`. -/
def parseGrypeVulns (report : Json) : Except LoadError (List RawVuln) := do
  if (report.get? "matches").isNone || (report.get? "descriptor").isNone then .error .notGrype
  else (← (← report.item "matches").elems).mapM grypeVuln

/-- `grype_db_built_at`. -/
def grypeDbBuiltAt (report : Json) : Except LoadError (Option String) := do
  let db := (← ((← report.lookup "descriptor").orElse (.obj [])).lookup "db").orElse (.obj [])
  let status := (← db.lookup "status").orElse db
  let built ← status.lookup "built"
  .ok (if built.truthy then some (strJson built) else none)

/-! ## Syft -/

structure SbomComponent where
  name : String
  version : String
  purl : Option String
  componentType : String
  ecosystem : Ecosystem

/-- `parse_cyclonedx`. -/
def parseCyclonedx (doc : Json) : Except LoadError (List SbomComponent) := do
  let format ← doc.lookup "bomFormat"
  if format.str? ≠ some "CycloneDX" then .error (.bomFormat format)
  else
    (← doc.each "components").mapM fun c => do
      let purl ← c.lookup "purl"
      let name ← c.textOf "name"
      let version ← c.textOf "version"
      let componentType ← c.textOf "type"
      let ecosystem ← ecosystemFromPurl purl
      .ok { name := name, version := version, purl := ← purl.text?, componentType := componentType,
            ecosystem := ecosystem }

end HardeningLoop
