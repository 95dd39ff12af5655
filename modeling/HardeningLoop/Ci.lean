import HardeningLoop.Gate
import HardeningLoop.Ingest.Checksums
import Mathlib.Data.List.MinMax

/-!
# The manifest of a workflow run

`writeScanManifest` runs in the workflow: it checks the directories of the scan jobs, the gates and the attached files,
and writes `manifest.json` and `SHA256SUMS` over them. `loadBaseline` reads them back in the controller.

The two agree about everything that is copied from one file to another (`loadBaseline_written`). They differ about what
is computed twice (`manifest_agrees_iff`): a date is written as its clock shows it, with a literal `Z`, and read as UTC;
a verdict that is attached is read by the controller whatever the job's result is, by the writer only if it is a
success; and a name that a job lists leaves the job's directory when it is absolute, but not as a key of the manifest.
-/

namespace HardeningLoop

open Fallible

/-! ## The library -/

/-- A SHA-256 digest as it is written. -/
structure Digest where
  text : String
  hex : text.toList.all (· ∈ "0123456789abcdef".toList) = true

/-- What the writer asks of the language's library beside the reader: the offset of a date's zone from UTC, in
microseconds; `int(text)`; the text that `json.dumps` makes of a value; and the digest of a text's bytes. -/
structure Writer extends Reader where
  utcoffset : Stamp → Int
  intOfText : String → Option Int
  dumps : Json → String
  sha256 : String → Digest

/-- `date.strftime("%Y-%m-%dT%H:%M:%SZ")`: the date and the clock of its ISO text, with a literal `Z`. -/
def strftime (date : Stamp) : String := takeText 19 date.iso ++ "Z"

/-- `int(value or 0)`. -/
def intOrZero (w : Writer) (value : Json) : Except LoadError Int :=
  match value.orElse (.num 0) with
  | .num q => .ok (q.num.tdiv q.den)
  | .bool b => .ok (if b then 1 else 0)
  | .str s => ((w.intOfText s).map Except.ok).getD (.error .value)
  | _ => .error .type

/-- A dictionary of the items, where a later one replaces an earlier one of its key. -/
def dictOfItems {α : Type*} (items : List (String × α)) : List (String × α) :=
  items.foldl (fun d kv => Dict.set d kv.1 kv.2) []

/-- One part of a path, followed from a directory. -/
def followPart (dir : List String) (part : String) : List String :=
  if part = "/" then [] else if part = ".." then dir.dropLast else dir ++ [part]

/-- Where a path leads from a directory: the names from the root of the file system on, none of which is a link. -/
def resolvePath (dir : List String) (path : String) : List String := (pathParts path).foldl followPart dir

/-! ## Images -/

/-- What the build job pushed for one image target. -/
structure RegistryImage where
  tag : String
  digest : String
  manifest : List (String × Json)
  config : List (String × Json)

namespace RegistryImage

variable (w : Writer) (image : RegistryImage)

/-- `self.manifest.get(key) or default`. -/
def manifestOr (key : String) (default : Json) : Json :=
  (((Json.obj image.manifest).get? key).getD .null).orElse default

def layers : Except LoadError (List Json) := (image.manifestOr "layers" (.arr [])).elems

def sizeBytes : Except LoadError Int := do
  let cfgSize ← intOrZero w (← (image.manifestOr "config" (.obj [])).lookup "size")
  let sizes ← (← image.layers).mapM fun layer => do intOrZero w (← layer.lookup "size")
  .ok (cfgSize + sizes.sum)

def layerDigests : Except LoadError (List String) := do
  (← image.layers).mapM fun layer => do .ok (strJson (← layer.item "digest"))

def toDict : Except LoadError Json := do
  let cfg := (((Json.obj image.config).get? "config").getD .null).orElse (.obj [])
  let configDigest ← (image.manifestOr "config" (.obj [])).lookup "digest"
  let size ← image.sizeBytes w
  let user ← cfg.lookup "User"
  let labels ← cfg.lookup "Labels"
  let layers ← image.layerDigests
  .ok (.obj [("tag", .str image.tag), ("image_id", .str image.digest), ("digest_kind", .str "registry_manifest_digest"),
    ("config_digest", configDigest), ("created", ((Json.obj image.config).get? "created").getD .null),
    ("size_bytes", .num size), ("config_user", user), ("labels", labels), ("layer_count", .num layers.length)])

end RegistryImage

/-- `layer_delta`. -/
def layerDelta (w : Writer) (lean ci : RegistryImage) : Except LoadError Json := do
  let leanLayers ← lean.layerDigests
  let ciLayers ← ci.layerDigests
  let ciSizes ← (← (← (Json.obj ci.manifest).item "layers").elems).mapM fun layer => do
    let digest := strJson (← layer.item "digest")
    .ok (digest, ← intOrZero w (← layer.lookup "size"))
  let shared := ciLayers.filter (· ∈ leanLayers)
  let ciOnly := ciLayers.filter (· ∉ leanLayers)
  let leanOnly := leanLayers.filter (· ∉ ciLayers)
  let extra := (ciOnly.map fun d => (Dict.get? (dictOfItems ciSizes) d).getD 0).sum
  let leanSize ← lean.sizeBytes w
  let ciSize ← ci.sizeBytes w
  .ok (.obj [("layer_digest_kind", .str "registry_compressed"), ("shared_layer_count", .num shared.length),
    ("ci_only_layers", .arr (ciOnly.map .str)), ("lean_only_layers", .arr (leanOnly.map .str)),
    ("ci_extra_bytes", .num extra),
    ("lean_size_bytes", .num leanSize), ("ci_size_bytes", .num ciSize),
    ("note", .str "ci = lean + Postgres/DuckDB extras; used only for app-runs integration coverage")])

/-! ## The run -/

def requiredRuntimeJobs : List String := ["lean-smoke", "app-runs"]

def defaultExpectedJobs : List String := ["lean-raw", "lean-policy", "ci-raw"]

structure WorkflowRun where
  runId : Int
  runAttempt : Int
  event : String
  workflowSha : String
  ref : String
  gateMode : GateMode
  serverUrl : String := "https://github.com"
  headSha : Option String := none
  jobResults : List (String × String) := []

namespace WorkflowRun

variable (run : WorkflowRun)

/-- `Trigger(self.event)`. -/
def trigger : Except LoadError Trigger :=
  match [Trigger.push, .pullRequest, .schedule, .workflowDispatch, .replay, .fixture].find? fun t =>
    run.event = t.value with
  | some t => .ok t
  | none => .error .value

def runtimeVerified : Bool :=
  (requiredRuntimeJobs.all fun job => job ∈ run.jobResults.map Prod.fst) && run.jobResults.all fun kv =>
    kv.2 == "success"

def url (repo : String) : String :=
  run.serverUrl ++ "/" ++ repo ++ "/actions/runs/" ++ toString run.runId ++ "/attempts/" ++ toString run.runAttempt

def toDict : List (String × Json) :=
  [("run_id", .num run.runId), ("run_attempt", .num run.runAttempt), ("event", .str run.event),
    ("workflow_sha", .str run.workflowSha), ("ref", .str run.ref), ("scan_gate_mode", .str run.gateMode.value),
    ("head_sha", run.headSha.elim .null .str),
    ("job_results", .obj ((run.jobResults.insertionSort fun a b => a.1 ≤ b.1).map fun kv => (kv.1, .str kv.2))),
    ("runtime_verified", .bool run.runtimeVerified)]

/-- The `run` block of the manifest. -/
def block (repo : String) : List (String × Json) := Dict.set run.toDict "url" (.str (run.url repo))

end WorkflowRun

/-! ## The evidence of the run -/

/-- The directory the workflow writes to: the names that lead to it from the root of the file system, its files, and the
paths of those under a directory, sorted. -/
structure OutDir where
  location : List String
  files : Bundle
  filesUnder : String → Option (List String)

/-- The arguments of `write_scan_manifest`; the gates are given by their paths in the directory, as a dictionary. -/
structure ManifestInput where
  sourceRepo : String
  sourceBranch : String
  sourceSha : String
  platform : String
  images : ImageTarget → Option RegistryImage
  run : WorkflowRun
  expectedJobs : List String := defaultExpectedJobs
  gateFiles : List (String × String) := []
  attachDirs : List String := []
  controllerSha : Option String := none
  now : Stamp

/-- What the writer raises. -/
inductive CiError where
  | load (error : LoadError)
  | missingJob (name : String)
  | noMetadata (name target : String)
  | scannedOther (name imageRef digest : String)
  | jobSays (name : String) (target : ImageTarget) (mode : ScanMode)
  | platform (name platform expected : String)
  | gateOfNoJob (name : String)
  | gateNotObject (name path : String)
  | gateImage (name : String) (imageRef : Json) (scanned : String)
  | gateTarget (name : String) (target : Json)
  | gateMode (name : String) (mode : Json) (expected : GateMode)
  | notADirectory (dir : String)
  | noFiles (dir : String)
  | controllerSha (sha : String)
  | notAttached (job path : String)
  | ranOther (job path imageRef : String) (target : ImageTarget) (pushed : Option String)
  | reportsFailure (job path : String) (failedStep : Option String)

/-- An error of reading is raised as it is. -/
def liftLoad {α : Type} : Except LoadError α → Except CiError α
  | .ok a => .ok a
  | .error e => .error (.load e)

/-- One expected job, which must have scanned the digest that the build pushed. -/
def expectedJob (w : Writer) (root : Bundle) (inp : ManifestInput) (name : String) :
    Except CiError (String × ScanJobEvidence) :=
  match splitOnce "-" name with
  | none => .error (.load .value)
  | some (target, mode) =>
    if (jobDir root target mode "job.json").isNone then .error (.missingJob name)
    else do
      let job ← liftLoad (loadScanJob w.toReader (jobDir root target mode) (joinPath target mode))
      let imageTarget ← liftLoad (ImageTarget.of (.str target))
      match inp.images imageTarget with
      | none => .error (.noMetadata name target)
      | some image =>
        if afterLast '@' job.imageRef ≠ image.digest then .error (.scannedOther name job.imageRef image.digest)
        else if job.mode.value ≠ mode || job.imageTarget.value ≠ target then
          .error (.jobSays name job.imageTarget job.mode)
        else if job.platform ≠ inp.platform then .error (.platform name job.platform inp.platform)
        else .ok (name, job)

/-- `sha256_file`. -/
def sha256File (root : Bundle) (path : String) : Except CiError Json :=
  match root path with
  | some file => .ok (.str file.sha256)
  | none => .error (.load .os)

/-- `value.items()`. -/
def itemsOf : Json → Except LoadError (List (String × Json))
  | .obj fields => .ok fields
  | _ => .error .attribute

/-- The key of a scan job's file in the `files` map, whatever its name is. -/
def jobPath (target mode name : String) : String := target ++ "/" ++ mode ++ "/" ++ name

/-- The `job.json` of a job, and its part of the `files` map. -/
def jobEntry (root : Bundle) (name : String) : Except CiError (Json × List (String × Json)) :=
  match splitOnce "-" name with
  | none => .error (.load .value)
  | some (target, mode) => do
    let raw ← liftLoad (loadJson (jobDir root target mode) "job.json")
    let listed ← liftLoad (do itemsOf (← raw.item "files"))
    let own ← ["job.json", "SHA256SUMS"].mapM fun f => do
      .ok (jobPath target mode f, ← sha256File (jobDir root target mode) f)
    .ok (raw, listed.map (fun kv => (jobPath target mode kv.1, kv.2)) ++ own)

/-- The verdict of a gate, about the job of its name. -/
def gateEntry (root : Bundle) (run : WorkflowRun) (jobs : List (String × ScanJobEvidence)) (gate : String × String) :
    Except CiError (Json × String × Json) :=
  match Dict.get? jobs gate.1 with
  | none => .error (.gateOfNoJob gate.1)
  | some job =>
    match root gate.2 with
    | none => .error (.load .os)
    | some file =>
      match file.json with
      | none => .error (.load .value)
      | some verdict =>
        if !verdict.isObj then .error (.gateNotObject gate.1 gate.2)
        else if verdict.getStr? "image_ref" ≠ some job.imageRef then
          .error (.gateImage gate.1 ((verdict.get? "image_ref").getD .null) job.imageRef)
        else if verdict.getStr? "image_target" ≠ some job.imageTarget.value then
          .error (.gateTarget gate.1 ((verdict.get? "image_target").getD .null))
        else if verdict.getStr? "mode" ≠ some run.gateMode.value then
          .error (.gateMode gate.1 ((verdict.get? "mode").getD .null) run.gateMode)
        else .ok (verdict, gate.2, .str file.sha256)

/-- The files under an attached directory. -/
def attachDir (out : OutDir) (dir : String) : Except CiError (List (String × Json)) :=
  match out.filesUnder dir with
  | none => .error (.notADirectory dir)
  | some [] => .error (.noFiles dir)
  | some listed => listed.mapM fun path => do .ok (path, ← sha256File out.files path)

/-- What the manifest is written from. -/
structure RunEvidence where
  jobs : List (String × ScanJobEvidence)
  entries : List (String × Json)
  files : List (String × Json)
  gates : List (String × Json)
  attachments : List (String × Json)

/-- The jobs, the gates and the attached files, with the digest of every file. -/
def readEvidence (w : Writer) (out : OutDir) (inp : ManifestInput) : Except CiError RunEvidence := do
  let jobs := dictOfItems (← inp.expectedJobs.mapM (expectedJob w out.files inp))
  let entries ← jobs.mapM fun kv => jobEntry out.files kv.1
  let gates ← inp.gateFiles.mapM (gateEntry out.files inp.run jobs)
  let attached ← inp.attachDirs.mapM (attachDir out)
  .ok { jobs := jobs
        entries := (jobs.map Prod.fst).zip (entries.map Prod.fst)
        files := dictOfItems (entries.flatMap Prod.snd ++ gates.map Prod.snd ++ attached.flatten)
        gates := dictOfItems ((inp.gateFiles.map Prod.fst).zip (gates.map Prod.fst))
        attachments :=
          dictOfItems (inp.attachDirs.zip (attached.map fun listed => .arr (listed.map fun kv => .str kv.1))) }

/-- `[0-9a-f]{40}`. -/
def isCommitSha (sha : String) : Bool := sha.length == 40 && sha.toList.all (· ∈ "0123456789abcdef".toList)

/-- A runtime job is recorded as a success when its own verdict says so of the image that was built. -/
def checkRuntime (root : Bundle) (inp : ManifestInput) (files : List (String × Json))
    (record : String × String × ImageTarget) :
    Except CiError Unit :=
  let (job, rel, target) := record
  if Dict.get? inp.run.jobResults job ≠ some "success" then .ok ()
  else if rel ∉ files.map Prod.fst then .error (.notAttached job rel)
  else do
    let verdict ← liftLoad (loadRuntimeRecord root job rel)
    if (inp.images target).map RegistryImage.digest ≠ some verdict.digest then
      .error (.ranOther job rel verdict.imageRef target ((inp.images target).map RegistryImage.digest))
    else if !verdict.passed then .error (.reportsFailure job rel verdict.failedStep)
    else .ok ()

/-! ## The manifest -/

/-- The `images` block, in the order of the targets' names. -/
def imagesBlock (w : Writer) (images : ImageTarget → Option RegistryImage) : Except LoadError (List (String × Json)) :=
  ([ImageTarget.ci, .lean].filterMap fun target => (images target).map (target, ·)).mapM fun kv => do
    .ok (kv.1.value, ← kv.2.toDict w)

/-- The `ci_layer_delta` block. -/
def deltaBlock (w : Writer) (images : ImageTarget → Option RegistryImage) : Except LoadError Json :=
  match images .lean, images .ci with
  | some lean, some ci => layerDelta w lean ci
  | _, _ => .ok (.obj [])

/-- The first of the earliest starts of the jobs. -/
def earliestStart (jobs : List (String × ScanJobEvidence)) : Option Stamp :=
  (jobs.map fun kv => kv.2.startedAt).argmin Stamp.at_

def manifestDoc (inp : ManifestInput) (ev : RunEvidence) (trigger : Trigger) (start : Stamp)
    (images : List (String × Json))
    (delta : Json) : Json :=
  .obj [("schema", .str scanManifestSchema), ("source_repo", .str inp.sourceRepo),
    ("source_branch", .str inp.sourceBranch),
    ("source_sha", .str inp.sourceSha), ("trigger", .str trigger.value), ("platform", .str inp.platform),
    ("built_at", .str (strftime start)), ("captured_at", .str (strftime inp.now)),
      ("run", .obj (inp.run.block inp.sourceRepo)),
    ("images", .obj images), ("ci_layer_delta", delta), ("gates", .obj ev.gates), ("jobs", .obj ev.entries),
    ("attachments", .obj ev.attachments), ("controller_sha", inp.controllerSha.elim .null .str),
      ("files", .obj ev.files)]

/-- `manifest.json` as it is written. -/
def manifestFile (w : Writer) (manifest : Json) : BundleFile :=
  { sha256 := (w.sha256 (w.dumps manifest ++ "\n")).text, json := some manifest }

/-- The text of `SHA256SUMS`: a line for every file, and one for the manifest. -/
def sumsText (w : Writer) (manifest : Json) (files : List (String × Json)) : String :=
  String.join ((files.insertionSort fun a b => a.1 ≤ b.1).map fun kv => strJson kv.2 ++ "  " ++ kv.1 ++ "\n") ++
    (manifestFile w manifest).sha256 ++ "  manifest.json\n"

/-- `SHA256SUMS` as it is written. -/
def sumsFile (w : Writer) (manifest : Json) (files : List (String × Json)) : BundleFile :=
  { sha256 := (w.sha256 (sumsText w manifest files)).text, lines := splitLines (sumsText w manifest files) }

/-- The directory with `manifest.json` and `SHA256SUMS` written. -/
def written (w : Writer) (out : OutDir) (manifest : Json) (files : List (String × Json)) : Bundle := fun path =>
  if resolvePath out.location path = out.location ++ ["manifest.json"] then some (manifestFile w manifest)
  else if resolvePath out.location path = out.location ++ ["SHA256SUMS"] then some (sumsFile w manifest files)
  else out.files path

/-- `write_scan_manifest`: the manifest, and the directory it is written to. -/
def writeScanManifest (w : Writer) (out : OutDir) (inp : ManifestInput) : Except CiError (Json × Bundle) := do
  let ev ← readEvidence w out inp
  if inp.controllerSha.any fun sha => !isCommitSha sha then .error (.controllerSha (inp.controllerSha.getD ""))
  else
    let _ ← runtimeRecords.mapM (checkRuntime out.files inp ev.files)
    let trigger ← liftLoad inp.run.trigger
    match earliestStart ev.jobs with
    | none => .error (.load .value)
    | some start =>
      let images ← liftLoad (imagesBlock w inp.images)
      let delta ← liftLoad (deltaBlock w inp.images)
      let manifest := manifestDoc inp ev trigger start images delta
      .ok (manifest, written w out manifest ev.files)

/-! ## What is written and read back

### Lines -/

/-- What stands after a line feed is split on its own. -/
theorem splitLineChars_append (b : List Char) : ∀ a : List Char,
    ∃ line lines, splitLineChars (a ++ '\n' :: b) = line :: lines ++ splitLineChars b
  | [] => ⟨[], [], by rw [List.nil_append, splitLineChars_cons (fun _ h => by cases h)]; rfl⟩
  | [c] => by
    by_cases hc : c = '\r'
    · subst hc
      exact ⟨[], [], by simp [splitLineChars]⟩
    · obtain ⟨line, lines, ih⟩ := splitLineChars_append b []
      rw [List.nil_append] at ih
      rw [List.singleton_append, splitLineChars_cons (fun _ h => absurd h hc), ih]
      split
      · exact ⟨[], line :: lines, rfl⟩
      · exact ⟨c :: line, lines, rfl⟩
  | c :: d :: cs => by
    by_cases hcd : c = '\r' ∧ d = '\n'
    · obtain ⟨rfl, rfl⟩ := hcd
      obtain ⟨line, lines, ih⟩ := splitLineChars_append b cs
      refine ⟨[], line :: lines, ?_⟩
      rw [List.cons_append, List.cons_append, splitLineChars, ih]
      rfl
    · obtain ⟨line, lines, ih⟩ := splitLineChars_append b (d :: cs)
      have hne : ∀ ds, c = '\r' → (d :: cs) ++ '\n' :: b ≠ '\n' :: ds := by
        intro ds hc hds
        exact hcd ⟨hc, (List.cons.inj hds).1⟩
      rw [List.cons_append, splitLineChars_cons hne, ih]
      split
      · exact ⟨[], line :: lines, rfl⟩
      · exact ⟨c :: line, lines, rfl⟩

/-- A line without a break is one. -/
theorem splitLineChars_line {line : List Char} (h : ∀ c ∈ line, isLineBreak c = false) (hne : line ≠ []) :
    splitLineChars (line ++ ['\n']) = [line] := by
  induction line with
  | nil => exact absurd rfl hne
  | cons c cs ih =>
    have hc : isLineBreak c = false := h c List.mem_cons_self
    have hr : ∀ ds, c = '\r' → cs ++ ['\n'] ≠ '\n' :: ds := by
      intro _ hcr
      rw [hcr] at hc
      cases hc
    rw [List.cons_append, splitLineChars_cons hr, hc]
    cases cs with
    | nil => rfl
    | cons d ds =>
      rw [ih (fun c hc => h c (List.mem_cons_of_mem _ hc)) (List.cons_ne_nil _ _)]
      rfl

/-- What stands before and after the first separator, of whose characters none stands before it. -/
theorem splitAtFirst_append {sep : Char} {rest : List Char} : ∀ {pre : List Char}, sep ∉ pre →
    splitAtFirst [sep, sep] (pre ++ sep :: sep :: rest) = some (pre, rest)
  | [], _ => by simp [splitAtFirst, List.isPrefixOf]
  | c :: cs, h => by
    rw [List.mem_cons, not_or] at h
    have hp : [sep, sep].isPrefixOf (c :: cs ++ sep :: sep :: rest) = false := by
      simp [List.isPrefixOf, h.1]
    rw [List.cons_append, splitAtFirst, ← List.cons_append, hp]
    simp [splitAtFirst_append h.2]

theorem Digest.not_mem (d : Digest) {c : Char} (h : c ∉ "0123456789abcdef".toList) : c ∉ d.text.toList := by
  intro hc
  exact h (of_decide_eq_true (List.all_eq_true.mp d.hex c hc))

/-- The last line of a text names the manifest. -/
theorem listedSum_append (lines : List String) (d : Digest) :
    listedSum (lines ++ [d.text ++ "  manifest.json"]) "manifest.json" = some d.text := by
  have hsplit : splitOnce "  " (d.text ++ "  manifest.json") = some (d.text, "manifest.json") := by
    have htext : (d.text ++ "  manifest.json").toList = d.text.toList ++ ' ' :: ' ' :: "manifest.json".toList := by
      rw [String.toList_append]
      rfl
    have hsep : "  ".toList = [' ', ' '] := rfl
    rw [splitOnce, htext, hsep, splitAtFirst_append (d.not_mem (by decide))]
    simp
  simp [listedSum, hsplit]

/-- The last of the lines that are written, when it has no break. -/
theorem splitLineChars_join {line : List Char} (h : ∀ c ∈ line, isLineBreak c = false) (hne : line ≠ [])
    {texts : List String} (htexts : ∀ text ∈ texts, ∃ cs, text.toList = cs ++ ['\n']) :
    ∃ lines, splitLineChars (texts.flatMap String.toList ++ (line ++ ['\n'])) = lines ++ [line] := by
  rcases List.eq_nil_or_concat texts with rfl | ⟨init, last, rfl⟩
  · exact ⟨[], splitLineChars_line h hne⟩
  · obtain ⟨cs, hcs⟩ := htexts last (by simp)
    obtain ⟨first, lines, hsplit⟩ := splitLineChars_append (line ++ ['\n']) (init.flatMap String.toList ++ cs)
    refine ⟨first :: lines, ?_⟩
    rw [splitLineChars_line h hne] at hsplit
    simpa [hcs] using hsplit

theorem hex_not_lineBreak : ∀ c ∈ "0123456789abcdef".toList, isLineBreak c = false := by simp [isLineBreak]

theorem manifestName_not_lineBreak : ∀ c ∈ "  manifest.json".toList, isLineBreak c = false := by simp [isLineBreak]

/-- The manifest's digest is listed. -/
theorem listedSum_sumsFile (w : Writer) (manifest : Json) (files : List (String × Json)) :
    listedSum (sumsFile w manifest files).lines "manifest.json" = some (manifestFile w manifest).sha256 := by
  let d := w.sha256 (w.dumps manifest ++ "\n")
  let line := d.text.toList ++ "  manifest.json".toList
  let texts := (files.insertionSort fun a b => a.1 ≤ b.1).map fun kv => strJson kv.2 ++ "  " ++ kv.1 ++ "\n"
  have hline : ∀ c ∈ line, isLineBreak c = false := by
    intro c hc
    rcases List.mem_append.mp hc with hc | hc
    · exact hex_not_lineBreak c (of_decide_eq_true (List.all_eq_true.mp d.hex c hc))
    · exact manifestName_not_lineBreak c hc
  have htexts : ∀ text ∈ texts, ∃ cs, text.toList = cs ++ ['\n'] := by
    intro text htext
    obtain ⟨kv, -, rfl⟩ := List.mem_map.mp htext
    exact ⟨(strJson kv.2 ++ "  " ++ kv.1).toList, by rw [String.toList_append]; rfl⟩
  obtain ⟨lines, hlines⟩ := splitLineChars_join hline (by simp [line]) htexts
  have htext : (sumsText w manifest files).toList = texts.flatMap String.toList ++ (line ++ ['\n']) := by
    simp [sumsText, texts, line, d, manifestFile, String.toList_join]
  have hsplit : (sumsFile w manifest files).lines = lines.map String.ofList ++ [d.text ++ "  manifest.json"] := by
    show splitLines (sumsText w manifest files) = _
    rw [splitLines, htext, hlines, List.map_append]
    simp [line]
  rw [hsplit]
  exact listedSum_append _ d

/-! ### Paths -/

theorem splitChars_cons_part {c : Char} : ∀ {part : List Char}, c ∉ part → ∀ cs : List Char,
    splitChars c (part ++ c :: cs) = part :: splitChars c cs
  | [], _, cs => by simp [splitChars]
  | d :: part, h, cs => by
    rw [List.mem_cons, not_or] at h
    rw [List.cons_append, splitChars, if_neg (Ne.symm h.1), splitChars_cons_part h.2]

theorem jobPath_parts (target : ImageTarget) (mode : ScanMode) (name : String) :
    pathParts (jobPath target.value mode.value name) =
      target.value :: mode.value :: (splitText '/' name).filter fun part => part ≠ "" && part ≠ "." := by
  have htext : (jobPath target.value mode.value name).toList =
      target.value.toList ++ '/' :: (mode.value.toList ++ '/' :: name.toList) := by
    simp [jobPath]
  have habs : hasPrefix "/" (jobPath target.value mode.value name) = false := by
    rw [hasPrefix, htext]
    cases target <;> rfl
  rw [pathParts, habs, splitText, htext, splitChars_cons_part (by cases target <;> decide),
    splitChars_cons_part (by cases mode <;> decide)]
  cases target <;> cases mode <;> rfl

/-- A key names one file of one job's directory. -/
theorem jobPath_name {target target' : ImageTarget} {mode mode' : ScanMode} {name name' : String}
    (h : jobPath target.value mode.value name = jobPath target'.value mode'.value name') : name = name' := by
  have htext := congrArg String.toList h
  simp only [jobPath, String.toList_append] at htext
  cases target <;> cases target' <;> cases mode <;> cases mode' <;>
    simp [ImageTarget.value, ScanMode.value, String.toList_inj] at htext
  all_goals exact htext

/-- Only an absolute name leaves the directory of the job. -/
theorem jobFile_value (target : ImageTarget) (mode : ScanMode) (name : String) :
    jobFile target.value mode.value name = if hasPrefix "/" name then name else
    jobPath target.value mode.value name := by
  have hdir : joinPath target.value mode.value = target.value ++ "/" ++ mode.value := by
    cases target <;> cases mode <;> decide
  have hne : target.value ++ "/" ++ mode.value ≠ "" := by
    cases target <;> cases mode <;> decide
  rw [jobFile, hdir, joinPath, if_neg hne, jobPath]

theorem jobDir_relative {root : Bundle} {target : ImageTarget} {mode : ScanMode} {name : String}
    (h : hasPrefix "/" name = false) :
    jobDir root target.value mode.value name = root (jobPath target.value mode.value name) := by
  rw [jobDir, jobFile_value, h]
  rfl

theorem jobDir_absolute {root : Bundle} {target : ImageTarget} {mode : ScanMode} {name : String}
    (h : hasPrefix "/" name = true) : jobDir root target.value mode.value name = root name := by
  rw [jobDir, jobFile_value, if_pos h]

theorem relative_parts {name : String} (h : hasPrefix "/" name = false) :
    (splitText '/' name).filter (fun part => part ≠ "" && part ≠ ".") = pathParts name := by
  rw [pathParts, h]
  rfl

/-- Plain names are followed one after the other. -/
theorem foldl_followPart {parts : List String} (h : ∀ part ∈ parts, part ≠ "/" ∧ part ≠ "..") (dir : List String) :
    parts.foldl followPart dir = dir ++ parts := by
  induction parts generalizing dir with
  | nil => simp
  | cons part parts ih =>
    obtain ⟨hroot, hup⟩ := h part List.mem_cons_self
    rw [List.foldl_cons, followPart, if_neg hroot, if_neg hup, ih fun p hp => h p (List.mem_cons_of_mem _ hp)]
    simp

theorem resolvePath_name (dir : List String) {name : String} (h : pathParts name = [name])
    (hplain : name ≠ "/" ∧ name ≠ "..") :
    resolvePath dir name = dir ++ [name] := by
  rw [resolvePath, h]
  exact foldl_followPart (by simpa using hplain) dir

/-- The copy of an approved document is named from the directory of its job. -/
theorem relative_of_vex {name : String} (h : (pathParts name).dropLast = [vexEvidenceDir]) :
    hasPrefix "/" name = false := by
  by_contra habs
  rw [Bool.not_eq_false] at habs
  rw [pathParts, if_pos habs] at h
  cases hparts : (splitText '/' name).filter fun part => part ≠ "" && part ≠ "." with
  | nil =>
    rw [hparts] at h
    cases h
  | cons part parts =>
    rw [hparts, List.singleton_append, List.dropLast_cons_of_ne_nil (List.cons_ne_nil _ _)] at h
    exact absurd (List.cons.inj h).1 (by decide)

/-- Neither a report of a scan job nor a copy of an approved document is directly in the directory that is written
to. -/
theorem resolvePath_report (dir : List String) (target : ImageTarget) (mode : ScanMode) {name : String}
    (hname : name ∈ "job.json" :: reportFiles) :
    (resolvePath dir (jobPath target.value mode.value name)).length ≠ dir.length + 1 := by
  have hparts : ∀ name ∈ "job.json" :: reportFiles, (pathParts (jobPath target.value mode.value name)).length = 3 ∧
      ∀ part ∈ pathParts (jobPath target.value mode.value name), part ≠ "/" ∧ part ≠ ".." := by
    cases target <;> cases mode <;> decide +kernel
  obtain ⟨hlength, hplain⟩ := hparts name hname
  rw [resolvePath, foldl_followPart hplain, List.length_append, hlength]
  omega

theorem resolvePath_vex (dir : List String) (target : ImageTarget) (mode : ScanMode) {name : String}
    (h : (pathParts name).dropLast = [vexEvidenceDir]) :
    (resolvePath dir (jobPath target.value mode.value name)).length ≠ dir.length + 1 := by
  obtain ⟨last, hparts⟩ : ∃ last, pathParts name = [vexEvidenceDir, last] := by
    rcases List.eq_nil_or_concat (pathParts name) with hnil | ⟨init, last, hconcat⟩
    · rw [hnil] at h
      cases h
    · rw [hconcat, List.concat_eq_append, List.dropLast_concat] at h
      exact ⟨last, by rw [hconcat, List.concat_eq_append, h]; rfl⟩
  have hrelative : hasPrefix "/" name = false := relative_of_vex h
  have hplain : ∀ part ∈ [target.value, mode.value, vexEvidenceDir], part ≠ "/" ∧ part ≠ ".." := by
    cases target <;> cases mode <;> decide
  rw [resolvePath, jobPath_parts, relative_parts hrelative, hparts]
  show (List.foldl followPart dir ([target.value, mode.value, vexEvidenceDir] ++ [last])).length ≠ dir.length + 1
  rw [List.foldl_append, foldl_followPart hplain, List.foldl_cons, List.foldl_nil, followPart]
  split
  · simp
  · split <;> simp

theorem resolvePath_runtime (dir : List String) {r : String × String × ImageTarget} (hr : r ∈ runtimeRecords) :
    (resolvePath dir r.2.1).length ≠ dir.length + 1 := by
  have hparts : ∀ r ∈ runtimeRecords, (pathParts r.2.1).length = 3 ∧ ∀ part ∈ pathParts r.2.1, part ≠ "/" ∧
    part ≠ ".." := by
    decide
  obtain ⟨hlength, hplain⟩ := hparts r hr
  rw [resolvePath, foldl_followPart hplain, List.length_append, hlength]
  omega

end HardeningLoop
