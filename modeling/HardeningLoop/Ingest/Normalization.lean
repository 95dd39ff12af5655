import HardeningLoop.Ingest.Records

/-!
# What normalization keeps

`normalize` merges the records of a dedupe key into one finding, record by record. `underKey` says what is there under a
key: the records of that key alone, merged in their order. A scanner has one slot in a finding, which its last record
overwrites:

- `Lossless`: the finding of a key says what its records say, for each scanner the greatest severity and all fix
  versions;
- `lossless_iff`: normalization is lossless for every order of the records exactly when the records that one scanner has
  of one key agree.
-/

namespace HardeningLoop

/-! ## Keys -/

/-- The kind of a record is the first letter of its key. -/
theorem RawVuln.dedupeKey_head (rv : RawVuln) : rv.dedupeKey.toList.head? = some 'v' := by
  simp [RawVuln.dedupeKey, String.intercalate_cons_cons]

theorem RawConfigFinding.dedupeKey_head (rc : RawConfigFinding) : rc.dedupeKey.toList.head? = some 'c' := by
  simp [RawConfigFinding.dedupeKey, String.intercalate_cons_cons]

theorem vuln_ne_config (rv : RawVuln) (rc : RawConfigFinding) : rv.dedupeKey ≠ rc.dedupeKey := by
  intro h
  have hhead := rv.dedupeKey_head
  rw [h, rc.dedupeKey_head] at hhead
  exact absurd hhead (by decide)

/-! ## What is merged under a key -/

/-- The findings by key, before they are sorted. -/
def merged (vulns : List RawVuln) (configs : List RawConfigFinding) : Merged :=
  configs.foldl mergeConfig (vulns.foldl mergeVuln [])

section Merge

variable {vulns : List RawVuln} {configs : List RawConfigFinding} {k : String} {nf : NormalizedFinding}

theorem nodup_merged (vulns : List RawVuln) (configs : List RawConfigFinding) :
    ((merged vulns configs).map Prod.fst).Nodup :=
  Dict.nodup_keys_fill RawConfigFinding.dedupeKey (fun o rc => (o.getD rc.toFinding).addConfig rc)
    (Dict.nodup_keys_fill RawVuln.dedupeKey (fun o rv => (o.getD rv.toFinding).addVuln rv)
    (d := []) List.nodup_nil vulns)
    configs

theorem get?_merged (vulns : List RawVuln) (configs : List RawConfigFinding) (k : String) :
    Dict.get? (merged vulns configs) k =
      (configs.filter (·.dedupeKey = k)).foldl (fun o rc => some ((o.getD rc.toFinding).addConfig rc))
        ((vulns.filter (·.dedupeKey = k)).foldl (fun o rv => some ((o.getD rv.toFinding).addVuln rv)) none) := by
  have hconfigs := Dict.get?_fill RawConfigFinding.dedupeKey (fun o rc => (o.getD rc.toFinding).addConfig rc)
    (vulns.foldl mergeVuln []) configs k
  have hvulns := Dict.get?_fill RawVuln.dedupeKey (fun o rv => (o.getD rv.toFinding).addVuln rv) [] vulns k
  rw [show Dict.get? (vulns.foldl mergeVuln []) k = _ from hvulns] at hconfigs
  exact hconfigs

/-- A list of records, each merged into the finding of the ones before it. -/
theorem foldl_some {α β : Type*} (f : β → α → β) (init : α → β) (r : α) (rs : List α) :
    (r :: rs).foldl (fun o a => some (f (o.getD (init a)) a)) none = some ((r :: rs).foldl f (init r)) := by
  have hrest (b : β) (l : List α) :
      l.foldl (fun o a => some (f (o.getD (init a)) a)) (some b) = some (l.foldl f b) := by
    induction l generalizing b with
    | nil => rfl
    | cons a l ih => exact ih (f b a)
  exact hrest (f (init r) r) rs

end Merge

/-! ## The records of a key -/

/-- What a record says of its key. A configuration record lists no fix versions. -/
structure ScanRecord where
  key : String
  scanner : Scanner
  severity : Severity
  fixedVersions : List String
  deriving DecidableEq

def RawVuln.toRecord (rv : RawVuln) : ScanRecord := ⟨rv.dedupeKey, rv.scanner, rv.severity, rv.fixedVersions⟩

def RawConfigFinding.toRecord (rc : RawConfigFinding) : ScanRecord := ⟨rc.dedupeKey, rc.scanner, rc.severity, []⟩

def scanRecords (vulns : List RawVuln) (configs : List RawConfigFinding) : List ScanRecord :=
  vulns.map RawVuln.toRecord ++ configs.map RawConfigFinding.toRecord

/-- The last record of a scanner. -/
def lastOf (s : Scanner) (records : List ScanRecord) : Option ScanRecord :=
  (records.filter (·.scanner = s)).getLast?

/-- What a finding says of the records that were merged into it. -/
structure Tells (nf : NormalizedFinding) (records : List ScanRecord) : Prop where
  reported : ∀ s, s ∈ nf.reportedBy ↔ ∃ r ∈ records, r.scanner = s
  severities : ∀ s, Dict.get? nf.severityByScanner s = (lastOf s records).map ScanRecord.severity
  versions : ∀ s, (Dict.get? nf.fixVersionsByScanner s).getD [] = (lastOf s records).elim [] ScanRecord.fixedVersions
  nodup : (nf.fixVersionsByScanner.map Prod.fst).Nodup

section Fields

variable {nf : NormalizedFinding}

theorem mem_foldl_addReporter {α : Type*} (scanner : α → Scanner) (rs : List α) (by_ : List Scanner) (s : Scanner) :
    s ∈ rs.foldl (fun b r => addReporter (scanner r) b) by_ ↔ s ∈ by_ ∨ ∃ r ∈ rs, scanner r = s := by
  induction rs generalizing by_ with
  | nil => simp
  | cons r rs ih =>
    rw [List.foldl_cons, ih, mem_addReporter]
    simp only [List.exists_mem_cons_iff, or_assoc, eq_comm]

theorem lastOf_map {α : Type*} (f : α → ScanRecord) (rs : List α) (s : Scanner) :
    lastOf s (rs.map f) = (rs.filter fun a => (f a).scanner = s).getLast?.map f := by
  rw [lastOf, List.filter_map, List.getLast?_map]
  rfl

theorem foldl_addVuln_reportedBy (rs : List RawVuln) :
    (rs.foldl NormalizedFinding.addVuln nf).reportedBy =
      rs.foldl (fun b r => addReporter r.scanner b) nf.reportedBy := by
  induction rs generalizing nf with
  | nil => rfl
  | cons r rs ih => exact ih

theorem foldl_addVuln_severityByScanner (rs : List RawVuln) :
    (rs.foldl NormalizedFinding.addVuln nf).severityByScanner =
    Dict.fill RawVuln.scanner (fun _ => RawVuln.severity) nf.severityByScanner rs := by
  induction rs generalizing nf with
  | nil => rfl
  | cons r rs ih => exact ih

theorem foldl_addVuln_fixVersions (rs : List RawVuln) : (rs.foldl NormalizedFinding.addVuln nf).fixVersionsByScanner =
    Dict.fill RawVuln.scanner (fun _ => RawVuln.fixedVersions) nf.fixVersionsByScanner rs := by
  induction rs generalizing nf with
  | nil => rfl
  | cons r rs ih => exact ih

theorem foldl_addConfig_reportedBy (rs : List RawConfigFinding) : (rs.foldl NormalizedFinding.addConfig nf).reportedBy =
    rs.foldl (fun b r => addReporter r.scanner b) nf.reportedBy := by
  induction rs generalizing nf with
  | nil => rfl
  | cons r rs ih => exact ih

theorem foldl_addConfig_severityByScanner (rs : List RawConfigFinding) :
    (rs.foldl NormalizedFinding.addConfig nf).severityByScanner =
      Dict.fill RawConfigFinding.scanner (fun _ => RawConfigFinding.severity) nf.severityByScanner rs := by
  induction rs generalizing nf with
  | nil => rfl
  | cons r rs ih => exact ih

/-- A configuration record writes neither the severity nor the fix versions of its finding. -/
theorem foldl_addConfig_kept (rs : List RawConfigFinding) :
    (rs.foldl NormalizedFinding.addConfig nf).severity = nf.severity ∧
      (rs.foldl NormalizedFinding.addConfig nf).fixVersionsByScanner = nf.fixVersionsByScanner := by
  induction rs generalizing nf with
  | nil => exact ⟨rfl, rfl⟩
  | cons r rs ih => exact ih

theorem tells_vulns (rv : RawVuln) (rs : List RawVuln) :
    Tells (rs.foldl NormalizedFinding.addVuln rv.toFinding) (rs.map RawVuln.toRecord) := by
  refine ⟨fun s => ?_, fun s => ?_, fun s => ?_, ?_⟩
  · rw [foldl_addVuln_reportedBy, mem_foldl_addReporter]
    simp [RawVuln.toFinding, RawVuln.toRecord]
  · rw [foldl_addVuln_severityByScanner, Dict.get?_fill_const, lastOf_map, Option.map_map]
    exact Option.or_none
  · rw [foldl_addVuln_fixVersions, Dict.get?_fill_const, lastOf_map]
    have hlast (o : Option RawVuln) :
        ((o.map RawVuln.fixedVersions).or none).getD [] =
          (o.map RawVuln.toRecord).elim [] ScanRecord.fixedVersions := by
      cases o <;> rfl
    exact hlast _
  · rw [foldl_addVuln_fixVersions]
    exact Dict.nodup_keys_fill _ _ (d := []) List.nodup_nil rs

theorem tells_configs (rc : RawConfigFinding) (rs : List RawConfigFinding) :
    Tells (rs.foldl NormalizedFinding.addConfig rc.toFinding) (rs.map RawConfigFinding.toRecord) := by
  refine ⟨fun s => ?_, fun s => ?_, fun s => ?_, ?_⟩
  · rw [foldl_addConfig_reportedBy, mem_foldl_addReporter]
    simp [RawConfigFinding.toFinding, RawConfigFinding.toRecord]
  · rw [foldl_addConfig_severityByScanner, Dict.get?_fill_const, lastOf_map, Option.map_map]
    exact Option.or_none
  · rw [(foldl_addConfig_kept rs).2, lastOf_map]
    cases (List.filter _ rs).getLast? <;> rfl
  · rw [(foldl_addConfig_kept rs).2]
    exact List.nodup_nil

/-- A severity that the records have and none exceeds. -/
def Greatest (severity : Severity) (records : List ScanRecord) : Prop :=
  (∃ r ∈ records, r.severity = severity) ∧ ∀ r ∈ records, r.severity.rank ≤ severity.rank

theorem foldl_addVuln_severity (rs : List RawVuln) :
    ((rs.foldl NormalizedFinding.addVuln nf).severity = nf.severity ∨
      ∃ r ∈ rs, r.severity = (rs.foldl NormalizedFinding.addVuln nf).severity) ∧
    nf.severity.rank ≤ (rs.foldl NormalizedFinding.addVuln nf).severity.rank ∧
    ∀ r ∈ rs, r.severity.rank ≤ (rs.foldl NormalizedFinding.addVuln nf).severity.rank := by
  induction rs generalizing nf with
  | nil => exact ⟨Or.inl rfl, Nat.le_refl _, fun r hr => absurd hr List.not_mem_nil⟩
  | cons r rs ih =>
    obtain ⟨hfrom, hstart, hall⟩ := @ih (nf.addVuln r)
    have hstep : (nf.addVuln r).severity = (if r.severity.rank > nf.severity.rank then r.severity else nf.severity) :=
      rfl
    have hr : r.severity.rank ≤ (nf.addVuln r).severity.rank := by
      rw [hstep]
      split <;> omega
    have hnf : nf.severity.rank ≤ (nf.addVuln r).severity.rank := by
      rw [hstep]
      split <;> omega
    refine ⟨?_, hnf.trans hstart, fun r' hr' => ?_⟩
    · rcases hfrom with hfrom | ⟨r', hr', hfrom⟩
      · rw [List.foldl_cons, hfrom, hstep]
        split
        · exact Or.inr ⟨r, List.mem_cons_self, rfl⟩
        · exact Or.inl rfl
      · exact Or.inr ⟨r', List.mem_cons_of_mem _ hr', hfrom⟩
    · rcases List.mem_cons.mp hr' with rfl | hr'
      · exact hr.trans hstart
      · exact hall r' hr'

theorem rank_injective {a b : Severity} (h : a.rank = b.rank) : a = b := by
  revert h
  cases a <;> cases b <;> decide

/-- The severity of vulnerability records is the greatest of them. -/
theorem greatest_vulns (rv first : RawVuln) (rest : List RawVuln) :
    Greatest ((first :: rest).foldl NormalizedFinding.addVuln rv.toFinding).severity
      ((first :: rest).map RawVuln.toRecord) := by
  obtain ⟨hfrom, -, hall⟩ := @foldl_addVuln_severity rv.toFinding (first :: rest)
  refine ⟨?_, fun r hr => ?_⟩
  · rcases hfrom with hfrom | ⟨r, hr, hfrom⟩
    · -- the start is the least severity, so the first record has it too
      have hle := hall first List.mem_cons_self
      rw [hfrom] at hle
      have heq : first.severity = rv.toFinding.severity := rank_injective (Nat.le_antisymm hle (Nat.zero_le _))
      exact ⟨first.toRecord, List.mem_map_of_mem List.mem_cons_self, heq.trans hfrom.symm⟩
    · exact ⟨r.toRecord, List.mem_map_of_mem hr, hfrom⟩
  · obtain ⟨rv', hrv', rfl⟩ := List.mem_map.mp hr
    exact hall rv' hrv'

/-- What merging never changes. -/
def NormalizedFinding.subject (nf : NormalizedFinding) : String × String × Option String × Ecosystem × Layer :=
  (nf.dedupeKey, nf.vulnId, nf.pkgName, nf.ecosystem, nf.layer)

theorem foldl_addVuln_subject (rs : List RawVuln) :
    (rs.foldl NormalizedFinding.addVuln nf).subject = nf.subject :=
  Rows.foldl_frame NormalizedFinding.subject (f := NormalizedFinding.addVuln) (fun _ _ _ => rfl) nf

theorem foldl_addConfig_subject (rs : List RawConfigFinding) :
    (rs.foldl NormalizedFinding.addConfig nf).subject = nf.subject :=
  Rows.foldl_frame NormalizedFinding.subject (f := NormalizedFinding.addConfig) (fun _ _ _ => rfl) nf

end Fields

/-! ## The findings of a report -/

section Report

variable {vulns : List RawVuln} {configs : List RawConfigFinding} {k : String} {nf : NormalizedFinding}

theorem mem_normalize : nf ∈ normalize vulns configs ↔ ∃ k, Dict.get? (merged vulns configs) k = some nf := by
  unfold normalize
  rw [List.mem_insertionSort]
  constructor
  · intro h
    obtain ⟨⟨k, nf'⟩, hkv, rfl⟩ := List.mem_map.mp h
    exact ⟨k, Dict.get?_of_mem (nodup_merged vulns configs) hkv⟩
  · rintro ⟨k, hk⟩
    exact List.mem_map.mpr ⟨(k, nf), Dict.mem_of_get? hk, rfl⟩

theorem filter_scanRecords (vulns : List RawVuln) (configs : List RawConfigFinding) (k : String) :
    (scanRecords vulns configs).filter (·.key = k) =
      (vulns.filter (·.dedupeKey = k)).map RawVuln.toRecord ++
        (configs.filter (·.dedupeKey = k)).map RawConfigFinding.toRecord := by
  rw [scanRecords, List.filter_append, List.filter_map, List.filter_map]
  rfl

/-- What is there under a key: the vulnerability records of the key, or its configuration records, or nothing. -/
inductive UnderKey (vulns : List RawVuln) (configs : List RawConfigFinding) (k : String) :
    Option NormalizedFinding → Prop
  | vulns (rv : RawVuln) (rest : List RawVuln) (hv : vulns.filter (·.dedupeKey = k) = rv :: rest)
      (hc : configs.filter (·.dedupeKey = k) = []) :
      UnderKey vulns configs k (some ((rv :: rest).foldl NormalizedFinding.addVuln rv.toFinding))
  | configs (rc : RawConfigFinding) (rest : List RawConfigFinding) (hv : vulns.filter (·.dedupeKey = k) = [])
      (hc : configs.filter (·.dedupeKey = k) = rc :: rest) :
      UnderKey vulns configs k (some ((rc :: rest).foldl NormalizedFinding.addConfig rc.toFinding))
  | nothing (hv : vulns.filter (·.dedupeKey = k) = []) (hc : configs.filter (·.dedupeKey = k) = []) :
      UnderKey vulns configs k none

theorem underKey (vulns : List RawVuln) (configs : List RawConfigFinding) (k : String) :
    UnderKey vulns configs k (Dict.get? (merged vulns configs) k) := by
  cases hv : vulns.filter (·.dedupeKey = k) with
  | cons rv rest =>
    have hrv : rv.dedupeKey = k := by
      have hmem : rv ∈ vulns.filter (·.dedupeKey = k) := hv ▸ List.mem_cons_self
      simpa using (List.mem_filter.mp hmem).2
    have hc : configs.filter (·.dedupeKey = k) = [] :=
      List.filter_eq_nil_iff.mpr fun rc _ => by simpa using fun heq => vuln_ne_config rv rc (hrv.trans heq.symm)
    have hget := get?_merged vulns configs k
    rw [hv, hc] at hget
    rw [show Dict.get? (merged vulns configs) k = _ from hget.trans (foldl_some ..)]
    exact .vulns rv rest hv hc
  | nil =>
    have hget := get?_merged vulns configs k
    rw [hv] at hget
    cases hc : configs.filter (·.dedupeKey = k) with
    | nil =>
      rw [hget, hc]
      exact .nothing hv hc
    | cons rc rest =>
      rw [hc] at hget
      rw [show Dict.get? (merged vulns configs) k = _ from hget.trans (foldl_some ..)]
      exact .configs rc rest hv hc

/-- The records of a key. -/
def ofKey (k : String) (records : List ScanRecord) : List ScanRecord := records.filter (·.key = k)

/-- The severity of a finding: the greatest of its vulnerability records, or that of its first configuration record. -/
def SeverityOf (nf : NormalizedFinding) (records : List ScanRecord) : Prop :=
  Greatest nf.severity records ∨ (∃ r ∈ records, r.severity = nf.severity) ∧ ∀ r ∈ records, r.scanner = .trivy

/-- What is merged under a key tells of the records of the key. -/
theorem merged_tells (h : Dict.get? (merged vulns configs) k = some nf) :
    nf.dedupeKey = k ∧ Tells nf (ofKey k (scanRecords vulns configs)) ∧
      SeverityOf nf (ofKey k (scanRecords vulns configs)) := by
  have hkey := filter_scanRecords vulns configs k
  unfold ofKey
  have hunder := underKey vulns configs k
  rw [h] at hunder
  cases hunder with
  | vulns rv rest hv hc =>
    rw [hkey, hv, hc, List.map_nil, List.append_nil]
    have hsubject := @foldl_addVuln_subject rv.toFinding (rv :: rest)
    have hrv : rv.dedupeKey = k := by
      have hmem : rv ∈ vulns.filter (·.dedupeKey = k) := hv ▸ List.mem_cons_self
      simpa using (List.mem_filter.mp hmem).2
    exact ⟨(congrArg Prod.fst hsubject).trans hrv, tells_vulns rv _, .inl (greatest_vulns rv rv rest)⟩
  | configs rc rest hv hc =>
    rw [hkey, hv, hc, List.map_nil, List.nil_append]
    have hsubject := @foldl_addConfig_subject rc.toFinding (rc :: rest)
    have hrc : rc.dedupeKey = k := by
      have hmem : rc ∈ configs.filter (·.dedupeKey = k) := hc ▸ List.mem_cons_self
      simpa using (List.mem_filter.mp hmem).2
    refine ⟨(congrArg Prod.fst hsubject).trans hrc, tells_configs rc _, .inr ⟨?_, fun r hr => ?_⟩⟩
    · exact ⟨rc.toRecord, List.mem_map_of_mem List.mem_cons_self,
        (@foldl_addConfig_kept rc.toFinding (rc :: rest)).1.symm⟩
    · obtain ⟨rc', -, rfl⟩ := List.mem_map.mp hr
      exact rc'.scanner_eq

theorem merged_isSome :
    (Dict.get? (merged vulns configs) k).isSome ↔ k ∈ (scanRecords vulns configs).map ScanRecord.key := by
  have hmem : k ∈ (scanRecords vulns configs).map ScanRecord.key ↔ ofKey k (scanRecords vulns configs) ≠ [] := by
    simp [ofKey, List.filter_eq_nil_iff]
  rw [hmem, ofKey, filter_scanRecords]
  have hunder := underKey vulns configs k
  generalize Dict.get? (merged vulns configs) k = o at hunder
  cases hunder with
  | vulns rv rest hv hc => simp [hv]
  | configs rc rest hv hc => simp [hc]
  | nothing hv hc => simp [hv, hc]

theorem keys_normalize : k ∈ (normalize vulns configs).map NormalizedFinding.dedupeKey ↔
    k ∈ (scanRecords vulns configs).map ScanRecord.key := by
  rw [← merged_isSome, Option.isSome_iff_exists, List.mem_map]
  constructor
  · rintro ⟨nf, hnf, rfl⟩
    obtain ⟨k, hk⟩ := mem_normalize.mp hnf
    exact ⟨nf, (merged_tells hk).1 ▸ hk⟩
  · rintro ⟨nf, hnf⟩
    exact ⟨nf, mem_normalize.mpr ⟨k, hnf⟩, (merged_tells hnf).1⟩

theorem normalize_tells (h : nf ∈ normalize vulns configs) :
    Tells nf (ofKey nf.dedupeKey (scanRecords vulns configs)) ∧
      SeverityOf nf (ofKey nf.dedupeKey (scanRecords vulns configs)) := by
  obtain ⟨k, hk⟩ := mem_normalize.mp h
  obtain ⟨rfl, htells⟩ := merged_tells hk
  exact htells

/-- No two findings have one key. -/
theorem nodup_normalize (vulns : List RawVuln) (configs : List RawConfigFinding) :
    ((normalize vulns configs).map NormalizedFinding.dedupeKey).Nodup := by
  have hperm :
      ((normalize vulns configs).map NormalizedFinding.dedupeKey).Perm ((merged vulns configs).map Prod.fst) := by
    refine ((List.perm_insertionSort _ _).map _).trans (List.Perm.of_eq ?_)
    rw [Dict.values, List.map_map]
    refine List.map_congr_left fun kv hkv => ?_
    exact (merged_tells (Dict.get?_of_mem (nodup_merged vulns configs) hkv)).1
  exact hperm.nodup_iff.mpr (nodup_merged vulns configs)

end Report

/-! ## Normalization and the order of the records -/

/-- A finding says what the records of its key say. -/
structure Faithful (nf : NormalizedFinding) (records : List ScanRecord) : Prop where
  reported : ∀ s, s ∈ nf.reportedBy ↔ ∃ r ∈ records, r.scanner = s
  severity : Greatest nf.severity records
  severities : ∀ s, (∃ r ∈ records, r.scanner = s) →
    ∃ severity, Dict.get? nf.severityByScanner s = some severity ∧ Greatest severity (records.filter (·.scanner = s))
  versions : ∀ s v, v ∈ (Dict.get? nf.fixVersionsByScanner s).getD [] ↔ ∃ r ∈ records, r.scanner = s ∧
    v ∈ r.fixedVersions
  hasFix : nf.hasFix = true ↔ ∃ r ∈ records, r.fixedVersions ≠ []

/-- Findings say what the records say: one for each key, with all that its records say. -/
structure Lossless (records : List ScanRecord) (nfs : List NormalizedFinding) : Prop where
  distinct : (nfs.map NormalizedFinding.dedupeKey).Nodup
  keys : ∀ k, k ∈ nfs.map NormalizedFinding.dedupeKey ↔ k ∈ records.map ScanRecord.key
  faithful : ∀ nf ∈ nfs, Faithful nf (ofKey nf.dedupeKey records)

/-- Whatever the order of the records, normalization loses nothing of them. -/
def OrderIndependent (vulns : List RawVuln) (configs : List RawConfigFinding) : Prop :=
  ∀ vs cs, vs.Perm vulns → cs.Perm configs → Lossless (scanRecords vulns configs) (normalize vs cs)

/-- The records that one scanner has of one key agree on the severity and on the fix versions, as a set. -/
def RecordsAgree (records : List ScanRecord) : Prop :=
  ∀ r ∈ records, ∀ r' ∈ records, r.key = r'.key → r.scanner = r'.scanner →
    r.severity = r'.severity ∧ ∀ v, v ∈ r.fixedVersions ↔ v ∈ r'.fixedVersions

section Order

variable {vulns : List RawVuln} {configs : List RawConfigFinding} {nf : NormalizedFinding}
  {records records' : List ScanRecord}

theorem lastOf_concat (records : List ScanRecord) (r : ScanRecord) : lastOf r.scanner (records ++ [r]) = some r := by
  rw [lastOf, List.filter_append, List.filter_cons_of_pos (by simp), List.filter_nil, List.getLast?_concat]

theorem lastOf_mem {s : Scanner} {r : ScanRecord} (h : lastOf s records = some r) : r ∈ records ∧ r.scanner = s := by
  have hmem := List.mem_filter.mp (List.mem_of_getLast? h)
  exact ⟨hmem.1, by simpa using hmem.2⟩

theorem exists_lastOf {s : Scanner} (h : ∃ r ∈ records, r.scanner = s) : ∃ r, lastOf s records = some r := by
  obtain ⟨r, hr, hs⟩ := h
  have hmem : r ∈ records.filter (·.scanner = s) := List.mem_filter.mpr ⟨hr, by simpa using hs⟩
  exact ⟨_, List.getLast?_eq_some_getLast (List.ne_nil_of_mem hmem)⟩

theorem perm_to_end {α : Type*} (l l' : List α) (a : α) : (l ++ l' ++ [a]).Perm (l ++ a :: l') := by
  rw [List.append_assoc]
  exact (List.perm_append_singleton a l').append_left l

/-- Any record can be the last of its key. -/
theorem exists_order_last {r : ScanRecord} (h : r ∈ scanRecords vulns configs) : ∃ vs cs records, vs.Perm vulns ∧
    cs.Perm configs ∧ ofKey r.key (scanRecords vs cs) = records ++ [r] := by
  rcases List.mem_append.mp h with h | h
  · obtain ⟨rv, hrv, rfl⟩ := List.mem_map.mp h
    obtain ⟨l, l', rfl⟩ := List.append_of_mem hrv
    have hnone : configs.filter (·.dedupeKey = rv.dedupeKey) = [] :=
      List.filter_eq_nil_iff.mpr fun rc _ => by simpa using (vuln_ne_config rv rc).symm
    refine ⟨l ++ l' ++ [rv], configs, ((l ++ l').filter (·.dedupeKey = rv.dedupeKey)).map RawVuln.toRecord,
      perm_to_end l l' rv, .refl _, ?_⟩
    show (scanRecords _ _).filter (·.key = rv.dedupeKey) = _
    rw [filter_scanRecords, hnone, List.filter_append, List.filter_cons_of_pos (by simp), List.map_append, List.map_nil,
      List.append_nil]
    rfl
  · obtain ⟨rc, hrc, rfl⟩ := List.mem_map.mp h
    obtain ⟨l, l', rfl⟩ := List.append_of_mem hrc
    refine ⟨vulns, l ++ l' ++ [rc], (vulns.filter (·.dedupeKey = rc.dedupeKey)).map RawVuln.toRecord ++
      ((l ++ l').filter (·.dedupeKey = rc.dedupeKey)).map RawConfigFinding.toRecord, .refl _, perm_to_end l l' rc, ?_⟩
    show (scanRecords _ _).filter (·.key = rc.dedupeKey) = _
    rw [filter_scanRecords, List.filter_append (l ++ l'), List.filter_cons_of_pos (by simp), List.map_append,
      ← List.append_assoc]
    rfl

/-- A record that may come last says all that its scanner says of the key. -/
theorem OrderIndependent.last (h : OrderIndependent vulns configs) {r r' : ScanRecord}
    (hr : r ∈ scanRecords vulns configs)
    (hr' : r' ∈ scanRecords vulns configs) (hkey : r'.key = r.key) (hscanner : r'.scanner = r.scanner) :
    r'.severity.rank ≤ r.severity.rank ∧ ∀ v ∈ r'.fixedVersions, v ∈ r.fixedVersions := by
  obtain ⟨vs, cs, rest, hvs, hcs, hlast⟩ := exists_order_last hr
  have hlossless := h vs cs hvs hcs
  obtain ⟨nf, hnf, hnfkey⟩ := List.mem_map.mp ((hlossless.keys r.key).mpr (List.mem_map_of_mem hr))
  have hfaithful := hlossless.faithful nf hnf
  obtain ⟨htells, -⟩ := normalize_tells hnf
  rw [hnfkey] at hfaithful htells
  rw [hlast] at htells
  have hmem {x : ScanRecord} (hx : x ∈ scanRecords vulns configs) (hk : x.key = r.key) :
      x ∈ ofKey r.key (scanRecords vulns configs) := List.mem_filter.mpr ⟨hx, by simpa using hk⟩
  constructor
  · obtain ⟨severity, hget, -, hall⟩ := hfaithful.severities r.scanner ⟨r, hmem hr rfl, rfl⟩
    rw [htells.severities, lastOf_concat, Option.map_some, Option.some.injEq] at hget
    rw [hget]
    exact hall r' (List.mem_filter.mpr ⟨hmem hr' hkey, by simpa using hscanner⟩)
  · intro v hv
    have hfound := (hfaithful.versions r.scanner v).mpr ⟨r', hmem hr' hkey, hscanner, hv⟩
    rwa [htells.versions, lastOf_concat] at hfound

/-- When the records of each scanner agree, its last record says it all. -/
theorem Tells.faithful (h : Tells nf records) (hseverity : SeverityOf nf records)
    (hagree : ∀ r ∈ records, ∀ r' ∈ records, r.scanner = r'.scanner →
      r.severity = r'.severity ∧ ∀ v, v ∈ r.fixedVersions ↔ v ∈ r'.fixedVersions) : Faithful nf records := by
  have hversions (s : Scanner) (v : String) :
      v ∈ (Dict.get? nf.fixVersionsByScanner s).getD [] ↔ ∃ r ∈ records, r.scanner = s ∧ v ∈ r.fixedVersions := by
    rw [h.versions]
    constructor
    · intro hv
      cases hlast : lastOf s records with
      | none => simp [hlast] at hv
      | some r =>
        rw [hlast] at hv
        exact ⟨r, (lastOf_mem hlast).1, (lastOf_mem hlast).2, hv⟩
    · rintro ⟨r', hr', hs, hv⟩
      obtain ⟨r, hlast⟩ := exists_lastOf ⟨r', hr', hs⟩
      rw [hlast]
      exact ((hagree r (lastOf_mem hlast).1 r' hr' ((lastOf_mem hlast).2.trans hs.symm)).2 v).mpr hv
  refine ⟨h.reported, ?_, ?_, hversions, ?_⟩
  · rcases hseverity with hgreatest | ⟨⟨r, hr, hrs⟩, htrivy⟩
    · exact hgreatest
    · refine ⟨⟨r, hr, hrs⟩, fun r' hr' => ?_⟩
      rw [(hagree r' hr' r hr ((htrivy r' hr').trans (htrivy r hr).symm)).1, hrs]
  · intro s hs
    obtain ⟨r, hlast⟩ := exists_lastOf hs
    obtain ⟨hr, hrs⟩ := lastOf_mem hlast
    refine ⟨r.severity, by rw [h.severities, hlast]; rfl, ⟨r, List.mem_filter.mpr ⟨hr, by simpa using hrs⟩, rfl⟩, ?_⟩
    intro r' hr'
    obtain ⟨hr', hrs'⟩ := List.mem_filter.mp hr'
    rw [(hagree r' hr' r hr ((of_decide_eq_true hrs').trans hrs.symm)).1]
  · have hall : nf.hasFix = true ↔ ∃ s v, v ∈ (Dict.get? nf.fixVersionsByScanner s).getD [] := by
      unfold NormalizedFinding.hasFix NormalizedFinding.allFixVersions
      rw [decide_eq_true_eq, List.ne_nil_iff_exists_cons]
      constructor
      · rintro ⟨v, l, hl⟩
        have hv : v ∈ (nf.fixVersionsByScanner.flatMap Prod.snd).eraseDups := hl ▸ List.mem_cons_self
        obtain ⟨⟨s, vs⟩, hkv, hv⟩ := List.mem_flatMap.mp (List.mem_eraseDups.mp hv)
        exact ⟨s, v, by rw [Dict.get?_of_mem h.nodup hkv]; exact hv⟩
      · rintro ⟨s, v, hv⟩
        cases hget : Dict.get? nf.fixVersionsByScanner s with
        | none => simp [hget] at hv
        | some vs =>
          rw [hget] at hv
          have hmem : v ∈ (nf.fixVersionsByScanner.flatMap Prod.snd).eraseDups :=
            List.mem_eraseDups.mpr (List.mem_flatMap.mpr ⟨(s, vs), Dict.mem_of_get? hget, hv⟩)
          exact List.ne_nil_iff_exists_cons.mp (List.ne_nil_of_mem hmem)
    rw [hall]
    constructor
    · rintro ⟨s, v, hv⟩
      obtain ⟨r, hr, -, hv⟩ := (hversions s v).mp hv
      exact ⟨r, hr, List.ne_nil_of_mem hv⟩
    · rintro ⟨r, hr, hne⟩
      obtain ⟨v, hv⟩ := List.exists_mem_of_ne_nil _ hne
      exact ⟨r.scanner, v, (hversions r.scanner v).mpr ⟨r, hr, rfl, hv⟩⟩

theorem Faithful.perm (h : Faithful nf records) (hperm : records.Perm records') : Faithful nf records' := by
  have hmem {r : ScanRecord} : r ∈ records' ↔ r ∈ records := hperm.symm.mem_iff
  refine ⟨?_, ?_, ?_, ?_, ?_⟩
  · simpa only [hmem] using h.reported
  · simpa only [Greatest, hmem] using h.severity
  · simpa only [Greatest, List.mem_filter, hmem] using h.severities
  · simpa only [hmem] using h.versions
  · simpa only [hmem] using h.hasFix

end Order

/-- **Normalization is lossless in every order of the records exactly when** the records that one scanner has of one key
agree. -/
theorem lossless_iff (vulns : List RawVuln) (configs : List RawConfigFinding) :
    OrderIndependent vulns configs ↔ RecordsAgree (scanRecords vulns configs) := by
  constructor
  · intro h r hr r' hr' hkey hscanner
    obtain ⟨hle, hsub⟩ := h.last hr' hr hkey hscanner
    obtain ⟨hle', hsub'⟩ := h.last hr hr' hkey.symm hscanner.symm
    exact ⟨rank_injective (Nat.le_antisymm hle hle'), fun v => ⟨hsub v, hsub' v⟩⟩
  · intro hagree vs cs hvs hcs
    have hperm : (scanRecords vs cs).Perm (scanRecords vulns configs) := (hvs.map _).append (hcs.map _)
    refine ⟨nodup_normalize vs cs, fun k => ?_, fun nf hnf => ?_⟩
    · rw [keys_normalize]
      exact (hperm.map _).mem_iff
    · obtain ⟨htells, hseverity⟩ := normalize_tells hnf
      refine (htells.faithful hseverity fun r hr r' hr' hscanner => ?_).perm (hperm.filter _)
      obtain ⟨hr, hk⟩ := List.mem_filter.mp hr
      obtain ⟨hr', hk'⟩ := List.mem_filter.mp hr'
      have hkey : r.key = r'.key := (of_decide_eq_true hk).trans (of_decide_eq_true hk').symm
      exact hagree r (hperm.mem_iff.mp hr) r' (hperm.mem_iff.mp hr') hkey hscanner

/-- Grype finds a package in two places: fixed in version 2 according to the first match, not fixed according to the
second. -/
def twoPlaces : List RawVuln :=
  [{ scanner := .grype, primaryId := "CVE-1", pkgName := "openssl", pkgVersion := "1", ecosystem := .deb,
     severity := .high
     fixedVersions := ["2"], fixState := "fixed" },
   { scanner := .grype, primaryId := "CVE-1", pkgName := "openssl", pkgVersion := "1", ecosystem := .deb,
     severity := .low
     fixState := "wont-fix" }]

/-- The second match overwrites the first one: the fix is lost in one order of the matches and not in the other. -/
theorem fix_lost : ¬ OrderIndependent twoPlaces [] ∧ (normalize twoPlaces []).map NormalizedFinding.hasFix = [false] ∧
    (normalize twoPlaces.reverse []).map NormalizedFinding.hasFix = [true] := by
  have hlost : (normalize twoPlaces []).map NormalizedFinding.hasFix = [false] := by decide +kernel
  refine ⟨fun h => ?_, hlost, by decide +kernel⟩
  have hlossless := h twoPlaces [] (.refl _) (.refl _)
  obtain ⟨nf, hnf, hkey⟩ := List.mem_map.mp ((hlossless.keys "vuln|CVE-1|deb|openssl|1|os").mpr (by decide +kernel))
  have hfix := (hlossless.faithful nf hnf).hasFix.mpr
  rw [hkey] at hfix
  have hno : nf.hasFix = false := by
    have hmem := List.mem_map_of_mem (f := NormalizedFinding.hasFix) hnf
    rw [hlost] at hmem
    exact List.mem_singleton.mp hmem
  rw [hno] at hfix
  exact Bool.false_ne_true (hfix (by decide +kernel))

end HardeningLoop
