import HardeningLoop.Domain.Text
import HardeningLoop.Lib.Fallible
import HardeningLoop.Lib.Machine
import HardeningLoop.Lib.Reconcile
import Mathlib.Algebra.Order.BigOperators.Group.List

/-!
# The assets at Devin

The controller owns one playbook per kind of work item and some knowledge notes. Their committed files are the source of
truth: `loadAssets` reads them, and `AssetSyncer.sync` reconciles Devin with them.

- `loadAssets_slugs`: the slugs of an accepted bundle differ;
- `syncPlan`: the writes of a sync, and its report;
- `converges_iff`: the syncs of a run converge without duplicates exactly when no two files of a kind `Clash` over an
  asset when a sync starts.
-/

namespace HardeningLoop

/-! ## Files -/

inductive AssetKind where
  | playbook | knowledge
  deriving DecidableEq, Repr

/-- Body of `POST`/`PUT .../playbooks`; a schema by its canonical text. -/
structure PlaybookUpsert where
  title : String
  body : String
  macro_ : Option String := none
  structuredOutputSchema : Option String := none
  deriving DecidableEq, Repr

/-- Body of `POST`/`PUT .../knowledge/notes`. -/
structure NoteUpsert where
  name : String
  body : String
  trigger : String
  pinnedRepo : Option String := none
  isEnabled : Bool := true
  deriving DecidableEq, Repr

structure PlaybookSpec where
  slug : String
  kind : Kind
  upsert : PlaybookUpsert
  path : String
  deriving DecidableEq, Repr

structure KnowledgeSpec where
  slug : String
  upsert : NoteUpsert
  path : String
  deriving DecidableEq, Repr

structure AssetBundle where
  playbooks : List PlaybookSpec
  knowledge : List KnowledgeSpec
  deriving DecidableEq, Repr

/-- A Markdown file: its name without the suffix, its path and its text. -/
structure AssetFile where
  stem : String
  path : String
  text : String
  deriving DecidableEq, Repr

/-- The committed files, each directory sorted by name. -/
structure AssetTree where
  playbooksDir : String
  playbooks : List AssetFile
  knowledgeDir : String
  knowledge : List AssetFile
  /-- Files of one directory have different names. -/
  distinct : (knowledge.map AssetFile.stem).Nodup

/-- The structured output schemas: each in its canonical text, and its length in bytes as it is sent. -/
structure Schemas where
  schemaFor : Kind → String
  bytes : Kind → Nat

/-- `SCHEMA_MAX_BYTES`. -/
def schemaMaxBytes : Nat := 64 * 1024

/-- The name of a kind. -/
def Kind.name : Kind → String
  | .dependencyUpgrade => "dependency_upgrade"
  | .noFixReachability => "no_fix_reachability"
  | .containerHardening => "container_hardening"
  | .scannerDisagreement => "scanner_disagreement"
  | .helmDeployConfig => "helm_deploy_config"

/-- `Kind`, in the order of its definition. -/
def allKinds : List Kind :=
  [.dependencyUpgrade, .noFixReachability, .containerHardening, .scannerDisagreement, .helmDeployConfig]

/-- A line of a front matter block, into the dictionary read so far. -/
def metaLine (ext : External) (file : AssetFile) (fields : List (String × String)) (line : String) :
    Except String (List (String × String)) :=
  if !notBlank ext line then .ok fields
  else match splitOnce ":" line with
    | none => .error (file.path ++ ": bad front matter line " ++ reprText line)
    | some (key, value) => .ok (Dict.set fields (strip ext key) (strip ext value))

/-- `text.strip("\n")`. -/
def stripNewlines (cs : List Char) : String :=
  String.ofList ((cs.dropWhile (· == '\n')).reverse.dropWhile (· == '\n')).reverse

/-- `_front_matter`: the fields of the block, and the body. -/
def frontMatter (ext : External) (file : AssetFile) : Except String (List (String × String) × String) := do
  match (dropLiteral "---\n" file.text.toList).bind (splitAtFirst "\n---\n".toList) with
  | none => .error (file.path ++ ": missing front matter block")
  | some (block, rest) =>
    let fields ← (splitLines (String.ofList block)).foldlM (metaLine ext file) []
    let body := stripNewlines rest
    if !notBlank ext body then .error (file.path ++ ": empty body")
    else .ok (fields, body ++ "\n")

/-- A field that the front matter of a file has to have. -/
def needed (file : AssetFile) (fields : List (String × String)) (key : String) : Except String String :=
  match Dict.get? fields key with
  | some value => .ok value
  | none => .error (file.path ++ ": front matter needs `" ++ key ++ "`")

/-- `_MACRO_RE` matches. -/
def isMacro (text : String) : Bool :=
  match text.toList with
  | '!' :: cs => cs ≠ [] && cs.all fun c => c.isAlphanum || c == '_' || c == '-'
  | _ => false

/-- The next file of the playbooks' directory. -/
def loadPlaybook (ext : External) (schemas : Schemas) (playbooks : List PlaybookSpec) (file : AssetFile) :
    Except String (List PlaybookSpec) := do
  let (fields, body) ← frontMatter ext file
  let kindName ← needed file fields "kind"
  let title ← needed file fields "title"
  let macroName ← needed file fields "macro"
  match allKinds.find? fun k => k.name == kindName with
  | none => .error (file.path ++ ": unknown kind " ++ reprText kindName)
  | some kind =>
    match playbooks.find? fun p => p.kind == kind with
    | some p => .error (file.path ++ ": kind " ++ kind.name ++ " already defined by " ++ p.path)
    | none =>
      if file.stem ≠ kind.playbookSlug then .error (file.path ++ ": file must be named " ++ kind.playbookSlug ++ ".md")
      else if !isMacro macroName then
        .error (file.path ++ ": macro must match ^![A-Za-z0-9_-]+$, got " ++ reprText macroName)
      else if schemas.bytes kind > schemaMaxBytes then
        .error (file.path ++ ": structured output schema exceeds " ++ toString schemaMaxBytes ++ " bytes")
      else .ok (playbooks ++ [{ slug := kind.playbookSlug, kind := kind, path := file.path
                                upsert := { title := title, body := body, macro_ := some macroName
                                            structuredOutputSchema := some (schemas.schemaFor kind) } }])

/-- A file of the knowledge directory. -/
def loadKnowledge (ext : External) (file : AssetFile) : Except String KnowledgeSpec := do
  let (fields, body) ← frontMatter ext file
  let name ← needed file fields "name"
  let trigger ← needed file fields "trigger"
  .ok { slug := file.stem, path := file.path
        upsert := { name := name, body := body, trigger := trigger
                    pinnedRepo := (Dict.get? fields "pinned_repo").filter (· ≠ "") } }

/-- `load_assets`. -/
def loadAssets (ext : External) (schemas : Schemas) (tree : AssetTree) : Except String AssetBundle := do
  let playbooks ← tree.playbooks.foldlM (loadPlaybook ext schemas) []
  let missing := allKinds.filter fun k => playbooks.all fun p => p.kind != k
  if missing ≠ [] then .error (tree.playbooksDir ++ ": no playbook for kinds " ++ reprList (missing.map Kind.name))
  else
    let macros := playbooks.map fun p => p.upsert.macro_.getD ""
    if ¬ macros.Nodup then .error (tree.playbooksDir ++ ": duplicate macros " ++ reprList (sortTexts macros))
    else
      let knowledge ← tree.knowledge.mapM (loadKnowledge ext)
      if knowledge = [] then .error (tree.knowledgeDir ++ ": at least one knowledge note is required")
      else
        let names := knowledge.map fun k => k.upsert.name
        if ¬ names.Nodup then .error (tree.knowledgeDir ++ ": duplicate note names " ++ reprList (sortTexts names))
        else .ok { playbooks := playbooks, knowledge := knowledge }

section Loading

variable {ext : External} {schemas : Schemas} {tree : AssetTree} {file : AssetFile} {specs specs' : List PlaybookSpec}

/-- The playbooks read so far: their kinds differ, and a slug is that of its kind. -/
def SluggedByKind (specs : List PlaybookSpec) : Prop :=
  (specs.map PlaybookSpec.kind).Nodup ∧ ∀ p ∈ specs, p.slug = p.kind.playbookSlug

theorem loadPlaybook_slugged (h : SluggedByKind specs) (hl : loadPlaybook ext schemas specs file = .ok specs') :
    SluggedByKind specs' := by
  unfold loadPlaybook at hl
  obtain ⟨fields, -, hl⟩ := Fallible.bind_eq_ok.mp hl
  obtain ⟨kindName, -, hl⟩ := Fallible.bind_eq_ok.mp hl
  obtain ⟨title, -, hl⟩ := Fallible.bind_eq_ok.mp hl
  obtain ⟨macroName, -, hl⟩ := Fallible.bind_eq_ok.mp hl
  split at hl
  · cases hl
  · rename_i kind _
    split at hl
    · cases hl
    · rename_i hnew
      obtain ⟨-, hl⟩ := Fallible.guard_eq_ok.mp hl
      obtain ⟨-, hl⟩ := Fallible.guard_eq_ok.mp hl
      obtain ⟨-, hl⟩ := Fallible.guard_eq_ok.mp hl
      cases hl
      have hfree : ∀ p ∈ specs, p.kind ≠ kind := by
        intro p hp heq
        exact List.find?_eq_none.mp hnew p hp (beq_iff_eq.mpr heq)
      constructor
      · rw [List.map_append, List.map_cons, List.map_nil]
        refine h.1.append (List.nodup_singleton _) fun k hk hk' => ?_
        obtain ⟨p, hp, rfl⟩ := List.mem_map.mp hk
        exact hfree p hp (List.mem_singleton.mp hk')
      · intro p hp
        rcases List.mem_append.mp hp with hp | hp
        · exact h.2 p hp
        · rw [List.mem_singleton.mp hp]

theorem playbookSlug_injective : Function.Injective Kind.playbookSlug := by
  intro k k' h
  cases k <;> cases k' <;> first | rfl | (revert h; decide)

/-- The slug of a note is the name of its file. -/
theorem loadKnowledge_slug {spec : KnowledgeSpec} (h : loadKnowledge ext file = .ok spec) : spec.slug = file.stem := by
  unfold loadKnowledge at h
  obtain ⟨fields, -, h⟩ := Fallible.bind_eq_ok.mp h
  obtain ⟨name, -, h⟩ := Fallible.bind_eq_ok.mp h
  obtain ⟨trigger, -, h⟩ := Fallible.bind_eq_ok.mp h
  cases h
  rfl

/-- **The slugs of an accepted bundle** differ within a kind of assets. -/
theorem loadAssets_slugs {bundle : AssetBundle} (h : loadAssets ext schemas tree = .ok bundle) :
    (bundle.playbooks.map PlaybookSpec.slug).Nodup ∧ (bundle.knowledge.map KnowledgeSpec.slug).Nodup := by
  unfold loadAssets at h
  obtain ⟨playbooks, hplaybooks, h⟩ := Fallible.bind_eq_ok.mp h
  obtain ⟨-, h⟩ := Fallible.guard_eq_ok.mp h
  obtain ⟨-, h⟩ := Fallible.guard_eq_ok.mp h
  obtain ⟨knowledge, hknowledge, h⟩ := Fallible.bind_eq_ok.mp h
  obtain ⟨-, h⟩ := Fallible.guard_eq_ok.mp h
  obtain ⟨-, h⟩ := Fallible.guard_eq_ok.mp h
  cases h
  constructor
  · have hnone : SluggedByKind [] := ⟨List.nodup_nil, fun p hp => absurd hp List.not_mem_nil⟩
    have hslugged : SluggedByKind playbooks :=
      Fallible.foldlM_invariant SluggedByKind (fun _ _ _ => loadPlaybook_slugged) hnone hplaybooks
    have hmap : playbooks.map PlaybookSpec.slug = (playbooks.map PlaybookSpec.kind).map Kind.playbookSlug := by
      rw [List.map_map]
      exact List.map_congr_left hslugged.2
    rw [hmap]
    exact hslugged.1.map playbookSlug_injective
  · have hstems : knowledge.map KnowledgeSpec.slug = tree.knowledge.map AssetFile.stem :=
      Fallible.mapM_map_eq (fun _ _ => loadKnowledge_slug) hknowledge
    rw [hstems]
    exact tree.distinct

end Loading

/-! ## Devin and the rows -/

open Reconcile (Verb Scheme Office Write Done)

/-- `value or None` of a text. -/
def orNone (value : Option String) : Option String := value.filter (· ≠ "")

/-- `value or None` of a schema; the empty dictionary is false. -/
def orNoSchema (value : Option String) : Option String := value.filter (· ≠ "{}")

structure PlaybookRecord where
  playbookId : String
  title : String
  body : String
  macro_ : Option String := none
  structuredOutputSchema : Option String := none
  deriving DecidableEq, Repr

/-- `PlaybookRecord.matches`. -/
def PlaybookRecord.agrees (rec : PlaybookRecord) (want : PlaybookUpsert) : Bool :=
  rec.title == want.title && rec.body == want.body && orNone rec.macro_ == orNone want.macro_ &&
    orNoSchema rec.structuredOutputSchema == orNoSchema want.structuredOutputSchema

structure NoteRecord where
  noteId : String
  name : String
  body : String
  trigger : String
  pinnedRepo : Option String := none
  isEnabled : Bool := true
  deriving DecidableEq, Repr

/-- `NoteRecord.matches`. -/
def NoteRecord.agrees (rec : NoteRecord) (want : NoteUpsert) : Bool :=
  rec.name == want.name && rec.body == want.body && rec.trigger == want.trigger &&
    orNone rec.pinnedRepo == orNone want.pinnedRepo && rec.isEnabled == want.isEnabled

/-- Devin keeps what it is sent, under its id. -/
def PlaybookUpsert.stored (id : String) (spec : PlaybookUpsert) : PlaybookRecord :=
  ⟨id, spec.title, spec.body, spec.macro_, spec.structuredOutputSchema⟩

def NoteUpsert.stored (id : String) (spec : NoteUpsert) : NoteRecord :=
  ⟨id, spec.name, spec.body, spec.trigger, spec.pinnedRepo, spec.isEnabled⟩

/-- A row of `devin_assets`, under its kind and its slug. -/
structure DevinAsset where
  remoteId : String
  title : String
  lastAction : String
  deriving DecidableEq, Repr

abbrev AssetKey := AssetKind × String

def verbText : Verb → String
  | .created => "created"
  | .updated => "updated"
  | .unchanged => "unchanged"

/-- `_persist`: the row after an action. -/
def persist (row : Option DevinAsset) (title : String) (action : Verb) (remoteId : String) : DevinAsset :=
  let adopted := action = .unchanged && row.all fun row => row.remoteId ≠ remoteId
  { remoteId := remoteId, title := title, lastAction := if adopted then "adopted" else verbText action }

/-- `_locate_playbook`, `_reconcile_playbook`: a playbook is found by its recorded id, or else by its title. -/
def playbookScheme : Scheme PlaybookSpec AssetKey DevinAsset String PlaybookRecord String where
  slug spec := (.playbook, spec.slug)
  label spec := spec.upsert.title
  labelOf := PlaybookRecord.title
  agrees rec spec := rec.agrees spec.upsert
  content id spec := spec.upsert.stored id
  idOf := DevinAsset.remoteId
  row row spec action id := persist row spec.upsert.title action id
  agrees_content id spec := by simp [PlaybookRecord.agrees, PlaybookUpsert.stored]
  idOf_row _ _ _ _ := rfl

/-- `_locate_note`, `_reconcile_note`: a note is found by its recorded id, or else by its name. -/
def noteScheme : Scheme KnowledgeSpec AssetKey DevinAsset String NoteRecord String where
  slug spec := (.knowledge, spec.slug)
  label spec := spec.upsert.name
  labelOf := NoteRecord.name
  agrees rec spec := rec.agrees spec.upsert
  content id spec := spec.upsert.stored id
  idOf := DevinAsset.remoteId
  row row spec action id := persist row spec.upsert.name action id
  agrees_content id spec := by simp [NoteRecord.agrees, NoteUpsert.stored]
  idOf_row _ _ _ _ := rfl

abbrev PlaybookOffice := Office AssetKey DevinAsset String PlaybookRecord

abbrev NoteOffice := Office AssetKey DevinAsset String NoteRecord

/-- The assets at Devin, by id, and the rows. -/
structure AssetOffice where
  playbooks : List (String × PlaybookRecord)
  notes : List (String × NoteRecord)
  rows : List (AssetKey × DevinAsset)
  distinctPlaybooks : (playbooks.map Prod.fst).Nodup
  distinctNotes : (notes.map Prod.fst).Nodup

/-- A write of a sync. -/
inductive AssetWrite where
  | playbook (w : Write AssetKey DevinAsset String PlaybookRecord)
  | note (w : Write AssetKey DevinAsset String NoteRecord)

def AssetWrite.isRemote : AssetWrite → Bool
  | .playbook w => w.isRemote
  | .note w => w.isRemote

namespace AssetOffice

def playbookOffice (o : AssetOffice) : PlaybookOffice := ⟨o.playbooks, o.rows, o.distinctPlaybooks⟩

def noteOffice (o : AssetOffice) : NoteOffice := ⟨o.notes, o.rows, o.distinctNotes⟩

def withPlaybooks (o : AssetOffice) (p : PlaybookOffice) : AssetOffice :=
  ⟨p.remote, o.notes, p.rows, p.distinct, o.distinctNotes⟩

def withNotes (o : AssetOffice) (n : NoteOffice) : AssetOffice :=
  ⟨o.playbooks, n.remote, n.rows, o.distinctPlaybooks, n.distinct⟩

def apply (o : AssetOffice) : AssetWrite → AssetOffice
  | .playbook w => o.withPlaybooks (o.playbookOffice.apply w)
  | .note w => o.withNotes (o.noteOffice.apply w)

def applyAll (o : AssetOffice) (ws : List AssetWrite) : AssetOffice := ws.foldl apply o

end AssetOffice

/-! ## A sync -/

/-- The ids that Devin gives new assets: of a kind, none that it has. -/
structure NewIds where
  playbook : List String → String
  note : List String → String
  newPlaybook : ∀ ids, playbook ids ∉ ids
  newNote : ∀ ids, note ids ∉ ids

/-- `AssetAction`. -/
structure AssetAction where
  assetKind : AssetKind
  slug : String
  action : Verb
  remoteId : String
  deriving DecidableEq, Repr

def playbookAction (d : Done PlaybookSpec String) : AssetAction := ⟨.playbook, d.spec.slug, d.verb, d.id⟩

def noteAction (d : Done KnowledgeSpec String) : AssetAction := ⟨.knowledge, d.spec.slug, d.verb, d.id⟩

/-- `AssetError` for several assets of one label. -/
def extrasError (count : Nat) (what label : String) : String :=
  toString count ++ " " ++ what ++ " " ++ reprText label ++ " exist at Devin; delete the extras by hand before syncing"

/-- `AssetSyncer.sync`: its writes, in order, and its report. Devin is listed and the rows are read once, at the
start. -/
def syncPlan (ids : NewIds) (bundle : AssetBundle) (o : AssetOffice) :
    List AssetWrite × Except String (List AssetAction) :=
  let (ws, playbooks) :=
    Reconcile.plan playbookScheme ids.playbook o.playbookOffice (o.playbooks.map Prod.fst) bundle.playbooks
  match playbooks with
  | .error (spec, extras) =>
    (ws.map .playbook, .error (extrasError extras.length "playbooks titled" spec.upsert.title))
  | .ok playbooks =>
    let (ws', notes) := Reconcile.plan noteScheme ids.note o.noteOffice (o.notes.map Prod.fst) bundle.knowledge
    match notes with
    | .error (spec, extras) =>
      (ws.map .playbook ++ ws'.map .note, .error (extrasError extras.length "notes named" spec.upsert.name))
    | .ok notes => (ws.map .playbook ++ ws'.map .note, .ok (playbooks.map playbookAction ++ notes.map noteAction))

/-- The ids of the assets of a kind in a report. -/
def reportIds (kind : AssetKind) (report : List AssetAction) : List String :=
  (report.filter fun a => a.assetKind == kind).map AssetAction.remoteId

/-- An asset of the specification is there: under its recorded id, or with its label. -/
def HasAsset {σ ρ : Type} (sch : Scheme σ AssetKey DevinAsset String ρ String)
    (o : Office AssetKey DevinAsset String ρ) (spec : σ) : Prop :=
  (Reconcile.recorded sch o spec).isSome ∨ Reconcile.labelled sch o spec ≠ []

/-- **A sync that converges without duplicates**: specifications of a kind have different assets, nothing was created
for one that had an asset, and the same sync after it completes without a remote write. -/
structure Converges (bundle : AssetBundle) (o o' : AssetOffice) (report : List AssetAction) : Prop where
  playbooks : (reportIds .playbook report).Nodup
  notes : (reportIds .knowledge report).Nodup
  newPlaybooks : ∀ spec ∈ bundle.playbooks, ∀ id, ⟨.playbook, spec.slug, .created, id⟩ ∈ report →
    ¬ HasAsset playbookScheme o.playbookOffice spec
  newNotes : ∀ spec ∈ bundle.knowledge, ∀ id, ⟨.knowledge, spec.slug, .created, id⟩ ∈ report →
    ¬ HasAsset noteScheme o.noteOffice spec
  again : ∀ ids, (∃ report', (syncPlan ids bundle o').2 = .ok report') ∧ ∀ w ∈ (syncPlan ids bundle o').1,
    w.isRemote = false

/-- No two specifications of a kind come to the same asset. -/
def NoClash (bundle : AssetBundle) (o : AssetOffice) : Prop :=
  bundle.playbooks.Pairwise (fun s s' => ¬ Reconcile.Clash playbookScheme o.playbookOffice s s') ∧
    bundle.knowledge.Pairwise (fun s s' => ¬ Reconcile.Clash noteScheme o.noteOffice s s')

section Syncs

variable {bundle : AssetBundle} {ids : NewIds} {o : AssetOffice} {report : List AssetAction}

theorem AssetOffice.applyAll_append (o : AssetOffice) (ws ws' : List AssetWrite) :
    o.applyAll (ws ++ ws') = (o.applyAll ws).applyAll ws' := List.foldl_append

theorem applyAll_playbooks (ws : List (Write AssetKey DevinAsset String PlaybookRecord)) (o : AssetOffice) :
    o.applyAll (ws.map .playbook) = o.withPlaybooks (o.playbookOffice.applyAll ws) := by
  induction ws generalizing o with
  | nil => rfl
  | cons w ws ih => exact ih (o.apply (.playbook w))

theorem applyAll_notes (ws : List (Write AssetKey DevinAsset String NoteRecord)) (o : AssetOffice) :
    o.applyAll (ws.map .note) = o.withNotes (o.noteOffice.applyAll ws) := by
  induction ws generalizing o with
  | nil => rfl
  | cons w ws ih => exact ih (o.apply (.note w))

/-- A sync that completes is a pass over the playbooks and one over the notes. -/
theorem syncPlan_ok (h : (syncPlan ids bundle o).2 = .ok report) : ∃ playbooks notes,
    (Reconcile.plan playbookScheme ids.playbook o.playbookOffice (o.playbooks.map Prod.fst) bundle.playbooks).2 =
      .ok playbooks ∧
    (Reconcile.plan noteScheme ids.note o.noteOffice (o.notes.map Prod.fst) bundle.knowledge).2 = .ok notes ∧
    report = playbooks.map playbookAction ++ notes.map noteAction ∧
    (syncPlan ids bundle o).1 =
      (Reconcile.plan playbookScheme ids.playbook o.playbookOffice (o.playbooks.map Prod.fst) bundle.playbooks).1.map
        .playbook ++
      (Reconcile.plan noteScheme ids.note o.noteOffice (o.notes.map Prod.fst) bundle.knowledge).1.map .note := by
  unfold syncPlan at h ⊢
  dsimp only at h ⊢
  cases hp :
    (Reconcile.plan playbookScheme ids.playbook o.playbookOffice (o.playbooks.map Prod.fst) bundle.playbooks).2 with
  | error e =>
    rw [hp] at h
    cases h
  | ok playbooks =>
    rw [hp] at h
    dsimp only at h ⊢
    cases hn : (Reconcile.plan noteScheme ids.note o.noteOffice (o.notes.map Prod.fst) bundle.knowledge).2 with
    | error e =>
      rw [hn] at h
      cases h
    | ok notes =>
      rw [hn] at h
      cases h
      exact ⟨playbooks, notes, rfl, rfl, rfl, rfl⟩

/-- The actions of one kind of assets. -/
theorem filter_actions {δ : Type} {f : δ → AssetAction} {own : AssetKind} (hf : ∀ d, (f d).assetKind = own)
    (kind : AssetKind) (ds : List δ) :
    (ds.map f).filter (fun a => a.assetKind == kind) = if kind = own then ds.map f else [] := by
  split
  · rename_i hk
    refine List.filter_eq_self.mpr fun a ha => ?_
    obtain ⟨d, -, rfl⟩ := List.mem_map.mp ha
    exact beq_iff_eq.mpr ((hf d).trans hk.symm)
  · rename_i hk
    refine List.filter_eq_nil_iff.mpr fun a ha heq => ?_
    obtain ⟨d, -, rfl⟩ := List.mem_map.mp ha
    exact hk ((beq_iff_eq.mp heq).symm.trans (hf d))

/-- The ids of a report, by kind. -/
theorem reportIds_report (playbooks : List (Done PlaybookSpec String)) (notes : List (Done KnowledgeSpec String)) :
    reportIds .playbook (playbooks.map playbookAction ++ notes.map noteAction) = playbooks.map Done.id ∧
      reportIds .knowledge (playbooks.map playbookAction ++ notes.map noteAction) = notes.map Done.id := by
  have hplaybooks := @filter_actions _ playbookAction .playbook fun _ => rfl
  have hnotes := @filter_actions _ noteAction .knowledge fun _ => rfl
  unfold reportIds
  constructor
  · rw [List.filter_append, hplaybooks, hnotes, if_pos rfl, if_neg (by decide), List.append_nil, List.map_map]
    rfl
  · rw [List.filter_append, hplaybooks, hnotes, if_neg (by decide), if_pos rfl, List.nil_append, List.map_map]
    rfl

/-- **Nothing is created in vain**: what a pass creates is for a specification without an asset. -/
theorem created_new {σ ρ : Type} {sch : Scheme σ AssetKey DevinAsset String ρ String}
    {o : Office AssetKey DevinAsset String ρ} {fresh : List String → String} {known : List String} {specs : List σ}
    {ds : List (Done σ String)} (hfresh : ∀ l, fresh l ∉ l) (hslugs : (specs.map sch.slug).Nodup)
    (h : (Reconcile.plan sch fresh o known specs).2 = .ok ds) {spec : σ} (hspec : spec ∈ specs)
    {d : Done σ String} (hd : d ∈ ds)
    (hslug : sch.slug d.spec = sch.slug spec) (hverb : d.verb = .created) : ¬ HasAsset sch o spec := by
  obtain ⟨hspecs, hplaced⟩ := Reconcile.plan_placed hfresh h
  have hmem : d.spec ∈ specs := hspecs ▸ List.mem_map_of_mem hd
  rw [← List.inj_on_of_nodup_map hslugs hmem hspec hslug]
  unfold HasAsset
  cases hplaced d hd with
  | recorded _ hv => exact absurd hverb hv
  | labelled _ _ _ _ hv => exact absurd hverb hv
  | created hrow hnone _ =>
    rw [hrow, hnone]
    simp

/-- The keys of the rows differ where the slugs do. -/
theorem scheme_slugs
    (h : (bundle.playbooks.map PlaybookSpec.slug).Nodup ∧ (bundle.knowledge.map KnowledgeSpec.slug).Nodup) :
    (bundle.playbooks.map playbookScheme.slug).Nodup ∧ (bundle.knowledge.map noteScheme.slug).Nodup := by
  have hkeys (kind : AssetKind) {slugs : List String} (hs : slugs.Nodup) : (slugs.map (kind, ·)).Nodup :=
    hs.map fun a b hab => (Prod.mk.inj hab).2
  constructor
  · have hplaybooks := hkeys .playbook h.1
    rwa [List.map_map] at hplaybooks
  · have hnotes := hkeys .knowledge h.2
    rwa [List.map_map] at hnotes

/-- What a completed sync leaves behind, where it gives the specifications different assets. -/
theorem sync_settled
    (hslugs : (bundle.playbooks.map PlaybookSpec.slug).Nodup ∧ (bundle.knowledge.map KnowledgeSpec.slug).Nodup)
    (h : (syncPlan ids bundle o).2 = .ok report) (hplaybooks : (reportIds .playbook report).Nodup)
    (hnotes : (reportIds .knowledge report).Nodup) :
    let o' := o.applyAll (syncPlan ids bundle o).1
    (∀ spec ∈ bundle.playbooks, Reconcile.Settled playbookScheme o'.playbookOffice spec) ∧
      ∀ spec ∈ bundle.knowledge, Reconcile.Settled noteScheme o'.noteOffice spec := by
  obtain ⟨ps, ns, hp, hn, rfl, hws⟩ := syncPlan_ok h
  rw [(reportIds_report ps ns).1] at hplaybooks
  rw [(reportIds_report ps ns).2] at hnotes
  obtain ⟨hpslugs, hnslugs⟩ := scheme_slugs hslugs
  obtain ⟨hpspecs, -⟩ := Reconcile.plan_placed ids.newPlaybook hp
  obtain ⟨hnspecs, -⟩ := Reconcile.plan_placed ids.newNote hn
  obtain ⟨-, -, hpsettled⟩ := Office.performed hpslugs hp hpspecs hplaybooks fun _ _ => rfl
  intro o'
  set o₁ := o.withPlaybooks (o.playbookOffice.applyAll (Reconcile.plan playbookScheme ids.playbook o.playbookOffice
    (o.playbooks.map Prod.fst) bundle.playbooks).1) with ho₁
  have ho' : o' = o₁.withNotes (o₁.noteOffice.applyAll (Reconcile.plan noteScheme ids.note o.noteOffice
      (o.notes.map Prod.fst) bundle.knowledge).1) := by
    show o.applyAll (syncPlan ids bundle o).1 = _
    rw [hws, AssetOffice.applyAll_append, applyAll_playbooks, applyAll_notes]
  obtain ⟨-, hrows, hnsettled⟩ := @Office.performed _ _ _ _ _ _ _ _ _ noteScheme ids.note o.noteOffice o₁.noteOffice
    (o.notes.map Prod.fst) bundle.knowledge ns hnslugs hn hnspecs hnotes fun _ _ => rfl
  rw [ho']
  constructor
  · intro spec hspec
    obtain ⟨d, hd, rfl⟩ := List.mem_map.mp (hpspecs ▸ hspec)
    obtain ⟨t, asset, hrow, hasset, hagrees⟩ := hpsettled d hd
    refine ⟨t, asset, ?_, hasset, hagrees⟩
    -- the notes have rows of their own kind
    refine (hrows (playbookScheme.slug d.spec) fun hmem => ?_).trans hrow
    obtain ⟨k, -, hk⟩ := List.mem_map.mp hmem
    cases congrArg Prod.fst hk
  · intro spec hspec
    obtain ⟨d, hd, rfl⟩ := List.mem_map.mp (hnspecs ▸ hspec)
    exact hnsettled d hd

/-- A sync of settled specifications completes without a remote write. -/
theorem sync_again (hplaybooks : ∀ spec ∈ bundle.playbooks, Reconcile.Settled playbookScheme o.playbookOffice spec)
    (hnotes : ∀ spec ∈ bundle.knowledge, Reconcile.Settled noteScheme o.noteOffice spec) (ids : NewIds) :
    (∃ report, (syncPlan ids bundle o).2 = .ok report) ∧ ∀ w ∈ (syncPlan ids bundle o).1, w.isRemote = false := by
  obtain ⟨⟨ps, hps⟩, hpwrites⟩ := @Reconcile.plan_again _ _ _ _ _ _ _ _ _ playbookScheme ids.playbook o.playbookOffice
    bundle.playbooks hplaybooks (o.playbooks.map Prod.fst)
  obtain ⟨⟨ns, hns⟩, hnwrites⟩ := @Reconcile.plan_again _ _ _ _ _ _ _ _ _ noteScheme ids.note o.noteOffice
    bundle.knowledge hnotes (o.notes.map Prod.fst)
  have hok : (syncPlan ids bundle o).2 = .ok (ps.map playbookAction ++ ns.map noteAction) := by
    unfold syncPlan
    dsimp only
    rw [hps]
    dsimp only
    rw [hns]
  refine ⟨⟨_, hok⟩, fun w hw => ?_⟩
  obtain ⟨-, -, -, -, -, hws⟩ := syncPlan_ok hok
  rw [hws] at hw
  rcases List.mem_append.mp hw with hw | hw
  · obtain ⟨w', hw', rfl⟩ := List.mem_map.mp hw
    exact hpwrites w' hw'
  · obtain ⟨w', hw', rfl⟩ := List.mem_map.mp hw
    exact hnwrites w' hw'

/-- **One sync** converges without duplicates exactly when no two specifications clash where it starts. -/
theorem sync_converges_iff
    (hslugs : (bundle.playbooks.map PlaybookSpec.slug).Nodup ∧ (bundle.knowledge.map KnowledgeSpec.slug).Nodup)
    (h : (syncPlan ids bundle o).2 = .ok report) :
    Converges bundle o (o.applyAll (syncPlan ids bundle o).1) report ↔ NoClash bundle o := by
  have hsettled := sync_settled hslugs h
  obtain ⟨ps, ns, hp, hn, rfl, -⟩ := syncPlan_ok h
  have hpids := Reconcile.nodup_ids_iff ids.newPlaybook (List.Subset.refl _) hp
  have hnids := Reconcile.nodup_ids_iff ids.newNote (List.Subset.refl _) hn
  unfold NoClash
  rw [← hpids, ← hnids, ← (reportIds_report ps ns).1, ← (reportIds_report ps ns).2]
  refine ⟨fun hc => ⟨hc.playbooks, hc.notes⟩, fun hids => ⟨hids.1, hids.2, ?_, ?_, fun ids' => ?_⟩⟩
  · intro spec hspec id hmem
    rcases List.mem_append.mp hmem with hmem | hmem
    · obtain ⟨d, hd, heq⟩ := List.mem_map.mp hmem
      injection heq with _ hslug hverb _
      exact created_new ids.newPlaybook (scheme_slugs hslugs).1 hp hspec hd
        (congrArg (AssetKind.playbook, ·) hslug) hverb
    · obtain ⟨d, -, heq⟩ := List.mem_map.mp hmem
      cases congrArg AssetAction.assetKind heq
  · intro spec hspec id hmem
    rcases List.mem_append.mp hmem with hmem | hmem
    · obtain ⟨d, -, heq⟩ := List.mem_map.mp hmem
      cases congrArg AssetAction.assetKind heq
    · obtain ⟨d, hd, heq⟩ := List.mem_map.mp hmem
      injection heq with _ hslug hverb _
      exact created_new ids.newNote (scheme_slugs hslugs).2 hn hspec hd (congrArg (AssetKind.knowledge, ·) hslug) hverb
  · obtain ⟨hpall, hnall⟩ := hsettled hids.1 hids.2
    exact sync_again hpall hnall ids'

end Syncs

/-! ## Runs -/

/-- A sync of the committed files, and after how many of its writes it crashes, if it does. -/
structure SyncRun where
  bundle : AssetBundle
  accepted : ∃ ext schemas tree, loadAssets ext schemas tree = .ok bundle
  ids : NewIds
  crash : Option Nat := none

/-- The writes that are made before the crash. -/
def SyncRun.performed (run : SyncRun) (o : AssetOffice) : List AssetWrite :=
  let ws := (syncPlan run.ids run.bundle o).1
  run.crash.elim ws ws.take

inductive AssetEvent where
  | sync (run : SyncRun)
  /-- Others change the assets at Devin or the rows. -/
  | others (o : AssetOffice)

def AssetOffice.exec (o : AssetOffice) : AssetEvent → AssetOffice
  | .sync run => o.applyAll (run.performed o)
  | .others o' => o'

/-- The sync reaches its end. -/
def SyncRun.Completes (run : SyncRun) (o : AssetOffice) (report : List AssetAction) : Prop :=
  run.crash = none ∧ (syncPlan run.ids run.bundle o).2 = .ok report

/-- A sync that completes converges without duplicates. -/
def SyncConverges (o : AssetOffice) : AssetEvent → Prop
  | .sync run => ∀ report, run.Completes o report → Converges run.bundle o (o.exec (.sync run)) report
  | .others _ => True

/-- A sync that completes starts without a clash. -/
def StartsClear (o : AssetOffice) : AssetEvent → Prop
  | .sync run => ∀ report, run.Completes o report → NoClash run.bundle o
  | .others _ => True

/-- **The syncs of a run converge without duplicates** exactly when no specifications clash where one that completes
starts. -/
theorem converges_iff (o : AssetOffice) (trace : List AssetEvent) :
    Machine.AllSteps AssetOffice.exec SyncConverges o trace ↔
    Machine.AllSteps AssetOffice.exec StartsClear o trace := by
  refine Machine.AllSteps.congr_invariant (fun _ => True) (fun _ _ _ _ => trivial) (fun o e _ => ?_) trivial
  cases e with
  | others o' => exact Iff.rfl
  | sync run =>
    obtain ⟨ext, schemas, tree, hload⟩ := run.accepted
    refine forall₂_congr fun report hcompletes => ?_
    have hperformed : o.exec (.sync run) = o.applyAll (syncPlan run.ids run.bundle o).1 := by
      show o.applyAll (run.performed o) = _
      rw [SyncRun.performed, hcompletes.1]
      rfl
    rw [hperformed]
    exact sync_converges_iff (loadAssets_slugs hload) hcompletes.2

/-- An id longer than those there are. -/
def longerId (ids : List String) : String := String.ofList (List.replicate ((ids.map String.length).sum + 1) 'n')

theorem longerId_not_mem (ids : List String) : longerId ids ∉ ids := by
  intro hmem
  have hle : (longerId ids).length ≤ (ids.map String.length).sum :=
    List.single_le_sum (by simp) _ (List.mem_map_of_mem hmem)
  rw [longerId, String.length_ofList, List.length_replicate] at hle
  exact Nat.not_succ_le_self _ hle

def titledText : External :=
  { versionGe := fun _ _ => none, specContains := fun _ _ => none, validateOutput := fun _ _ => []
    wordChar := Char.isAlphanum, digitValue := fun _ => none, spaceChar := fun c => c == ' ' || c == '\n' }

/-- The file of a kind's playbook. -/
def titledPlaybook (kind : Kind) (title : String) : AssetFile :=
  { stem := kind.playbookSlug, path := kind.playbookSlug ++ ".md"
    text := "---\nkind: " ++ kind.name ++ "\ntitle: " ++ title ++ "\nmacro: !" ++ kind.playbookSlug ++
    "\n---\nDo it.\n" }

/-- Two kinds have playbooks of one title. -/
def titledTree : AssetTree :=
  { playbooksDir := "playbooks", knowledgeDir := "knowledge"
    playbooks := [titledPlaybook .containerHardening "Hardening", titledPlaybook .dependencyUpgrade "Hardening",
      titledPlaybook .helmDeployConfig "Helm", titledPlaybook .noFixReachability "OpenVEX",
      titledPlaybook .scannerDisagreement "Disagreement"]
    knowledge :=
      [{ stem := "rules", path := "rules.md", text := "---\nname: Rules\ntrigger: Always\n---\nMerge nothing.\n" }]
    distinct := by decide }

def sampleSchemas : Schemas := { schemaFor := Kind.name, bytes := fun _ => 1000 }

/-- What is read of the file of a kind's playbook. -/
def titledSpec (kind : Kind) (title : String) : PlaybookSpec :=
  { slug := kind.playbookSlug, kind := kind, path := kind.playbookSlug ++ ".md"
    upsert := { title := title, body := "Do it.\n", macro_ := some ("!" ++ kind.playbookSlug)
                structuredOutputSchema := some kind.name } }

def titledBundle : AssetBundle :=
  { playbooks := [titledSpec .containerHardening "Hardening", titledSpec .dependencyUpgrade "Hardening",
      titledSpec .helmDeployConfig "Helm", titledSpec .noFixReachability "OpenVEX",
      titledSpec .scannerDisagreement "Disagreement"]
    knowledge :=
      [{ slug := "rules", path := "rules.md",
         upsert := { name := "Rules", body := "Merge nothing.\n", trigger := "Always" } }] }

theorem titledTree_accepted : loadAssets titledText sampleSchemas titledTree = .ok titledBundle := by
  obtain ⟨bundle, hbundle, hsame⟩ := Fallible.exists_ok_of_any (x := loadAssets titledText sampleSchemas titledTree)
    (p := (· == titledBundle)) (by decide +kernel)
  rw [hbundle, eq_of_beq hsame]

def sampleSync : SyncRun :=
  { bundle := titledBundle, accepted := ⟨_, _, _, titledTree_accepted⟩
    ids := ⟨longerId, longerId, longerId_not_mem, longerId_not_mem⟩ }

/-- Someone has made a playbook of the title by hand, and the controller has no rows. -/
def handmade : AssetOffice :=
  { playbooks := [("p1", { playbookId := "p1", title := "Hardening", body := "By hand.\n" })], notes := [], rows := []
    distinctPlaybooks := by decide, distinctNotes := by decide }

/-- Both playbooks of the title get the one at Devin. -/
theorem adopted_twice : ¬ Machine.AllSteps AssetOffice.exec SyncConverges handmade [.sync sampleSync] := by
  intro h
  obtain ⟨report, hreport⟩ : ∃ report, (syncPlan sampleSync.ids titledBundle handmade).2 = .ok report :=
    Fallible.exists_ok_of_isSome (by decide +kernel)
  have hnodup := (h.1 report ⟨rfl, hreport⟩).playbooks
  have htwice : ((syncPlan sampleSync.ids titledBundle handmade).2.toOption.any fun report =>
      (reportIds .playbook report).Nodup) = false := by decide +kernel
  rw [hreport] at htwice
  exact absurd (decide_eq_true hnodup) (Bool.eq_false_iff.mp htwice)

end HardeningLoop
