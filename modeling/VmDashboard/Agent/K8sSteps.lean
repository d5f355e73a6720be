import Mathlib
import VmDashboard.Agent.Policy
import VmDashboard.Machine.Except
import VmDashboard.Python.Convert
import VmDashboard.Python.Regex
import VmDashboard.Python.Replace
import VmDashboard.Python.Utf8
import VmDashboard.Shell.Script

/-!
# Kubernetes steps as one shell line (`k8s_command` in `runners/agent/agent.py`)

The steps of a sealed bundle are checked field by field and written as one line, which a one-shot
container gives to `sh -c`. What the shell reads in the line is the list of operations the steps ask
for: one `echo` and one `kubectl` or `helm` each, in order.
-/

namespace Agent
open Python (Json Dict apostrophe quotation backslash beforeEnd)
open Shell (Lexed Written Script IsCommand IsList Lexeme)

/-! ### The fields -/

def isLowerAlnum (c : Char) : Bool := c.isLower || c.isDigit

/-- `^[a-z0-9]([-a-z0-9]{0,n}[a-z0-9])?$`, where the longest match has `n + 2` characters. -/
def isLabel (longest : ℕ) (text : String) : Bool :=
  let cs := beforeEnd text.toList
  cs.head?.any isLowerAlnum && cs.getLast?.any isLowerAlnum &&
    cs.all (fun c => isLowerAlnum c || c = '-') && decide (cs.length ≤ longest)

/-- `^[first][rest]{0,longest}$`. -/
def isHeaded (first rest : Char → Bool) (longest : ℕ) (cs : List Char) : Bool :=
  match cs with
  | [] => false
  | c :: cs => first c && cs.all rest && decide (cs.length ≤ longest)

def isAlnumOr (others : String) (c : Char) : Bool := c.isAlphanum || others.toList.contains c

def k8sNameRe : String → Bool := isLabel 53

def k8sNamespaceRe : String → Bool := isLabel 63

def k8sChartRe (text : String) : Bool :=
  isHeaded Char.isAlphanum (isAlnumOr ".-_/") 127 (beforeEnd text.toList)

def k8sVersionRe (text : String) : Bool :=
  isHeaded Char.isAlphanum (isAlnumOr ".+_-") 63 (beforeEnd text.toList)

/-- A port of up to five digits and a path, each or neither. -/
def isPortAndPath (cs : List Char) : Bool :=
  let path := match cs with
    | ':' :: cs =>
      let digits := cs.takeWhile Char.isDigit
      if 1 ≤ digits.length ∧ digits.length ≤ 5 then some (cs.dropWhile Char.isDigit) else none
    | cs => some cs
  match path with
  | some [] => true
  | some ('/' :: cs) => cs.all (isAlnumOr ".-_~/")
  | _ => false

/-- `https:` and a host, and what may follow a host. -/
def k8sRepoRe (text : String) : Bool :=
  let cs := beforeEnd text.toList
  let host := (cs.drop 8).takeWhile (isAlnumOr ".-")
  decide ("https://".toList <+: cs) && !host.isEmpty &&
    isPortAndPath ((cs.drop 8).dropWhile (isAlnumOr ".-"))

/-- `^[A-Za-z0-9_][A-Za-z0-9_.\[\]\\-]{0,127}=[^\r\n]{0,1024}$`. -/
def k8sSetRe (text : String) : Bool :=
  let cs := beforeEnd text.toList
  let key := cs.takeWhile (· ≠ '=')
  isHeaded (isAlnumOr "_") (fun c => isAlnumOr "_.[]-" c || c = backslash) 127 key &&
    match cs.dropWhile (· ≠ '=') with
    | [] => false
    | _ :: value => value.all (fun c => c ≠ '\r' && c ≠ '\n') && decide (value.length ≤ 1024)

/-- `^[0-9]{1,4}[sm]$`. -/
def k8sTimeoutRe (text : String) : Bool :=
  let cs := beforeEnd text.toList
  let digits := cs.takeWhile Char.isDigit
  decide (1 ≤ digits.length) && decide (digits.length ≤ 4) &&
    (cs.dropWhile Char.isDigit = ['s'] || cs.dropWhile Char.isDigit = ['m'])

/-! ### One step -/

/-- The files of the job volume, by their path in the archive. -/
abbrev Files := String → Option (List UInt8)

def Files.write (files : Files) (path : String) (bytes : List UInt8) : Files :=
  fun other => if other = path then some bytes else files other

def jobDir : String := "/opt/job"

def k8sMaxSteps : ℕ := 16

def k8sMaxDocBytes : ℕ := 256 * 1024

def k8sBestEffortMarker : String := "K8S_STEP_BEST_EFFORT_FAILED"

def k8sStepKinds : List String := ["apply", "delete", "helm_upgrade", "helm_uninstall"]

def stepText (index : ℕ) (kind : Json) : String :=
  "step " ++ toString index ++ " (" ++ kind.text ++ ")"

def stepKind (step : Dict) : Json := (step.get? "kind").getD .null

def isBlankText (text : String) : Bool := Python.strip text = ""

/-- The path of the document and the files with it. -/
def k8sDoc (place : String) (step : Dict) (key name : String) (files : Files) :
    Except Refusal (String × Files) :=
  match step.get? key with
  | some (.str text) =>
    if isBlankText text then .error (place ++ " carries no " ++ key ++ ".")
    else if k8sMaxDocBytes < (Python.encodeUtf8 text).length then
      .error (place ++ ": " ++ key ++ " is over " ++ toString k8sMaxDocBytes ++ " bytes.")
    else
      let path := jobDir ++ "/" ++ name
      .ok (path, files.write (String.ofList (path.toList.dropWhile (· = '/'))) (Python.encodeUtf8 text))
  | _ => .error (place ++ " carries no " ++ key ++ ".")

def k8sField (place : String) (step : Dict) (key : String) (pattern : String → Bool) (required : Bool) :
    Except Refusal String :=
  let value := (step.get? key).getD .null
  if (value = .null ∨ value = .str "") ∧ required = false then .ok ""
  else
    match value with
    | .str text =>
      if pattern text then .ok text
      else .error (place ++ ": " ++ key ++ " " ++ value.reprText ++ " is not allowed.")
    | _ => .error (place ++ ": " ++ key ++ " " ++ value.reprText ++ " is not allowed.")

def optionWords (name value : String) : List String := if value = "" then [] else [name, value]

def setWords (place : String) : List Json → Except Refusal (List String)
  | [] => .ok []
  | item :: items =>
    match item with
    | .str text =>
      if k8sSetRe text then do
        let words ← setWords place items
        return "--set" :: text :: words
      else .error (place ++ ": set entry " ++ item.reprText ++ " is not allowed.")
    | _ => .error (place ++ ": set entry " ++ item.reprText ++ " is not allowed.")

def isTrue (step : Dict) (key : String) : Bool := step.get? key = some (.bool true)

/-- `step.get(key)` where it is true of it, `none` where it is not. -/
def given (step : Dict) (key : String) : Option Json := (step.get? key).filter Json.truthy

def k8sSets (place : String) (step : Dict) : Except Refusal (List String) :=
  match given step "set" with
  | none => .ok []
  | some (.arr items) =>
    if 64 < items.length then .error (place ++ ": set must be a list of at most 64 key=value.")
    else setWords place items
  | some _ => .error (place ++ ": set must be a list of at most 64 key=value.")

def helmUpgradeArgv (index : ℕ) (place : String) (step : Dict) (files : Files) :
    Except Refusal (List String × Files) := do
  let release ← k8sField place step "release" k8sNameRe true
  let chart ← k8sField place step "chart" k8sChartRe true
  let space ← k8sField place step "namespace" k8sNamespaceRe true
  let repo ← k8sField place step "repo" k8sRepoRe false
  let version ← k8sField place step "version" k8sVersionRe false
  let timeout ← k8sField place step "timeout" k8sTimeoutRe false
  let sets ← k8sSets place step
  let argv := ["helm", "upgrade", "--install", release, chart, "--namespace", space] ++
    optionWords "--repo" repo ++ optionWords "--version" version ++
    (if isTrue step "create_namespace" then ["--create-namespace"] else []) ++
    (if isTrue step "wait" then ["--wait"] else []) ++ optionWords "--timeout" timeout ++ sets
  match given step "values" with
  | none => return (argv, files)
  | some _ => do
    let (path, files) ← k8sDoc place step "values" ("step" ++ toString index ++ ".values.yaml") files
    return (argv ++ ["--values", path], files)

def k8sStepArgv (index : ℕ) (step : Json) (files : Files) : Except Refusal (List String × Files) :=
  match step with
  | .obj step =>
    let kind := stepKind step
    let place := stepText index kind
    if kind = .str "apply" then do
      let (path, files) ← k8sDoc place step "manifest" ("step" ++ toString index ++ ".yaml") files
      return (["kubectl", "apply", "-f", path], files)
    else if kind = .str "delete" then do
      let (path, files) ← k8sDoc place step "manifest" ("step" ++ toString index ++ ".yaml") files
      return (["kubectl", "delete", "--ignore-not-found", "-f", path], files)
    else if kind = .str "helm_uninstall" then do
      let release ← k8sField place step "release" k8sNameRe true
      let space ← k8sField place step "namespace" k8sNamespaceRe true
      return (["helm", "uninstall", release, "--namespace", space], files)
    else if kind = .str "helm_upgrade" then helmUpgradeArgv index place step files
    else
      .error ("step " ++ toString index ++ ": " ++ kind.reprText ++
        " is not a Kubernetes step this agent runs (known: " ++ ", ".intercalate k8sStepKinds ++ ").")
  | _ => .error ("step " ++ toString index ++ " is not a mapping.")

/-! ### The line -/

section
variable (isAlnum : Char → Bool)

/-- `isAlnum` is `str.isalnum` of one character. -/
def shellQuote (value : String) : String :=
  if value ≠ "" ∧ value.toList.all (fun c => isAlnum c || "@%+=:,.-_/".toList.contains c) = true then
    value
  else
    String.ofList (apostrophe ::
      (Python.replace [apostrophe] [apostrophe, quotation, apostrophe, quotation, apostrophe]
        value.toList ++ [apostrophe]))

def stepTitle (index : ℕ) (kind : String) : String := "--- step " ++ toString index ++ ": " ++ kind

def quoteAll (argv : List String) : String := " ".intercalate (argv.map (shellQuote isAlnum))

def k8sPart (index : ℕ) (step : Json) (files : Files) : Except Refusal (String × Files) := do
  let (argv, files) ← k8sStepArgv index step files
  let fields := match step with
    | .obj fields => fields
    | _ => []
  let cmd := quoteAll isAlnum argv
  let cmd := if isTrue fields "best_effort" then
      String.singleton Shell.openBrace ++ " " ++ cmd ++ " || echo " ++ k8sBestEffortMarker ++ " step=" ++
        toString index ++ "; " ++ String.singleton Shell.closeBrace
    else cmd
  return ("echo " ++ shellQuote isAlnum (stepTitle index (stepKind fields).text) ++ " && " ++ cmd,
    files)

def k8sParts (index : ℕ) : List Json → Files → Except Refusal (List String × Files)
  | [], files => .ok ([], files)
  | step :: steps, files => do
    let (part, files) ← k8sPart isAlnum index step files
    let (parts, files) ← k8sParts (index + 1) steps files
    return (part :: parts, files)

def k8sCommand (steps : Json) (files : Files) : Except Refusal (String × Files) :=
  match steps with
  | .arr (step :: rest) =>
    if k8sMaxSteps < (step :: rest).length then
      .error ("at most " ++ toString k8sMaxSteps ++ " Kubernetes steps run in one job.")
    else do
      let (parts, files) ← k8sParts isAlnum 1 (step :: rest) files
      return (" && ".intercalate parts, files)
  | _ => .error "the dashboard sent no Kubernetes steps."

def isStepList : Json → Bool
  | .arr (kind :: kinds) =>
    decide ((kind :: kinds).length ≤ k8sMaxSteps) &&
      (kind :: kinds).all fun kind => k8sStepKinds.any fun known => kind = .str known
  | _ => false

def sealedKinds : Json → List Json
  | .arr steps => steps.map fun step =>
    match step with
    | .obj step => stepKind step
    | _ => .null
  | .str text => text.toList.map fun _ => .null
  | .obj fields => fields.map fun _ => .null
  | _ => []

/-- The command of `run_k8s`, from the envelope's `step_kinds` and the bundle's `steps`, with the
files that are there already. A number in the place of the steps is a `TypeError`. -/
def runK8sCommand (kinds steps : Json) (files : Files) : Except Refusal (String × Files) :=
  if isStepList kinds = false then .error "this job's step list is not one this agent runs."
  else if .arr (sealedKinds steps) ≠ kinds then
    .error "the sealed steps are not the ones the signed job listed."
  else k8sCommand isAlnum steps files

end

/-! ### The operations a step may ask for -/

abbrev Matching (pattern : String → Bool) := {text : String // pattern text = true}

/-- A manifest or a values file. -/
abbrev Document :=
  {text : String // isBlankText text = false ∧ (Python.encodeUtf8 text).length ≤ k8sMaxDocBytes}

structure HelmUpgrade where
  release : Matching k8sNameRe
  chart : Matching k8sChartRe
  space : Matching k8sNamespaceRe
  repo : Option (Matching k8sRepoRe)
  version : Option (Matching k8sVersionRe)
  createNamespace : Bool
  wait : Bool
  timeout : Option (Matching k8sTimeoutRe)
  sets : List (Matching k8sSetRe)
  values : Option Document

inductive Operation
  | apply (manifest : Document)
  | delete (manifest : Document)
  | helmUninstall (release : Matching k8sNameRe) (space : Matching k8sNamespaceRe)
  | helmUpgrade (upgrade : HelmUpgrade)

def givenWords {pattern : String → Bool} (name : String) : Option (Matching pattern) → List String
  | none => []
  | some value => [name, value.1]

def stepFile (index : ℕ) (ending : String) : String :=
  "opt/job/step" ++ toString index ++ ending

def manifestEnding : String := ".yaml"

def valuesEnding : String := ".values.yaml"

namespace Operation

def kind : Operation → String
  | apply _ => "apply"
  | delete _ => "delete"
  | helmUninstall _ _ => "helm_uninstall"
  | helmUpgrade _ => "helm_upgrade"

def argv (index : ℕ) : Operation → List String
  | apply _ => ["kubectl", "apply", "-f", "/" ++ stepFile index manifestEnding]
  | delete _ =>
    ["kubectl", "delete", "--ignore-not-found", "-f", "/" ++ stepFile index manifestEnding]
  | helmUninstall release space => ["helm", "uninstall", release.1, "--namespace", space.1]
  | helmUpgrade u =>
    ["helm", "upgrade", "--install", u.release.1, u.chart.1, "--namespace", u.space.1] ++
      givenWords "--repo" u.repo ++ givenWords "--version" u.version ++
      (if u.createNamespace then ["--create-namespace"] else []) ++
      (if u.wait then ["--wait"] else []) ++ givenWords "--timeout" u.timeout ++
      u.sets.flatMap (fun item => ["--set", item.1]) ++
      match u.values with
      | none => []
      | some _ => ["--values", "/" ++ stepFile index valuesEnding]

/-- What the operation reads in the job volume. -/
def documents (index : ℕ) : Operation → List (String × String)
  | apply manifest | delete manifest => [(stepFile index manifestEnding, manifest.1)]
  | helmUninstall _ _ => []
  | helmUpgrade u =>
    match u.values with
    | none => []
    | some values => [(stepFile index valuesEnding, values.1)]

end Operation

/-- The step leaves the key out, or gives this text for it. -/
def Gives {pattern : String → Bool} (step : Dict) (key : String) : Option (Matching pattern) → Prop
  | none => (step.get? key).getD .null = .null ∨ step.get? key = some (.str "")
  | some value => step.get? key = some (.str value.1)

def HelmUpgrade.AskedBy (u : HelmUpgrade) (step : Dict) : Prop :=
  step.get? "release" = some (.str u.release.1) ∧ step.get? "chart" = some (.str u.chart.1) ∧
    step.get? "namespace" = some (.str u.space.1) ∧ Gives step "repo" u.repo ∧
    Gives step "version" u.version ∧ u.createNamespace = isTrue step "create_namespace" ∧
    u.wait = isTrue step "wait" ∧ Gives step "timeout" u.timeout ∧
    (given step "set").getD (.arr []) = .arr (u.sets.map fun item => .str item.1) ∧
    given step "values" = u.values.map fun values => .str values.1

def Operation.AskedBy (step : Dict) (op : Operation) : Prop :=
  step.get? "kind" = some (.str op.kind) ∧
    match op with
    | apply manifest | delete manifest => step.get? "manifest" = some (.str manifest.1)
    | helmUninstall release space =>
      step.get? "release" = some (.str release.1) ∧ step.get? "namespace" = some (.str space.1)
    | helmUpgrade u => u.AskedBy step

def Files.writeAll (files : Files) (documents : List (String × String)) : Files :=
  documents.foldl (fun files document => files.write document.1 (Python.encodeUtf8 document.2)) files

/-! ### What an accepted step asks for -/

theorem k8sField_required {place key v : String} {step : Dict} {pattern : String → Bool}
    (h : k8sField place step key pattern true = .ok v) :
    pattern v = true ∧ step.get? key = some (.str v) := by
  unfold k8sField at h
  rw [if_neg (by simp)] at h
  cases hget : step.get? key with
  | none =>
    rw [hget] at h
    cases h
  | some value =>
    rw [hget] at h
    cases value with
    | str text =>
      by_cases hpattern : pattern text = true
      · obtain rfl := Except.ok.inj ((if_pos hpattern).symm.trans h)
        exact ⟨hpattern, rfl⟩
      · cases (if_neg hpattern).symm.trans h
    | _ => cases h

theorem k8sField_optional (name : String) {place key v : String} {step : Dict}
    {pattern : String → Bool} (hempty : pattern "" = false)
    (h : k8sField place step key pattern false = .ok v) :
    ∃ o : Option (Matching pattern), optionWords name v = givenWords name o ∧ Gives step key o := by
  unfold k8sField at h
  by_cases hnone : (step.get? key).getD .null = .null ∨ (step.get? key).getD .null = .str ""
  · obtain rfl := Except.ok.inj ((if_pos ⟨hnone, rfl⟩).symm.trans h)
    refine ⟨none, if_pos rfl, hnone.imp id fun hstr => ?_⟩
    cases hget : step.get? key with
    | none =>
      rw [hget] at hstr
      cases hstr
    | some value =>
      rw [hget] at hstr
      exact congrArg some hstr
  · have h := (if_neg fun hand => hnone hand.1).symm.trans h
    cases hget : step.get? key with
    | none =>
      rw [hget] at h
      cases h
    | some value =>
      rw [hget] at h
      cases value with
      | str text =>
        by_cases hpattern : pattern text = true
        · obtain rfl := Except.ok.inj ((if_pos hpattern).symm.trans h)
          have hne : text ≠ "" := by
            rintro rfl
            rw [hempty] at hpattern
            cases hpattern
          exact ⟨some ⟨text, hpattern⟩, if_neg hne, hget⟩
        · cases (if_neg hpattern).symm.trans h
      | _ => cases h

theorem k8sDoc_ok (ending : String) {place key path : String} {step : Dict} {files files' : Files}
    {index : ℕ}
    (h : k8sDoc place step key ("step" ++ toString index ++ ending) files = .ok (path, files')) :
    ∃ document : Document, step.get? key = some (.str document.1) ∧
      path = "/" ++ stepFile index ending ∧
      files' = files.writeAll [(stepFile index ending, document.1)] := by
  have hpath : jobDir ++ "/" ++ ("step" ++ toString index ++ ending) =
      "/" ++ stepFile index ending := by
    apply String.toList_injective
    simp only [jobDir, stepFile, String.toList_append]
    rfl
  have hkey : String.ofList ((jobDir ++ "/" ++ ("step" ++ toString index ++ ending)).toList.dropWhile
      (· = '/')) = stepFile index ending := by
    rw [hpath]
    apply String.toList_injective
    simp only [String.toList_ofList, stepFile, String.toList_append]
    rfl
  unfold k8sDoc at h
  split at h
  next text hget =>
    split at h
    · cases h
    next hblank =>
      split at h
      · cases h
      next hlong =>
        obtain ⟨rfl, rfl⟩ := Prod.mk.inj (Except.ok.inj h)
        refine ⟨⟨text, Bool.eq_false_iff.mpr hblank, Nat.le_of_not_lt hlong⟩, hget, hpath, ?_⟩
        rw [hkey]
        rfl
  · cases h

theorem setWords_ok {place : String} {items : List Json} {words : List String}
    (h : setWords place items = .ok words) :
    ∃ sets : List (Matching k8sSetRe), items = sets.map (fun item => .str item.1) ∧
      words = sets.flatMap fun item => ["--set", item.1] := by
  induction items generalizing words with
  | nil =>
    obtain rfl := Except.ok.inj h
    exact ⟨[], rfl, rfl⟩
  | cons item items ih =>
    cases item with
    | str text =>
      by_cases hpattern : k8sSetRe text = true
      · have h := (if_pos hpattern).symm.trans h
        obtain ⟨rest, hrest, h⟩ := Machine.bind_eq_ok h
        obtain rfl := Except.ok.inj h
        obtain ⟨sets, rfl, rfl⟩ := ih hrest
        exact ⟨⟨text, hpattern⟩ :: sets, rfl, rfl⟩
      · cases (if_neg hpattern).symm.trans h
    | _ => cases h

theorem k8sSets_ok {place : String} {step : Dict} {words : List String}
    (h : k8sSets place step = .ok words) :
    ∃ sets : List (Matching k8sSetRe),
      (given step "set").getD (.arr []) = .arr (sets.map fun item => .str item.1) ∧
      words = sets.flatMap fun item => ["--set", item.1] := by
  unfold k8sSets at h
  split at h
  next hnone =>
    obtain rfl := Except.ok.inj h
    exact ⟨[], by rw [hnone]; rfl, rfl⟩
  next items hitems =>
    split at h
    · cases h
    · obtain ⟨sets, rfl, rfl⟩ := setWords_ok h
      exact ⟨sets, by rw [hitems]; rfl, rfl⟩
  · cases h

theorem helmUpgradeArgv_ok {index : ℕ} {place : String} {step : Dict} {files files' : Files}
    {argv : List String} (h : helmUpgradeArgv index place step files = .ok (argv, files')) :
    ∃ u : HelmUpgrade, u.AskedBy step ∧ argv = (Operation.helmUpgrade u).argv index ∧
      files' = files.writeAll ((Operation.helmUpgrade u).documents index) := by
  unfold helmUpgradeArgv at h
  obtain ⟨release, hrelease, h⟩ := Machine.bind_eq_ok h
  obtain ⟨chart, hchart, h⟩ := Machine.bind_eq_ok h
  obtain ⟨space, hspace, h⟩ := Machine.bind_eq_ok h
  obtain ⟨repo, hrepo, h⟩ := Machine.bind_eq_ok h
  obtain ⟨version, hversion, h⟩ := Machine.bind_eq_ok h
  obtain ⟨timeout, htimeout, h⟩ := Machine.bind_eq_ok h
  obtain ⟨words, hsets, h⟩ := Machine.bind_eq_ok h
  obtain ⟨hreleaseRe, hreleaseGet⟩ := k8sField_required hrelease
  obtain ⟨hchartRe, hchartGet⟩ := k8sField_required hchart
  obtain ⟨hspaceRe, hspaceGet⟩ := k8sField_required hspace
  obtain ⟨repo?, hrepoWords, hrepoGet⟩ := k8sField_optional "--repo" (by decide) hrepo
  obtain ⟨version?, hversionWords, hversionGet⟩ :=
    k8sField_optional "--version" (by decide) hversion
  obtain ⟨timeout?, htimeoutWords, htimeoutGet⟩ :=
    k8sField_optional "--timeout" (by decide) htimeout
  obtain ⟨sets, hsetsGet, rfl⟩ := k8sSets_ok hsets
  have base (values : Option Document)
      (hvalues : given step "values" = values.map fun values => .str values.1) :
      HelmUpgrade.AskedBy ⟨⟨release, hreleaseRe⟩, ⟨chart, hchartRe⟩, ⟨space, hspaceRe⟩, repo?, version?,
        isTrue step "create_namespace", isTrue step "wait", timeout?, sets, values⟩ step :=
    ⟨hreleaseGet, hchartGet, hspaceGet, hrepoGet, hversionGet, rfl, rfl, htimeoutGet, hsetsGet, hvalues⟩
  rw [hrepoWords, hversionWords, htimeoutWords] at h
  cases hvalues : given step "values" with
  | none =>
    rw [hvalues] at h
    obtain ⟨rfl, rfl⟩ := Prod.mk.inj (Except.ok.inj h)
    exact ⟨_, base none hvalues, (List.append_nil _).symm, rfl⟩
  | some value =>
    rw [hvalues] at h
    obtain ⟨⟨path, files''⟩, hdoc, h⟩ := Machine.bind_eq_ok h
    obtain ⟨rfl, rfl⟩ := Prod.mk.inj (Except.ok.inj h)
    obtain ⟨document, hget, rfl, rfl⟩ := k8sDoc_ok valuesEnding hdoc
    have hvalue : given step "values" = some (.str document.1) := by
      rw [given, hget, Option.filter_eq_some_iff] at hvalues
      rw [given, hget, Option.filter_eq_some_iff]
      obtain ⟨heq, htruthy⟩ := hvalues
      obtain rfl := Option.some.inj heq
      exact ⟨rfl, htruthy⟩
    exact ⟨_, base (some document) hvalue, rfl, rfl⟩

theorem stepKind_eq {step : Dict} {kind : String} (h : stepKind step = .str kind) :
    step.get? "kind" = some (.str kind) := by
  unfold stepKind at h
  cases hget : step.get? "kind" with
  | none =>
    rw [hget] at h
    cases h
  | some value =>
    rw [hget] at h
    exact congrArg some h

theorem k8sStepArgv_ok {index : ℕ} {step : Json} {files files' : Files} {argv : List String}
    (h : k8sStepArgv index step files = .ok (argv, files')) :
    ∃ fields op, step = .obj fields ∧ Operation.AskedBy fields op ∧ argv = op.argv index ∧
      files' = files.writeAll (op.documents index) := by
  cases step with
  | obj fields =>
    refine ⟨fields, ?_⟩
    unfold k8sStepArgv at h
    dsimp only at h
    split at h
    next hkind =>
      obtain ⟨⟨path, files''⟩, hdoc, h⟩ := Machine.bind_eq_ok h
      obtain ⟨rfl, rfl⟩ := Prod.mk.inj (Except.ok.inj h)
      obtain ⟨document, hget, rfl, rfl⟩ := k8sDoc_ok manifestEnding hdoc
      exact ⟨.apply document, rfl, ⟨stepKind_eq hkind, hget⟩, rfl, rfl⟩
    next =>
    split at h
    next hkind =>
      obtain ⟨⟨path, files''⟩, hdoc, h⟩ := Machine.bind_eq_ok h
      obtain ⟨rfl, rfl⟩ := Prod.mk.inj (Except.ok.inj h)
      obtain ⟨document, hget, rfl, rfl⟩ := k8sDoc_ok manifestEnding hdoc
      exact ⟨.delete document, rfl, ⟨stepKind_eq hkind, hget⟩, rfl, rfl⟩
    next =>
    split at h
    next hkind =>
      obtain ⟨release, hrelease, h⟩ := Machine.bind_eq_ok h
      obtain ⟨space, hspace, h⟩ := Machine.bind_eq_ok h
      obtain ⟨rfl, rfl⟩ := Prod.mk.inj (Except.ok.inj h)
      obtain ⟨hreleaseRe, hreleaseGet⟩ := k8sField_required hrelease
      obtain ⟨hspaceRe, hspaceGet⟩ := k8sField_required hspace
      exact ⟨.helmUninstall ⟨release, hreleaseRe⟩ ⟨space, hspaceRe⟩, rfl,
        ⟨stepKind_eq hkind, hreleaseGet, hspaceGet⟩, rfl, rfl⟩
    next =>
    split at h
    next hkind =>
      obtain ⟨u, hasked, hargv, hfiles⟩ := helmUpgradeArgv_ok h
      exact ⟨.helmUpgrade u, rfl, ⟨stepKind_eq hkind, hasked⟩, hargv, hfiles⟩
    next => cases h
  | _ => cases h

/-! ### The plan of a job -/

structure Planned where
  index : ℕ
  op : Operation
  bestEffort : Bool

namespace Planned
variable {W : Type*} (exec : List String → W → ℕ × W)

def announce (p : Planned) : List String := ["echo", stepTitle p.index p.op.kind]

def report (p : Planned) : List String :=
  ["echo", k8sBestEffortMarker, "step=" ++ toString p.index]

/-- A required step fails where its operation does. A best-effort one reports the failure. -/
def run (p : Planned) (w : W) : ℕ × W :=
  match exec p.announce w with
  | (0, w) =>
    match exec (p.op.argv p.index) w with
    | (0, w) => (0, w)
    | (code, w) => if p.bestEffort then exec p.report w else (code, w)
  | failed => failed

end Planned

/-- One step after the other, up to one that fails. -/
def runPlan {W : Type*} (exec : List String → W → ℕ × W) : List Planned → W → ℕ × W
  | [], w => (0, w)
  | p :: plan, w =>
    match p.run exec w with
    | (0, w) => runPlan exec plan w
    | failed => failed

/-- The plan does what the steps ask for, with the steps numbered from `index` on. -/
def PlanOf (index : ℕ) : List Json → List Planned → Prop
  | [], [] => True
  | .obj step :: steps, p :: plan =>
    p.index = index ∧ p.op.AskedBy step ∧ p.bestEffort = isTrue step "best_effort" ∧
      PlanOf (index + 1) steps plan
  | _, _ => False

def Files.writePlan (files : Files) (plan : List Planned) : Files :=
  plan.foldl (fun files p => files.writeAll (p.op.documents p.index)) files

/-! ### The script of a plan -/

namespace Planned

def command (p : Planned) : Script :=
  if p.bestEffort then .or (.command (p.op.argv p.index)) (.command p.report)
  else .command (p.op.argv p.index)

/-- The script so far, and then the step. -/
def after (s : Script) (p : Planned) : Script := .and (.and s (.command p.announce)) p.command

def lexemes (p : Planned) : List Lexeme :=
  let argv := (p.op.argv p.index).map Lexeme.word
  if p.bestEffort then
    .brace Shell.openBrace ::
      ((argv ++ .or :: p.report.map Lexeme.word) ++ [.semicolon, .brace Shell.closeBrace])
  else argv

theorem run_first {W : Type*} (exec : List String → W → ℕ × W) (p : Planned) (w : W) :
    (Script.and (.command p.announce) p.command).run exec w = p.run exec w := by
  have hcommand (w : W) : p.command.run exec w =
      match exec (p.op.argv p.index) w with
      | (0, w) => (0, w)
      | (code, w) => if p.bestEffort then exec p.report w else (code, w) := by
    unfold command
    cases p.bestEffort with
    | true => rfl
    | false =>
      show exec (p.op.argv p.index) w = _
      rcases exec (p.op.argv p.index) w with ⟨_ | code, w⟩ <;> rfl
  show (match exec p.announce w with
    | (0, w) => p.command.run exec w
    | failed => failed) = p.run exec w
  unfold run
  rcases exec p.announce w with ⟨_ | code, w⟩
  · exact hcommand w
  · rfl

theorem run_after {W : Type*} (exec : List String → W → ℕ × W) (s : Script) (p : Planned) (w : W) :
    (p.after s).run exec w =
      match s.run exec w with
      | (0, w) => p.run exec w
      | failed => failed := by
  rw [after, Script.run_and_assoc]
  show (match s.run exec w with
    | (0, w) => (Script.and (.command p.announce) p.command).run exec w
    | failed => failed) = _
  rcases s.run exec w with ⟨_ | code, w⟩
  · exact p.run_first exec w
  · rfl

theorem run_foldl_after {W : Type*} (exec : List String → W → ℕ × W) (s : Script)
    (plan : List Planned) (w : W) :
    (plan.foldl (fun s p => p.after s) s).run exec w =
      match s.run exec w with
      | (0, w) => runPlan exec plan w
      | failed => failed := by
  induction plan generalizing s with
  | nil =>
    rw [List.foldl_nil]
    rcases s.run exec w with ⟨_ | code, w⟩ <;> rfl
  | cons p plan ih =>
    rw [List.foldl_cons, ih, run_after]
    rcases s.run exec w with ⟨_ | code, w⟩
    · rfl
    · rfl

end Planned

/-! ### The words of the line -/

section
variable {isAlnum : Char → Bool}

/-- No punctuation of ASCII is a letter or a digit. -/
def AsciiAlnum (isAlnum : Char → Bool) : Prop :=
  ∀ c : Char, c.toNat < 128 → isAlnum c = true → c.isAlphanum = true

theorem AsciiAlnum.ne {c d : Char} (h : AsciiAlnum isAlnum) (hc : isAlnum c = true)
    (hd : d.toNat < 128 ∧ d.isAlphanum = false) : c ≠ d := by
  rintro rfl
  have := h c hd.1 hc
  rw [hd.2] at this
  cases this

theorem AsciiAlnum.isPlainFirst {c : Char} (h : AsciiAlnum isAlnum) (hc : isAlnum c = true) :
    Shell.isPlainFirst c = true := by
  have hspecial : Shell.isSpecial c = false := by
    rw [Shell.isSpecial, List.contains_eq_mem, decide_eq_false_iff_not]
    intro hmem
    have hall : "$`&;<>()*?[\n".toList.all (fun d => d.toNat < 128 ∧ d.isAlphanum = false) = true := by
      decide
    exact h.ne hc (of_decide_eq_true (List.all_eq_true.mp hall c hmem)) rfl
  have hblank : Shell.isBlank c = false := by
    simp [Shell.isBlank, h.ne hc (d := ' ') (by decide), h.ne hc (d := '\t') (by decide)]
  simp [Shell.isPlainFirst, Shell.isPlain, hspecial, hblank, h.ne hc (d := '|') (by decide),
    h.ne hc (d := backslash) (by decide), h.ne hc (d := apostrophe) (by decide),
    h.ne hc (d := quotation) (by decide), h.ne hc (d := '#') (by decide),
    h.ne hc (d := '~') (by decide), h.ne hc (d := Shell.openBrace) (by decide),
    h.ne hc (d := Shell.closeBrace) (by decide)]

theorem isPlain_of_first {c : Char} (h : Shell.isPlainFirst c = true) : Shell.isPlain c = true := by
  simp only [Shell.isPlainFirst, Bool.and_eq_true] at h
  exact h.1.1.1.1

theorem written_shellQuote (h : AsciiAlnum isAlnum) (value : String) :
    Written (shellQuote isAlnum value).toList value.toList := by
  unfold shellQuote
  split
  next hsafe =>
    have hall : ∀ c ∈ value.toList, Shell.isPlainFirst c = true := by
      intro c hc
      rcases Bool.or_eq_true_iff.mp (List.all_eq_true.mp hsafe.2 c hc) with halnum | hother
      · exact h.isPlainFirst halnum
      · have hothers : "@%+=:,.-_/".toList.all Shell.isPlainFirst = true := by decide
        exact List.all_eq_true.mp hothers c (List.contains_iff_mem.mp hother)
    cases hvalue : value.toList with
    | nil => exact absurd (String.toList_injective hvalue) hsafe.1
    | cons c cs =>
      rw [hvalue] at hall
      exact Shell.written_plain (hall c List.mem_cons_self)
        fun d hd => isPlain_of_first (hall d (List.mem_cons_of_mem c hd))
  next =>
    rw [Python.replace_singleton, String.toList_ofList]
    exact Shell.written_quoted value.toList

theorem lexed_shellQuote (h : AsciiAlnum isAlnum) (value : String) :
    Lexed (shellQuote isAlnum value).toList [.word value] := by
  have hlexed := (written_shellQuote h value).lexed
  rwa [String.ofList_toList] at hlexed

theorem lexed_quoteAll (h : AsciiAlnum isAlnum) {argv : List String} (hne : argv ≠ []) :
    Lexed (quoteAll isAlnum argv).toList (argv.map .word) := by
  induction argv with
  | nil => exact absurd rfl hne
  | cons word argv ih =>
    cases argv with
    | nil =>
      rw [quoteAll, List.map_singleton, String.intercalate_singleton]
      exact lexed_shellQuote h word
    | cons next argv =>
      have htext : (quoteAll isAlnum (word :: next :: argv)).toList =
          (shellQuote isAlnum word).toList ++ ' ' :: (quoteAll isAlnum (next :: argv)).toList := by
        rw [quoteAll, List.map_cons, List.map_cons, String.intercalate_cons_cons, ← List.map_cons]
        simp only [String.toList_append, List.append_assoc]
        rfl
      rw [htext]
      exact (lexed_shellQuote h word).append (ih (List.cons_ne_nil next argv))

/-- The line's part of a step. -/
def Planned.text (isAlnum : Char → Bool) (p : Planned) : String :=
  let cmd := quoteAll isAlnum (p.op.argv p.index)
  "echo " ++ shellQuote isAlnum (stepTitle p.index p.op.kind) ++ " && " ++
    if p.bestEffort then
      String.singleton Shell.openBrace ++ " " ++ cmd ++ " || echo " ++ k8sBestEffortMarker ++ " step=" ++
        toString p.index ++ "; " ++ String.singleton Shell.closeBrace
    else cmd

theorem Operation.argv_cons (op : Operation) (index : ℕ) :
    ∃ tool rest, op.argv index = tool :: rest ∧ Shell.isKept tool = false := by
  cases op with
  | apply | delete => exact ⟨"kubectl", _, rfl, by decide⟩
  | helmUninstall | helmUpgrade => exact ⟨"helm", _, rfl, by decide⟩

theorem Planned.isCommand (p : Planned) : IsCommand p.lexemes p.command := by
  obtain ⟨tool, rest, hargv, hkept⟩ := p.op.argv_cons p.index
  have htool := Shell.isCommand_words hkept rest
  have hreport : IsCommand (p.report.map .word) (.command p.report) :=
    Shell.isCommand_words (by decide) _
  unfold Planned.lexemes Planned.command
  rw [hargv]
  cases p.bestEffort with
  | true => exact (htool.isList.or hreport).group
  | false => exact htool

theorem Planned.isCommand_announce (p : Planned) :
    IsCommand (p.announce.map .word) (.command p.announce) :=
  Shell.isCommand_words (by decide) _

theorem lexed_word {word : String} (h : Written word.toList word.toList) :
    Lexed word.toList [.word word] := by
  have hlexed := h.lexed
  rwa [String.ofList_toList] at hlexed

theorem written_step (index : ℕ) :
    Written ("step=" ++ toString index).toList ("step=" ++ toString index).toList := by
  have htext : ("step=" ++ toString index).toList = 's' :: ("tep=" ++ toString index).toList := by
    simp only [String.toList_append]
    rfl
  rw [htext]
  refine Shell.written_plain (by decide) fun c hc => ?_
  rw [String.toList_append, List.mem_append] at hc
  rcases hc with hc | hc
  · have hall : "tep=".toList.all Shell.isPlain = true := by decide
    exact List.all_eq_true.mp hall c hc
  · have hdigit : c.isDigit = true := by
      have hrepr : c ∈ (Nat.repr index).toList := hc
      rw [Nat.repr, String.toList_ofList] at hrepr
      exact Nat.isDigit_of_mem_toDigits (by omega) (by omega) hrepr
    have hascii : AsciiAlnum Char.isDigit := fun d _ hd => by rw [Char.isAlphanum, hd, Bool.or_true]
    exact isPlain_of_first (hascii.isPlainFirst hdigit)

theorem Planned.lexed (h : AsciiAlnum isAlnum) (p : Planned) :
    Lexed (p.text isAlnum).toList (p.announce.map .word ++ .and :: p.lexemes) := by
  obtain ⟨tool, rest, hargv, -⟩ := p.op.argv_cons p.index
  have hecho : Lexed "echo".toList [.word "echo"] :=
    lexed_word (Shell.written_plain (by decide) (List.all_eq_true.mp (by decide)))
  have hmarker : Lexed k8sBestEffortMarker.toList [.word k8sBestEffortMarker] :=
    lexed_word (Shell.written_plain (by decide) (List.all_eq_true.mp (by decide)))
  have hargs : Lexed (quoteAll isAlnum (p.op.argv p.index)).toList ((p.op.argv p.index).map .word) :=
    lexed_quoteAll h (by rw [hargv]; exact List.cons_ne_nil tool rest)
  have hstep : Lexed (("step=" ++ toString p.index).toList ++ [';'])
      [.word ("step=" ++ toString p.index), .semicolon] := by
    have hsemi := (written_step p.index).lexed_semicolon
    rwa [String.ofList_toList] at hsemi
  have hannounce := (hecho.append (lexed_shellQuote h (stepTitle p.index p.op.kind))).append
    Shell.lexed_and
  have hreport := ((hecho.append hmarker).append hstep).append Shell.lexed_closeBrace
  have hgroup := (Shell.lexed_openBrace.append (hargs.append (Shell.lexed_or.append hreport)))
  have hechoText : "echo ".toList = "echo".toList ++ [' '] := by decide
  have handText : " && ".toList = [' ', '&', '&', ' '] := by decide
  have horText : " || echo ".toList = [' ', '|', '|', ' '] ++ ("echo".toList ++ [' ']) := by decide
  have hstepText : " step=".toList = ' ' :: "step=".toList := by decide
  have hendText : "; ".toList = [';', ' '] := by decide
  have hblankText : " ".toList = [' '] := by decide
  unfold Planned.text Planned.lexemes
  dsimp only
  cases p.bestEffort with
  | true =>
    convert hannounce.append hgroup using 1
    · rw [if_pos rfl]
      simp only [String.toList_append, String.toList_singleton, hechoText, handText, horText, hstepText,
        hendText, hblankText, List.append_assoc, List.cons_append, List.nil_append]
    · simp [Planned.announce, Planned.report]
  | false =>
    convert hannounce.append hargs using 1
    · rw [if_neg Bool.false_ne_true]
      simp only [String.toList_append, hechoText, handText, List.append_assoc, List.cons_append,
        List.nil_append]
    · simp [Planned.announce]

theorem Planned.isList (p : Planned) :
    IsList (p.announce.map .word ++ .and :: p.lexemes) (.and (.command p.announce) p.command) :=
  p.isCommand_announce.isList.and p.isCommand

theorem Planned.isList_after {ls : List Lexeme} {s : Script} (h : IsList ls s) (p : Planned) :
    IsList (ls ++ .and :: (p.announce.map .word ++ .and :: p.lexemes)) (p.after s) := by
  have hall := (h.and p.isCommand_announce).and p.isCommand
  rwa [List.append_assoc, List.cons_append] at hall

/-- By induction on the plan, whatever the line begins with. -/
theorem script_foldl (h : AsciiAlnum isAlnum) {front : String} {ls : List Lexeme} {s : Script}
    (htext : Lexed front.toList ls) (hlist : IsList ls s) (plan : List Planned) :
    Shell.script ((plan.map (Planned.text isAlnum)).foldl (fun front part => front ++ " && " ++ part)
      front) = some (plan.foldl (fun s p => p.after s) s) := by
  induction plan generalizing front ls s with
  | nil => exact Shell.script_eq htext hlist
  | cons p plan ih =>
    have hnext : Lexed (front ++ " && " ++ p.text isAlnum).toList
        (ls ++ .and :: (p.announce.map .word ++ .and :: p.lexemes)) := by
      have hall := htext.append (Shell.lexed_and.append (p.lexed h))
      have handText : " && ".toList = [' ', '&', '&', ' '] := by decide
      simpa only [String.toList_append, handText, List.append_assoc, List.cons_append, List.nil_append]
        using hall
    exact ih hnext (p.isList_after hlist)

theorem intercalate_eq_foldl (separator first : String) (parts : List String) :
    separator.intercalate (first :: parts) =
      parts.foldl (fun front part => front ++ separator ++ part) first := by
  induction parts generalizing first with
  | nil => exact String.intercalate_singleton
  | cons part parts ih =>
    rw [List.foldl_cons, ← ih, String.intercalate_cons_cons, String.intercalate_cons_append]

/-- What the shell does with the line of a plan. -/
theorem script_plan (h : AsciiAlnum isAlnum) (p : Planned) (plan : List Planned) :
    ∃ s, Shell.script (" && ".intercalate ((p :: plan).map (Planned.text isAlnum))) = some s ∧
      ∀ (W : Type) (exec : List String → W → ℕ × W) (w : W), s.run exec w = runPlan exec (p :: plan) w := by
  refine ⟨plan.foldl (fun s p => p.after s) (.and (.command p.announce) p.command), ?_,
    fun W exec w => ?_⟩
  · rw [List.map_cons, intercalate_eq_foldl]
    exact script_foldl h (p.lexed h) p.isList plan
  · rw [Planned.run_foldl_after, Planned.run_first]
    rfl

end

/-! ### The documents -/

theorem digits_notMem_dot (index : ℕ) : '.' ∉ (toString index).toList := by
  intro h
  rcases Python.mem_toString_int (n := (index : ℤ)) h with hd | hd
  · exact absurd hd (by decide)
  · exact absurd hd (by decide)

/-- A step's file is another one for another step, and for the other ending. -/
theorem stepFile_injective {i j : ℕ} {x y : List Char} {e e' : String} (he : e.toList = '.' :: x)
    (he' : e'.toList = '.' :: y) (h : stepFile i e = stepFile j e') : i = j := by
  have hchars := congrArg String.toList h
  simp only [stepFile, String.toList_append, he, he', List.append_assoc] at hchars
  have hsplit := Python.append_cons_inj_left (digits_notMem_dot i) (digits_notMem_dot j)
    (List.append_cancel_left hchars)
  have hrepr : Int.repr (i : ℤ) = Int.repr (j : ℤ) := String.toList_injective hsplit.1
  exact Int.ofNat.inj (Int.repr_injective hrepr)

/-- The documents of an operation are files of its own step. -/
theorem Operation.mem_documents {op : Operation} {index : ℕ} {document : String × String}
    (h : document ∈ op.documents index) :
    ∃ ending x, ending.toList = '.' :: x ∧ document.1 = stepFile index ending := by
  cases op with
  | apply | delete =>
    obtain rfl := List.mem_singleton.mp h
    exact ⟨manifestEnding, _, rfl, rfl⟩
  | helmUninstall => cases h
  | helmUpgrade u =>
    unfold documents at h
    cases hvalues : u.values with
    | none =>
      simp only [hvalues] at h
      cases h
    | some values =>
      simp only [hvalues] at h
      obtain rfl := List.mem_singleton.mp h
      exact ⟨valuesEnding, _, rfl, rfl⟩

theorem Operation.documents_length (op : Operation) (index : ℕ) : (op.documents index).length ≤ 1 := by
  cases op with
  | apply | delete => exact Nat.le_refl 1
  | helmUninstall => exact Nat.zero_le 1
  | helmUpgrade u => cases hvalues : u.values <;> simp [documents, hvalues]

theorem writeAll_of_notMem {files : Files} {documents : List (String × String)} {path : String}
    (h : ∀ document ∈ documents, document.1 ≠ path) : files.writeAll documents path = files path := by
  induction documents generalizing files with
  | nil => rfl
  | cons document documents ih =>
    have hrest : (files.write document.1 (Python.encodeUtf8 document.2)).writeAll documents path =
        files.write document.1 (Python.encodeUtf8 document.2) path :=
      ih fun other hother => h other (List.mem_cons_of_mem document hother)
    exact hrest.trans (if_neg (h document List.mem_cons_self).symm)

theorem writePlan_of_notMem {files : Files} {plan : List Planned} {path : String}
    (h : ∀ p ∈ plan, ∀ document ∈ p.op.documents p.index, document.1 ≠ path) :
    files.writePlan plan path = files path := by
  induction plan generalizing files with
  | nil => rfl
  | cons p plan ih =>
    have hrest : (files.writeAll (p.op.documents p.index)).writePlan plan path =
        files.writeAll (p.op.documents p.index) path :=
      ih fun other hother => h other (List.mem_cons_of_mem p hother)
    exact hrest.trans (writeAll_of_notMem (h p List.mem_cons_self))

/-- No step overwrites what another one wrote. -/
theorem writePlan_document {files : Files} {plan : List Planned}
    (hnodup : (plan.map Planned.index).Nodup) {p : Planned} (hp : p ∈ plan)
    {document : String × String} (hdocument : document ∈ p.op.documents p.index) :
    files.writePlan plan document.1 = some (Python.encodeUtf8 document.2) := by
  induction plan generalizing files with
  | nil => cases hp
  | cons first plan ih =>
    rw [List.map_cons, List.nodup_cons] at hnodup
    rcases List.mem_cons.mp hp with rfl | hp
    · have hothers : ∀ q ∈ plan, ∀ other ∈ q.op.documents q.index, other.1 ≠ document.1 := by
        intro q hq other hother heq
        obtain ⟨e, x, he, hpath⟩ := Operation.mem_documents hdocument
        obtain ⟨e', y, he', hpath'⟩ := Operation.mem_documents hother
        have hindex : q.index = p.index :=
          stepFile_injective he' he (hpath'.symm.trans (heq.trans hpath))
        exact hnodup.1 (hindex ▸ List.mem_map_of_mem hq)
      have hself : p.op.documents p.index = [document] := by
        have hlength := p.op.documents_length p.index
        cases hdocuments : p.op.documents p.index with
        | nil =>
          rw [hdocuments] at hdocument
          cases hdocument
        | cons d ds =>
          rw [hdocuments] at hdocument hlength
          have hnil : ds = [] := List.length_eq_zero_iff.mp (by simpa using hlength)
          subst hnil
          rw [List.mem_singleton.mp hdocument]
      have hrest : files.writePlan (p :: plan) document.1 =
          files.writeAll (p.op.documents p.index) document.1 := writePlan_of_notMem hothers
      rw [hrest, hself]
      exact if_pos rfl
    · exact ih hnodup.2 hp

/-! ### From the steps to the line -/

theorem k8sPart_ok {isAlnum : Char → Bool} {index : ℕ} {step : Json} {files files' : Files}
    {part : String} (h : k8sPart isAlnum index step files = .ok (part, files')) :
    ∃ fields, ∃ p : Planned, step = .obj fields ∧ p.index = index ∧ p.op.AskedBy fields ∧
      p.bestEffort = isTrue fields "best_effort" ∧ part = p.text isAlnum ∧
      files' = files.writeAll (p.op.documents p.index) := by
  unfold k8sPart at h
  obtain ⟨⟨argv, files''⟩, hargv, h⟩ := Machine.bind_eq_ok h
  obtain ⟨fields, op, rfl, hasked, rfl, rfl⟩ := k8sStepArgv_ok hargv
  obtain ⟨rfl, rfl⟩ := Prod.mk.inj (Except.ok.inj h)
  refine ⟨fields, ⟨index, op, isTrue fields "best_effort"⟩, rfl, rfl, hasked, rfl, ?_, rfl⟩
  have hkind : (stepKind fields).text = op.kind := by
    rw [stepKind, hasked.1]
    rfl
  rw [hkind]
  rfl

theorem k8sParts_ok {isAlnum : Char → Bool} {index : ℕ} {steps : List Json} {files files' : Files}
    {parts : List String} (h : k8sParts isAlnum index steps files = .ok (parts, files')) :
    ∃ plan, PlanOf index steps plan ∧ parts = plan.map (Planned.text isAlnum) ∧
      files' = files.writePlan plan := by
  induction steps generalizing index files parts with
  | nil =>
    obtain ⟨rfl, rfl⟩ := Prod.mk.inj (Except.ok.inj h)
    exact ⟨[], trivial, rfl, rfl⟩
  | cons step steps ih =>
    unfold k8sParts at h
    obtain ⟨⟨part, filesAfter⟩, hpart, h⟩ := Machine.bind_eq_ok h
    obtain ⟨⟨rest, filesEnd⟩, hrest, h⟩ := Machine.bind_eq_ok h
    obtain ⟨rfl, rfl⟩ := Prod.mk.inj (Except.ok.inj h)
    obtain ⟨fields, p, rfl, hindex, hasked, hbest, rfl, rfl⟩ := k8sPart_ok hpart
    obtain ⟨plan, hplan, rfl, rfl⟩ := ih hrest
    exact ⟨p :: plan, ⟨hindex, hasked, hbest, hplan⟩, rfl, rfl⟩

theorem PlanOf.indexes {index : ℕ} {steps : List Json} {plan : List Planned}
    (h : PlanOf index steps plan) : plan.map Planned.index = List.range' index steps.length := by
  induction steps generalizing index plan with
  | nil =>
    cases plan with
    | nil => rfl
    | cons => cases h
  | cons step steps ih =>
    cases plan with
    | nil => cases step <;> cases h
    | cons p plan =>
      cases step with
      | obj fields =>
        obtain ⟨hindex, -, -, hrest⟩ := h
        rw [List.map_cons, hindex, ih hrest]
        rfl
      | _ => cases h

/-! ### The words that are options -/

def k8sOptions : List String :=
  ["-f", "--ignore-not-found", "--namespace", "--install", "--repo", "--version", "--create-namespace",
   "--wait", "--timeout", "--set", "--values"]

/-- No tool reads the text as an option. -/
def IsOperand (text : String) : Prop := text.toList.head? ≠ some '-'

instance (text : String) : Decidable (IsOperand text) := inferInstanceAs (Decidable (_ ≠ _))

theorem head?_beforeEnd {cs : List Char} {c : Char} (h : (beforeEnd cs).head? = some c) :
    cs.head? = some c := by
  unfold beforeEnd at h
  split at h
  · cases cs with
    | nil => cases h
    | cons d cs =>
      cases cs with
      | nil => cases h
      | cons => exact h
  · exact h

theorem isOperand_of_beforeEnd {text : String} {p : Char → Bool} (hp : p '-' = false)
    (h : (beforeEnd text.toList).head?.any p = true) : IsOperand text := by
  intro hdash
  cases hhead : (beforeEnd text.toList).head? with
  | none =>
    rw [hhead] at h
    cases h
  | some c =>
    rw [hhead] at h
    have hc : c = '-' := Option.some.inj ((head?_beforeEnd hhead).symm.trans hdash)
    rw [hc] at h
    exact absurd (hp.symm.trans h) Bool.false_ne_true

theorem isLabel_operand {longest : ℕ} {text : String} (h : isLabel longest text = true) :
    IsOperand text := by
  simp only [isLabel, Bool.and_eq_true] at h
  exact isOperand_of_beforeEnd (p := isLowerAlnum) (by decide) h.1.1.1

theorem isHeaded_head {first rest : Char → Bool} {longest : ℕ} {cs : List Char}
    (h : isHeaded first rest longest cs = true) : cs.head?.any first = true := by
  cases cs with
  | nil => cases h
  | cons c cs =>
    simp only [isHeaded, Bool.and_eq_true] at h
    exact h.1.1

theorem isHeaded_operand {first rest : Char → Bool} {longest : ℕ} {text : String}
    (hfirst : first '-' = false) (h : isHeaded first rest longest (beforeEnd text.toList) = true) :
    IsOperand text :=
  isOperand_of_beforeEnd hfirst (isHeaded_head h)

theorem k8sRepoRe_operand {text : String} (h : k8sRepoRe text = true) : IsOperand text := by
  simp only [k8sRepoRe, Bool.and_eq_true, decide_eq_true_eq] at h
  obtain ⟨rest, hrest⟩ := h.1.1
  refine isOperand_of_beforeEnd (p := (· = 'h')) (by decide) ?_
  rw [← hrest]
  rfl

theorem k8sSetRe_operand {text : String} (h : k8sSetRe text = true) : IsOperand text := by
  simp only [k8sSetRe, Bool.and_eq_true] at h
  refine isOperand_of_beforeEnd (p := isAlnumOr "_") (by decide) ?_
  have hkey := isHeaded_head h.1
  cases hcs : beforeEnd text.toList with
  | nil =>
    rw [hcs] at hkey
    cases hkey
  | cons c cs =>
    rw [hcs, List.takeWhile_cons] at hkey
    split at hkey
    · exact hkey
    · cases hkey

theorem k8sTimeoutRe_operand {text : String} (h : k8sTimeoutRe text = true) : IsOperand text := by
  simp only [k8sTimeoutRe, Bool.and_eq_true, decide_eq_true_eq] at h
  have hdigits := h.1.1
  refine isOperand_of_beforeEnd (p := Char.isDigit) (by decide) ?_
  cases hcs : beforeEnd text.toList with
  | nil =>
    rw [hcs] at hdigits
    cases hdigits
  | cons c cs =>
    rw [hcs, List.takeWhile_cons] at hdigits
    split at hdigits
    next hc => exact hc
    · cases hdigits

/-- One of the options the steps are written with, or no option. -/
def Allowed (word : String) : Prop := word ∈ k8sOptions ∨ IsOperand word

instance (word : String) : Decidable (Allowed word) := inferInstanceAs (Decidable (_ ∨ _))

theorem Matching.allowed {pattern : String → Bool} (hpattern : ∀ {text}, pattern text = true → IsOperand text)
    (value : Matching pattern) : Allowed value.1 :=
  .inr (hpattern value.2)

theorem givenWords_allowed {pattern : String → Bool}
    (hpattern : ∀ {text}, pattern text = true → IsOperand text) {name : String} (hname : Allowed name)
    (o : Option (Matching pattern)) : ∀ word ∈ givenWords name o, Allowed word := by
  cases o with
  | none => exact List.forall_mem_nil _
  | some value =>
    exact List.forall_mem_cons.mpr ⟨hname, List.forall_mem_singleton.mpr (value.allowed hpattern)⟩

theorem switch_allowed {name : String} (hname : Allowed name) (b : Bool) :
    ∀ word ∈ (if b then [name] else []), Allowed word := by
  cases b with
  | true => exact List.forall_mem_singleton.mpr hname
  | false => exact List.forall_mem_nil _

/-- No field of a step becomes an option. -/
theorem Operation.argv_allowed (op : Operation) (index : ℕ) : ∀ word ∈ op.argv index, Allowed word := by
  have hpath (ending : String) : Allowed ("/" ++ stepFile index ending) := by
    right
    rw [IsOperand, String.toList_append]
    intro hhead
    cases hhead
  cases op with
  | apply manifest =>
    simp only [argv, List.forall_mem_cons, List.not_mem_nil, false_imp_iff, implies_true, and_true]
    exact ⟨by decide, by decide, by decide, hpath _⟩
  | delete manifest =>
    simp only [argv, List.forall_mem_cons, List.not_mem_nil, false_imp_iff, implies_true, and_true]
    exact ⟨by decide, by decide, by decide, by decide, hpath _⟩
  | helmUninstall release space =>
    simp only [argv, List.forall_mem_cons, List.not_mem_nil, false_imp_iff, implies_true, and_true]
    exact ⟨by decide, by decide, release.allowed isLabel_operand, by decide,
      space.allowed isLabel_operand⟩
  | helmUpgrade u =>
    have hfront : ∀ word ∈ ["helm", "upgrade", "--install", u.release.1, u.chart.1, "--namespace",
        u.space.1], Allowed word := by
      simp only [List.forall_mem_cons, List.not_mem_nil, false_imp_iff, implies_true, and_true]
      exact ⟨by decide, by decide, by decide, u.release.allowed isLabel_operand,
        u.chart.allowed (isHeaded_operand (by decide)), by decide, u.space.allowed isLabel_operand⟩
    have hsets : ∀ word ∈ u.sets.flatMap (fun item => ["--set", item.1]), Allowed word := by
      intro word hword
      obtain ⟨item, -, hitem⟩ := List.mem_flatMap.mp hword
      rcases List.mem_cons.mp hitem with rfl | hitem
      · decide
      · rw [List.mem_singleton.mp hitem]
        exact item.allowed k8sSetRe_operand
    have hvalues : ∀ word ∈ (match u.values with
        | none => []
        | some _ => ["--values", "/" ++ stepFile index valuesEnding]), Allowed word := by
      cases u.values with
      | none => exact List.forall_mem_nil _
      | some => exact List.forall_mem_cons.mpr ⟨by decide, List.forall_mem_singleton.mpr (hpath _)⟩
    have hrepo := givenWords_allowed k8sRepoRe_operand (by decide : Allowed "--repo") u.repo
    have hversion := givenWords_allowed (isHeaded_operand (by decide)) (by decide : Allowed "--version")
      u.version
    have htimeout := givenWords_allowed k8sTimeoutRe_operand (by decide : Allowed "--timeout") u.timeout
    have hcreate := switch_allowed (by decide : Allowed "--create-namespace") u.createNamespace
    have hwait := switch_allowed (by decide : Allowed "--wait") u.wait
    intro word hword
    simp only [argv, List.mem_append] at hword
    rcases hword with ((((((hword | hword) | hword) | hword) | hword) | hword) | hword) | hword
    · exact hfront word hword
    · exact hrepo word hword
    · exact hversion word hword
    · exact hcreate word hword
    · exact hwait word hword
    · exact htimeout word hword
    · exact hsets word hword
    · exact hvalues word hword

/-! ### What an accepted job runs -/

theorem k8sCommand_ok {isAlnum : Char → Bool} {steps : Json} {files files' : Files} {line : String}
    (h : k8sCommand isAlnum steps files = .ok (line, files')) :
    ∃ items p plan, steps = .arr items ∧ PlanOf 1 items (p :: plan) ∧
      line = " && ".intercalate ((p :: plan).map (Planned.text isAlnum)) ∧
      files' = files.writePlan (p :: plan) := by
  cases steps with
  | arr items =>
    cases items with
    | nil => cases h
    | cons step rest =>
      have hshort : (step :: rest).length ≤ k8sMaxSteps := by
        by_contra hlong
        cases (if_pos (Nat.lt_of_not_le hlong)).symm.trans h
      have h := (if_neg (Nat.not_lt.mpr hshort)).symm.trans h
      obtain ⟨⟨parts, filesEnd⟩, hparts, h⟩ := Machine.bind_eq_ok h
      obtain ⟨rfl, rfl⟩ := Prod.mk.inj (Except.ok.inj h)
      obtain ⟨plan, hplan, rfl, rfl⟩ := k8sParts_ok hparts
      cases plan with
      | nil =>
        have hlength := congrArg List.length hplan.indexes
        rw [List.length_range'] at hlength
        cases hlength
      | cons p plan => exact ⟨step :: rest, p, plan, rfl, hplan, rfl, rfl⟩
  | _ => cases h

theorem PlanOf.kinds {index : ℕ} {items : List Json} {plan : List Planned} (h : PlanOf index items plan) :
    sealedKinds (.arr items) = plan.map fun p => .str p.op.kind := by
  induction items generalizing index plan with
  | nil =>
    cases plan with
    | nil => rfl
    | cons => cases h
  | cons item items ih =>
    cases plan with
    | nil => cases item <;> cases h
    | cons p plan =>
      cases item with
      | obj step =>
        obtain ⟨-, hasked, -, hrest⟩ := h
        have hkind : stepKind step = .str p.op.kind := by
          rw [stepKind, hasked.1]
          rfl
        show stepKind step :: sealedKinds (.arr items) = _
        rw [hkind, ih hrest]
        rfl
      | _ => cases h

/-- The shell makes of the line what the steps ask for, in the order the signed envelope lists their
kinds. Nothing of a step's fields is read as anything but one word of its own operation, and every
file an operation reads is the one its step brought. -/
theorem runK8sCommand_runs {isAlnum : Char → Bool} (hascii : AsciiAlnum isAlnum) {kinds steps : Json}
    {files files' : Files} {line : String}
    (h : runK8sCommand isAlnum kinds steps files = .ok (line, files')) :
    ∃ items plan script, steps = .arr items ∧ PlanOf 1 items plan ∧
      kinds = .arr (plan.map fun p => .str p.op.kind) ∧ Shell.script line = some script ∧
      (∀ (W : Type) (exec : List String → W → ℕ × W) (w : W),
        script.run exec w = runPlan exec plan w) ∧
      (∀ p ∈ plan, ∀ word ∈ p.op.argv p.index, Allowed word) ∧
      (∀ p ∈ plan, ∀ document ∈ p.op.documents p.index,
        files' document.1 = some (Python.encodeUtf8 document.2)) ∧
      ∀ path, (∀ p ∈ plan, ∀ document ∈ p.op.documents p.index, document.1 ≠ path) →
        files' path = files path := by
  unfold runK8sCommand at h
  split at h
  · cases h
  split at h
  · cases h
  next hkinds =>
    obtain ⟨items, p, plan, rfl, hplan, rfl, rfl⟩ := k8sCommand_ok h
    obtain ⟨script, hscript, hrun⟩ := script_plan hascii p plan
    have hnodup : ((p :: plan).map Planned.index).Nodup := by
      rw [hplan.indexes]
      exact List.nodup_range'
    refine ⟨items, p :: plan, script, rfl, hplan, ?_, hscript, hrun, fun q _ => q.op.argv_allowed q.index,
      fun q hq document hdocument => writePlan_document hnodup hq hdocument,
      fun path hpath => writePlan_of_notMem hpath⟩
    rw [← not_not.mp hkinds, hplan.kinds]

def sampleSteps : Json := .arr
  [.obj [("kind", .str "apply"), ("manifest", .str "kind: Namespace"), ("best_effort", .bool true)],
   .obj [("kind", .str "helm_upgrade"), ("release", .str "web"), ("chart", .str "x/y"),
     ("namespace", .str "prod"), ("set", .arr [.str "motd=it's; reboot"]), ("wait", .bool true)]]

def sampleKinds : Json := .arr [.str "apply", .str "helm_upgrade"]

def sampleLine : String :=
  "echo '--- step 1: apply' && \x7b kubectl apply -f /opt/job/step1.yaml" ++
    " || echo K8S_STEP_BEST_EFFORT_FAILED step=1; \x7d && echo '--- step 2: helm_upgrade'" ++
    " && helm upgrade --install web x/y --namespace prod --wait --set 'motd=it'\"'\"'s; reboot'"

theorem sampleSteps_run : ∃ items plan script, sampleSteps = .arr items ∧ PlanOf 1 items plan ∧
    Shell.script sampleLine = some script ∧ ∀ (W : Type) (exec : List String → W → ℕ × W) (w : W),
      script.run exec w = runPlan exec plan w := by
  have hline : (runK8sCommand Char.isAlphanum sampleKinds sampleSteps fun _ => none).map Prod.fst =
      .ok sampleLine := by decide +kernel
  cases h : runK8sCommand Char.isAlphanum sampleKinds sampleSteps fun _ => none with
  | error e =>
    rw [h] at hline
    cases hline
  | ok result =>
    rw [h] at hline
    obtain ⟨line, files⟩ := result
    obtain rfl : line = sampleLine := Except.ok.inj hline
    obtain ⟨items, plan, script, hitems, hplan, -, hscript, hrun, -⟩ :=
      runK8sCommand_runs (fun _ _ hc => hc) h
    exact ⟨items, plan, script, hitems, hplan, hscript, hrun⟩

end Agent
