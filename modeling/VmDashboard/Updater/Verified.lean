import VmDashboard.Updater.Program

/-!
# Only verified images run

Every container that an upgrade creates runs the image its policy's signer signed, and until that is
known no container is touched.
-/

namespace Upgrading
open Machine (Dialogue)
open Python (Dict Json orElse isDigest isVersion)

abbrev Event := Question × Answer

/-- An upgrade as its request asks for it, and the policy it was read under. -/
structure Release where
  request : Dict
  upgrades : Upgrades
  digest : String
  version : String

def Release.jobId (release : Release) : String := orText (found release.request "job_id")

def Release.ref (release : Release) : String := release.upgrades.repository ++ "@" ++ release.digest

/-- What `handle` compares before anything else. -/
structure Release.Requested (release : Release) : Prop where
  op : found release.request "op" = .str "upgrade"
  repository : found release.request "repository" = .str release.upgrades.repository
  digest : orText (found release.request "digest") = release.digest
  isDigest : isDigest release.digest
  version : orText (found release.request "version") = release.version
  isVersion : isVersion release.version

/-- The digest is exactly `sha256:` and 64 hexadecimal digits. -/
def Release.ByDigest (release : Release) : Prop :=
  ∃ hex : List Char, hex.length = 64 ∧ (∀ c ∈ hex, Python.isLowerHex c) ∧
    release.digest.toList = "sha256:".toList ++ hex

/-- `value.get(key)`, `None` where that would raise. -/
def field (value : Json) (key : String) : Json :=
  match value with
  | .obj items => found items key
  | _ => .null

def versionOf (image : Json) : Json := field (field (field image "Config") "Labels") versionLabel

/-- A pass takes up a request, under a policy that enables upgrades. -/
def TakenUp (request : Dict) (upgrades : Upgrades) (seen : List Event) : Prop :=
  ∃ before status doc, loadUpgrades (orEmpty doc) = .ok (some upgrades) ∧
    seen = before ++ [(.file "request.json", .json (.obj request)), (.file "status.json", status),
      (.policy, .json doc)]

/-- The checks of `_upgrade`, in their order and all of them passed. -/
def Checked (settings : Settings) (release : Release) (seen : List Event) : Prop :=
  ∃ start verifying tail pulling pulled image, TakenUp release.request release.upgrades start ∧
    versionOf image = .str release.version ∧
    seen = start ++ [(.writeStatus release.jobId "verifying" "", verifying),
      (.cosign (cosignArgs settings release.upgrades.verify release.ref), .exit 0 tail),
      (.writeStatus release.jobId "pulling" "", pulling), (.pull release.ref, .json pulled),
      (.imageInspect release.ref, .json image)]

/-- No check is made again and no request is taken up. -/
def Quiet : Question → Prop
  | .policy | .cosign _ | .pull _ => False
  | .file name => name ≠ "request.json"
  | _ => True

def Since (start : List Event → Prop) (seen : List Event) : Prop :=
  ∃ front back, start front ∧ seen = front ++ back ∧ ∀ event ∈ back, Quiet event.1

/-- The request the pass took up is a requested release that has passed every check. -/
def Cleared (settings : Settings) (release : Release) (seen : List Event) : Prop :=
  release.Requested ∧ Since (Checked settings release) seen

/-- The request the pass took up is to restart the agent's container. -/
def Restarting (seen : List Event) : Prop :=
  ∃ request upgrades, found request "op" = .str "restart" ∧ Since (TakenUp request upgrades) seen

/-- Where the updater may put a question. -/
def Vetted (settings : Settings) (seen : List Event) : Question → Prop
  | .create _ body => ∃ release, Cleared settings release seen ∧
      body.get? "Image" = some (.str release.ref)
  | .rename _ _ | .remove _ => ∃ release, Cleared settings release seen
  | .stop _ _ => (∃ release, Cleared settings release seen) ∨ Restarting seen
  | _ => True

theorem Since.append {start : List Event → Prop} {seen : List Event} (h : Since start seen)
    {q : Question} (hq : Quiet q) (a : Answer) : Since start (seen ++ [(q, a)]) := by
  obtain ⟨front, back, hfront, rfl, hback⟩ := h
  refine ⟨front, back ++ [(q, a)], hfront, List.append_assoc .., fun event hevent => ?_⟩
  rcases List.mem_append.mp hevent with hold | hnew
  · exact hback event hold
  · rw [List.mem_singleton.mp hnew]
    exact hq

/-! ### Questions that touch nothing -/

/-- What any request may ask. -/
def Plain : Question → Prop
  | .listAgents | .inspect _ | .imageInspect _ | .start _ | .writeStatus _ _ _ => True
  | .file name => name = "ready"
  | _ => False

section
variable {kind : Question → Prop}

theorem asks_get (value : Json) (key : String) : (get value key).Asks kind := by
  cases value <;> trivial

theorem asks_getOr (value : Json) (key : String) (default : Json) :
    (getOr value key default).Asks kind := by
  cases value <;> trivial

theorem asks_item (value : Json) (key : String) : (item value key).Asks kind := by
  unfold item
  split
  · split <;> trivial
  · trivial

theorem asks_text (value : Json) : (text value).Asks kind := by
  cases value <;> trivial

theorem asks_dict (value : Json) : (dict value).Asks kind := by
  cases value <;> trivial

theorem asks_elements (value : Json) : (elements value).Asks kind := by
  cases value <;> trivial

theorem asks_isIn (needle : String) (value : Json) : (isIn needle value).Asks kind := by
  cases value <;> trivial

theorem asks_slice12 (value : Json) : (slice12 value).Asks kind := by
  cases value <;> trivial

theorem asks_imageRef (repository ref : String) : (imageRef repository ref).Asks kind := by
  unfold imageRef
  split <;> trivial

theorem asks_hashables (value : Json) : (hashables value).Asks kind := by
  refine Dialogue.Asks.bind (asks_elements _) fun items => ?_
  split <;> trivial

theorem asks_endpoints (networks : Dict) : (endpoints networks).Asks kind := by
  induction networks with
  | nil => trivial
  | cons network networks ih =>
    refine Dialogue.Asks.bind (asks_dict _) fun fields => ?_
    exact Dialogue.Asks.bind ih fun rest => trivial

theorem asks_anyPrevious (names : List Json) : (anyPrevious names).Asks kind := by
  induction names with
  | nil => trivial
  | cons n names ih =>
    refine Dialogue.Asks.bind (asks_text _) fun name => ?_
    split
    · trivial
    · exact ih

theorem asks_withoutPrevious (containers : List Json) : (withoutPrevious containers).Asks kind := by
  induction containers with
  | nil => trivial
  | cons c containers ih =>
    refine Dialogue.Asks.bind (asks_get _ _) fun names => ?_
    refine Dialogue.Asks.bind (asks_elements _) fun names => ?_
    refine Dialogue.Asks.bind (asks_anyPrevious names) fun previous => ?_
    exact Dialogue.Asks.bind ih fun rest => trivial

theorem asks_successorBody (old oldImage : Json) (newRef : String) :
    (successorBody old oldImage newRef).Asks kind := by
  unfold successorBody
  refine Dialogue.Asks.bind (asks_get _ _) fun config => ?_
  refine Dialogue.Asks.bind (asks_dict _) fun cfg => ?_
  refine Dialogue.Asks.bind (asks_get _ _) fun imageConfig => ?_
  refine Dialogue.Asks.bind (asks_dict _) fun imageCfg => ?_
  refine Dialogue.Asks.bind (asks_hashables _) fun imageEnv => ?_
  refine Dialogue.Asks.bind (asks_hashables _) fun env => ?_
  refine Dialogue.Asks.bind (asks_get _ _) fun id => ?_
  refine Dialogue.Asks.bind (asks_slice12 _) fun hostname => ?_
  refine Dialogue.Asks.bind (asks_get _ _) fun labels => ?_
  refine Dialogue.Asks.bind (asks_dict _) fun labels => ?_
  refine Dialogue.Asks.bind (asks_get _ _) fun settings => ?_
  refine Dialogue.Asks.bind (asks_get _ _) fun networks => ?_
  refine Dialogue.Asks.bind (asks_dict _) fun networks => ?_
  refine Dialogue.Asks.bind (asks_endpoints _) fun endpoints => ?_
  exact Dialogue.Asks.bind (asks_get _ _) fun hostConfig => trivial

/-- The successor's image is the one its reference names. -/
theorem successorBody_image (old oldImage : Json) (newRef : String) :
    (successorBody old oldImage newRef).Returns fun body =>
      body.get? "Image" = some (.str newRef) := by
  have hupdate (cfg : Dict) (labels hostConfig networking : Json) :
      (Dict.update cfg [("Image", .str newRef), ("Labels", labels), ("HostConfig", hostConfig),
        ("NetworkingConfig", networking)]).get? "Image" = some (.str newRef) := by
    simp only [Dict.update, List.foldl_cons, List.foldl_nil]
    rw [Dict.get?_set_of_ne _ _ (by decide), Dict.get?_set_of_ne _ _ (by decide),
      Dict.get?_set_of_ne _ _ (by decide), Dict.get?_set_self]
  unfold successorBody
  iterate 14 refine Dialogue.Returns.bind fun _ => ?_
  exact Dialogue.Returns.bind fun hostConfig => hupdate _ _ _ _

theorem asks_tell {q : Question} (hq : kind q) : (tell q).Asks kind :=
  ⟨hq, fun answer => by cases answer <;> trivial⟩

theorem asks_docker {q : Question} (hq : kind q) : (docker q).Asks kind :=
  ⟨hq, fun answer => by cases answer <;> trivial⟩

theorem asks_create {repository name : String} {body : Dict} (hq : kind (.create name body)) :
    (create repository name body).Asks kind := by
  unfold create
  refine Dialogue.Asks.bind (asks_get _ _) fun role => ?_
  split
  · refine Dialogue.Asks.bind (asks_text _) fun image => ?_
    refine Dialogue.Asks.bind (asks_imageRef _ _) fun _ => ?_
    exact Dialogue.Asks.bind (asks_docker hq) fun answer => asks_item _ _
  · trivial

theorem asks_readJson {name : String} (hq : kind (.file name)) : (readJson name).Asks kind := by
  refine ⟨hq, fun answer => ?_⟩
  cases answer with
  | json value => cases value <;> trivial
  | error text => trivial
  | exit code tail => trivial
  | lost => trivial

theorem asks_attempt {α : Type} {x : Act α} (hx : x.Asks kind) : (attempt x).Asks kind := by
  refine Dialogue.Asks.handle (Dialogue.Asks.bind hx fun a => trivial) fun raised => ?_
  cases raised <;> trivial

variable (hplain : ∀ q, Plain q → kind q)
include hplain

theorem asks_agent (id : Json) : (agent id).Asks kind := by
  unfold agent
  refine Dialogue.Asks.bind (asks_text _) fun id => ?_
  refine Dialogue.Asks.bind (asks_docker (hplain _ trivial)) fun info => ?_
  refine Dialogue.Asks.bind (asks_getOr _ _ _) fun config => ?_
  refine Dialogue.Asks.bind (asks_get _ _) fun labels => ?_
  refine Dialogue.Asks.bind (asks_get _ _) fun role => ?_
  split <;> trivial

theorem asks_onAgent {q : String → Question} (hq : ∀ id, kind (q id)) (id : Json) :
    (do let _ ← agent id
        let _ ← docker (q (← text id))
        return () : Act Unit).Asks kind := by
  refine Dialogue.Asks.bind (asks_agent hplain id) fun _ => ?_
  refine Dialogue.Asks.bind (asks_text _) fun id => ?_
  exact Dialogue.Asks.bind (asks_docker (hq id)) fun _ => trivial

theorem asks_start (id : Json) : (start id).Asks kind :=
  asks_onAgent hplain (fun id => hplain (.start id) trivial) id

theorem asks_imageInspectId (imageId : Json) : (imageInspectId imageId).Asks kind := by
  unfold imageInspectId
  refine Dialogue.Asks.bind (asks_text _) fun imageId => ?_
  split
  · exact asks_docker (hplain _ trivial)
  · trivial

theorem asks_theAgent : theAgent.Asks kind := by
  unfold theAgent
  refine Dialogue.Asks.bind (asks_docker (hplain _ trivial)) fun containers => ?_
  refine Dialogue.Asks.bind (asks_elements _) fun containers => ?_
  refine Dialogue.Asks.bind (asks_withoutPrevious containers) fun running => ?_
  split
  · exact Dialogue.Asks.bind (asks_item _ _) fun id => asks_agent hplain id
  · trivial

theorem asks_watched (watch : Json) : (watched watch).Asks kind := by
  unfold watched
  split
  · refine Dialogue.Asks.bind (asks_agent hplain watch) fun info => ?_
    refine Dialogue.Asks.bind (asks_get _ _) fun state => ?_
    refine Dialogue.Asks.bind (asks_get _ _) fun running => ?_
    refine Dialogue.Asks.bind (asks_get _ _) fun status => ?_
    refine Dialogue.Asks.bind (asks_get _ _) fun code => ?_
    split
    · trivial
    · refine Dialogue.Asks.bind (asks_get _ _) fun restarting => ?_
      refine Dialogue.Asks.bind (asks_get _ _) fun count => ?_
      dsimp only
      split
      · trivial
      · split <;> trivial
  · trivial

theorem asks_waitReady (jobId version : String) (timeout : ℤ) (watch : Json) (polls : ℕ) :
    (waitReady jobId version timeout watch polls).Asks kind := by
  induction polls with
  | zero => trivial
  | succ polls ih =>
    refine Dialogue.Asks.bind (asks_readJson (hplain (.file "ready") rfl)) fun ready => ?_
    dsimp only
    split
    · split <;> trivial
    · refine Dialogue.Asks.bind (asks_watched hplain watch) fun why => ?_
      split
      · exact ih
      · trivial

theorem asks_writeStatus (jobId state reason : String) : (writeStatus jobId state reason).Asks kind :=
  asks_tell (hplain _ trivial)

end

/-! ### The swap and the restart -/

section
variable {kind : Question → Prop} (hplain : ∀ q, Plain q → kind q)
include hplain

theorem asks_stop (hstop : ∀ id timeout, kind (.stop id timeout)) (id : Json) (timeout : ℤ) :
    (stop id timeout).Asks kind :=
  asks_onAgent hplain (fun id => hstop id timeout) id

theorem asks_rename (hrename : ∀ id name, kind (.rename id name)) (id : Json) (name : String) :
    (rename id name).Asks kind :=
  asks_onAgent hplain (fun id => hrename id name) id

theorem asks_remove (hremove : ∀ id, kind (.remove id)) (id : Json) : (remove id).Asks kind :=
  asks_onAgent hplain hremove id

theorem asks_removePrevious (hremove : ∀ id, kind (.remove id)) (name : String)
    (containers : List Json) : (removePrevious name containers).Asks kind := by
  induction containers with
  | nil => trivial
  | cons c containers ih =>
    refine Dialogue.Asks.bind (asks_get _ _) fun names => ?_
    refine Dialogue.Asks.bind (asks_isIn _ _) fun present => ?_
    cases present with
    | false => exact ih
    | true =>
      refine Dialogue.Asks.bind (asks_item _ _) fun id => ?_
      exact Dialogue.Asks.bind (asks_remove hplain hremove id) fun _ => ih

theorem asks_restore (hstop : ∀ id timeout, kind (.stop id timeout))
    (hrename : ∀ id name, kind (.rename id name)) (hremove : ∀ id, kind (.remove id)) (oldId : Json)
    (name : String) (newId : Json) : (restore oldId name newId).Asks kind := by
  have hback : (do rename oldId name; start oldId : Act Unit).Asks kind :=
    Dialogue.Asks.bind (asks_rename hplain hrename oldId name) fun _ => asks_start hplain oldId
  unfold restore
  split
  · refine Dialogue.Asks.bind
      (Dialogue.Asks.handle (asks_stop hplain hstop newId 10) fun raised => ?_) fun _ =>
      Dialogue.Asks.bind (asks_remove hplain hremove newId) fun _ => hback
    cases raised <;> trivial
  · exact hback

theorem asks_swap (hstop : ∀ id timeout, kind (.stop id timeout))
    (hrename : ∀ id name, kind (.rename id name)) (hremove : ∀ id, kind (.remove id))
    {ref : String} (hcreate : ∀ name body, Dict.get? body "Image" = some (.str ref) →
      kind (.create name body)) (settings : Settings) (clock : Clock) (upgrades : Upgrades)
    (jobId version : String) (old : Json) :
    (swap settings clock upgrades jobId ref version old).Asks kind := by
  have hstatus := asks_writeStatus hplain jobId
  have hrestore := asks_restore hplain hstop hrename hremove
  unfold swap
  refine Dialogue.Asks.bind (asks_item _ _) fun oldId => ?_
  refine Dialogue.Asks.bind (asks_item _ _) fun name => ?_
  refine Dialogue.Asks.bind (asks_text _) fun name => ?_
  refine Dialogue.Asks.bind (asks_get _ _) fun image => ?_
  refine Dialogue.Asks.bind (asks_attempt (asks_imageInspectId hplain _)) fun oldImage => ?_
  refine Dialogue.Asks.bind_returns (asks_successorBody _ _ _) (successorBody_image _ _ _)
    fun body hbody => ?_
  refine Dialogue.Asks.bind (hstatus _ _) fun _ => ?_
  refine Dialogue.Asks.bind (asks_stop hplain hstop _ _) fun _ => ?_
  refine Dialogue.Asks.bind (asks_docker (hplain _ trivial)) fun containers => ?_
  refine Dialogue.Asks.bind (asks_elements _) fun containers => ?_
  refine Dialogue.Asks.bind (asks_removePrevious hplain hremove _ _) fun _ => ?_
  refine Dialogue.Asks.bind (asks_rename hplain hrename _ _) fun _ => ?_
  refine Dialogue.Asks.bind (asks_attempt ?_) fun started => ?_
  · refine Dialogue.Asks.bind (asks_create (hcreate _ _ hbody)) fun newId => ?_
    exact Dialogue.Asks.bind (asks_start hplain newId) fun _ => trivial
  · cases started with
    | error reason =>
      refine Dialogue.Asks.bind (hrestore _ _ _) fun _ => ?_
      exact Dialogue.Asks.bind (hstatus _ _) fun _ => trivial
    | ok newId =>
      refine Dialogue.Asks.bind (hstatus _ _) fun _ => ?_
      refine Dialogue.Asks.bind (asks_waitReady hplain _ _ _ _ _) fun why => ?_
      split
      · refine Dialogue.Asks.bind (asks_remove hplain hremove _) fun _ => ?_
        exact Dialogue.Asks.bind (hstatus _ _) fun _ => trivial
      · refine Dialogue.Asks.bind (hrestore _ _ _) fun _ => ?_
        exact Dialogue.Asks.bind (hstatus _ _) fun _ => trivial

theorem asks_restart (hstop : ∀ id timeout, kind (.stop id timeout)) (settings : Settings)
    (clock : Clock) (upgrades : Upgrades) (jobId version : String) :
    (restart settings clock upgrades jobId version).Asks kind := by
  have hstatus := asks_writeStatus hplain jobId
  unfold restart
  refine Dialogue.Asks.bind (asks_theAgent hplain) fun agent => ?_
  refine Dialogue.Asks.bind (hstatus _ _) fun _ => ?_
  refine Dialogue.Asks.bind (asks_item _ _) fun id => ?_
  refine Dialogue.Asks.bind (asks_stop hplain hstop _ _) fun _ => ?_
  refine Dialogue.Asks.bind (asks_start hplain _) fun _ => ?_
  refine Dialogue.Asks.bind (hstatus _ _) fun _ => ?_
  refine Dialogue.Asks.bind (asks_waitReady hplain _ _ _ _ _) fun why => ?_
  split
  · exact Dialogue.Asks.bind (hstatus _ _) fun _ => trivial
  · exact Dialogue.Asks.bind (hstatus _ _) fun _ => trivial

end

/-! ### One pass -/

section
variable {settings : Settings} {seen : List Event}

theorem vetted_of_plain {q : Question} (hq : Plain q) : Vetted settings seen q := by
  cases q <;> trivial

theorem quiet_of_plain {q : Question} (hq : Plain q) : Quiet q := by
  cases q with
  | file name =>
    have hname : name = "ready" := hq
    rw [hname]
    exact (by decide : "ready" ≠ "request.json")
  | _ => trivial

theorem wp_restart {request : Dict} {upgrades : Upgrades} (h : TakenUp request upgrades seen)
    (hop : found request "op" = .str "restart") (clock : Clock) (jobId version : String) :
    (restart settings clock upgrades jobId version).wp (Vetted settings) (fun _ _ => True) (fun _ _ => True) seen := by
  have hasks : (restart settings clock upgrades jobId version).Asks fun q =>
      Plain q ∨ ∃ id timeout, q = .stop id timeout :=
    asks_restart (fun q hq => .inl hq) (fun id timeout => .inr ⟨id, timeout, rfl⟩) ..
  have hstart : Since (TakenUp request upgrades) seen :=
    ⟨seen, [], h, (List.append_nil seen).symm, fun event hevent => nomatch hevent⟩
  refine Dialogue.wp_mono (hasks.wp (fun l q a hl hq => ?_) (fun l q hl hq => ?_) hstart)
    (fun _ _ _ => trivial) fun _ _ _ => trivial
  · rcases hq with hq | ⟨id, timeout, rfl⟩
    · exact hl.append (quiet_of_plain hq) a
    · exact hl.append (q := .stop id timeout) trivial a
  · rcases hq with hq | ⟨id, timeout, rfl⟩
    · exact vetted_of_plain hq
    · exact .inr ⟨request, upgrades, hop, hl⟩

theorem wp_swap {release : Release} (h : Cleared settings release seen) (clock : Clock) (old : Json) :
    (swap settings clock release.upgrades release.jobId release.ref release.version old).wp
      (Vetted settings) (fun _ _ => True) (fun _ _ => True) seen := by
  have hasks : (swap settings clock release.upgrades release.jobId release.ref release.version
      old).Asks fun q => Quiet q ∧ ∀ name body, q = .create name body →
        Dict.get? body "Image" = some (.str release.ref) := by
    refine asks_swap (fun q hq => ⟨quiet_of_plain hq, fun name body hcreate => ?_⟩)
      (fun id timeout => ⟨trivial, nofun⟩) (fun id name => ⟨trivial, nofun⟩)
      (fun id => ⟨trivial, nofun⟩) (fun name body hbody => ⟨trivial, ?_⟩) ..
    · rw [hcreate] at hq
      exact hq.elim
    · rintro name body ⟨⟩
      exact hbody
  refine Dialogue.wp_mono (hasks.wp (fun l q a hl hq => ?_) (fun l q hl hq => ?_) h)
    (fun _ _ _ => trivial) fun _ _ _ => trivial
  · exact ⟨hl.1, hl.2.append hq.1 a⟩
  · cases q with
    | create name body => exact ⟨release, hl, hq.2 name body rfl⟩
    | rename id name => exact ⟨release, hl⟩
    | remove id => exact ⟨release, hl⟩
    | stop id timeout => exact .inl ⟨release, hl⟩
    | _ => trivial

theorem wp_tell {q : Question} {ok : Unit → List Event → Prop} {error : Raised → List Event → Prop}
    (hq : Vetted settings seen q) (hok : ∀ value, ok () (seen ++ [(q, Answer.json value)]))
    (hlost : ∀ l, error .lost l) : (tell q).wp (Vetted settings) ok error seen := by
  refine ⟨hq, fun answer => ?_⟩
  cases answer with
  | json value => exact hok value
  | _ => exact hlost _

theorem wp_docker {q : Question} {ok : Json → List Event → Prop} {error : Raised → List Event → Prop}
    (hq : Vetted settings seen q) (hok : ∀ value, ok value (seen ++ [(q, Answer.json value)]))
    (herror : ∀ raised l, error raised l) : (docker q).wp (Vetted settings) ok error seen := by
  refine ⟨hq, fun answer => ?_⟩
  cases answer with
  | json value => exact hok value
  | _ => exact herror _ _

theorem wp_verifySignature {verify : Verify} {ref : String}
    {ok : Unit → List Event → Prop} {error : Raised → List Event → Prop}
    (hok : ∀ tail, ok ()
      (seen ++ [(Question.cosign (cosignArgs settings verify ref), Answer.exit 0 tail)]))
    (herror : ∀ raised l, error raised l) :
    (verifySignature settings verify ref).wp (Vetted settings) ok error seen := by
  refine ⟨trivial, fun answer => ?_⟩
  cases answer with
  | exit code tail =>
    dsimp only
    split
    next hcode =>
      rw [hcode]
      exact hok tail
    next => exact herror _ _
  | _ => exact herror _ _

theorem wp_imageRef {repository ref : String} {ok : Unit → List Event → Prop} {error : Raised → List Event → Prop}
    (hok : ok () seen) (herror : ∀ raised l, error raised l) :
    (imageRef repository ref).wp (Vetted settings) ok error seen := by
  unfold imageRef
  split
  · exact hok
  · exact herror _ _

theorem wp_pull {repository ref : String} {ok : Unit → List Event → Prop} {error : Raised → List Event → Prop}
    (hok : ∀ value, ok () (seen ++ [(Question.pull ref, Answer.json value)]))
    (herror : ∀ raised l, error raised l) :
    (pull repository ref).wp (Vetted settings) ok error seen :=
  Dialogue.wp_bind (wp_imageRef
    (Dialogue.wp_bind (wp_docker trivial (fun value => hok value) herror)) herror)

theorem wp_imageInspect {repository ref : String} {ok : Json → List Event → Prop} {error : Raised → List Event → Prop}
    (hok : ∀ value, ok value (seen ++ [(Question.imageInspect ref, Answer.json value)]))
    (herror : ∀ raised l, error raised l) :
    (imageInspect repository ref).wp (Vetted settings) ok error seen :=
  Dialogue.wp_bind (wp_imageRef (wp_docker trivial hok herror) herror)

theorem field_orEmpty (value : Json) (key : String) : field (orEmpty value) key = field value key := by
  unfold orEmpty orElse
  split
  · rfl
  next hfalsy =>
    cases value with
    | obj items =>
      have hitems : items = [] := by simpa [Json.truthy] using hfalsy
      rw [hitems]
    | _ => rfl

theorem wp_get {value : Json} {key : String} {ok : Json → List Event → Prop} {error : Raised → List Event → Prop}
    (hok : ok (field value key) seen) (herror : ∀ raised l, error raised l) :
    (get value key).wp (Vetted settings) ok error seen := by
  cases value with
  | obj items => exact hok
  | _ => exact herror _ _

theorem wp_upgrade {release : Release} (h : TakenUp release.request release.upgrades seen)
    (hrequested : release.Requested) (clock : Clock) :
    (upgrade settings clock release.upgrades release.jobId release.ref release.version).wp
      (Vetted settings) (fun _ _ => True) (fun _ _ => True) seen := by
  unfold upgrade
  refine Dialogue.wp_bind (wp_tell trivial (fun verifying => ?_) fun _ => trivial)
  refine Dialogue.wp_bind (wp_verifySignature (fun tail => ?_) fun _ _ => trivial)
  refine Dialogue.wp_bind (wp_tell trivial (fun pulling => ?_) fun _ => trivial)
  refine Dialogue.wp_bind (wp_pull (fun pulled => ?_) fun _ _ => trivial)
  refine Dialogue.wp_bind (wp_imageInspect (fun image => ?_) fun _ _ => trivial)
  refine Dialogue.wp_bind (wp_get ?_ fun _ _ => trivial)
  refine Dialogue.wp_bind (wp_get ?_ fun _ _ => trivial)
  refine Dialogue.wp_bind (wp_get ?_ fun _ _ => trivial)
  rw [field_orEmpty, field_orEmpty]
  split
  next hversion =>
    have hcleared : Cleared settings release (seen ++
        [(.writeStatus release.jobId "verifying" "", .json verifying),
          (.cosign (cosignArgs settings release.upgrades.verify release.ref), .exit 0 tail),
          (.writeStatus release.jobId "pulling" "", .json pulling),
          (.pull release.ref, .json pulled), (.imageInspect release.ref, .json image)]) :=
      ⟨hrequested, _, [], ⟨seen, _, tail, _, pulled, image, h, hversion, rfl⟩,
        (List.append_nil _).symm, fun event hevent => nomatch hevent⟩
    simp only [List.append_assoc, List.cons_append, List.nil_append]
    have hasks : theAgent.Asks Plain := asks_theAgent fun q hq => hq
    refine Dialogue.wp_bind (Dialogue.wp_mono (hasks.wp (fun l q a hl hq => ?_)
      (fun l q hl hq => vetted_of_plain hq) hcleared) (fun old l' hl' => wp_swap hl' clock old)
      fun _ _ _ => trivial)
    exact ⟨hl.1, hl.2.append (quiet_of_plain hq) a⟩
  next => trivial

theorem wp_carryOut {request : Dict} {upgrades : Upgrades} (h : TakenUp request upgrades seen)
    (clock : Clock) :
    (carryOut settings clock upgrades (orText (found request "job_id")) request).wp
      (Vetted settings) (fun _ _ => True) (fun _ _ => True) seen := by
  unfold carryOut
  dsimp only
  split
  next hrestart => exact wp_restart h hrestart clock _ _
  next =>
    split
    next => trivial
    next hop =>
      split
      next hmatches =>
        have hrequested : Release.Requested ⟨request, upgrades, orText (found request "digest"),
            orText (found request "version")⟩ :=
          ⟨not_not.mp hop, hmatches.1, rfl, hmatches.2.1, rfl, hmatches.2.2⟩
        exact wp_upgrade h hrequested clock
      next => trivial

theorem wp_handle {request : Dict} {upgrades : Option Upgrades}
    (h : ∀ block ∈ upgrades, TakenUp request block seen) (clock : Clock) :
    (handle settings clock request upgrades).wp (Vetted settings) (fun _ _ => True) (fun _ _ => True) seen := by
  have hfailed (l : List Event) (jobId reason : String) :
      (do writeStatus jobId "failed" reason; return "failed" : Act String).wp (Vetted settings)
        (fun _ _ => True) (fun _ _ => True) l :=
    Dialogue.wp_bind (wp_tell trivial (fun value => trivial) fun _ => trivial)
  cases upgrades with
  | none => exact hfailed seen _ _
  | some upgrades =>
    refine Dialogue.wp_handle ?_
    refine Dialogue.wp_mono (wp_carryOut (h upgrades rfl) clock) (fun _ _ _ => trivial)
      fun raised l' _ => ?_
    cases raised with
    | refused reason => exact hfailed l' _ reason
    | docker reason => exact hfailed l' _ _
    | lost => trivial

/-- What the check of the Kubernetes image may ask. -/
def K8sCheck : Question → Prop
  | .policy | .cosign _ | .writeK8sResult _ _ _ _ => True
  | .file name => name = "k8s-image.json"
  | _ => False

theorem asks_checkK8sImage (settings : Settings) (clock : Clock) :
    (checkK8sImage settings clock).Asks K8sCheck := by
  have hpolicy : (readPolicy (loadK8s settings)).Asks K8sCheck :=
    ⟨trivial, fun answer => by cases answer <;> trivial⟩
  have hverify (verify : Verify) (ref : String) :
      (verifySignature settings verify ref).Asks K8sCheck := by
    refine ⟨trivial, fun answer => ?_⟩
    cases answer with
    | exit code tail =>
      dsimp only
      split <;> trivial
    | _ => trivial
  unfold checkK8sImage
  refine Dialogue.Asks.bind hpolicy fun loaded => ?_
  split
  · trivial
  · trivial
  · refine Dialogue.Asks.bind (asks_readJson rfl) fun done => ?_
    dsimp only
    split
    · trivial
    · refine Dialogue.Asks.bind (asks_attempt (hverify _ _)) fun verified => ?_
      split
      · exact Dialogue.Asks.bind (asks_tell trivial) fun _ => trivial
      · exact Dialogue.Asks.bind (asks_tell trivial) fun _ => trivial

theorem vetted_of_k8sCheck {q : Question} (hq : K8sCheck q) : Vetted settings seen q := by
  cases q <;> trivial

theorem wp_readJson {name : String} {ok : (Option Dict) → List Event → Prop} {error : Raised → List Event → Prop}
    (hok : ∀ answer doc, (∀ d ∈ doc, answer = .json (.obj d)) →
      ok doc (seen ++ [(.file name, answer)]))
    (hlost : ∀ l, error .lost l) : (readJson name).wp (Vetted settings) ok error seen := by
  refine ⟨trivial, fun answer => ?_⟩
  cases answer with
  | json value =>
    cases value with
    | obj d =>
      refine hok (.json (.obj d)) (some d) fun d' hd' => ?_
      rw [Option.mem_some.mp hd']
    | _ => exact hok _ none nofun
  | error text => exact hok _ none nofun
  | _ => exact hlost _

theorem wp_readPolicy {α : Type} {load : Json → Except String α}
    {ok : (Except String α) → List Event → Prop} {error : Raised → List Event → Prop}
    (hok : ∀ answer loaded, (∀ a, loaded = .ok a → ∃ doc, answer = .json doc ∧
      load (orEmpty doc) = .ok a) → ok loaded (seen ++ [(.policy, answer)]))
    (hlost : ∀ l, error .lost l) : (readPolicy load).wp (Vetted settings) ok error seen := by
  refine ⟨trivial, fun answer => ?_⟩
  cases answer with
  | json doc => exact hok (.json doc) _ fun a ha => ⟨doc, rfl, ha⟩
  | error text => exact hok (.error text) _ nofun
  | _ => exact hlost _

theorem wp_tick (settings : Settings) (clock : Clock) (seen : List Event) :
    (tick settings clock).wp (Vetted settings) (fun _ _ => True) (fun _ _ => True) seen := by
  unfold tick
  refine Dialogue.wp_bind (wp_tell trivial (fun alive => ?_) fun _ => trivial)
  have hcheck (l : List Event) : (checkK8sImage settings clock).wp (Vetted settings)
      (fun _ _ => True) (fun _ _ => True) l :=
    (asks_checkK8sImage settings clock).wp (fun _ _ _ _ _ => trivial)
      (fun l q _ hq => vetted_of_k8sCheck hq) trivial
  refine Dialogue.wp_bind (Dialogue.wp_mono (hcheck _) (fun checked before _ => ?_) fun _ _ _ => trivial)
  refine Dialogue.wp_bind (wp_readJson (fun answer taken htaken => ?_) fun l => trivial)
  cases taken with
  | none => trivial
  | some request =>
    obtain rfl := htaken request rfl
    dsimp only
    split
    · trivial
    · refine Dialogue.wp_bind (wp_readJson (fun status doc _ => ?_) fun l => trivial)
      split
      · trivial
      · refine Dialogue.wp_bind (wp_readPolicy (fun answer loaded hloaded => ?_) fun l => trivial)
        cases loaded with
        | error reason =>
          exact Dialogue.wp_bind (wp_tell trivial (fun value => trivial) fun _ => trivial)
        | ok upgrades =>
          obtain ⟨doc, rfl, hdoc⟩ := hloaded upgrades rfl
          have htakenUp : ∀ block ∈ upgrades, TakenUp request block (before ++
              [(.file "request.json", .json (.obj request)), (.file "status.json", status),
                (.policy, .json doc)]) := by
            intro block hblock
            rw [Option.mem_def.mp hblock] at hdoc
            exact ⟨before, status, doc, hdoc, rfl⟩
          simp only [List.append_assoc, List.cons_append, List.nil_append]
          exact Dialogue.wp_bind (Dialogue.wp_mono (wp_handle htakenUp clock) (fun _ _ _ => trivial)
            fun _ _ _ => trivial)

end

/-! ### Sequences of passes -/

theorem vetted_of_run {settings : Settings} {passes : List Pass} (seen : List Event)
    {front back : List Event} {q : Question} {a : Answer} (hrun : run settings passes = front ++ (q, a) :: back) :
    Vetted settings (seen ++ front) q := by
  induction passes generalizing seen front with
  | nil => exact absurd hrun (by simp [run])
  | cons pass passes ih =>
    have hcons : run settings (pass :: passes) =
        (tick settings pass.clock).log pass.answers ++ run settings passes := List.flatMap_cons
    rw [hcons] at hrun
    rcases List.append_eq_append_iff.mp hrun with ⟨rest, hfront, hlater⟩ | ⟨rest, hlog, hrest⟩
    · rw [hfront, ← List.append_assoc]
      exact ih _ hlater
    · cases rest with
      | nil =>
        have hlater : Vetted settings (seen ++ front ++ []) q := ih (seen ++ front) hrest.symm
        rwa [List.append_nil] at hlater
      | cons event rest =>
        obtain ⟨rfl, -⟩ := List.cons.inj hrest
        exact Dialogue.allowed_of_wp (wp_tick settings pass.clock seen) hlog

theorem isDigest_exactly {digest : String} (h : isDigest digest) (hbreak : '\n' ∉ digest.toList) :
    ∃ hex : List Char, hex.length = 64 ∧ (∀ c ∈ hex, Python.isLowerHex c) ∧
      digest.toList = "sha256:".toList ++ hex := by
  have hend : Python.beforeEnd digest.toList = digest.toList :=
    if_neg fun hlast => hbreak (List.mem_of_getLast? hlast)
  unfold Python.isDigest at h
  simp only [hend, Bool.and_eq_true, decide_eq_true_eq] at h
  obtain ⟨⟨⟨hex, hhex⟩, hlength⟩, hdigits⟩ := h
  have hseven : "sha256:".toList.length = 7 := by decide
  refine ⟨hex, ?_, fun c hc => List.all_eq_true.mp hdigits c ?_, hhex.symm⟩
  · rw [← hhex, List.length_append, hseven] at hlength
    omega
  · rw [← hhex, List.drop_append_of_le_length hseven.ge, List.drop_of_length_le hseven.le]
    exact hc

/-- cosign verifies no reference with a line break in it. -/
def referenceLegal : Event → Bool
  | (.cosign args, .exit code _) => code ≠ 0 || (args.getLastD "").toList.all (· ≠ '\n')
  | _ => true

theorem byDigest_of_cleared {settings : Settings} {release : Release} {seen : List Event}
    (h : Cleared settings release seen) (hlegal : ∀ event ∈ seen, referenceLegal event) :
    release.ByDigest := by
  obtain ⟨hrequested, front, back, ⟨start, verifying, tail, pulling, pulled, image, -, -, rfl⟩, rfl, -⟩ := h
  have hmem : (Question.cosign (cosignArgs settings release.upgrades.verify release.ref),
      Answer.exit 0 tail) ∈ start ++ [(Question.writeStatus release.jobId "verifying" "", verifying),
        (.cosign (cosignArgs settings release.upgrades.verify release.ref), .exit 0 tail),
        (.writeStatus release.jobId "pulling" "", pulling), (.pull release.ref, .json pulled),
        (.imageInspect release.ref, .json image)] ++ back := by simp
  have hargs : (cosignArgs settings release.upgrades.verify release.ref).getLastD "" =
      release.ref := by
    unfold cosignArgs
    exact List.getLastD_concat
  have href : '\n' ∉ release.ref.toList := by
    have hall := hlegal _ hmem
    rw [referenceLegal, hargs] at hall
    exact fun hin => absurd rfl (of_decide_eq_true (List.all_eq_true.mp hall _ hin))
  refine isDigest_exactly hrequested.isDigest fun hin => href ?_
  rw [Release.ref, String.toList_append]
  exact List.mem_append_right _ hin

def Touches : Question → Prop
  | .create _ _ | .stop _ _ | .rename _ _ | .remove _ => True
  | _ => False

/-- A container is created only of the image that its request and the policy name by digest, that
cosign verified under that policy before it was pulled and whose label is the requested version.
Before all of this is known an upgrade touches no container; a restart stops one. -/
theorem upgrades_verified (settings : Settings) (passes : List Pass)
    (hcosign : ∀ event ∈ run settings passes, referenceLegal event) {front back : List Event}
    {q : Question} {a : Answer} (hrun : run settings passes = front ++ (q, a) :: back) :
    (∀ name body, q = .create name body → ∃ release, Cleared settings release front ∧
      release.ByDigest ∧ Dict.get? body "Image" = some (.str release.ref)) ∧
    (Touches q → (∃ release, Cleared settings release front) ∨
      Restarting front ∧ ∃ id timeout, q = .stop id timeout) := by
  have hvetted : Vetted settings front q := vetted_of_run [] hrun
  have hlegal : ∀ event ∈ front, referenceLegal event := by
    intro event hevent
    refine hcosign event ?_
    rw [hrun]
    exact List.mem_append_left _ hevent
  refine ⟨?_, fun htouches => ?_⟩
  · rintro name body rfl
    obtain ⟨release, hcleared, hbody⟩ := hvetted
    exact ⟨release, hcleared, byDigest_of_cleared hcleared hlegal, hbody⟩
  · cases q with
    | create name body =>
      obtain ⟨release, hcleared, -⟩ := hvetted
      exact .inl ⟨release, hcleared⟩
    | rename id name => exact .inl hvetted
    | remove id => exact .inl hvetted
    | stop id timeout => exact hvetted.imp_right fun hrestarting => ⟨hrestarting, id, timeout, rfl⟩
    | _ => exact htouches.elim

/-! ### One whole upgrade -/

def newDigest : String := "sha256:0123456789abcdef0123456789abcdef0123456789abcdef0123456789abcdef"

def newRef : String := "agent@" ++ newDigest

def pinnedKey : Json := .obj [("upgrades", .obj [("enabled", .bool true),
  ("repository", .str "agent"),
  ("verify", .obj [("public_key", .str "/etc/release.pub")])])]

def upgradeRequest : Json := .obj [("op", .str "upgrade"), ("job_id", .str "job-1"),
  ("repository", .str "agent"), ("digest", .str newDigest), ("version", .str "1.2.3")]

def labelled (label value : String) : Json :=
  .obj [("Config", .obj [("Labels", .obj [(label, .str value)])])]

def oldAgent : Json := .obj [("Id", .str "c1"), ("Name", .str "/agent"),
  ("Config", .obj [("Labels", .obj [(roleLabel, .str "agent")])])]

def agents : Json := .arr [.obj [("Id", .str "c1"), ("Names", .arr [.str "/agent"])]]

def smooth : Pass where
  clock := ⟨1, false⟩
  answers := [.json .null, .json pinnedKey, .json upgradeRequest, .error "absent", .json pinnedKey,
    .json .null, .exit 0 "", .json .null, .json .null, .json (labelled versionLabel "1.2.3"),
    .json agents, .json oldAgent, .json .null, .json oldAgent, .json .null, .json agents,
    .json oldAgent, .json .null, .json (.obj [("Id", .str "c2")])]

def plain : Settings := ⟨"cosign", [], 40, fun image _ => image⟩

def successor : Dict := [("Env", .arr []), ("Image", .str newRef),
  ("Labels", .obj [(roleLabel, .str "agent")]), ("HostConfig", .obj []),
  ("NetworkingConfig", .obj [("EndpointsConfig", .obj [])])]

theorem smooth_run : (run plain [smooth]).drop 18 =
      [(.create "agent" successor, .json (.obj [("Id", .str "c2")]))] ∧
    ∀ event ∈ run plain [smooth], referenceLegal event := by
  decide +kernel

theorem smooth_verified : ∃ release, Cleared plain release ((run plain [smooth]).take 18) ∧
    release.ByDigest ∧ Dict.get? successor "Image" = some (.str release.ref) := by
  have hrun : run plain [smooth] = (run plain [smooth]).take 18 ++
      [(.create "agent" successor, .json (.obj [("Id", .str "c2")]))] := by
    rw [← smooth_run.1, List.take_append_drop]
  exact (upgrades_verified plain [smooth] smooth_run.2 hrun).1 "agent" successor rfl

end Upgrading
