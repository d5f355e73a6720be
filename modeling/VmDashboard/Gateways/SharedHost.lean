import VmDashboard.Gateways.Lifetime

/-!
# The shared gateway host lives as long as something uses it

Nothing in a database row says that a deploy has asked for the host before its resource is
recorded, and the idle teardown of one region never looks at the hosts of another. So both
halves hold along the runs in which a teardown finds nothing active only while no deploy is
under way, and in which every host that stands is one that the teardowns in play would find.
-/

namespace Gateways
open Machine (System Table)

/-- The deploy has asked for its host, and its resource is not recorded. -/
def Work.inFlight : Work → Bool
  | .missing | .launching | .reusing _ | .holding _ => true
  | _ => false

/-- The host an ensure returned for the resource, until the resource is destroyed. -/
def Work.host : Work → Option ℕ
  | .holding host | .live host => host
  | _ => none

def Work.uses (work : Work) : Bool := work.inFlight || work.host.isSome

/-- The teardown is past its count. -/
def Work.reaps : Work → Bool
  | .reaping | .terminating _ => true
  | _ => false

/-- The deploy has looked for a host, and the teardown after the destroy has not ended. -/
def Work.engaged : Work → Bool
  | .started | .ended => false
  | _ => true

def Work.over : Work → Bool
  | .releasing | .reaping | .terminating _ | .ended => true
  | _ => false

def State.InUse (s : State) (host : Host) : Prop :=
  ∃ r ∈ s.resources.rows, r.row.cloud = host.cloud ∧ r.work.host = some host.id

instance (s : State) (host : Host) : Decidable (s.InUse host) :=
  inferInstanceAs (Decidable (∃ r ∈ s.resources.rows, _ ∧ _))

/-- Every host that the teardown for `region` deletes, of those that stand in the cloud. -/
def Finds (cfg : Config) (hosts : List Host) (cloud : Cloud) (region : String) : Prop :=
  ∀ host ∈ hosts, host.cloud = cloud → host.id ∈ reapedHosts cfg cloud region hosts

instance (cfg : Config) (hosts : List Host) (cloud : Cloud) (region : String) :
    Decidable (Finds cfg hosts cloud region) :=
  inferInstanceAs (Decidable (∀ host ∈ hosts, _ → _))

/-- The step deletes no host that a deploy was given and whose resource is still there. -/
def Spares (cfg : Config) (s : State) (event : Event) : Prop :=
  ∀ t ∈ (gateways cfg).step s event, ∀ host ∈ s.hosts, host ∉ t.hosts → ¬s.InUse host

instance (cfg : Config) : ∀ s event, Decidable (Spares cfg s event) := fun s event =>
  inferInstanceAs (Decidable (∀ t ∈ (gateways cfg).step s event, ∀ host ∈ s.hosts, _ → _))

/-- Where no resource is left and every teardown has ended, no host stands. -/
def NoneLeft (cfg : Config) (s : State) : Prop :=
  ∀ cloud, activeWebJumpCount cfg cloud = 0 →
    (∀ r ∈ s.resources.rows, r.row.cloud = cloud → r.work = .ended) →
      ∀ host ∈ s.hosts, host.cloud ≠ cloud

/-- When a deploy looks for its host no teardown in its cloud is past its count, and the
teardown for its region would find every host there; so would, after a launch, each teardown
in play; and a teardown that finds nothing active counts while no deploy is under way. -/
def Orderly (cfg : Config) (s : State) : Event → Prop
  | .look id =>
    ∀ r ∈ s.resources.lookup id,
      (∀ r' ∈ s.resources.rows, r'.row.cloud = r.row.cloud → r'.work.reaps = false) ∧
        Finds cfg s.hosts r.row.cloud r.region
  | .launch id zone =>
    ∀ r ∈ s.resources.lookup id, ∀ place ∈ launchPlace cfg r.row.cloud r.region zone,
      ∀ r' ∈ s.resources.rows, r'.row.cloud = r.row.cloud → r'.work.engaged = true →
        Finds cfg (launchHost r.row.cloud place s.next s.hosts).2 r.row.cloud r'.region
  | .count id =>
    ∀ r ∈ s.resources.lookup id, activeCount cfg s.rows r.row.cloud = 0 →
      ∀ r' ∈ s.resources.rows, r'.row.cloud = r.row.cloud → r'.work.inFlight = false
  | _ => True

instance (cfg : Config) : ∀ s event, Decidable (Orderly cfg s event)
  | s, .look id =>
    inferInstanceAs (Decidable (∀ r ∈ s.resources.lookup id,
      (∀ r' ∈ s.resources.rows, _ → _) ∧ Finds cfg s.hosts r.row.cloud r.region))
  | s, .launch id zone =>
    inferInstanceAs (Decidable (∀ r ∈ s.resources.lookup id,
      ∀ place ∈ launchPlace cfg r.row.cloud r.region zone, ∀ r' ∈ s.resources.rows, _ → _ → Finds ..))
  | s, .count id =>
    inferInstanceAs (Decidable (∀ r ∈ s.resources.lookup id, _ → ∀ r' ∈ s.resources.rows, _ → _))
  | _, .start .. | _, .recheck _ | _, .reuse _ | _, .record .. | _, .destroy _ | _, .find _
  | _, .delete _ => inferInstanceAs (Decidable True)

/-! ### What the counts see -/

/-- The row counts for its cloud. -/
def Row.active : Row → Bool
  | .database _ status source =>
    status ≠ .decommissioned && source.getD .provisioned ≠ .registered
  | .deployJob jobType completed destroyed host =>
    completed && !destroyed && (host.isSome || jobType = .ec2 || jobType = .oci)
  | .praTunnel _ _ jump | .apiTunnel _ _ jump | .desktop _ jump | .otTunnel _ jump => jump.isSome

@[simp] theorem cloud_recorded (row : Row) (host : Option ℕ) (jump : ℕ) :
    (row.recorded host jump).cloud = row.cloud := by
  cases row <;> rfl

@[simp] theorem cloud_destroyed (row : Row) : row.destroyed.cloud = row.cloud := by
  cases row <;> rfl

theorem active_destroyed (row : Row) : row.destroyed.active = false := by
  cases row <;> simp [Row.destroyed, Row.active]

theorem active_recorded {row : Row} (hborn : ∃ kind : Kind, row = kind.born) (host jump : ℕ) :
    (row.recorded (some host) jump).active = true := by
  obtain ⟨kind, rfl⟩ := hborn
  cases kind <;> simp [Kind.born, Row.recorded, Row.active]

theorem activeVmCount_pos {rows : List Row} {cloud : Cloud} :
    0 < activeVmCount rows cloud ↔
      ∃ t c d h, .deployJob t c d h ∈ rows ∧ t.cloud = cloud ∧ (Row.deployJob t c d h).active = true := by
  constructor
  · intro hpos
    cases cloud with
    | aws | gcp | azure | oci =>
      obtain ⟨row, hrow, hp⟩ := List.countP_pos_iff.mp hpos
      cases row with
      | deployJob t c d h =>
        obtain ⟨⟨rfl, rfl⟩, hd⟩ : (t = _ ∧ c = true) ∧ _ := by simpa [and_assoc] using hp
        exact ⟨_, _, d, h, hrow, rfl, by simpa [Row.active] using hd⟩
      | database | praTunnel | apiTunnel | desktop | otTunnel => simp at hp
  · rintro ⟨t, c, d, h, hrow, rfl, hactive⟩
    cases t with
    | ec2 | gce | azure | oci =>
      exact List.countP_pos_iff.mpr ⟨_, hrow, by simpa [Row.active] using hactive⟩

theorem activeK8sCount_pos {rows : List Row} {cloud : Cloud} :
    0 < activeK8sCount rows cloud ↔ ∃ row ∈ rows, (row.tunnelled cloud).isSome := by
  rw [activeK8sCount, List.length_pos_iff_exists_mem]
  simp only [List.mem_dedup, List.mem_filterMap, Option.isSome_iff_exists]
  constructor
  · rintro ⟨cluster, row, hrow, hcluster⟩
    exact ⟨row, hrow, cluster, hcluster⟩
  · rintro ⟨row, hrow, cluster, hcluster⟩
    exact ⟨cluster, row, hrow, hcluster⟩

theorem activeCount_pos {cfg : Config} {rows : List Row} {cloud : Cloud} :
    0 < activeCount cfg rows cloud ↔
      0 < activeWebJumpCount cfg cloud ∨ ∃ row ∈ rows, row.cloud = cloud ∧ row.active = true := by
  constructor
  · intro hpos
    by_contra hnone
    push Not at hnone
    obtain ⟨hweb, hrows⟩ := hnone
    have hdb : ¬0 < activeDbCount rows cloud := by
      intro h
      obtain ⟨row, hrow, hp⟩ := List.countP_pos_iff.mp h
      cases row with
      | database c status source =>
        obtain ⟨rfl, hp⟩ : c = cloud ∧ _ := by simpa [and_assoc] using hp
        exact hrows _ hrow rfl (by simpa [Row.active] using hp)
      | deployJob | praTunnel | apiTunnel | desktop | otTunnel => simp at hp
    have hvm : ¬0 < activeVmCount rows cloud := by
      intro h
      obtain ⟨t, c, d, host, hrow, hcloud, hactive⟩ := activeVmCount_pos.mp h
      exact hrows _ hrow hcloud hactive
    have hk8s : ¬0 < activeK8sCount rows cloud := by
      intro h
      obtain ⟨row, hrow, hsome⟩ := activeK8sCount_pos.mp h
      cases row with
      | praTunnel cluster c jump | apiTunnel cluster c jump =>
        have hp : c = cloud ∧ jump.isSome := by
          by_contra hn
          simp [Row.tunnelled, hn] at hsome
        exact hrows _ hrow hp.1 hp.2
      | database | deployJob | desktop | otTunnel => simp [Row.tunnelled] at hsome
    have hdesktop : ¬0 < activeVdesktopCount rows cloud := by
      intro h
      obtain ⟨row, hrow, hp⟩ := List.countP_pos_iff.mp h
      cases row with
      | desktop c jump =>
        have hp : c = cloud ∧ jump.isSome := by simpa using hp
        exact hrows _ hrow hp.1 hp.2
      | database | deployJob | praTunnel | apiTunnel | otTunnel => simp at hp
    have hot : ¬0 < activeOtTunnelCount rows cloud := by
      intro h
      obtain ⟨row, hrow, hp⟩ := List.countP_pos_iff.mp h
      cases row with
      | otTunnel c jump =>
        have hp : c = cloud ∧ jump.isSome := by simpa using hp
        exact hrows _ hrow hp.1 hp.2
      | database | deployJob | praTunnel | apiTunnel | desktop => simp at hp
    rw [activeCount] at hpos
    omega
  · rw [activeCount]
    rintro (hweb | ⟨row, hrow, rfl, hactive⟩)
    · omega
    cases row with
    | database c status source =>
      have h : 0 < activeDbCount rows c :=
        List.countP_pos_iff.mpr ⟨_, hrow, by simpa [Row.active] using hactive⟩
      simp only [Row.cloud]
      omega
    | deployJob t c d host =>
      have h : 0 < activeVmCount rows t.cloud :=
        activeVmCount_pos.mpr ⟨t, c, d, host, hrow, rfl, hactive⟩
      simp only [Row.cloud]
      omega
    | praTunnel cluster c jump | apiTunnel cluster c jump =>
      have hjump : jump.isSome := hactive
      have h : 0 < activeK8sCount rows c :=
        activeK8sCount_pos.mpr ⟨_, hrow, by simp [Row.tunnelled, hjump]⟩
      simp only [Row.cloud]
      omega
    | desktop c jump =>
      have h : 0 < activeVdesktopCount rows c :=
        List.countP_pos_iff.mpr ⟨_, hrow, by simpa [Row.active] using hactive⟩
      simp only [Row.cloud]
      omega
    | otTunnel c jump =>
      have h : 0 < activeOtTunnelCount rows c :=
        List.countP_pos_iff.mpr ⟨_, hrow, by simpa [Row.active] using hactive⟩
      simp only [Row.cloud]
      omega

/-! ### What a run keeps -/

structure Resource.Sound (cfg : Config) (hosts : List Host) (r : Resource) : Prop where
  finds : r.work.engaged = true → Finds cfg hosts r.row.cloud r.region
  caught : ∀ ids, r.work = .terminating ids →
    ∀ host ∈ hosts, host.cloud = r.row.cloud → host.id ∈ ids
  /-- the row is still as it was born until the resource is recorded -/
  born : r.work = .started ∨ r.work.inFlight = true → ∃ kind : Kind, r.row = kind.born
  recorded : ∀ host, r.work = .live (some host) → r.row.active = true
  spent : r.work.over = true → r.row.active = false

structure Settled (cfg : Config) (s : State) : Prop where
  sound : ∀ r ∈ s.resources.rows, r.Sound cfg s.hosts
  /-- past the count of a teardown no resource of its cloud uses a host -/
  apart : ∀ r ∈ s.resources.rows, ∀ r' ∈ s.resources.rows, r'.row.cloud = r.row.cloud →
    r.work.reaps = true → r'.work.uses = false
  owed : ∀ host ∈ s.hosts, 0 < activeWebJumpCount cfg host.cloud ∨
    ∃ r ∈ s.resources.rows, r.row.cloud = host.cloud ∧ r.work ≠ .ended

theorem mem_set {s : State} {id : ℕ} {f : Resource → Resource} {hf : ∀ r, (f r).id = r.id}
    {r r' : Resource} (hr : s.resources.lookup id = some r)
    (hr' : r' ∈ (s.set id f hf).resources.rows) :
    r' = f r ∨ r' ∈ s.resources.rows ∧ r'.id ≠ id := by
  obtain ⟨r₀, hr₀, rfl⟩ := List.mem_map.mp hr'
  obtain ⟨hmem, rfl⟩ := Table.lookup_eq_some.mp hr
  by_cases hid : r₀.id = r.id
  · obtain rfl := Table.eq_of_key hr₀ hmem hid
    simp
  · simp [hid, hr₀]

theorem set_mem {s : State} {id : ℕ} {f : Resource → Resource} {hf : ∀ r, (f r).id = r.id}
    {r : Resource} (hr : s.resources.lookup id = some r) :
    f r ∈ (s.set id f hf).resources.rows := by
  obtain ⟨hmem, rfl⟩ := Table.lookup_eq_some.mp hr
  exact List.mem_map.mpr ⟨r, hmem, by simp⟩

theorem set_mem_of_ne {s : State} {id : ℕ} {f : Resource → Resource} {hf : ∀ r, (f r).id = r.id}
    {r : Resource} (hr : r ∈ s.resources.rows) (hid : r.id ≠ id) :
    r ∈ (s.set id f hf).resources.rows := List.mem_map.mpr ⟨r, hr, by simp [hid]⟩

/-- A resource moves on: what it needs to keep the rest settled. -/
theorem Settled.move {cfg : Config} {s : State} (h : Settled cfg s) {id : ℕ} {r : Resource}
    (hr : s.resources.lookup id = some r) {f : Resource → Resource} {hf : ∀ r, (f r).id = r.id}
    (hcloud : (f r).row.cloud = r.row.cloud) (hsound : (f r).Sound cfg s.hosts)
    (hreaps : (f r).work.reaps = true → (f r).work.uses = false ∧
      ∀ r' ∈ s.resources.rows, r'.row.cloud = r.row.cloud → r'.id ≠ id → r'.work.uses = false)
    (huses : (f r).work.uses = true →
      ∀ r' ∈ s.resources.rows, r'.row.cloud = r.row.cloud → r'.work.reaps = false)
    (howed : (f r).work = .ended → ∀ host ∈ s.hosts, host.cloud = r.row.cloud →
      0 < activeWebJumpCount cfg host.cloud ∨
        ∃ r' ∈ s.resources.rows, r'.id ≠ id ∧ r'.row.cloud = host.cloud ∧ r'.work ≠ .ended) :
    Settled cfg (s.set id f hf) where
  sound := by
    intro r' hr'
    rcases mem_set hr hr' with rfl | ⟨hr', -⟩
    · exact hsound
    · exact h.sound r' hr'
  apart := by
    intro r₁ hr₁ r₂ hr₂ hsame hr₁reaps
    rcases mem_set hr hr₁ with rfl | ⟨hr₁, hid₁⟩ <;> rcases mem_set hr hr₂ with rfl | ⟨hr₂, hid₂⟩
    · exact (hreaps hr₁reaps).1
    · exact (hreaps hr₁reaps).2 r₂ hr₂ (hsame.trans hcloud) hid₂
    · by_contra hu
      have hno := huses (Bool.not_eq_false _ ▸ hu) r₁ hr₁ (hsame.symm.trans hcloud)
      exact absurd hr₁reaps (by simp [hno])
    · exact h.apart r₁ hr₁ r₂ hr₂ hsame hr₁reaps
  owed := by
    intro host hhost
    rcases h.owed host hhost with hweb | ⟨r', hr', hsame, hwork⟩
    · exact Or.inl hweb
    by_cases hid : r'.id = id
    · subst hid
      obtain ⟨hmem, heq⟩ := Table.lookup_eq_some.mp hr
      obtain rfl := Table.eq_of_key hmem hr' heq
      by_cases hended : (f r).work = .ended
      · rcases howed hended host hhost hsame.symm with hweb | ⟨r', hr', hid, hsame, hwork⟩
        · exact Or.inl hweb
        · exact Or.inr ⟨r', set_mem_of_ne hr' hid, hsame, hwork⟩
      · exact Or.inr ⟨f r, set_mem hr, hcloud.trans hsame, hended⟩
    · exact Or.inr ⟨r', set_mem_of_ne hr' hid, hsame, hwork⟩

/-- The same hosts, as far as other clouds go. -/
theorem reapedHosts_congr {cfg : Config} {cloud : Cloud} {region : String} {hosts hosts' : List Host}
    (h : (hosts'.filter fun host => host.cloud = cloud) = hosts.filter fun host => host.cloud = cloud) :
    reapedHosts cfg cloud region hosts' = reapedHosts cfg cloud region hosts := by
  simp only [reapedHosts, h]

theorem finds_congr {cfg : Config} {cloud : Cloud} {region : String} {hosts hosts' : List Host}
    (h : (hosts'.filter fun host => host.cloud = cloud) = hosts.filter fun host => host.cloud = cloud)
    (hfinds : Finds cfg hosts cloud region) : Finds cfg hosts' cloud region := by
  intro host hhost hcloud
  have hmem : host ∈ hosts'.filter fun host => host.cloud = cloud :=
    List.mem_filter.mpr ⟨hhost, decide_eq_true hcloud⟩
  rw [h] at hmem
  rw [reapedHosts_congr h]
  exact hfinds host (List.mem_filter.mp hmem).1 hcloud

theorem Resource.Sound.congr {cfg : Config} {hosts hosts' : List Host} {r : Resource}
    (h : (hosts'.filter fun host => host.cloud = r.row.cloud) =
      hosts.filter fun host => host.cloud = r.row.cloud)
    (hr : r.Sound cfg hosts) : r.Sound cfg hosts' where
  finds := fun hengaged => finds_congr h (hr.finds hengaged)
  caught := by
    intro ids hids host hhost hcloud
    have hmem : host ∈ hosts'.filter fun host => host.cloud = r.row.cloud :=
      List.mem_filter.mpr ⟨hhost, decide_eq_true hcloud⟩
    rw [h] at hmem
    exact hr.caught ids hids host (List.mem_filter.mp hmem).1 hcloud
  born := hr.born
  recorded := hr.recorded
  spent := hr.spent

/-- Beside a resource that uses a host no teardown of its cloud is past its count. -/
theorem Settled.no_reaps {cfg : Config} {s : State} (h : Settled cfg s) {r : Resource}
    (hr : r ∈ s.resources.rows) (huses : r.work.uses = true) :
    ∀ r' ∈ s.resources.rows, r'.row.cloud = r.row.cloud → r'.work.reaps = false := by
  intro r' hr' hsame
  by_contra hreaps
  have hno := h.apart r' hr' r hr hsame.symm (Bool.not_eq_false _ ▸ hreaps)
  exact absurd huses (by simp [hno])

/-- A deploy that has looked takes its next step towards its host. -/
theorem Settled.proceed {cfg : Config} {s : State} (h : Settled cfg s) {r : Resource}
    (hr : s.resources.lookup r.id = some r) (hold : r.work.inFlight = true) {work : Work}
    (hnew : work.inFlight = true) : Settled cfg (s.setWork r.id work) := by
  have hmem := (Table.lookup_eq_some.mp hr).1
  have hsound := h.sound r hmem
  have huses : r.work.uses = true := by simp [Work.uses, hold]
  have hengaged : r.work.engaged = true := by
    cases hw : r.work <;> simp_all [Work.inFlight, Work.engaged]
  refine h.move hr rfl ⟨?_, ?_, ?_, ?_, ?_⟩ ?_ ?_ ?_
  · exact fun _ => hsound.finds hengaged
  · rintro ids rfl
    simp [Work.inFlight] at hnew
  · exact fun _ => hsound.born (Or.inr hold)
  · rintro host rfl
    simp [Work.inFlight] at hnew
  · intro hover
    cases work <;> simp_all [Work.inFlight, Work.over, Resource.setWork]
  · intro hreaps
    cases work <;> simp_all [Work.inFlight, Work.reaps, Resource.setWork]
  · exact fun _ => h.no_reaps hmem huses
  · rintro rfl
    simp [Work.inFlight] at hnew

theorem found_inFlight (host : Option Host) {otherwise : Work} (h : otherwise.inFlight = true) :
    (found host otherwise).inFlight = true := by
  cases host with
  | none => exact h
  | some host => rfl

theorem settled_start {cfg : Config} {s : State} (h : Settled cfg s) {id : ℕ} {kind : Kind}
    {region : String} {resources : Table Resource.id}
    (hinsert : s.resources.insert ⟨id, region, kind.born, .started⟩ = some resources) :
    Settled cfg { s with resources } := by
  have hrows := (Table.insert_eq_some hinsert).2
  have hmem : ∀ r ∈ resources.rows, r ∈ s.resources.rows ∨ r = ⟨id, region, kind.born, .started⟩ := by
    intro r hr
    rw [hrows] at hr
    simpa using hr
  refine ⟨?_, ?_, ?_⟩
  · intro r hr
    rcases hmem r hr with hr | rfl
    · exact h.sound r hr
    · exact ⟨by simp [Work.engaged], by simp, fun _ => ⟨kind, rfl⟩, by simp, by simp [Work.over]⟩
  · intro r hr r' hr' hsame hreaps
    rcases hmem r hr with hr | rfl <;> rcases hmem r' hr' with hr' | rfl
    · exact h.apart r hr r' hr' hsame hreaps
    · rfl
    · simp [Work.reaps] at hreaps
    · rfl
  · intro host hhost
    rcases h.owed host hhost with hweb | ⟨r, hr, hsame, hwork⟩
    · exact Or.inl hweb
    · exact Or.inr ⟨r, by simp [hrows, hr], hsame, hwork⟩

theorem settled_look {cfg : Config} {s t : State} (h : Settled cfg s) {r : Resource}
    (hr : s.resources.lookup r.id = some r) (horderly : Orderly cfg s (.look r.id))
    (hstep : onLook cfg s r = some t) : Settled cfg t := by
  obtain ⟨hreaps, hfinds⟩ := horderly r hr
  have hmem := (Table.lookup_eq_some.mp hr).1
  have hlooked : ∀ work : Work, work.inFlight = true → r.work = .started →
      Settled cfg (s.setWork r.id work) := by
    intro work hnew hstarted
    refine h.move hr rfl ⟨fun _ => hfinds, ?_, ?_, ?_, ?_⟩ ?_ ?_ ?_
    · rintro ids rfl
      simp [Work.inFlight] at hnew
    · exact fun _ => (h.sound r hmem).born (Or.inl hstarted)
    · rintro host rfl
      simp [Work.inFlight] at hnew
    · intro hover
      cases work <;> simp_all [Work.inFlight, Work.over, Resource.setWork]
    · intro hreaps
      cases work <;> simp_all [Work.inFlight, Work.reaps, Resource.setWork]
    · exact fun _ => hreaps
    · rintro rfl
      simp [Work.inFlight] at hnew
  rw [onLook] at hstep
  split at hstep
  next hstarted =>
    dsimp only at hstep
    split at hstep
    · obtain rfl := Option.some.inj hstep
      refine hlooked _ (found_inFlight _ ?_) hstarted
      split <;> rfl
    · obtain rfl := Option.some.inj hstep
      exact hlooked _ rfl hstarted
  next => simp at hstep

theorem settled_recheck {cfg : Config} {s t : State} (h : Settled cfg s) {r : Resource}
    (hr : s.resources.lookup r.id = some r) (hstep : onRecheck cfg s r = some t) :
    Settled cfg t := by
  rw [onRecheck] at hstep
  split at hstep
  next hwork =>
    obtain rfl := Option.some.inj hstep
    exact h.proceed hr (by simp [hwork, Work.inFlight]) (found_inFlight _ rfl)
  next => simp at hstep

theorem settled_reuse {cfg : Config} {s t : State} (h : Settled cfg s) {r : Resource}
    (hr : s.resources.lookup r.id = some r) (hstep : onReuse s r = some t) : Settled cfg t := by
  rw [onReuse] at hstep
  split at hstep
  next host hwork =>
    obtain rfl := Option.some.inj hstep
    exact h.proceed hr (by simp [hwork, Work.inFlight]) rfl
  next => simp at hstep

theorem settled_record {cfg : Config} {s t : State} (h : Settled cfg s) {r : Resource}
    (hr : s.resources.lookup r.id = some r) {jump : ℕ} (hstep : onRecord s r jump = some t) :
    Settled cfg t := by
  have hmem := (Table.lookup_eq_some.mp hr).1
  rw [onRecord] at hstep
  split at hstep
  next host hwork =>
    obtain rfl := Option.some.inj hstep
    have hsound := h.sound r hmem
    have hborn := hsound.born (Or.inr (by simp [hwork, Work.inFlight]))
    have hfinds := hsound.finds (by simp [hwork, Work.engaged])
    refine h.move hr (cloud_recorded _ _ _) ⟨?_, ?_, ?_, ?_, ?_⟩ ?_ ?_ ?_
    · intro _
      simpa [Resource.record] using hfinds
    · simp [Resource.record]
    · simp [Resource.record, Work.inFlight]
    · intro host' hhost'
      obtain rfl : host = some host' := by simpa [Resource.record] using hhost'
      exact active_recorded hborn host' jump
    · simp [Resource.record, Work.over]
    · simp [Resource.record, Work.reaps]
    · exact fun _ => h.no_reaps hmem (by simp [hwork, Work.uses, Work.inFlight])
    · simp [Resource.record]
  next => simp at hstep

theorem settled_destroy {cfg : Config} {s t : State} (h : Settled cfg s) {r : Resource}
    (hr : s.resources.lookup r.id = some r) (hstep : onDestroy s r = some t) : Settled cfg t := by
  have hmem := (Table.lookup_eq_some.mp hr).1
  rw [onDestroy] at hstep
  split at hstep
  next host hwork =>
    obtain rfl := Option.some.inj hstep
    have hfinds := (h.sound r hmem).finds (by simp [hwork, Work.engaged])
    refine h.move hr (cloud_destroyed _) ⟨?_, ?_, ?_, ?_, ?_⟩ ?_ ?_ ?_
    · intro _
      simpa [Resource.destroy] using hfinds
    · simp [Resource.destroy]
    · simp [Resource.destroy, Work.inFlight]
    · simp [Resource.destroy]
    · exact fun _ => active_destroyed r.row
    · simp [Resource.destroy, Work.reaps]
    · simp [Resource.destroy, Work.uses, Work.inFlight, Work.host]
    · simp [Resource.destroy]
  next => simp at hstep

theorem settled_count {cfg : Config} {s t : State} (h : Settled cfg s) {r : Resource}
    (hr : s.resources.lookup r.id = some r) (horderly : Orderly cfg s (.count r.id))
    (hstep : onCount cfg s r = some t) : Settled cfg t := by
  have hmem := (Table.lookup_eq_some.mp hr).1
  have hsound := h.sound r hmem
  rw [onCount] at hstep
  split at hstep
  next hwork =>
    have hspent := hsound.spent (by simp [hwork, Work.over])
    obtain rfl := Option.some.inj hstep
    split
    next hactive =>
      refine h.move hr rfl ⟨?_, ?_, ?_, ?_, fun _ => hspent⟩ ?_ ?_ ?_
      · simp [Resource.setWork, Work.engaged]
      · simp [Resource.setWork]
      · simp [Resource.setWork, Work.inFlight]
      · simp [Resource.setWork]
      · simp [Resource.setWork, Work.reaps]
      · simp [Resource.setWork, Work.uses, Work.inFlight, Work.host]
      · intro _ host _ hcloud
        rw [hcloud]
        rcases activeCount_pos.mp hactive with hweb | ⟨row, hrow, hsame, hcounts⟩
        · exact Or.inl hweb
        obtain ⟨r', hr', rfl⟩ := List.mem_map.mp hrow
        refine Or.inr ⟨r', hr', ?_, hsame, ?_⟩
        · intro hid
          obtain rfl := Table.eq_of_key hr' hmem hid
          simp [hspent] at hcounts
        · intro hended
          simp [(h.sound r' hr').spent (by simp [hended, Work.over])] at hcounts
    next hidle =>
      have hzero : activeCount cfg s.rows r.row.cloud = 0 := by omega
      have hflight := horderly r hr hzero
      refine h.move hr rfl ⟨?_, ?_, ?_, ?_, fun _ => hspent⟩ ?_ ?_ ?_
      · exact fun _ => hsound.finds (by simp [hwork, Work.engaged])
      · simp [Resource.setWork]
      · simp [Resource.setWork, Work.inFlight]
      · simp [Resource.setWork]
      · refine fun _ => ⟨rfl, fun r' hr' hsame _ => ?_⟩
        have hnone := hflight r' hr' hsame
        cases hw : r'.work with
        | live host =>
          cases host with
          | none => rfl
          | some host =>
            have hcounts := (h.sound r' hr').recorded host hw
            have hrow : r'.row ∈ s.rows := List.mem_map_of_mem hr'
            exact absurd (activeCount_pos.mpr (Or.inr ⟨r'.row, hrow, hsame, hcounts⟩)) hidle
        | missing | launching | reusing _ | holding _ => simp [hw, Work.inFlight] at hnone
        | started | releasing | reaping | terminating _ | ended => rfl
      · simp [Resource.setWork, Work.uses, Work.inFlight, Work.host]
      · simp [Resource.setWork]
  next => simp at hstep

theorem settled_find {cfg : Config} {s t : State} (h : Settled cfg s) {r : Resource}
    (hr : s.resources.lookup r.id = some r) (hstep : onFind cfg s r = some t) : Settled cfg t := by
  have hmem := (Table.lookup_eq_some.mp hr).1
  have hsound := h.sound r hmem
  rw [onFind] at hstep
  split at hstep
  next hwork =>
    have hfinds := hsound.finds (by simp [hwork.1, Work.engaged])
    have hreaps : r.work.reaps = true := by simp [hwork.1, Work.reaps]
    obtain rfl := Option.some.inj hstep
    refine h.move hr rfl ⟨fun _ => hfinds, ?_, ?_, ?_, ?_⟩ ?_ ?_ ?_
    · intro ids hids
      obtain rfl := Work.terminating.inj hids
      exact hfinds
    · simp [Resource.setWork, Work.inFlight]
    · simp [Resource.setWork]
    · exact fun _ => hsound.spent (by simp [hwork.1, Work.over])
    · exact fun _ => ⟨rfl, fun r' hr' hsame _ => h.apart r hmem r' hr' hsame hreaps⟩
    · simp [Resource.setWork, Work.uses, Work.inFlight, Work.host]
    · simp [Resource.setWork]
  next => simp at hstep

theorem launchHost_hosts (cloud : Cloud) (place : String) (next : ℕ) (hosts : List Host) :
    (launchHost cloud place next hosts).2 = hosts ∨
      (launchHost cloud place next hosts).2 = hosts ++ [⟨next, cloud, place⟩] := by
  rw [launchHost]
  split
  · exact Or.inl rfl
  · exact Or.inr rfl

theorem settled_launch {cfg : Config} {s t : State} (h : Settled cfg s) {r : Resource}
    (hr : s.resources.lookup r.id = some r) {zone : String}
    (horderly : Orderly cfg s (.launch r.id zone)) (hstep : onLaunch cfg s r zone = some t) :
    Settled cfg t := by
  have hmem := (Table.lookup_eq_some.mp hr).1
  rw [onLaunch] at hstep
  split at hstep
  next hwork =>
    obtain ⟨place, hplace, rfl⟩ := Option.map_eq_some_iff.mp hstep
    have hfinds := horderly r hr place hplace
    have hreaps := h.no_reaps hmem (by simp [hwork, Work.uses, Work.inFlight])
    have hhosts := launchHost_hosts r.row.cloud place s.next s.hosts
    generalize launchHost r.row.cloud place s.next s.hosts = launched at hfinds hhosts
    obtain ⟨host, hosts⟩ := launched
    have hother : ∀ cloud, cloud ≠ r.row.cloud →
        (hosts.filter fun host => host.cloud = cloud) =
          s.hosts.filter fun host => host.cloud = cloud := by
      intro cloud hne
      rcases hhosts with heq | heq
      · exact congrArg _ heq
      · simp only at heq
        rw [heq, List.filter_append]
        simp [hne.symm]
    have hrehost : Settled cfg { s with hosts, next := s.next + 1 } := by
      refine ⟨?_, h.apart, ?_⟩
      · intro r' hr'
        by_cases hsame : r'.row.cloud = r.row.cloud
        · have hsound := h.sound r' hr'
          refine ⟨?_, ?_, hsound.born, hsound.recorded, hsound.spent⟩
          · intro hengaged
            rw [hsame]
            exact hfinds r' hr' hsame hengaged
          · intro ids hids
            have hno := hreaps r' hr' hsame
            simp [hids, Work.reaps] at hno
        · exact (h.sound r' hr').congr (hother _ hsame)
      · intro host' hhost'
        have hcases : host' ∈ s.hosts ∨ host'.cloud = r.row.cloud := by
          rcases hhosts with heq | heq <;> simp only at heq <;> subst heq
          · exact Or.inl hhost'
          · rcases List.mem_append.mp hhost' with hold | hnew
            · exact Or.inl hold
            · exact Or.inr (by simp [List.mem_singleton.mp hnew])
        rcases hcases with hold | hcloud
        · exact h.owed host' hold
        · exact Or.inr ⟨r, hmem, hcloud.symm, by simp [hwork]⟩
    exact hrehost.proceed (s := { s with hosts, next := s.next + 1 }) hr
      (by simp [hwork, Work.inFlight]) rfl
  next => simp at hstep

/-- The teardown deletes every host of its cloud. -/
theorem deleted_all {cfg : Config} {s : State} (h : Settled cfg s) {r : Resource}
    (hmem : r ∈ s.resources.rows) {ids : List ℕ} (hids : deleted cfg s r = some ids) :
    r.work.reaps = true ∧ ∀ host ∈ s.hosts, host.cloud = r.row.cloud → host.id ∈ ids := by
  have hsound := h.sound r hmem
  rw [deleted] at hids
  split at hids
  next hwork =>
    refine ⟨by simp [hwork, Work.reaps], ?_⟩
    have hfinds := hsound.finds (by simp [hwork, Work.engaged])
    split at hids
    · obtain rfl := Option.some.inj hids
      exact hfinds
    · simp at hids
  next hosts hwork =>
    obtain rfl := Option.some.inj hids
    exact ⟨by simp [hwork, Work.reaps], hsound.caught hosts hwork⟩
  next => simp at hids

theorem settled_delete {cfg : Config} {s t : State} (h : Settled cfg s) {r : Resource}
    (hr : s.resources.lookup r.id = some r) (hstep : onDelete cfg s r = some t) :
    Settled cfg t := by
  have hmem := (Table.lookup_eq_some.mp hr).1
  obtain ⟨ids, hids, rfl⟩ := Option.map_eq_some_iff.mp hstep
  obtain ⟨hreaps, hall⟩ := deleted_all h hmem hids
  have hsound := h.sound r hmem
  have hover : r.work.over = true := by
    cases hw : r.work <;> simp_all [Work.reaps, Work.over]
  let hosts := s.hosts.filter fun host => ¬(host.cloud = r.row.cloud ∧ host.id ∈ ids)
  have hleft : ∀ host ∈ hosts, host ∈ s.hosts ∧ host.cloud ≠ r.row.cloud := by
    intro host hhost
    obtain ⟨hold, hkeep⟩ := List.mem_filter.mp hhost
    refine ⟨hold, fun hcloud => of_decide_eq_true hkeep ⟨hcloud, hall host hold hcloud⟩⟩
  have hrehost : Settled cfg { s with hosts } := by
    refine ⟨?_, h.apart, fun host hhost => h.owed host (hleft host hhost).1⟩
    intro r' hr'
    by_cases hsame : r'.row.cloud = r.row.cloud
    · have hsound' := h.sound r' hr'
      refine ⟨?_, ?_, hsound'.born, hsound'.recorded, hsound'.spent⟩
      · exact fun _ host hhost hcloud => absurd (hcloud.trans hsame) (hleft host hhost).2
      · exact fun _ _ host hhost hcloud => absurd (hcloud.trans hsame) (hleft host hhost).2
    · refine (h.sound r' hr').congr ?_
      rw [List.filter_filter]
      refine List.filter_congr fun host _ => ?_
      by_cases hcloud : host.cloud = r'.row.cloud
      · simp [hcloud, hsame]
      · simp [hcloud]
  have hmoved : Settled cfg (State.setWork { s with hosts } r.id .ended) := by
    refine hrehost.move (s := { s with hosts }) hr rfl ⟨?_, ?_, ?_, ?_, ?_⟩ ?_ ?_ ?_
    · simp [Resource.setWork, Work.engaged]
    · simp [Resource.setWork]
    · simp [Resource.setWork, Work.inFlight]
    · simp [Resource.setWork]
    · exact fun _ => hsound.spent hover
    · simp [Resource.setWork, Work.reaps]
    · simp [Resource.setWork, Work.uses, Work.inFlight, Work.host]
    · exact fun _ host hhost hcloud => absurd hcloud (hleft host hhost).2
  exact hmoved

theorem settled_step {cfg : Config} {s t : State} {event : Event} (h : Settled cfg s)
    (horderly : Orderly cfg s event) (hstep : (gateways cfg).step s event = some t) :
    Settled cfg t := by
  cases event with
  | start id kind region =>
    obtain ⟨resources, hinsert, rfl⟩ := Option.map_eq_some_iff.mp hstep
    exact settled_start h hinsert
  | look id =>
    obtain ⟨r, hr, hmove⟩ := Option.bind_eq_some_iff.mp hstep
    obtain rfl := Table.lookup_key hr
    exact settled_look h hr horderly hmove
  | recheck id =>
    obtain ⟨r, hr, hmove⟩ := Option.bind_eq_some_iff.mp hstep
    obtain rfl := Table.lookup_key hr
    exact settled_recheck h hr hmove
  | launch id zone =>
    obtain ⟨r, hr, hmove⟩ := Option.bind_eq_some_iff.mp hstep
    obtain rfl := Table.lookup_key hr
    exact settled_launch h hr horderly hmove
  | reuse id =>
    obtain ⟨r, hr, hmove⟩ := Option.bind_eq_some_iff.mp hstep
    obtain rfl := Table.lookup_key hr
    exact settled_reuse h hr hmove
  | record id jump =>
    obtain ⟨r, hr, hmove⟩ := Option.bind_eq_some_iff.mp hstep
    obtain rfl := Table.lookup_key hr
    exact settled_record h hr hmove
  | destroy id =>
    obtain ⟨r, hr, hmove⟩ := Option.bind_eq_some_iff.mp hstep
    obtain rfl := Table.lookup_key hr
    exact settled_destroy h hr hmove
  | count id =>
    obtain ⟨r, hr, hmove⟩ := Option.bind_eq_some_iff.mp hstep
    obtain rfl := Table.lookup_key hr
    exact settled_count h hr horderly hmove
  | find id =>
    obtain ⟨r, hr, hmove⟩ := Option.bind_eq_some_iff.mp hstep
    obtain rfl := Table.lookup_key hr
    exact settled_find h hr hmove
  | delete id =>
    obtain ⟨r, hr, hmove⟩ := Option.bind_eq_some_iff.mp hstep
    obtain rfl := Table.lookup_key hr
    exact settled_delete h hr hmove

/-- Only a teardown's deletion takes hosts away. -/
theorem step_hosts {cfg : Config} {s t : State} {event : Event}
    (hstep : (gateways cfg).step s event = some t) {host : Host} (hhost : host ∈ s.hosts)
    (hgone : host ∉ t.hosts) :
    ∃ r ids, r ∈ s.resources.rows ∧ deleted cfg s r = some ids ∧ host.cloud = r.row.cloud := by
  cases event with
  | start id kind region =>
    obtain ⟨resources, hinsert, rfl⟩ := Option.map_eq_some_iff.mp hstep
    exact absurd hhost hgone
  | look id =>
    obtain ⟨r, hr, hstep⟩ := Option.bind_eq_some_iff.mp hstep
    simp only [onLook] at hstep
    split_ifs at hstep
    all_goals
      obtain rfl := Option.some.inj hstep
      exact absurd hhost hgone
  | recheck id =>
    obtain ⟨r, hr, hstep⟩ := Option.bind_eq_some_iff.mp hstep
    simp only [onRecheck, Option.ite_none_right_eq_some, Option.some.injEq] at hstep
    obtain ⟨-, rfl⟩ := hstep
    exact absurd hhost hgone
  | launch id zone =>
    obtain ⟨r, hr, hstep⟩ := Option.bind_eq_some_iff.mp hstep
    simp only [onLaunch, Option.ite_none_right_eq_some] at hstep
    obtain ⟨place, -, rfl⟩ := Option.map_eq_some_iff.mp hstep.2
    refine absurd ?_ hgone
    change host ∈ (launchHost r.row.cloud place s.next s.hosts).2
    rcases launchHost_hosts r.row.cloud place s.next s.hosts with heq | heq
    · rw [heq]
      exact hhost
    · rw [heq]
      exact List.mem_append_left _ hhost
  | reuse id =>
    obtain ⟨r, hr, hstep⟩ := Option.bind_eq_some_iff.mp hstep
    rw [onReuse] at hstep
    split at hstep
    · obtain rfl := Option.some.inj hstep
      exact absurd hhost hgone
    · simp at hstep
  | record id jump =>
    obtain ⟨r, hr, hstep⟩ := Option.bind_eq_some_iff.mp hstep
    rw [onRecord] at hstep
    split at hstep
    · obtain rfl := Option.some.inj hstep
      exact absurd hhost hgone
    · simp at hstep
  | destroy id =>
    obtain ⟨r, hr, hstep⟩ := Option.bind_eq_some_iff.mp hstep
    rw [onDestroy] at hstep
    split at hstep
    · obtain rfl := Option.some.inj hstep
      exact absurd hhost hgone
    · simp at hstep
  | count id =>
    obtain ⟨r, hr, hstep⟩ := Option.bind_eq_some_iff.mp hstep
    simp only [onCount, Option.ite_none_right_eq_some, Option.some.injEq] at hstep
    obtain ⟨-, rfl⟩ := hstep
    exact absurd hhost hgone
  | find id =>
    obtain ⟨r, hr, hstep⟩ := Option.bind_eq_some_iff.mp hstep
    simp only [onFind, Option.ite_none_right_eq_some, Option.some.injEq] at hstep
    obtain ⟨-, rfl⟩ := hstep
    exact absurd hhost hgone
  | delete id =>
    obtain ⟨r, hr, hstep⟩ := Option.bind_eq_some_iff.mp hstep
    obtain ⟨ids, hids, rfl⟩ := Option.map_eq_some_iff.mp hstep
    refine ⟨r, ids, (Table.lookup_eq_some.mp hr).1, hids, ?_⟩
    by_contra hne
    exact hgone (List.mem_filter.mpr ⟨hhost, decide_eq_true fun h => hne h.1⟩)

theorem settled_spares {cfg : Config} {s t : State} {event : Event} (h : Settled cfg s)
    (hstep : (gateways cfg).step s event = some t) :
    ∀ host ∈ s.hosts, host ∉ t.hosts → ¬s.InUse host := by
  rintro host hhost hgone ⟨r', hr', hsame, hgiven⟩
  obtain ⟨r, ids, hmem, hids, hcloud⟩ := step_hosts hstep hhost hgone
  have huses := h.apart r hmem r' hr' (hsame.trans hcloud) (deleted_all h hmem hids).1
  simp [Work.uses, hgiven] at huses

theorem settled_init (cfg : Config) : Settled cfg .init := by
  refine ⟨?_, ?_, ?_⟩ <;> simp [State.init, Table.empty]

theorem settled_noneLeft {cfg : Config} {s : State} (h : Settled cfg s) : NoneLeft cfg s := by
  rintro cloud hweb hended host hhost rfl
  rcases h.owed host hhost with hpos | ⟨r, hr, hsame, hwork⟩
  · omega
  · exact hwork (hended r hr hsame)

/-! ### The runs -/

theorem gateway_lives (cfg : Config) {run : List Event}
    (h : (gateways cfg).Along (Orderly cfg) .init run) :
    (gateways cfg).Along (Spares cfg) .init run ∧ (gateways cfg).Always (NoneLeft cfg) .init run := by
  constructor
  · exact (gateways cfg).along_step (fun s event t hs horderly hstep =>
      ⟨settled_step hs horderly hstep, settled_spares hs hstep⟩) (settled_init cfg) h
  · have hsettled := (gateways cfg).always_of_along
      (fun s event t hs horderly hstep => settled_step hs horderly hstep) (settled_init cfg) h
    exact (gateways cfg).always_mono (fun s => settled_noneLeft) hsettled

def sampleConfig : Config := ⟨[("aws_ecs_docker_deploy_key", "key")], fun _ => []⟩

/-- A deploy of a VM up to the recorded host. -/
def firstDeploy (id : ℕ) (region : String) : List Event :=
  [.start id (.vm .ec2) region, .look id, .recheck id, .launch id "", .record id id]

def release (id : ℕ) : List Event := [.destroy id, .count id, .find id, .delete id]

/-- Two VMs of one region, one after the other. -/
def sharedRun : List Event :=
  firstDeploy 0 "us-east-1" ++ [.start 1 (.vm .ec2) "us-east-1", .look 1, .reuse 1, .record 1 1] ++
    [.destroy 0, .count 0] ++ release 1

theorem gateway_lives_sharedRun :
    ((gateways sampleConfig).exec .init sharedRun).isSome ∧
      (gateways sampleConfig).Along (Spares sampleConfig) .init sharedRun ∧
      (gateways sampleConfig).Always (NoneLeft sampleConfig) .init sharedRun :=
  ⟨by decide +kernel, gateway_lives sampleConfig (by decide +kernel)⟩

/-- The second VM has been given the host when the first is destroyed, but is not recorded. -/
def overlappingRun : List Event :=
  firstDeploy 0 "us-east-1" ++ [.start 1 (.vm .ec2) "us-east-1", .look 1, .reuse 1] ++ release 0

def twoRegionsRun : List Event :=
  firstDeploy 0 "us-east-1" ++ firstDeploy 1 "us-west-2" ++ [.destroy 0, .count 0] ++ release 1

theorem host_pulled_or_stranded :
    ¬(gateways sampleConfig).Along (Spares sampleConfig) .init overlappingRun ∧
      ¬(gateways sampleConfig).Always (NoneLeft sampleConfig) .init twoRegionsRun := by
  refine ⟨by decide +kernel, fun h => ?_⟩
  have hrun : ((gateways sampleConfig).exec .init twoRegionsRun).any (fun t =>
      activeWebJumpCount sampleConfig .aws = 0 ∧
        (∀ r ∈ t.resources.rows, r.row.cloud = .aws → r.work = .ended) ∧
        ∃ host ∈ t.hosts, host.cloud = .aws) = true := by decide +kernel
  obtain ⟨t, ht, hleft⟩ := (Option.any_eq_true _ _).mp hrun
  obtain ⟨hweb, hended, host, hhost, hcloud⟩ := of_decide_eq_true hleft
  exact (gateways sampleConfig).always_exec h ht .aws hweb hended host hhost hcloud

end Gateways
