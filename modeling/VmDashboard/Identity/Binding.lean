import VmDashboard.Identity.Login

/-!
# A login ends where its provider linked

What single sign-on keeps about accounts and subjects over whole login
histories, and the one kind of login that breaks it: the subject of one provider
presented by the other.
-/

namespace Identity
open Machine (Table)

/-- A login may take the user over by a verified email. -/
structure MayLink (user : User) (login : Login) : Prop where
  unlinked : user.subject = none
  verified : login.emailVerified = true
  email : user.email = some login.email
  provider : user.provider ≠ "local"

/-- What a login from `s` to `t` keeps. -/
structure KeepsBinding (s : State) (login : Login) (outcome : Outcome) (t : State) : Prop where
  /-- It ends in a user its provider linked before, or one it links or creates itself. -/
  ends : ∀ id, outcome = .loggedIn id →
    ⟨id, login.subject, login.provider⟩ ∈ s.links ∨
      ((∀ user, s.users.lookup id = some user → MayLink user login) ∧
        ⟨id, login.subject, login.provider⟩ ∈ t.links)
  /-- A linked user keeps its subject and its provider. -/
  stays : ∀ user ∈ s.users.rows, user.subject.isSome → ∃ user', t.users.lookup user.id = some user' ∧
    user'.oauthSubject = user.oauthSubject ∧ user'.authProvider = user.authProvider
  optIn : ∀ user ∈ s.users.rows, outcome = .loggedIn user.id → user.provider ≠ "local"

def Bound (s : State) (login : Login) : Prop :=
  ∀ outcome t, s.completeOauthLogin login = some (outcome, t) → KeepsBinding s login outcome t

/-- Whoever holds the subject and would be let in was linked by the login's provider. -/
def OwnSubject (s : State) (login : Login) : Prop :=
  ∀ user ∈ s.users.rows, user.oauthSubject = some login.subject → login.subject ≠ "" →
    login.workgroups ≠ some [] → user.isServiceAccount = false → user.isActive = true →
      user.authProvider = login.provider.text

/-- Every subject was set by a login of the provider the user is marked with, and no two users
hold the same. -/
structure Consistent (s : State) : Prop where
  linked : ∀ user ∈ s.users.rows, ∀ subject, user.subject = some subject →
    ∃ provider : Provider, user.authProvider = provider.text ∧ ⟨user.id, subject, provider⟩ ∈ s.links
  unique : ∀ user ∈ s.users.rows, ∀ user' ∈ s.users.rows, user.subject.isSome →
    user.oauthSubject = user'.oauthSubject → user = user'

theorem subject_eq_some {user : User} {subject : String} :
    user.subject = some subject ↔ user.oauthSubject = some subject ∧ subject ≠ "" := by
  unfold User.subject
  split
  next h => simp [h]
  next h =>
    rw [h]
    constructor
    · exact fun h => nomatch h
    · rintro ⟨h, hne⟩
      exact absurd (Option.some.inj h).symm hne
  next subject' hne h =>
    rw [h]
    constructor
    · intro h
      obtain rfl := Option.some.inj h
      exact ⟨rfl, fun h => hne (h ▸ rfl)⟩
    · exact fun h => h.1

theorem Provider.text_injective {p q : Provider} (h : p.text = q.text) : p = q := by
  cases p <;> cases q <;> first | rfl | exact absurd h (by decide)

theorem Provider.text_ne_local (p : Provider) : p.text ≠ "local" ∧ p.text ≠ "" := by
  cases p <;> decide

/-- The users a login can be for. -/
theorem findUser_some {users : Table User.id} {login : Login} {user : User}
    (h : findUser users login = .ok (some user)) : user ∈ users.rows ∧
      (user.oauthSubject = some login.subject ∨
        ((∀ user' ∈ users.rows, user'.oauthSubject ≠ some login.subject) ∧
          user.email = some login.email ∧
            emailLinkRefusal user login.subject login.emailVerified = "")) := by
  unfold findUser at h
  split at h
  next found hfound =>
    cases h
    have hsubject := List.find?_some hfound
    exact ⟨List.mem_of_find?_eq_some hfound, .inl (of_decide_eq_true hsubject)⟩
  next hnone =>
    split at h
    · cases h
    next candidate hcandidate =>
      split at h
      next hrefusal =>
        cases h
        have hemail := List.find?_some hcandidate
        refine ⟨List.mem_of_find?_eq_some hcandidate, .inr ⟨fun user' hu => ?_,
          of_decide_eq_true hemail, hrefusal⟩⟩
        have hne := List.find?_eq_none.mp hnone user' hu
        simpa using hne
      · cases h

theorem findUser_none {users : Table User.id} {login : Login}
    (h : findUser users login = .ok none) :
    ∀ user ∈ users.rows, user.oauthSubject ≠ some login.subject := by
  unfold findUser at h
  split at h
  · cases h
  next hnone =>
    intro user hu
    have hne := List.find?_eq_none.mp hnone user hu
    simpa using hne

theorem mayLink_of_refusal {user : User} {login : Login}
    (hother : user.oauthSubject ≠ some login.subject) (hemail : user.email = some login.email)
    (h : emailLinkRefusal user login.subject login.emailVerified = "") : MayLink user login := by
  unfold emailLinkRefusal at h
  split at h
  · exact absurd h (by decide)
  next hlinked =>
  split at h
  · exact absurd h (by decide)
  next hverified =>
  split at h
  · exact absurd h (by decide)
  next hprovider =>
  refine ⟨?_, by simpa using hverified, hemail, hprovider⟩
  cases hsubject : user.subject with
  | none => rfl
  | some subject =>
    have hset := (subject_eq_some.mp hsubject).1
    rw [hsubject] at hlinked
    simp only [Option.isSome_some, Bool.true_and, decide_eq_true_eq, ne_eq, not_not] at hlinked
    exact absurd (hset.trans hlinked) hother

/-- The state after a login that ends in an existing user. -/
def State.synced (s : State) (login : Login) (user : User) : State where
  users := s.users.modify user.id (User.sync login) (User.sync_id login)
  links :=
    if user.subject.isSome then s.links else s.links ++ [⟨user.id, login.subject, login.provider⟩]

inductive Effect (s : State) (login : Login) : Outcome → State → Prop
  | refused (error : String) : Effect s login (.refused error) s
  | existing {user} (hsubject : login.subject ≠ "") (hgroups : login.workgroups ≠ some [])
      (hfind : findUser s.users login = .ok (some user)) (hservice : user.isServiceAccount = false)
      (hactive : user.isActive = true) : Effect s login (.loggedIn user.id) (s.synced login user)
  | created {workgroups users} (hsubject : login.subject ≠ "")
      (hfind : findUser s.users login = .ok none)
      (hinsert : s.users.insert (newUser s.users.rows login workgroups) = some users) :
      Effect s login (.loggedIn login.newId)
        { users, links := s.links ++ [⟨login.newId, login.subject, login.provider⟩] }

theorem completeOauthLogin_effect {s t : State} {login : Login} {outcome : Outcome}
    (h : s.completeOauthLogin login = some (outcome, t)) : Effect s login outcome t := by
  unfold State.completeOauthLogin at h
  split at h
  · cases h
    exact .refused _
  next hgroups =>
  split at h
  · cases h
    exact .refused _
  next hsubject =>
  split at h
  next error hfind =>
    cases h
    exact .refused _
  next user hfind =>
    split at h
    · cases h
      exact .refused _
    next hservice =>
    split at h
    · cases h
      exact .refused _
    next hactive =>
      cases h
      exact .existing hsubject hgroups hfind (Bool.eq_false_iff.mpr hservice) (by simpa using hactive)
  next hfind =>
    split at h
    · cases h
      exact .refused _
    next workgroups hworkgroups =>
      obtain ⟨users, hinsert, heq⟩ := Option.map_eq_some_iff.mp h
      cases heq
      exact .created hsubject hfind hinsert

theorem completeOauthLogin_existing {s : State} {login : Login} {user : User}
    (hsubject : login.subject ≠ "") (hgroups : login.workgroups ≠ some [])
    (hfind : findUser s.users login = .ok (some user)) (hservice : user.isServiceAccount = false)
    (hactive : user.isActive = true) :
    s.completeOauthLogin login = some (.loggedIn user.id, s.synced login user) := by
  simp only [State.completeOauthLogin, if_neg hgroups, if_neg hsubject, hfind, hservice, hactive,
    Bool.false_eq_true, if_false, Bool.not_true]
  rfl

/-! ### One login -/

theorem findUser_holder {s : State} {login : Login} {user : User} (hs : Consistent s)
    (hsubject : login.subject ≠ "") (hu : user ∈ s.users.rows)
    (hholds : user.oauthSubject = some login.subject) :
    findUser s.users login = .ok (some user) := by
  have hset : user.subject = some login.subject := subject_eq_some.mpr ⟨hholds, hsubject⟩
  unfold findUser
  cases hfound : s.users.rows.find? fun user => user.oauthSubject = some login.subject with
  | none =>
    have hne := List.find?_eq_none.mp hfound user hu
    exact absurd hholds (by simpa using hne)
  | some found =>
    have hfoundHolds : found.oauthSubject = some login.subject := by
      simpa using List.find?_some hfound
    have hsame : user = found :=
      hs.unique user hu found (List.mem_of_find?_eq_some hfound) (by rw [hset]; rfl)
        (hholds.trans hfoundHolds.symm)
    rw [hsame]

theorem lookup_synced {s : State} {login : Login} {user user' : User} (hu : user ∈ s.users.rows)
    (hu' : user' ∈ s.users.rows) :
    (s.synced login user).users.lookup user'.id =
      some (if user' = user then user.sync login else user') := by
  have hlookup : s.users.lookup user'.id = some user' := Table.lookup_eq_some.mpr ⟨hu', rfl⟩
  refine (Table.lookup_modify s.users user.id user'.id (User.sync login) fun _ => rfl).trans ?_
  rw [hlookup]
  by_cases hid : user'.id = user.id
  · obtain rfl : user' = user := Table.eq_of_key hu' hu hid
    rw [if_pos rfl, if_pos rfl]
    rfl
  · rw [if_neg hid, if_neg fun h : user' = user => hid (h ▸ rfl)]

theorem sync_subject (login : Login) (user : User) : (user.sync login).oauthSubject =
    if user.subject.isSome then user.oauthSubject else some login.subject := rfl

/-- The user a login finds holds its subject, or may be linked by email. -/
theorem found_cases {s : State} {login : Login} {user : User} (hsubject : login.subject ≠ "")
    (hfind : findUser s.users login = .ok (some user)) : user ∈ s.users.rows ∧
      (user.subject = some login.subject ∨
        ((∀ user' ∈ s.users.rows, user'.oauthSubject ≠ some login.subject) ∧ MayLink user login)) := by
  obtain ⟨hu, hholds | ⟨hnone, hemail, hrefusal⟩⟩ := findUser_some hfind
  · exact ⟨hu, .inl (subject_eq_some.mpr ⟨hholds, hsubject⟩)⟩
  · exact ⟨hu, .inr ⟨hnone, mayLink_of_refusal (hnone user hu) hemail hrefusal⟩⟩

theorem Consistent.provider_of_holder {s : State} {login : Login} {user : User} (hs : Consistent s)
    (hu : user ∈ s.users.rows) (hholds : user.subject = some login.subject)
    (hown : user.authProvider = login.provider.text) :
    ⟨user.id, login.subject, login.provider⟩ ∈ s.links := by
  obtain ⟨provider, hprovider, hlink⟩ := hs.linked user hu login.subject hholds
  obtain rfl := Provider.text_injective (hprovider.symm.trans hown)
  exact hlink

theorem Effect.keeps {s t : State} {login : Login} {outcome : Outcome} (hs : Consistent s)
    (hown : OwnSubject s login) (h : Effect s login outcome t) : KeepsBinding s login outcome t := by
  cases h with
  | refused error =>
    refine ⟨(fun id h => nomatch h), fun user hu _ => ?_, (fun user _ h => nomatch h)⟩
    exact ⟨user, Table.lookup_eq_some.mpr ⟨hu, rfl⟩, rfl, rfl⟩
  | @existing user hsubject hgroups hfind hservice hactive =>
    obtain ⟨hu, hcases⟩ := found_cases hsubject hfind
    have hprovider : user.subject = some login.subject → user.authProvider = login.provider.text :=
      fun hholds => hown user hu (subject_eq_some.mp hholds).1 hsubject hgroups hservice hactive
    refine ⟨fun id hid => ?_, fun user' hu' hset => ?_, fun user' hu' hid => ?_⟩
    · obtain rfl := Outcome.loggedIn.inj hid
      obtain hholds | ⟨hnone, hmay⟩ := hcases
      · exact .inl (hs.provider_of_holder hu hholds (hprovider hholds))
      · refine .inr ⟨fun user' hlookup => ?_, ?_⟩
        · obtain ⟨hu', hid⟩ := Table.lookup_eq_some.mp hlookup
          obtain rfl : user' = user := Table.eq_of_key hu' hu hid
          exact hmay
        · simp [State.synced, hmay.unlinked]
    · refine ⟨_, lookup_synced hu hu', ?_⟩
      by_cases hsame : user' = user
      · subst hsame
        rw [if_pos rfl, sync_subject, if_pos hset]
        refine ⟨rfl, ?_⟩
        obtain hholds | ⟨-, hmay⟩ := hcases
        · exact (hprovider hholds).symm
        · rw [hmay.unlinked] at hset
          cases hset
      · rw [if_neg hsame]
        exact ⟨rfl, rfl⟩
    · obtain rfl : user = user' := Table.eq_of_key hu hu' (Outcome.loggedIn.inj hid)
      obtain hholds | ⟨-, hmay⟩ := hcases
      · unfold User.provider
        rw [hprovider hholds, if_neg login.provider.text_ne_local.2]
        exact login.provider.text_ne_local.1
      · exact hmay.provider
  | @created workgroups users hsubject hfind hinsert =>
    have hfresh := (Table.insert_eq_some hinsert).1
    refine ⟨fun id hid => ?_, fun user hu _ => ?_, fun user hu hid => ?_⟩
    · obtain rfl := Outcome.loggedIn.inj hid
      refine .inr ⟨fun user hlookup => ?_, List.mem_append_right _ List.mem_cons_self⟩
      exact absurd (hfresh.symm.trans hlookup) (Option.some_ne_none user).symm
    · have hlookup : s.users.lookup user.id = some user := Table.lookup_eq_some.mpr ⟨hu, rfl⟩
      exact ⟨user, Table.lookup_insert_of_some hinsert hlookup, rfl, rfl⟩
    · have hnone := Table.lookup_eq_none.mp hfresh user hu
      exact absurd (Outcome.loggedIn.inj hid).symm hnone

theorem Effect.consistent {s t : State} {login : Login} {outcome : Outcome} (hs : Consistent s)
    (hown : OwnSubject s login) (h : Effect s login outcome t) : Consistent t := by
  cases h with
  | refused error => exact hs
  | @existing user hsubject hgroups hfind hservice hactive =>
    obtain ⟨hu, hcases⟩ := found_cases hsubject hfind
    have hrows : ∀ user' ∈ (s.synced login user).users.rows, ∃ before ∈ s.users.rows,
        user' = if before = user then user.sync login else before := by
      intro user' hu'
      obtain ⟨before, hbefore, rfl⟩ := List.mem_map.mp hu'
      refine ⟨before, hbefore, ?_⟩
      by_cases hid : before.id = user.id
      · obtain rfl : before = user := Table.eq_of_key hbefore hu hid
        rw [if_pos rfl, if_pos rfl]
      · rw [if_neg hid, if_neg fun h : before = user => hid (h ▸ rfl)]
    have hlinks : ∀ link ∈ s.links, link ∈ (s.synced login user).links := by
      intro link hlink
      simp only [State.synced]
      split
      · exact hlink
      · exact List.mem_append_left _ hlink
    -- after the login the user holds the login's subject, and nobody else does
    have hsynced : (user.sync login).oauthSubject = some login.subject := by
      rw [sync_subject]
      obtain hholds | ⟨-, hmay⟩ := hcases
      · rw [hholds, Option.isSome_some, if_pos rfl]
        exact (subject_eq_some.mp hholds).1
      · rw [hmay.unlinked, Option.isSome_none, if_neg Bool.false_ne_true]
    have hothers : ∀ other ∈ s.users.rows, other.oauthSubject = some login.subject → other = user := by
      intro other hother hholds
      obtain huser | ⟨hnone, -⟩ := hcases
      · refine (hs.unique user hu other hother (by rw [huser]; rfl) ?_).symm
        exact (subject_eq_some.mp huser).1.trans hholds.symm
      · exact absurd hholds (hnone other hother)
    have hlink : ⟨user.id, login.subject, login.provider⟩ ∈ (s.synced login user).links := by
      obtain hholds | ⟨-, hmay⟩ := hcases
      · have hprovider := hown user hu (subject_eq_some.mp hholds).1 hsubject hgroups hservice hactive
        exact hlinks _ (hs.provider_of_holder hu hholds hprovider)
      · simp [State.synced, hmay.unlinked]
    refine ⟨fun user' hu' subject hset => ?_, fun user₁ hu₁ user₂ hu₂ hset heq => ?_⟩
    · obtain ⟨before, hbefore, rfl⟩ := hrows user' hu'
      by_cases hsame : before = user
      · rw [if_pos hsame] at hset ⊢
        obtain rfl := Option.some.inj (hsynced.symm.trans (subject_eq_some.mp hset).1)
        exact ⟨login.provider, rfl, hlink⟩
      · rw [if_neg hsame] at hset ⊢
        obtain ⟨provider, hprovider, hold⟩ := hs.linked before hbefore subject hset
        exact ⟨provider, hprovider, hlinks _ hold⟩
    · obtain ⟨before₁, hbefore₁, rfl⟩ := hrows user₁ hu₁
      obtain ⟨before₂, hbefore₂, rfl⟩ := hrows user₂ hu₂
      by_cases hsame₁ : before₁ = user
      · by_cases hsame₂ : before₂ = user
        · rw [if_pos hsame₁, if_pos hsame₂]
        · rw [if_pos hsame₁, if_neg hsame₂, hsynced] at heq
          exact absurd (hothers before₂ hbefore₂ heq.symm) hsame₂
      · by_cases hsame₂ : before₂ = user
        · rw [if_neg hsame₁, if_pos hsame₂, hsynced] at heq
          exact absurd (hothers before₁ hbefore₁ heq) hsame₁
        · rw [if_neg hsame₁] at hset
          rw [if_neg hsame₁, if_neg hsame₂] at heq ⊢
          exact hs.unique before₁ hbefore₁ before₂ hbefore₂ hset heq
  | @created workgroups users hsubject hfind hinsert =>
    have hrows := (Table.insert_eq_some hinsert).2
    have hnone := findUser_none hfind
    generalize hnew : newUser s.users.rows login workgroups = new at hrows
    have hholds : new.oauthSubject = some login.subject ∧ new.id = login.newId ∧
        new.authProvider = login.provider.text := by
      subst hnew
      exact ⟨rfl, rfl, rfl⟩
    obtain ⟨hholds, hid, hprovider⟩ := hholds
    have hcases : ∀ user ∈ users.rows, user ∈ s.users.rows ∨ user = new := by
      rw [hrows]
      exact fun user hu => (List.mem_append.mp hu).imp_right List.mem_singleton.mp
    refine ⟨fun user hu subject hset => ?_, fun user hu user' hu' hset heq => ?_⟩
    · obtain hold | rfl := hcases user hu
      · obtain ⟨provider, hprovider, hlink⟩ := hs.linked user hold subject hset
        exact ⟨provider, hprovider, List.mem_append_left _ hlink⟩
      · obtain rfl := Option.some.inj (hholds.symm.trans (subject_eq_some.mp hset).1)
        exact ⟨login.provider, hprovider, List.mem_append_right _ (by rw [hid]; exact List.mem_cons_self)⟩
    · obtain hold | rfl := hcases user hu
      · obtain hold' | rfl := hcases user' hu'
        · exact hs.unique user hold user' hold' hset heq
        · exact absurd (heq.trans hholds) (hnone user hold)
      · obtain hold' | rfl := hcases user' hu'
        · exact absurd (heq.symm.trans hholds) (hnone user' hold')
        · rfl

/-- A login that presents another provider's subject ends in that provider's user. -/
theorem ownSubject_of_bound {s : State} {login : Login} (hs : Consistent s) (h : Bound s login) :
    OwnSubject s login := by
  intro user hu hholds hsubject hgroups hservice hactive
  have hset : user.subject = some login.subject := subject_eq_some.mpr ⟨hholds, hsubject⟩
  have hkeeps := h _ _ (completeOauthLogin_existing hsubject hgroups
    (findUser_holder hs hsubject hu hholds) hservice hactive)
  obtain ⟨user', hlookup, -, hprovider⟩ := hkeeps.stays user hu (by rw [hset]; rfl)
  rw [lookup_synced hu hu, if_pos rfl] at hlookup
  obtain rfl := Option.some.inj hlookup
  exact hprovider.symm

theorem bound_iff {s : State} {login : Login} (hs : Consistent s) :
    Bound s login ↔ OwnSubject s login :=
  ⟨ownSubject_of_bound hs, fun hown _ _ h => (completeOauthLogin_effect h).keeps hs hown⟩

/-! ### Login histories -/

/-- Every login of a history keeps the binding exactly when none is let in with a subject that the
other provider linked. -/
theorem sso_binding_iff {s : State} {logins : List Login} (hs : Consistent s) :
    ssoSystem.Along Bound s logins ↔ ssoSystem.Along OwnSubject s logins := by
  refine ssoSystem.along_iff (I := Consistent) (fun s login t hs hstep => ⟨bound_iff hs, ?_⟩) hs
  intro hown
  obtain ⟨⟨outcome, t'⟩, hlogin, rfl⟩ := Option.map_eq_some_iff.mp hstep
  exact (completeOauthLogin_effect hlogin).consistent hs hown

/-! ### Two histories -/

def linkedUser : User where
  id := "u1"
  username := "ann"
  fullName := none
  email := some "ann@lab"
  workgroups := []
  isActive := true
  isServiceAccount := false
  authProvider := "azure_ad"
  oauthSubject := some "42"

/- One user linked by Azure, one local, one an administrator opted in. -/
def sampleUsers : State where
  users := ⟨[linkedUser,
    { linkedUser with
      id := "u2", username := "bob", email := some "bob@lab", authProvider := "local"
      oauthSubject := none },
    { linkedUser with
      id := "u3", username := "eve", email := some "eve@lab", authProvider := ssoPending
      oauthSubject := none }], by decide⟩
  links := [⟨"u1", "42", .azureAd⟩]

def sampleLogin (provider : Provider) (subject email : String) : Login where
  provider := provider
  subject := subject
  email := email
  displayName := ""
  groups := []
  emailVerified := true
  groupMap := []
  newId := "u9"

theorem sampleUsers_consistent : Consistent sampleUsers := by
  refine ⟨fun user hu subject hset => ?_, by decide⟩
  have hall : ∀ user ∈ sampleUsers.users.rows, user.subject = none ∨ user = linkedUser := by decide
  obtain hnone | rfl := hall user hu
  · rw [hnone] at hset
    cases hset
  · obtain rfl : "42" = subject := Option.some.inj hset
    exact ⟨.azureAd, rfl, by decide⟩

/- Ann by Azure, eve by the other provider, bob refused. -/
def ownLogins : List Login :=
  [sampleLogin .azureAd "42" "ann@lab", sampleLogin .oidc "7" "eve@lab", sampleLogin .oidc "8" "bob@lab"]

instance (s : State) (login : Login) : Decidable (OwnSubject s login) :=
  inferInstanceAs (Decidable (∀ user ∈ s.users.rows, _))

theorem sso_binding_ownLogins :
    (ssoSystem.Along Bound sampleUsers ownLogins ↔ ssoSystem.Along OwnSubject sampleUsers ownLogins) ∧
      ssoSystem.Along OwnSubject sampleUsers ownLogins :=
  ⟨sso_binding_iff sampleUsers_consistent, by decide⟩

/-- The other provider's user with the same subject ends in ann's account, which is its own from
then on. -/
theorem foreign_subject_lands : Consistent sampleUsers ∧
    ¬ssoSystem.Along Bound sampleUsers [sampleLogin .oidc "42" "mallory@elsewhere"] := by
  refine ⟨sampleUsers_consistent, fun h => ?_⟩
  have hstep : (ssoSystem.step sampleUsers (sampleLogin .oidc "42" "mallory@elsewhere")).isSome := by
    decide
  obtain ⟨t, ht⟩ := Option.isSome_iff_exists.mp hstep
  have hown := ownSubject_of_bound sampleUsers_consistent (h t ht).1
  revert hown
  decide

end Identity
