import VmDashboard.Machine.System
import VmDashboard.Machine.Table
import VmDashboard.Python.Case

/-!
# Single sign-on

`_complete_oauth_login` and `_email_link_refusal` of `api/auth.py`, which both
providers' callbacks end in. `links` records which provider's login set an
account's subject. The permissions and the persona a login derives from the
groups are left out: no login reads them.
-/

namespace Identity
open Machine (Table)

inductive Provider
  | azureAd
  | oidc
  deriving DecidableEq

def Provider.text : Provider → String
  | .azureAd => "azure_ad"
  | .oidc => "oidc"

def ssoPending : String := "sso_pending"

structure User where
  id : String
  username : String
  fullName : Option String
  email : Option String
  workgroups : List String
  isActive : Bool
  isServiceAccount : Bool
  authProvider : String
  oauthSubject : Option String
  deriving DecidableEq

/- `user.auth_provider or "local"`. -/
def User.provider (user : User) : String :=
  if user.authProvider = "" then "local" else user.authProvider

/-- The subject when it is set. -/
def User.subject (user : User) : Option String :=
  match user.oauthSubject with
  | none | some "" => none
  | some subject => some subject

structure Link where
  user : String
  subject : String
  provider : Provider
  deriving DecidableEq

structure State where
  users : Table User.id
  links : List Link

/-- What a provider's callback hands on, with the rest a login reads: the group mappings as they
are configured (`OAuthGroupMapping`, or the `.env` map) and the uuid of a new row. -/
structure Login where
  provider : Provider
  subject : String
  email : String
  displayName : String
  groups : List String
  emailVerified : Bool
  groupMap : List (String × String)
  newId : String

inductive Outcome
  | loggedIn (user : String)
  | refused (error : String)
  deriving DecidableEq

/-- Why the login may not take over the user by email, or `""`. -/
def emailLinkRefusal (user : User) (subject : String) (emailVerified : Bool) : String :=
  if user.subject.isSome && user.subject ≠ some subject then "linked to a different SSO identity"
  else if !emailVerified then "the identity provider did not verify the email"
  else if user.provider = "local" then
    "it is a local account and no administrator enabled SSO sign-in for it"
  else ""

/-- The workgroups of the mappings that match, `none` without mappings. -/
def Login.workgroups (login : Login) : Option (List String) :=
  if login.groupMap = [] then none
  else some ((login.groupMap.filter fun item => login.groups.contains item.1).map Prod.snd)

/-- The username the auto-create loop stops at. -/
def uniqueUsername (users : List User) (email : String) : String :=
  let localPart := email.toList.takeWhile fun c => c ≠ '@'
  let base := String.ofList ((Python.lower (String.ofList localPart)).toList.map fun c =>
    if c = '.' then '_' else c)
  let candidate (n : ℕ) : String := if n = 0 then base else base ++ "_" ++ toString n
  candidate (((List.range (users.length + 1)).find? fun n =>
    !users.any fun user => user.username = candidate n).getD 0)

def newUser (users : List User) (login : Login) (workgroups : List String) : User where
  id := login.newId
  username := uniqueUsername users login.email
  fullName := some login.displayName
  email := some login.email
  workgroups := workgroups
  isActive := true
  isServiceAccount := false
  authProvider := login.provider.text
  oauthSubject := some login.subject

/-- The fields a login writes on the user it ends in. -/
def User.sync (login : Login) (user : User) : User :=
  { user with
    oauthSubject := if user.subject.isSome then user.oauthSubject else some login.subject
    authProvider := login.provider.text
    fullName :=
      if login.displayName ≠ "" && user.fullName.getD "" = "" then some login.displayName
      else user.fullName
    workgroups := login.workgroups.getD user.workgroups }

theorem User.sync_id (login : Login) (user : User) : (user.sync login).id = user.id := rfl

/-- The user the login is for: by subject, else by email where it may be linked. -/
def findUser (users : Table User.id) (login : Login) : Except String (Option User) :=
  match users.rows.find? fun user => user.oauthSubject = some login.subject with
  | some user => .ok (some user)
  | none =>
    match users.rows.find? fun user => user.email = some login.email with
    | none => .ok none
    | some candidate =>
      if emailLinkRefusal candidate login.subject login.emailVerified = "" then .ok (some candidate)
      else .error "sso_link_refused"

/-- `_complete_oauth_login`. `none` where the uuid is taken. -/
def State.completeOauthLogin (s : State) (login : Login) : Option (Outcome × State) :=
  if login.workgroups = some [] then some (.refused "not_authorized", s)
  else if login.subject = "" then some (.refused "sso_link_refused", s)
  else
    match findUser s.users login with
    | .error error => some (.refused error, s)
    | .ok (some user) =>
      if user.isServiceAccount then some (.refused "not_authorized", s)
      else if !user.isActive then some (.refused "account_disabled", s)
      else some (.loggedIn user.id, {
        users := s.users.modify user.id (User.sync login) fun _ => rfl
        links :=
          if user.subject.isSome then s.links
          else s.links ++ [⟨user.id, login.subject, login.provider⟩] })
    | .ok none =>
      match login.workgroups with
      | none => some (.refused "not_registered", s)
      | some workgroups =>
        (s.users.insert (newUser s.users.rows login workgroups)).map fun users =>
          (.loggedIn login.newId, {
            users, links := s.links ++ [⟨login.newId, login.subject, login.provider⟩] })

def ssoSystem : Machine.System State Login := ⟨fun s login => (s.completeOauthLogin login).map Prod.snd⟩

end Identity
