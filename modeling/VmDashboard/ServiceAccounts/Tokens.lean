import VmDashboard.Machine.System
import VmDashboard.ServiceAccounts.Scope
import VmDashboard.ServiceAccounts.Secrets

/-!
# Workload tokens

`issue_access_token` and `resolve_workload_token` of `services/service_accounts.py` and the scope
checks of `token` in `api/oauth.py`. A token is its payload: the signature is taken to admit the
payloads that were signed and no other.
-/

namespace ServiceAccounts
open Machine (Table)
open Python (Instant)

/-! ### Issuing and resolving -/

def tokenType : String := "workload"

def defaultTokenTtl (client : OAuthClient) : ℤ :=
  if client.tokenTtlSeconds = 0 then defaultTokenTtlSeconds else client.tokenTtlSeconds

structure Payload where
  sub : String
  type : String
  clientId : String
  jti : String
  iat : Instant
  exp : Instant
  scope : Option String

def issueAccessToken (now : Instant) (jti : String) (user : User) (client : OAuthClient)
    (scope : Option TokenScope) : Payload × ℤ :=
  let ttl := defaultTokenTtl client
  ({ sub := user.username
     type := tokenType
     clientId := client.clientId
     jti := jti
     iat := now
     exp := now + Python.seconds ttl.toNat
     scope := scope.map fun scope => formatScope (some scope) }, ttl)

abbrev Users := Table User.id

abbrev Clients := Table OAuthClient.clientId

/-- The scope that a claim puts on the instance. An empty claim was issued as "nothing". -/
def scopeOfClaim : Option String → Except String (Option TokenScope)
  | none => .ok none
  | some claim => (parseScope (some claim)).map fun found => some (found.getD .empty)

def resolveWorkloadToken (clients : Clients) (users : Users) (payload : Payload) : Option User :=
  if payload.type ≠ tokenType then none
  else
    ((clients.lookup payload.clientId).filter (·.isActive)).bind fun client =>
      (users.lookup client.userId).bind fun user =>
        if (serviceAccountProblem (some user)).isSome ∨ user.username ≠ payload.sub then none
        else (scopeOfClaim payload.scope).toOption.map fun scope => { user with tokenScope := scope }

/-! ### The token endpoint -/

/-- `PERMISSION_SCOPE_LEVELS`. -/
abbrev Catalogue := List (String × List String)

def scopeProblem (catalogue : Catalogue) (item : String × List String) : Option String :=
  match catalogue.lookup item.1 with
  | none => some ("Unknown scope " ++ Python.reprText item.1 ++ ".")
  | some allowed =>
    (item.2.find? (· ∉ allowed)).map fun bad =>
      "Scope " ++ Python.reprText item.1 ++ " has no level " ++ Python.reprText bad ++
        " (it offers " ++ ", ".intercalate allowed ++ ")."

def checkScopeCatalogue (catalogue : Catalogue) (scope : TokenScope) : Option String :=
  scope.rows.findSome? (scopeProblem catalogue)

/-- The scope that the endpoint issues and the one that was asked for, past its checks. -/
def endpointScope (catalogue : Catalogue) (user : User) (raw : Option String) :
    Except String (Option TokenScope) := do
  let requested ← parseScope raw
  raiseIf (requested.bind (checkScopeCatalogue catalogue))
  raiseIf (if requested.isSome ∧ (grantedScope user requested).all (·.rows = []) then
    some "None of the requested scope is held by this service account." else none)
  return requested

/-! ### Runs -/

/-- A token as it was issued: to which account, as it stood then, and what was asked for. -/
structure Issued where
  payload : Payload
  holder : User
  requested : Option TokenScope

structure Directory where
  users : Users
  clients : Clients
  issued : List Issued
  revoked : List String

def Directory.start : Directory := ⟨.empty, .empty, [], []⟩

/-- `account` writes every column of an account: roles, permissions, grants and flags. `issue` is
`exchange` without the refusals of the endpoint. -/
inductive Change where
  | account (row : User)
  | removeAccount (id : String)
  | addClient (client : OAuthClient)
  | revokeClient (clientId : String)
  | exchange (clientId : String) (raw : Option String) (now : Instant) (jti : String)
  | issue (clientId : String) (raw : Option String) (now : Instant) (jti : String)

def Directory.give (d : Directory) (now : Instant) (jti : String) (user : User)
    (client : OAuthClient) (requested : Option TokenScope) : Directory :=
  { d with
    issued := ⟨(issueAccessToken now jti user client (grantedScope user requested)).1, user,
      requested⟩ :: d.issued }

/-- A token for what the client's account may be given, once the client has authenticated. -/
def Directory.exchange (d : Directory) (scopeFor : User → Except String (Option TokenScope))
    (clientId : String) (now : Instant) (jti : String) : Option Directory :=
  ((d.clients.lookup clientId).filter (·.isActive)).bind fun client =>
    ((d.users.lookup client.userId).filter fun user =>
      (serviceAccountProblem (some user)).isNone).map fun user =>
        match scopeFor user with
        | .error _ => d
        | .ok requested => d.give now jti user client requested

section Runs
variable (catalogue : Catalogue)

/-- A row of the database carries no token scope. A client is never made active again. -/
def Directory.step (d : Directory) : Change → Option Directory
  | .account row => some { d with users := d.users.put { row with tokenScope := none } }
  | .removeAccount id => some { d with users := d.users.erase id }
  | .addClient client => (d.clients.insert client).map fun clients => { d with clients }
  | .revokeClient clientId =>
    if (d.clients.lookup clientId).isSome then
      some { d with
        clients := d.clients.modify clientId (fun client => { client with isActive := false })
          fun _ => rfl
        revoked := clientId :: d.revoked }
    else none
  | .exchange clientId raw now jti =>
    d.exchange (fun user => endpointScope catalogue user raw) clientId now jti
  | .issue clientId raw now jti => d.exchange (fun _ => parseScope raw) clientId now jti

def tokenSystem : Machine.System Directory Change where
  step := Directory.step catalogue

end Runs

def Directory.resolve (d : Directory) (token : Issued) : Option User :=
  resolveWorkloadToken d.clients d.users token.payload

/-- The client of the token is active and its account is in order. -/
def Directory.InOrder (d : Directory) (token : Issued) (row : User) : Prop :=
  (∃ client, d.clients.lookup token.payload.clientId = some client ∧ client.isActive = true) ∧
    d.users.lookup token.holder.id = some row ∧ row.isServiceAccount = true ∧
    row.isActive = true ∧ row.username = token.holder.username

/-- The scope that was issued. -/
def Issued.scope (token : Issued) : Option TokenScope := grantedScope token.holder token.requested

def Directory.Acts (d : Directory) (token : Issued) (scope level : String) : Prop :=
  ∃ user, d.resolve token = some user ∧ hasPermission user scope level = true

/-- A request with the token may act at a permission exactly when the account holds it now and the
issued scope, if one was asked for, has it: that is what was both asked for and held at issue. It is
refused once its client is revoked, is never an administrator's, and is read with the scope that was
issued, an empty one too. -/
structure Narrows (d : Directory) (token : Issued) : Prop where
  acts : ∀ scope level, d.Acts token scope level ↔ ∃ row, d.InOrder token row ∧
    hasPermission row scope level = true ∧ ∀ granted ∈ token.scope, granted.Allows scope level
  asked : ∀ requested ∈ token.requested, ∃ granted ∈ token.scope, ∀ scope level,
    granted.Allows scope level ↔
      requested.Allows scope level ∧ hasPermission token.holder scope level = true
  unasked : token.requested = none → token.scope = none
  revoked : token.payload.clientId ∈ d.revoked → d.resolve token = none
  admin : ∀ user ∈ d.resolve token, user.isEffectiveAdmin = false
  reads : ∀ user ∈ d.resolve token, ∀ granted ∈ token.scope, ∃ found ∈ user.tokenScope,
    ∀ scope level, found.Allows scope level ↔ granted.Allows scope level

/-! ### What an account may do -/

theorem mem_heldLevels {perms : PermissionMap} {scope level : String} :
    level ∈ heldLevels perms scope ↔ perms.has scope level = true := by
  unfold heldLevels PermissionMap.has
  cases perms.get scope with
  | none => simp
  | some grant => cases grant <;> simp

theorem isEffectiveAdmin_service {user : User} (h : user.isServiceAccount = true) :
    user.isEffectiveAdmin = false := by
  unfold User.isEffectiveAdmin
  rw [if_pos h]

theorem hasPermission_service {user : User} (h : user.isServiceAccount = true)
    (scope level : String) :
    hasPermission user scope level = user.effectivePermissions.has scope level := by
  unfold hasPermission
  rw [isEffectiveAdmin_service h, Bool.false_or]

/-- A scope put on an account keeps what it holds and the scope allows. -/
theorem hasPermission_scoped {row : User} (hrow : row.isServiceAccount = true)
    (hnone : row.tokenScope = none) (token : TokenScope) (scope level : String) :
    hasPermission { row with tokenScope := some token } scope level = true ↔
      hasPermission row scope level = true ∧ token.Allows scope level := by
  have hscoped := @hasPermission_service { row with tokenScope := some token } hrow
  rw [hasPermission_service hrow, hscoped scope level]
  unfold User.effectivePermissions
  dsimp only
  split
  · rw [hrow, Bool.or_true, if_pos rfl, has_roleUnresolved]
    simp
  · rw [hnone, has_narrowToTokenScope (has_mergePermissionMaps _ level)]
    rfl

/-! ### The scope of an issued token -/

theorem grantedScope_clean {user : User} {requested granted : TokenScope}
    (hclean : Clean requested) (h : grantedScope user (some requested) = some granted) :
    Clean granted :=
  fun name level hallows => hclean name level ((allows_grantedScope h name level).mp hallows).1

/-- The claim of an issued token is read as the scope that was written. -/
theorem scopeOfClaim_issued {scope : Option TokenScope} (hclean : ∀ s ∈ scope, Clean s) :
    ∃ found, scopeOfClaim (scope.map fun s => formatScope (some s)) = .ok found ∧
      (found = none ↔ scope = none) ∧ ∀ s ∈ scope, ∃ f ∈ found, ∀ name level,
        TokenScope.Allows f name level ↔ TokenScope.Allows s name level := by
  cases scope with
  | none => exact ⟨none, rfl, Iff.rfl, nofun⟩
  | some s =>
    obtain ⟨found, hfound, hallows⟩ := parseScope_formatScope (hclean s rfl)
    refine ⟨some (found.getD .empty), ?_, by simp, ?_⟩
    · simp only [scopeOfClaim, Option.map_some, hfound]
      rfl
    · intro s' hs'
      obtain rfl := Option.some.inj hs'
      exact ⟨_, rfl, hallows⟩

/-! ### What every run keeps -/

/-- What is recorded of a token is what its payload and the client row say. -/
structure Issued.WellFormed (token : Issued) (clients : Clients) : Prop where
  client : ∃ client, clients.lookup token.payload.clientId = some client ∧
    client.userId = token.holder.id
  type : token.payload.type = tokenType
  sub : token.payload.sub = token.holder.username
  scope : token.payload.scope = token.scope.map fun scope => formatScope (some scope)
  clean : ∀ requested ∈ token.requested, Clean requested
  service : token.holder.isServiceAccount = true

structure Directory.Sound (d : Directory) : Prop where
  rows : ∀ row ∈ d.users.rows, row.tokenScope = none
  revoked : ∀ clientId ∈ d.revoked, ∃ client, d.clients.lookup clientId = some client ∧
    client.isActive = false
  issued : ∀ token ∈ d.issued, token.WellFormed d.clients

theorem Directory.sound_start : Directory.start.Sound where
  rows _ h := absurd h List.not_mem_nil
  revoked _ h := absurd h List.not_mem_nil
  issued _ h := absurd h List.not_mem_nil

theorem endpointScope_eq_ok {catalogue : Catalogue} {user : User} {raw : Option String}
    {requested : Option TokenScope} (h : endpointScope catalogue user raw = .ok requested) :
    parseScope raw = .ok requested := by
  obtain ⟨parsed, hparsed, h⟩ := Machine.bind_eq_ok h
  obtain ⟨-, -, h⟩ := Machine.bind_eq_ok h
  obtain ⟨-, -, h⟩ := Machine.bind_eq_ok h
  obtain rfl := Except.ok.inj h
  exact hparsed

theorem parseScope_clean_mem {raw : Option String} {requested : Option TokenScope}
    (h : parseScope raw = .ok requested) : ∀ scope ∈ requested, Clean scope := by
  intro scope hscope
  obtain rfl := Option.mem_def.mp hscope
  exact parseScope_clean h

/-- A change of the clients that keeps every row's account keeps the tokens well formed. -/
theorem Issued.WellFormed.mono {token : Issued} {clients clients' : Clients}
    (h : token.WellFormed clients)
    (hkeep : ∀ id client, clients.lookup id = some client →
      ∃ client', clients'.lookup id = some client' ∧ client'.userId = client.userId) :
    token.WellFormed clients' := by
  obtain ⟨⟨client, hlookup, huser⟩, htype, hsub, hscope, hclean, hservice⟩ := h
  obtain ⟨client', hlookup', huser'⟩ := hkeep _ client hlookup
  exact ⟨⟨client', hlookup', huser'.trans huser⟩, htype, hsub, hscope, hclean, hservice⟩

theorem Directory.sound_give {d : Directory} (h : d.Sound) {now : Instant} {jti : String}
    {user : User} {client : OAuthClient} {requested : Option TokenScope}
    (hclient : d.clients.lookup client.clientId = some client) (huser : client.userId = user.id)
    (hservice : user.isServiceAccount = true) (hclean : ∀ scope ∈ requested, Clean scope) :
    (d.give now jti user client requested).Sound := by
  refine ⟨h.rows, h.revoked, fun token htoken => ?_⟩
  rcases List.mem_cons.mp htoken with rfl | hold
  · exact ⟨⟨client, hclient, huser⟩, rfl, rfl, rfl, hclean, hservice⟩
  · exact h.issued token hold

theorem Directory.sound_exchange {d t : Directory} (h : d.Sound)
    {scopeFor : User → Except String (Option TokenScope)} {clientId : String} {now : Instant}
    {jti : String} (hclean : ∀ user requested, scopeFor user = .ok requested →
      ∀ scope ∈ requested, Clean scope)
    (ht : d.exchange scopeFor clientId now jti = some t) : t.Sound := by
  obtain ⟨client, hclient, ht⟩ := Option.bind_eq_some_iff.mp ht
  obtain ⟨hclient, -⟩ := Option.filter_eq_some_iff.mp hclient
  obtain ⟨user, huser, rfl⟩ := Option.map_eq_some_iff.mp ht
  obtain ⟨huser, hproblem⟩ := Option.filter_eq_some_iff.mp huser
  obtain ⟨hservice, -⟩ := serviceAccountProblem_eq_none (Option.isNone_iff_eq_none.mp hproblem)
  have hkey := Table.lookup_key hclient
  have huserKey := Table.lookup_key huser
  split
  next => exact h
  next requested hrequested =>
    exact d.sound_give h (hkey ▸ hclient) huserKey.symm hservice (hclean user requested hrequested)

theorem Directory.sound_step {catalogue : Catalogue} {d t : Directory} {change : Change}
    (h : d.Sound) (ht : d.step catalogue change = some t) : t.Sound := by
  cases change with
  | account row =>
    obtain rfl := Option.some.inj ht
    refine ⟨fun row' hrow' => ?_, h.revoked, h.issued⟩
    rcases Table.mem_put.mp hrow' with rfl | ⟨hold, -⟩
    · rfl
    · exact h.rows row' hold
  | removeAccount id =>
    obtain rfl := Option.some.inj ht
    exact ⟨fun row hrow => h.rows row (Table.mem_erase.mp hrow).1, h.revoked, h.issued⟩
  | addClient client =>
    obtain ⟨clients, hclients, rfl⟩ := Option.map_eq_some_iff.mp ht
    refine ⟨h.rows, fun id hid => ?_, fun token htoken => ?_⟩
    · obtain ⟨old, hold, hactive⟩ := h.revoked id hid
      exact ⟨old, Table.lookup_insert_of_some hclients hold, hactive⟩
    · exact (h.issued token htoken).mono fun id old hold =>
        ⟨old, Table.lookup_insert_of_some hclients hold, rfl⟩
  | revokeClient clientId =>
    dsimp only [Directory.step] at ht
    split at ht
    next hsome =>
      obtain rfl := Option.some.inj ht
      obtain ⟨client, hclient⟩ := Option.isSome_iff_exists.mp hsome
      refine ⟨h.rows, fun id hid => ?_, fun token htoken => ?_⟩
      · dsimp only
        rw [Table.lookup_modify]
        split
        next heq =>
          rw [heq, hclient]
          exact ⟨_, rfl, rfl⟩
        next hne =>
          rcases List.mem_cons.mp hid with heq | hid
          · exact absurd heq hne
          · exact h.revoked id hid
      · refine (h.issued token htoken).mono fun id old hold => ?_
        dsimp only
        rw [Table.lookup_modify, hold]
        split
        · exact ⟨_, rfl, rfl⟩
        · exact ⟨old, rfl, rfl⟩
    next => cases ht
  | exchange clientId raw now jti =>
    exact d.sound_exchange h (fun user requested hok =>
      parseScope_clean_mem (endpointScope_eq_ok hok)) ht
  | issue clientId raw now jti =>
    exact d.sound_exchange h (fun user requested hok => parseScope_clean_mem hok) ht

/-! ### What a token may do -/

theorem Issued.scope_clean {token : Issued} {clients : Clients} (h : token.WellFormed clients) :
    ∀ scope ∈ token.scope, Clean scope := by
  intro scope hscope
  obtain ⟨requested, hrequested, -⟩ := Option.map_eq_some_iff.mp hscope
  unfold Issued.scope at hscope
  rw [hrequested] at hscope
  exact grantedScope_clean (h.clean requested hrequested) hscope

/-- A token resolves to the account it was issued to, with the issued scope, and only while the
client and the account are in order. -/
theorem Directory.resolve_iff {d : Directory} (hd : d.Sound) {token : Issued}
    (htoken : token ∈ d.issued) : ∃ found, (found = none ↔ token.scope = none) ∧
      (∀ s ∈ token.scope, ∃ f ∈ found, ∀ scope level,
        TokenScope.Allows f scope level ↔ TokenScope.Allows s scope level) ∧
      ∀ user, d.resolve token = some user ↔
        ∃ row, d.InOrder token row ∧ user = { row with tokenScope := found } := by
  have hwf := hd.issued token htoken
  obtain ⟨found, hread, hnone, hsome⟩ := scopeOfClaim_issued (Issued.scope_clean hwf)
  obtain ⟨client, hclient, huser⟩ := hwf.client
  refine ⟨found, hnone, hsome, fun user => ?_⟩
  unfold Directory.resolve resolveWorkloadToken Directory.InOrder
  rw [if_neg (not_not.mpr hwf.type), hclient, hwf.scope, hread]
  constructor
  · intro h
    obtain ⟨active, hactive, h⟩ := Option.bind_eq_some_iff.mp h
    obtain ⟨hsame, hactive⟩ := Option.filter_eq_some_iff.mp hactive
    obtain rfl := Option.some.inj hsame
    obtain ⟨row, hrow, h⟩ := Option.bind_eq_some_iff.mp h
    split at h
    · cases h
    next hgood =>
      obtain ⟨hproblem, hname⟩ := not_or.mp hgood
      obtain ⟨hservice, hrowActive⟩ :=
        serviceAccountProblem_eq_none (Option.not_isSome_iff_eq_none.mp hproblem)
      rw [huser] at hrow
      exact ⟨row, ⟨⟨client, rfl, hactive⟩, hrow, hservice, hrowActive,
        (not_not.mp hname).trans hwf.sub⟩, (Option.some.inj h).symm⟩
  · rintro ⟨row, ⟨⟨active, hsame, hactive⟩, hrow, hservice, hrowActive, hname⟩, rfl⟩
    obtain rfl := Option.some.inj hsame
    have hproblem : (serviceAccountProblem (some row)).isSome = false := by
      simp [serviceAccountProblem, hservice, hrowActive]
    have hgood : ¬((serviceAccountProblem (some row)).isSome = true ∨
        row.username ≠ token.payload.sub) := by
      rw [hproblem, hwf.sub, hname]
      simp
    rw [Option.filter_some_pos (by exact hactive), Option.bind_some, huser, hrow,
      Option.bind_some, if_neg hgood]
    rfl

theorem Directory.narrows {d : Directory} (hd : d.Sound) {token : Issued}
    (htoken : token ∈ d.issued) : Narrows d token := by
  have hwf := hd.issued token htoken
  obtain ⟨found, hnone, hsome, hresolve⟩ := d.resolve_iff hd htoken
  have hgranted : ∀ {requested granted}, token.requested = some requested →
      token.scope = some granted → ∀ scope level, TokenScope.Allows granted scope level ↔
        TokenScope.Allows requested scope level ∧
          hasPermission token.holder scope level = true := by
    intro requested granted hrequested hscope scope level
    unfold Issued.scope at hscope
    rw [hrequested] at hscope
    rw [allows_grantedScope hscope, mem_heldLevels, hasPermission_service hwf.service]
  refine ⟨fun scope level => ?_, ?_, ?_, ?_, ?_, ?_⟩
  · have hacts : ∀ row, d.InOrder token row →
        (hasPermission { row with tokenScope := found } scope level = true ↔
          hasPermission row scope level = true ∧
            ∀ granted ∈ token.scope, granted.Allows scope level) := by
      rintro row ⟨-, hrow, hservice, -⟩
      have hplain := hd.rows row (Table.lookup_eq_some.mp hrow).1
      cases hscope : token.scope with
      | none =>
        obtain rfl := hnone.mpr hscope
        have hsame : { row with tokenScope := none } = row := by
          rw [← hplain]
        rw [hsame]
        simp
      | some granted =>
        obtain ⟨f, hf, hallows⟩ := hsome granted hscope
        obtain rfl := Option.mem_def.mp hf
        rw [hasPermission_scoped hservice hplain, hallows]
        simp
    constructor
    · rintro ⟨user, huser, hmay⟩
      obtain ⟨row, hrow, rfl⟩ := (hresolve user).mp huser
      exact ⟨row, hrow, (hacts row hrow).mp hmay⟩
    · rintro ⟨row, hrow, hmay⟩
      exact ⟨_, (hresolve _).mpr ⟨row, hrow, rfl⟩, (hacts row hrow).mpr hmay⟩
  · intro requested hrequested
    have hscope : token.scope = some _ := congrArg (grantedScope token.holder) hrequested
    exact ⟨_, hscope, hgranted hrequested hscope⟩
  · intro hrequested
    exact congrArg (grantedScope token.holder) hrequested
  · intro hrevoked
    obtain ⟨client, hclient, hactive⟩ := hd.revoked _ hrevoked
    refine Option.eq_none_iff_forall_ne_some.mpr fun user huser => ?_
    obtain ⟨row, ⟨⟨client', hclient', hactive'⟩, -⟩, -⟩ := (hresolve user).mp huser
    obtain rfl := Option.some.inj (hclient.symm.trans hclient')
    rw [hactive] at hactive'
    cases hactive'
  · intro user huser
    obtain ⟨row, ⟨-, -, hservice, -⟩, rfl⟩ := (hresolve user).mp huser
    exact isEffectiveAdmin_service hservice
  · intro user huser granted hscope
    obtain ⟨row, -, rfl⟩ := (hresolve user).mp huser
    exact hsome granted hscope

/-- Whatever the accounts, the clients and the scopes asked for become, a token only narrows. -/
theorem tokens_only_narrow (catalogue : Catalogue) (changes : List Change) :
    (tokenSystem catalogue).Always (fun d => ∀ token ∈ d.issued, Narrows d token)
      Directory.start changes := by
  have hsound := (tokenSystem catalogue).always_of_step
    (fun d change t hd ht => Directory.sound_step hd ht) changes Directory.sound_start
  exact (tokenSystem catalogue).always_mono (fun d hd token htoken => d.narrows hd htoken) hsound

end ServiceAccounts
