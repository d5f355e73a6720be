import VmDashboard.Python.Url
import VmDashboard.Python.IpSpecial
import VmDashboard.Notify.Policy

/-!
# Outbound webhooks (`services/outbound_url.py`, `services/notify_transports.py`)

`check_webhook_url` and `post`. The resolver may answer differently at every lookup, so the
check's lookup and the one the HTTP client makes when it connects are separate arguments.
-/

namespace Notify
open Python (IpAddress Net net4 urlsplit SplitResult ipv4Mapped reprText)

/-- The EC2 metadata service, `fd00:ec2::254`. -/
def alwaysBlocked : List IpAddress := [.v6 0xfd000ec2000000000000000000000254 none]

/-- `addr in ip_network("100.64.0.0/10")`. -/
def isShared : IpAddress → Bool
  | .v4 ip => (net4 100 64 0 0 10).holds ip
  | .v6 .. => false

/-- `_classify`: `""` for a public address, else the reason it is not. -/
def classify (addr : IpAddress) : String :=
  if addr ∈ alwaysBlocked then "a cloud metadata address"
  else if addr.isLoopback then "a loopback address"
  else if addr.isLinkLocal then "a link-local address (which includes cloud metadata services)"
  else if addr.isUnspecified || addr.isMulticast || addr.isReserved then
    "not a routable unicast address"
  else if addr.isPrivate || isShared addr then "private"
  else ""

/-- A mapped IPv4 address is classified as the address it maps; the scope id is dropped. -/
def unwrap : IpAddress → IpAddress
  | .v4 ip => .v4 ip
  | .v6 ip _ =>
    match ipv4Mapped ip with
    | some ip => .v4 ip
    | none => .v6 ip none

inductive CheckError
  | refused (message : String)
  | valueError
  deriving DecidableEq

def checkAddress (host : String) (allowPrivate : Bool) (info : IpAddress) : Except CheckError Unit :=
  let addr := unwrap info
  let why := classify addr
  if why = "private" ∧ allowPrivate then .ok ()
  else if why = "private" then
    .error (.refused ("The webhook host " ++ reprText host ++ " resolves to a private address (" ++
      addr.text ++ "). An administrator can allow internal webhook targets on the Notifications " ++
      "settings panel."))
  else if why ≠ "" then
    .error (.refused ("The webhook host " ++ reprText host ++ " resolves to " ++ addr.text ++ ", " ++
      why ++ "; the dashboard will not send to it."))
  else .ok ()

/-- The answer to a lookup of a host and a port; `none` when it raises. -/
abbrev Lookup := String → ℕ → Option (List IpAddress)

/-- The host and the port the check looks up. -/
def webhookTarget (nfkc : List Char → List Char) (url : String) : Except CheckError (String × ℕ) :=
  match urlsplit nfkc (Python.strip url) with
  | none => .error .valueError
  | some parts =>
    let scheme := String.ofList parts.scheme
    match parts.hostname with
    | none =>
      .error (.refused "The webhook URL must be an http:// or https:// URL with a host.")
    | some host =>
      if scheme ≠ "http" ∧ scheme ≠ "https" then
        .error (.refused "The webhook URL must be an http:// or https:// URL with a host.")
      else
        match parts.port with
        | .error exc => .error (.refused ("The webhook URL has an invalid port: " ++ exc))
        | .ok port =>
          let standard := if scheme = "https" then 443 else 80
          .ok (host, if port.getD 0 = 0 then standard else port.getD 0)

def checkWebhookUrl (nfkc : List Char → List Char) (resolve : Lookup) (allowPrivate : Bool)
    (url : String) : Except CheckError Unit := do
  let (host, port) ← webhookTarget nfkc url
  match resolve host port with
  | none => .error (.refused ("The webhook host " ++ reprText host ++ " does not resolve."))
  | some infos => infos.forM (checkAddress host allowPrivate)

/-! ### The POST -/

structure Response where
  statusCode : ℕ
  text : String
  retryAfter : Option String
  deriving DecidableEq

inductive PostError
  | notify (message : String)
  | rateLimited (message : String) (retryAfter : ℕ)
  /-- any other exception -/
  | raised
  deriving DecidableEq

/-- The HTTP client: what it reads from the URL (`none` where it refuses it), and the order in
which it tries the addresses a name resolves to. -/
structure Client where
  target : String → Option (String × ℕ)
  order : List IpAddress → List IpAddress

/-- The addresses tried until one of them answers, and its answer. -/
def connect (answer : IpAddress → Option Response) : List IpAddress → List IpAddress × Option Response
  | [] => ([], none)
  | addr :: addrs =>
    match answer addr with
    | some response => ([addr], some response)
    | none => ((addr :: (connect answer addrs).1), (connect answer addrs).2)

def clip (n : ℕ) (text : String) : String := String.ofList ((Python.strip text).toList.take n)

def checkResponse (fmt : String) (response : Response) : Except PostError ℕ :=
  let text := response.text
  let code := response.statusCode
  if code = 429 then
    .error (.rateLimited ("rate limited (HTTP 429): " ++ clip 200 text)
      (retryAfterSeconds response.retryAfter (backoffSeconds 0)))
  else if ¬(200 ≤ code ∧ code < 300) then
    .error (.notify ("HTTP " ++ toString code ++ ": " ++ clip 300 text))
  else if fmt = "slack" ∧ Python.lower (Python.strip text) ≠ "ok" then
    .error (.notify ("Slack rejected the payload: " ++ clip 200 text))
  else .ok code

/-- The world of one send: what each of its two lookups answers, and who answers a connection. -/
structure Network where
  atCheck : Lookup
  atConnect : Lookup
  answer : IpAddress → Option Response
  /-- the text of the `httpx.HTTPError` when nobody answers -/
  failure : String

/-- The addresses `client.post` tries, and the response. -/
def Client.post (client : Client) (net : Network) (url : String) :
    List IpAddress × Except PostError Response :=
  match client.target url with
  | none => ([], .error .raised)
  | some (host, port) =>
    match net.atConnect host port with
    | none => ([], .error (.notify net.failure))
    | some addrs =>
      let (tried, response) := connect net.answer (client.order addrs)
      (tried, response.elim (.error (.notify net.failure)) .ok)

/-- `post`: the addresses it connects to, and what it returns or raises. -/
def post (nfkc : List Char → List Char) (client : Client) (net : Network) (allowPrivate : Bool)
    (fmt url : String) : List IpAddress × Except PostError ℕ :=
  match checkWebhookUrl nfkc net.atCheck allowPrivate url with
  | .error (.refused message) => ([], .error (.notify message))
  | .error .valueError => ([], .error .raised)
  | .ok () =>
    let (tried, response) := client.post net url
    (tried, response.bind (checkResponse fmt))

/-! ### The addresses a webhook may reach -/

/-- A refused address under the setting, mapped addresses being the address they map. -/
def Refused (allowPrivate : Bool) (info : IpAddress) : Prop :=
  let addr := unwrap info
  addr ∈ alwaysBlocked ∨ addr.isLoopback ∨ addr.isLinkLocal ∨ addr.isUnspecified ∨
    addr.isMulticast ∨ addr.isReserved ∨ (allowPrivate = false ∧ (addr.isPrivate ∨ isShared addr))

instance (allowPrivate : Bool) (info : IpAddress) : Decidable (Refused allowPrivate info) :=
  inferInstanceAs (Decidable (_ ∨ _))

/-- An address that no setting allows. -/
def Unroutable (addr : IpAddress) : Prop :=
  addr ∈ alwaysBlocked ∨ addr.isLoopback ∨ addr.isLinkLocal ∨ addr.isUnspecified ∨
    addr.isMulticast ∨ addr.isReserved

theorem classify_cases (addr : IpAddress) :
    (classify addr ≠ "" ∧ classify addr ≠ "private" ∧ Unroutable addr) ∨
    (classify addr = "private" ∧ ¬Unroutable addr ∧ (addr.isPrivate ∨ isShared addr)) ∨
    (classify addr = "" ∧ ¬Unroutable addr ∧ ¬(addr.isPrivate ∨ isShared addr)) := by
  unfold classify
  by_cases hblocked : addr ∈ alwaysBlocked
  · rw [if_pos hblocked]
    exact .inl ⟨by decide, by decide, .inl hblocked⟩
  by_cases hloopback : addr.isLoopback = true
  · rw [if_neg hblocked, if_pos hloopback]
    exact .inl ⟨by decide, by decide, .inr (.inl hloopback)⟩
  by_cases hlink : addr.isLinkLocal = true
  · rw [if_neg hblocked, if_neg hloopback, if_pos hlink]
    exact .inl ⟨by decide, by decide, .inr (.inr (.inl hlink))⟩
  rw [if_neg hblocked, if_neg hloopback, if_neg hlink]
  by_cases hunroutable : (addr.isUnspecified || addr.isMulticast || addr.isReserved) = true
  · rw [if_pos hunroutable]
    rw [Bool.or_eq_true, Bool.or_eq_true, or_assoc] at hunroutable
    exact .inl ⟨by decide, by decide, .inr (.inr (.inr hunroutable))⟩
  rw [if_neg hunroutable, ← Bool.or_eq_true]
  rw [Bool.or_eq_true, Bool.or_eq_true, or_assoc] at hunroutable
  have hroutable : ¬Unroutable addr := by
    rintro (h | h | h | h)
    · exact hblocked h
    · exact hloopback h
    · exact hlink h
    · exact hunroutable h
  by_cases hprivate : (addr.isPrivate || isShared addr) = true
  · exact .inr (.inl ⟨if_pos hprivate, hroutable, hprivate⟩)
  · exact .inr (.inr ⟨if_neg hprivate, hroutable, hprivate⟩)

theorem refused_iff {allowPrivate : Bool} {info : IpAddress} : Refused allowPrivate info ↔
    Unroutable (unwrap info) ∨
      allowPrivate = false ∧ ((unwrap info).isPrivate ∨ isShared (unwrap info)) := by
  unfold Refused Unroutable
  simp only [or_assoc]

theorem checkAddress_ok {host : String} {allowPrivate : Bool} {info : IpAddress} :
    checkAddress host allowPrivate info = .ok () ↔ ¬Refused allowPrivate info := by
  unfold checkAddress
  dsimp only
  rw [refused_iff]
  rcases classify_cases (unwrap info) with
    ⟨hwhy, hprivate, hunroutable⟩ | ⟨hwhy, hroutable, hprivate⟩ | ⟨hwhy, hroutable, hpublic⟩
  · rw [if_neg fun h => hprivate h.1, if_neg hprivate, if_pos hwhy]
    exact iff_of_false (fun h => by cases h) (not_not.mpr (.inl hunroutable))
  · cases allowPrivate with
    | false =>
      rw [if_neg fun h => Bool.false_ne_true h.2, if_pos hwhy]
      exact iff_of_false (fun h => by cases h) (not_not.mpr (.inr ⟨rfl, hprivate⟩))
    | true =>
      rw [if_pos ⟨hwhy, rfl⟩]
      exact iff_of_true rfl (not_or.mpr ⟨hroutable, fun h => Bool.false_ne_true h.1.symm⟩)
  · have hother : classify (unwrap info) ≠ "private" := by
      rw [hwhy]
      decide
    rw [if_neg fun h => hother h.1, if_neg hother, if_neg (not_not.mpr hwhy)]
    exact iff_of_true rfl (not_or.mpr ⟨hroutable, fun h => hpublic h.2⟩)

/-! ### Which addresses a send reaches -/

theorem forM_ok {ε α : Type*} {f : α → Except ε Unit} {xs : List α} :
    forM xs f = .ok () ↔ ∀ x ∈ xs, f x = .ok () := by
  induction xs with
  | nil => simp [pure, Except.pure]
  | cons x xs ih =>
    cases hx : f x with
    | error e => simp [List.forM_cons, hx, bind, Except.bind]
    | ok u => simpa [List.forM_cons, hx, bind, Except.bind] using ih

theorem checkWebhookUrl_ok {nfkc : List Char → List Char} {resolve : Lookup} {allowPrivate : Bool}
    {url : String} :
    checkWebhookUrl nfkc resolve allowPrivate url = .ok () ↔
      ∃ host port infos, webhookTarget nfkc url = .ok (host, port) ∧
        resolve host port = some infos ∧ ∀ info ∈ infos, ¬Refused allowPrivate info := by
  rw [checkWebhookUrl]
  cases htarget : webhookTarget nfkc url with
  | error e => simp [bind, Except.bind]
  | ok target =>
    obtain ⟨host, port⟩ := target
    cases hinfos : resolve host port with
    | none => simp [bind, Except.bind, hinfos]
    | some infos => simp [bind, Except.bind, hinfos, forM_ok, checkAddress_ok]

/-- The client gets to an address when none before it answers. -/
theorem mem_connect {answer : IpAddress → Option Response} {addrs : List IpAddress}
    {addr : IpAddress} :
    addr ∈ (connect answer addrs).1 ↔
      ∃ before after, addrs = before ++ addr :: after ∧ ∀ b ∈ before, answer b = none := by
  induction addrs with
  | nil => simp [connect]
  | cons first rest ih =>
    constructor
    · intro hmem
      cases hfirst : answer first with
      | some response =>
        obtain rfl : addr = first := by simpa [connect, hfirst] using hmem
        exact ⟨[], rest, rfl, by simp⟩
      | none =>
        rw [connect, hfirst] at hmem
        rcases List.mem_cons.mp hmem with rfl | hrest
        · exact ⟨[], rest, rfl, by simp⟩
        · obtain ⟨before, after, rfl, hbefore⟩ := ih.mp hrest
          exact ⟨first :: before, after, rfl, by simpa [hfirst] using hbefore⟩
    · rintro ⟨before, after, heq, hbefore⟩
      cases before with
      | nil =>
        obtain ⟨rfl, rfl⟩ := List.cons_eq_cons.mp heq
        cases hfirst : answer first <;> simp [connect, hfirst]
      | cons b before =>
        rw [List.cons_append] at heq
        obtain ⟨rfl, rfl⟩ := List.cons_eq_cons.mp heq
        have hb : answer first = none := hbefore first List.mem_cons_self
        have hmem := ih.mpr ⟨before, after, rfl, fun b h => hbefore b (List.mem_cons_of_mem _ h)⟩
        simp [connect, hb, hmem]

/-- The lookup of the check answers with nothing that is refused. -/
def Passed (nfkc : List Char → List Char) (net : Network) (allowPrivate : Bool) (url : String) :
    Prop :=
  ∃ host port infos, webhookTarget nfkc url = .ok (host, port) ∧
    net.atCheck host port = some infos ∧ ∀ info ∈ infos, ¬Refused allowPrivate info

/-- The client's own lookup answers with a refused address ahead of every one that answers. -/
def LuredTo (client : Client) (net : Network) (url : String) (addr : IpAddress) : Prop :=
  ∃ host port addrs before after, client.target url = some (host, port) ∧
    net.atConnect host port = some addrs ∧ client.order addrs = before ++ addr :: after ∧
    ∀ b ∈ before, net.answer b = none

theorem mem_clientPost {client : Client} {net : Network} {url : String} {addr : IpAddress} :
    addr ∈ (client.post net url).1 ↔ LuredTo client net url addr := by
  rw [Client.post]
  cases htarget : client.target url with
  | none => simp [LuredTo, htarget]
  | some target =>
    obtain ⟨host, port⟩ := target
    cases haddrs : net.atConnect host port with
    | none => simp [LuredTo, htarget, haddrs]
    | some addrs => simp [LuredTo, htarget, haddrs, mem_connect]

theorem mem_post {nfkc : List Char → List Char} {client : Client} {net : Network}
    {allowPrivate : Bool} {fmt url : String} {addr : IpAddress} :
    addr ∈ (post nfkc client net allowPrivate fmt url).1 ↔
      Passed nfkc net allowPrivate url ∧ LuredTo client net url addr := by
  rw [← mem_clientPost, Passed, ← checkWebhookUrl_ok]
  unfold post
  cases checkWebhookUrl nfkc net.atCheck allowPrivate url with
  | error e => cases e <;> simp
  | ok u => simp

/-- No refused address is reached unless the second lookup tells of one the first kept quiet. -/
theorem refused_unreached_iff (nfkc : List Char → List Char) (client : Client) (net : Network)
    (allowPrivate : Bool) (fmt url : String) :
    (∀ addr ∈ (post nfkc client net allowPrivate fmt url).1, ¬Refused allowPrivate addr) ↔
      ¬(Passed nfkc net allowPrivate url ∧
        ∃ addr, Refused allowPrivate addr ∧ LuredTo client net url addr) := by
  constructor
  · rintro h ⟨hpassed, addr, hrefused, hlured⟩
    exact h addr (mem_post.mpr ⟨hpassed, hlured⟩) hrefused
  · intro h addr haddr hrefused
    obtain ⟨hpassed, hlured⟩ := mem_post.mp haddr
    exact h ⟨hpassed, addr, hrefused, hlured⟩

/-- With one target and one answer for both lookups no refused address is reached. -/
theorem steady_unreached {nfkc : List Char → List Char} {client : Client} {net : Network}
    {allowPrivate : Bool} {fmt url : String}
    (htarget : ∀ target, webhookTarget nfkc url = .ok target → client.target url = some target)
    (horder : ∀ addrs, client.order addrs ⊆ addrs) (hsteady : net.atConnect = net.atCheck) :
    ∀ addr ∈ (post nfkc client net allowPrivate fmt url).1, ¬Refused allowPrivate addr := by
  intro addr haddr
  obtain ⟨⟨host, port, infos, hchecked, hinfos, hallowed⟩, hlured⟩ := mem_post.mp haddr
  obtain ⟨host', port', addrs, before, after, hread, haddrs, htried, -⟩ := hlured
  obtain ⟨rfl, rfl⟩ : host = host' ∧ port = port' := by
    simpa [hread] using (htarget _ hchecked).symm
  obtain rfl : addrs = infos := by
    rw [hsteady] at haddrs
    exact Option.some.inj (haddrs.symm.trans hinfos)
  exact hallowed addr (horder addrs (by simp [htried]))

/-! ### A name that resolves elsewhere the second time -/

/-- `httpx` on a plain URL. -/
def sampleClient : Client :=
  ⟨fun url => if url = "http://hook.example/x" then some ("hook.example", 80) else none, id⟩

def rebinding : Network where
  atCheck _ _ := some [.v4 0x5DB8D822]
  atConnect _ _ := some [.v4 0xA9FEA9FE]
  answer _ := some ⟨200, "ok", none⟩
  failure := ""

theorem metadata_reached :
    ¬∀ addr ∈ (post id sampleClient rebinding false "custom" "http://hook.example/x").1,
      ¬Refused false addr := by decide +kernel

end Notify
