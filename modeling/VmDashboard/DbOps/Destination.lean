import VmDashboard.DbOps.Request

/-!
# Where the privileged connection goes

The allowlist is checked against the instance a request names; the connection is opened to the address
the same request gives.
-/

namespace DbOps
open Machine (bind_eq_ok raiseIf_eq_ok)
open Python (Dict Json strip lower strip_strip)

def Admitted (allowlist name : String) : Prop := ∃ checked, checkInstance allowlist name = .ok checked

/-- Any two accepted requests for one instance are connected to one address. -/
def Determined (allowlist : String) : Prop :=
  ∀ (p q : Dict) (a b : Parsed × Connection), credentialOp allowlist p = .ok a →
    credentialOp allowlist q = .ok b → a.1.target.connectionName = b.1.target.connectionName →
      (a.2.host, a.2.port) = (b.2.host, b.2.port)

theorem checkInstance_eq {allowlist name checked : String}
    (h : checkInstance allowlist name = .ok checked) : checked = strip name ∧ isConnectionName checked = true := by
  unfold checkInstance at h
  obtain ⟨hname, h⟩ := raiseIf_eq_ok h
  obtain ⟨-, h⟩ := raiseIf_eq_ok h
  split at h
  · obtain rfl := Except.ok.inj h
    exact ⟨rfl, not_not.mp hname⟩
  · obtain ⟨-, h⟩ := raiseIf_eq_ok h
    obtain rfl := Except.ok.inj h
    exact ⟨rfl, not_not.mp hname⟩

/-- A checked name passes the check again. -/
theorem checkInstance_checked {allowlist name checked : String}
    (h : checkInstance allowlist name = .ok checked) :
    checkInstance allowlist checked = .ok checked := by
  obtain ⟨hstrip, -⟩ := checkInstance_eq h
  have hagain : strip checked = strip name := by rw [hstrip, strip_strip]
  unfold checkInstance at h ⊢
  rw [hagain]
  exact h

theorem admitted_of_credentialOp {allowlist : String} {payload : Dict} {a : Parsed × Connection}
    (h : credentialOp allowlist payload = .ok a) :
    Admitted allowlist (fieldText payload ["instanceConnectionName", "instance_connection_name",
      "connectionName", "connection_name"]) := by
  obtain ⟨parsed, hparsed, -⟩ := bind_eq_ok h
  unfold parseCredentialOp at hparsed
  obtain ⟨-, -, hparsed⟩ := bind_eq_ok hparsed
  obtain ⟨-, hparsed⟩ := raiseIf_eq_ok hparsed
  obtain ⟨op, -, hparsed⟩ := bind_eq_ok hparsed
  obtain ⟨engine, -, hparsed⟩ := bind_eq_ok hparsed
  obtain ⟨connectionName, hname, -⟩ := bind_eq_ok hparsed
  exact ⟨connectionName, hname⟩

/-- A request to verify a login of the instance at an address. -/
def probe (name host : String) : Dict :=
  [("operation", .str "verify"), ("instanceConnectionName", .str name), ("privateIp", .str host),
    ("loginUser", .str "sa"), ("loginPassword", .str "pw")]

theorem field_probe_name {name host : String} (hname : name ≠ "") :
    fieldText (probe name host) ["instanceConnectionName", "instance_connection_name",
      "connectionName", "connection_name"] = name := by
  have hsome : Python.Dict.get? (probe name host) "instanceConnectionName" = some (.str name) := rfl
  simp [fieldText, field?, hsome, hname, Json.text]

theorem parseHost_probe {name host : String} (hhost : strip host = host) (hne : host ≠ "") :
    parseHost (probe name host) = .ok host := by
  have hsome : Python.Dict.get? (probe name host) "privateIp" = some (.str host) := rfl
  have htext : fieldText (probe name host) ["privateIp", "private_ip", "host", "address"] = host := by
    simp [fieldText, field?, hsome, hne, Json.text]
  unfold parseHost
  rw [htext, hhost]
  exact if_neg hne

/-- What the probe asks for. -/
def probed (checked host : String) : Parsed where
  op := .verify
  target := ⟨.sqlserver, checked, host, 1433, "master", true, 15⟩
  principal := ""
  newPassword := ""
  oldPassword := ""
  asUser := "sa"
  asPassword := "pw"
  requestId := ""
  version := 1
  canonicalOperation := true
  secrets := ["pw"]

theorem operation_probe (name host : String) :
    lower (strip (fieldText (probe name host) ["operation", "op"])) = "verify" := by
  have htext : fieldText (probe name host) ["operation", "op"] = "verify" := rfl
  rw [htext]
  decide

theorem engine_probe (name host : String) :
    lower (strip (fieldText (probe name host) ["engine"] "sqlserver")) = "sqlserver" := by
  have htext : fieldText (probe name host) ["engine"] "sqlserver" = "sqlserver" := rfl
  rw [htext]
  decide

theorem user_probe (name host : String) :
    strip (fieldText (probe name host) ["loginUser", "login_user"]) = "sa" := by
  have htext : fieldText (probe name host) ["loginUser", "login_user"] = "sa" := rfl
  rw [htext]
  decide

theorem target_probe (name host : String) :
    strip (fieldText (probe name host) ["targetUser", "target_user"]) = "" := by
  have htext : fieldText (probe name host) ["targetUser", "target_user"] = "" := rfl
  rw [htext]
  decide

theorem ssl_probe (name host : String) : parseSsl (probe name host) = true := by
  have htext : fieldText (probe name host) ["ssl", "requireSsl", "require_ssl", "encrypt"] "True" =
    "True" := rfl
  unfold parseSsl
  rw [htext]
  decide

theorem parseCredentialOp_probe {allowlist name checked host : String}
    (h : checkInstance allowlist name = .ok checked) (hname : name ≠ "") (hhost : strip host = host)
    (hne : host ≠ "") :
    parseCredentialOp allowlist (probe name host) 1 = .ok (probed checked host) := by
  unfold parseCredentialOp
  rw [field_probe_name hname, h, parseHost_probe hhost hne, operation_probe, engine_probe, user_probe,
    target_probe, ssl_probe]
  rfl

theorem openConnection_probe {allowlist name checked : String} (host : String)
    (h : checkInstance allowlist name = .ok checked) :
    openConnection allowlist (probed checked host) =
      .ok ⟨.sqlserver, host, 1433, "master", "sa", "pw", true, 15⟩ := by
  have hagain : checkInstance allowlist (probed checked host).target.connectionName = .ok checked :=
    checkInstance_checked h
  unfold openConnection
  rw [hagain]
  rfl

theorem credentialOp_probe {allowlist name checked : String} (host : String)
    (h : checkInstance allowlist name = .ok checked) (hname : name ≠ "") (hhost : strip host = host)
    (hne : host ≠ "") :
    credentialOp allowlist (probe name host) = .ok
      (probed checked host, ⟨.sqlserver, host, 1433, "master", "sa", "pw", true, 15⟩) := by
  have hversion : contractVersion (probe name host) = 1 := rfl
  unfold credentialOp
  rw [hversion, parseCredentialOp_probe h hname hhost hne]
  have hbind : ∀ (a : Parsed) (f : Parsed → Result (Parsed × Connection)), Except.ok a >>= f = f a :=
    fun _ _ => rfl
  rw [hbind, openConnection_probe host h]
  rfl

/-- Two requests for an instance the allowlist admits can ask for two addresses. -/
theorem not_determined_of_admitted {allowlist : String} (name : String) (h : Admitted allowlist name) :
    ¬Determined allowlist := by
  obtain ⟨checked, hchecked⟩ := h
  have hname : name ≠ "" := by
    rintro rfl
    obtain ⟨rfl, hvalid⟩ := checkInstance_eq hchecked
    exact absurd hvalid (by decide)
  have hfirst := credentialOp_probe "10.0.0.1" hchecked hname (by decide) (by decide)
  have hsecond := credentialOp_probe "10.0.0.2" hchecked hname (by decide) (by decide)
  intro hdetermined
  have hsame := hdetermined _ _ _ _ hfirst hsecond rfl
  have hhost : "10.0.0.1" = "10.0.0.2" := congrArg Prod.fst hsame
  exact absurd hhost (by decide)

/-- The destination is determined by the instance exactly when the allowlist lets no request in. -/
theorem destination_determined_iff (allowlist : String) :
    Determined allowlist ↔ ∀ name, ¬Admitted allowlist name := by
  constructor
  · intro h name hname
    exact not_determined_of_admitted name hname h
  · intro h p q a b hp _ _
    exact absurd (admitted_of_credentialOp hp) (h _)

theorem destination_not_determined : ¬Determined "p:europe-west1:orders" :=
  not_determined_of_admitted "p:europe-west1:orders" ⟨"p:europe-west1:orders", by decide +kernel⟩

end DbOps
