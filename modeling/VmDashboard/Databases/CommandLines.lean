import VmDashboard.Databases.Onboarding

/-!
# What the shell makes of a command line

The client's words and its statements, as the builders meant them, against the line they return.
-/

namespace Databases
open Python (strip beforeEnd b64encode b64decode utf8Encode apostrophe quotation backslash)
open Machine (Transducer)
open Shell (Reads isPlain isPlainWord isDoublePlain)

inductive Operation
  | onboard (managedPassword : String)
  | teardown

def Operation.commands : Operation → Args → Result (List String)
  | .onboard managedPassword, args => onboardCommands args managedPassword
  | .teardown, args => teardownCommands args

def Operation.statements (op : Operation) (managed : String) (flavor : Option Flavor)
    (engine : OnboardEngine) : List String :=
  match op with
  | .onboard managedPassword => onboardSql managed managedPassword flavor engine
  | .teardown => teardownSql managed flavor engine

/-- What the client of the engine is called with. -/
def Args.call (args : Args) (op : Operation) (engine : OnboardEngine) (flavor : Option Flavor) :
    ClientCall :=
  ⟨args.host, args.port, args.database, args.adminUser, args.adminPassword,
    resolveClientImage engine args.clientImage, op.statements args.managedUser flavor engine⟩

theorem Args.call_image (args : Args) (op : Operation) (engine : OnboardEngine)
    (flavor : Option Flavor) :
    (args.call op engine flavor).image = resolveClientImage engine args.clientImage := by
  simp only [Args.call]

theorem Args.call_statements (args : Args) (op : Operation) (engine : OnboardEngine)
    (flavor : Option Flavor) :
    (args.call op engine flavor).statements = op.statements args.managedUser flavor engine := by
  simp only [Args.call]

/-! ### The intended words -/

def pgWords (call : ClientCall) : List String :=
  let db := if call.database = "" then "postgres" else call.database
  ["docker", "run", "--rm", "-e", "PGPASSWORD=" ++ call.adminPassword, call.image, "psql",
    pgConn call db, "-v", "ON_ERROR_STOP=1"] ++ call.statements.flatMap fun stmt => ["-c", stmt]

def mysqlWords (call : ClientCall) : List String :=
  ["docker", "run", "--rm", "-e", "MYSQL_PWD=" ++ call.adminPassword,
    call.image, "mysql", "--host=" ++ call.host, "--port=" ++ toString call.port,
    "--user=" ++ call.adminUser, "--ssl-mode=REQUIRED", "--batch", "-e", mysqlBatch call]

def mssqlWords (call : ClientCall) : List String :=
  (if call.image ≠ "" then
    ["docker", "run", "--rm", "-e", "SQLCMDPASSWORD=" ++ call.adminPassword,
      "--entrypoint", sqlcmdPath, call.image]
  else ["SQLCMDPASSWORD=" ++ call.adminPassword, sqlcmdPath]) ++ mssqlArgs call ++ [mssqlBatch call]

def oracleText (call : ClientCall) : String :=
  oracleScript call (if call.database = "" then "ORCL" else call.database)

def oracleB64 (call : ClientCall) : String :=
  String.ofList (b64encode (utf8Encode (oracleText call)))

def oraclePipeline (call : ClientCall) : List (List String) :=
  [["echo", oracleB64 call], ["base64", "-d"],
    ["docker", "run", "-i", "--rm", call.image, "sqlplus", "-S", "/nolog"],
    ["tee", "/dev/stderr"], ["grep", "-q", oracleOk]]

/-- The shell runs the client with the words that were meant and nothing else, and the client gets
the statements as they were built; `sqlplus` gets them from `base64 -d`. -/
def Intact (call : ClientCall) (line : String) : OnboardEngine → Prop
  | .valid .postgres => Reads line [pgWords call]
  | .valid .mysql => Reads line [mysqlWords call]
  | .valid .sqlserver => Reads line [mssqlWords call]
  | .oracle => Reads line (oraclePipeline call) ∧
      b64decode (oracleB64 call).toList = some (utf8Encode (oracleText call))

/-- What is not quoted has nothing in it that the shell reads. -/
def Clean (call : ClientCall) : OnboardEngine → Prop
  | .valid .postgres => False
  | .valid .mysql => isPlainWord call.image.toList = true ∧ call.host.toList.all isPlain = true ∧
      '\n' ∉ call.adminUser.toList
  | .valid .sqlserver => (call.image = "" ∨ isPlainWord call.image.toList = true) ∧
      isPlainWord (call.host.toList ++ [',']) = true ∧ '\n' ∉ call.adminUser.toList
  | .oracle => isPlainWord call.image.toList = true

/-! ### Checked names and values -/

theorem mem_beforeEnd {cs : List Char} {c : Char} (h : c ∈ cs) : c ∈ beforeEnd cs ∨ c = '\n' := by
  unfold beforeEnd
  split
  next hlast =>
    obtain ⟨start, rfl⟩ := List.getLast?_eq_some_iff.mp hlast
    rw [List.dropLast_concat]
    rcases List.mem_append.mp h with hstart | hend
    · exact .inl hstart
    · exact .inr (List.mem_singleton.mp hend)
  next => exact .inl h

/-- `[A-Za-z0-9#\-_.]` -/
def isSafe (c : Char) : Bool := c.isAlphanum || "#-_.".toList.contains c

theorem safe_of_ident {name : String} (h : isIdent name = true) {c : Char} (hc : c ∈ name.toList) :
    isSafe c = true ∨ c = '\n' := by
  refine (mem_beforeEnd hc).imp_left fun hmem => ?_
  unfold isIdent at h
  split at h
  next => cases h
  next first rest heq =>
    rw [heq] at hmem
    simp only [Bool.and_eq_true, List.all_eq_true] at h
    rcases List.mem_cons.mp hmem with rfl | hrest
    · simp [isSafe, Char.isAlphanum, h.1.1]
    · have hword := h.1.2 c hrest
      simp only [Bool.or_eq_true, decide_eq_true_eq] at hword
      rcases hword with halnum | rfl
      · simp [isSafe, halnum]
      · rfl

theorem safe_of_value {val : String} (h : isSafeValue val = true) {c : Char} (hc : c ∈ val.toList) :
    isSafe c = true ∨ c = '\n' := by
  refine (mem_beforeEnd hc).imp_left fun hmem => ?_
  simp only [isSafeValue, Bool.and_eq_true, List.all_eq_true] at h
  exact h.2 c hmem

theorem plain_of_safe {c : Char} (h : isSafe c = true) : isPlain c = true := by
  have hne (d : Char) (hd : isSafe d = false) : c ≠ d := by
    rintro rfl
    rw [h] at hd
    cases hd
  have hspecial : Shell.isSpecial c = false := by
    by_contra hin
    have hmem : c ∈ "$`&;<>()*?[\n".toList :=
      List.contains_iff_mem.mp ((Bool.not_eq_false _).mp hin)
    have hall : "$`&;<>()*?[\n".toList.all (fun d => !isSafe d) = true := by decide
    have hnot := List.all_eq_true.mp hall c hmem
    rw [h] at hnot
    cases hnot
  simp [isPlain, Shell.isBlank, hspecial, hne ' ' (by decide), hne '\t' (by decide),
    hne '|' (by decide), hne backslash (by decide), hne apostrophe (by decide),
    hne quotation (by decide)]

theorem doublePlain_of_safe {c : Char} (h : isSafe c = true ∨ c = '\n') : isDoublePlain c = true := by
  rcases h with h | rfl
  · have hplain := plain_of_safe h
    simp only [isPlain, Bool.and_eq_true, Bool.not_eq_true', decide_eq_true_eq] at hplain
    have hexpansion : Shell.isExpansion c = false := by
      by_contra hin
      have hmem : c ∈ "$`".toList := List.contains_iff_mem.mp ((Bool.not_eq_false _).mp hin)
      have hall : "$`".toList.all (fun d => !isSafe d) = true := by decide
      have hnot := List.all_eq_true.mp hall c hmem
      rw [h] at hnot
      cases hnot
    simp [isDoublePlain, hplain.1.1.1.2, hplain.1.2, hexpansion]
  · decide

theorem apostrophe_not_mem {text : String}
    (h : ∀ c ∈ text.toList, isSafe c = true ∨ c = '\n') : apostrophe ∉ text.toList := by
  intro hmem
  rcases h apostrophe hmem with hsafe | heq
  · exact absurd hsafe (by decide)
  · exact absurd heq (by decide)

/-- Only the line break that `$` admits at the end is not plain. -/
theorem plain_iff_of_safe {text : String} (h : ∀ c ∈ text.toList, isSafe c = true ∨ c = '\n') :
    text.toList.all isPlain = true ↔ '\n' ∉ text.toList := by
  rw [List.all_eq_true]
  constructor
  · intro hall hmem
    exact absurd (hall '\n' hmem) (by decide)
  · intro hnot c hc
    rcases h c hc with hsafe | rfl
    · exact plain_of_safe hsafe
    · exact absurd hc hnot

theorem safe_of_port {port : ℤ} {c : Char} (hc : c ∈ (toString port).toList) :
    isSafe c = true := by
  rcases Python.mem_toString_int hc with hdigit | rfl
  · simp [isSafe, Char.isAlphanum, hdigit]
  · decide

theorem plain_port (port : ℤ) : (toString port).toList.all isPlain = true :=
  List.all_eq_true.mpr fun _ hc => plain_of_safe (safe_of_port hc)

/-! ### Texts for double quotes -/

def Bare (text : String) : Prop := text.toList.all isDoublePlain = true

instance (text : String) : Decidable (Bare text) := inferInstanceAs (Decidable (_ = true))

@[simp] theorem bare_append (a b : String) : Bare (a ++ b) ↔ Bare a ∧ Bare b := by
  unfold Bare
  rw [String.toList_append, List.all_append, Bool.and_eq_true]

theorem bare_of_safe {text : String} (h : ∀ c ∈ text.toList, isSafe c = true ∨ c = '\n') :
    Bare text :=
  List.all_eq_true.mpr fun c hc => doublePlain_of_safe (h c hc)

theorem bare_intercalate {separator : String} (hsep : Bare separator) {texts : List String}
    (h : ∀ text ∈ texts, Bare text) : Bare (separator.intercalate texts) := by
  induction texts with
  | nil => rfl
  | cons text texts ih =>
    have htext := h text List.mem_cons_self
    cases texts with
    | nil =>
      rw [String.intercalate_singleton]
      exact htext
    | cons next texts =>
      rw [String.intercalate_cons_cons, bare_append, bare_append]
      exact ⟨⟨htext, hsep⟩, ih fun other hother => h other (List.mem_cons_of_mem text hother)⟩

theorem bare_ofList (cs : List Char) (h : cs.all isDoublePlain = true) : Bare (String.ofList cs) := by
  unfold Bare
  rwa [String.toList_ofList]

theorem mysqlOnboardSql_bare {managed managedPw : String} (hm : Bare managed)
    (hp : Bare managedPw) : ∀ stmt ∈ mysqlOnboardSql managed managedPw, Bare stmt := by
  simp only [mysqlOnboardSql, List.forall_mem_cons, bare_append, hm, hp, and_true, and_assoc]
  refine ⟨?_, ?_, ?_, ?_, ?_, ?_, nofun⟩ <;> exact bare_ofList _ rfl

theorem mysqlTeardownSql_bare {managed : String} (hm : Bare managed) :
    ∀ stmt ∈ mysqlTeardownSql managed, Bare stmt := by
  simp only [mysqlTeardownSql, List.forall_mem_cons, bare_append, hm, and_true, and_assoc]
  refine ⟨?_, ?_, nofun⟩ <;> exact bare_ofList _ rfl

theorem mssqlLoginExists_bare {name : String} (h : Bare name) : Bare (mssqlLoginExists name) := by
  unfold mssqlLoginExists
  rw [bare_append, bare_append]
  exact ⟨⟨bare_ofList _ rfl, h⟩, bare_ofList _ rfl⟩

theorem mssqlDbUserExists_bare {name : String} (h : Bare name) : Bare (mssqlDbUserExists name) := by
  unfold mssqlDbUserExists
  rw [bare_append, bare_append]
  exact ⟨⟨bare_ofList _ rfl, h⟩, bare_ofList _ rfl⟩

theorem mssqlOnboardSql_bare {managed managedPw : String} (hm : Bare managed)
    (hp : Bare managedPw) (flavor : Option Flavor) :
    ∀ stmt ∈ mssqlOnboardSql managed managedPw flavor, Bare stmt := by
  have hlogin := mssqlLoginExists_bare hm
  have huser := mssqlDbUserExists_bare hm
  unfold mssqlOnboardSql
  rw [List.forall_mem_append]
  constructor
  · simp only [List.forall_mem_cons, bare_append, hlogin, hm, hp, and_true, and_assoc]
    refine ⟨?_, ?_, ?_, ?_, ?_, ?_, ?_, ?_, nofun⟩ <;> exact bare_ofList _ rfl
  · split
    · simp only [List.forall_mem_cons, bare_append, huser, hm, and_true, and_assoc]
      refine ⟨?_, ?_, ?_, ?_, ?_, nofun⟩ <;> exact bare_ofList _ rfl
    · nofun

theorem mssqlTeardownSql_bare {managed : String} (hm : Bare managed) (flavor : Option Flavor) :
    ∀ stmt ∈ mssqlTeardownSql managed flavor, Bare stmt := by
  have hlogin := mssqlLoginExists_bare hm
  have huser := mssqlDbUserExists_bare hm
  unfold mssqlTeardownSql
  rw [List.forall_mem_append]
  constructor
  · split
    · simp only [mssqlDropUserSql, List.forall_mem_cons, bare_append, huser, hm, and_true, and_assoc]
      refine ⟨?_, ?_, ?_, ?_, nofun⟩ <;> exact bare_ofList _ rfl
    · nofun
  · simp only [List.forall_mem_cons, bare_append, hlogin, hm, and_true, and_assoc]
    refine ⟨?_, ?_, ?_, nofun⟩ <;> exact bare_ofList _ rfl

/-! ### MySQL -/

theorem plainWord_ofList (cs : List Char) (h : isPlainWord cs = true) :
    isPlainWord (String.ofList cs).toList = true := by
  rwa [String.toList_ofList]

theorem ne_nil_of_plainWord {word : List Char} (h : isPlainWord word = true) : word ≠ [] := by
  rintro rfl
  cases h

/-- A word that begins with an option. -/
theorem plainWord_option (option : String) (h : isPlainWord option.toList = true) (text : String) :
    (option ++ text).toList ≠ [] ∧
      (isPlainWord (option ++ text).toList = true ↔ text.toList.all isPlain = true) := by
  rw [String.toList_append]
  exact ⟨List.append_ne_nil_of_left_ne_nil (ne_nil_of_plainWord h) _, Shell.isPlainWord_append h _⟩

theorem dockerRun_plain : ∀ word ∈ ["docker", "run", "--rm", "-e"],
    isPlainWord word.toList = true := by
  simp only [List.forall_mem_cons]
  refine ⟨?_, ?_, ?_, ?_, nofun⟩ <;> exact plainWord_ofList _ rfl

theorem mysqlCommand_reads_iff {call : ClientCall}
    (hpassword : apostrophe ∉ call.adminPassword.toList) (himage : call.image.toList ≠ [])
    (huser : ∀ c ∈ call.adminUser.toList, isSafe c = true ∨ c = '\n')
    (hempty : (mysqlBatch call).toList ≠ []) (hbatch : Bare (mysqlBatch call)) :
    Reads (mysqlCommand call) [mysqlWords call] ↔
      isPlainWord call.image.toList = true ∧ call.host.toList.all isPlain = true ∧
        '\n' ∉ call.adminUser.toList := by
  have hmysql : isPlainWord ("mysql" : String).toList = true := plainWord_ofList _ rfl
  have hssl : isPlainWord ("--ssl-mode=REQUIRED" : String).toList = true := plainWord_ofList _ rfl
  have hquiet : isPlainWord ("--batch" : String).toList = true := plainWord_ofList _ rfl
  have he : isPlainWord ("-e" : String).toList = true := plainWord_ofList _ rfl
  obtain ⟨hhostNe, hhost⟩ := plainWord_option "--host=" (plainWord_ofList _ rfl) call.host
  obtain ⟨hportNe, hport⟩ :=
    plainWord_option "--port=" (plainWord_ofList _ rfl) (toString call.port)
  obtain ⟨huserNe, huserIff⟩ :=
    plainWord_option "--user=" (plainWord_ofList _ rfl) call.adminUser
  have hne : ∀ word ∈ [call.image, "mysql", "--host=" ++ call.host, "--port=" ++ toString call.port,
      "--user=" ++ call.adminUser, "--ssl-mode=REQUIRED", "--batch", "-e"], word.toList ≠ [] := by
    simp only [List.forall_mem_cons]
    exact ⟨himage, ne_nil_of_plainWord hmysql, hhostNe, hportNe, huserNe, ne_nil_of_plainWord hssl,
      ne_nil_of_plainWord hquiet, ne_nil_of_plainWord he, nofun⟩
  have hreads := Shell.reads_command_iff dockerRun_plain "MYSQL_PWD='" "MYSQL_PWD="
    rfl (plainWord_ofList _ rfl) hpassword hne hempty hbatch
  refine Iff.trans hreads ?_
  simp only [List.forall_mem_cons, hmysql, hssl, hquiet, he, hhost, hport, plain_port, huserIff,
    plain_iff_of_safe huser, List.not_mem_nil, false_implies, implies_true, true_and, and_true]

/-! ### SQL Server -/

theorem ident_head {name : String} (h : isIdent name = true) :
    ∃ c cs, name.toList = c :: cs ∧ c.isAlpha = true := by
  unfold isIdent at h
  split at h
  next => cases h
  next c rest heq =>
    simp only [Bool.and_eq_true] at h
    unfold beforeEnd at heq
    split at heq
    · cases hlist : name.toList with
      | nil =>
        rw [hlist] at heq
        cases heq
      | cons d ds =>
        rw [hlist] at heq
        cases ds with
        | nil => cases heq
        | cons e es =>
          obtain ⟨rfl, -⟩ := List.cons.inj heq
          exact ⟨d, e :: es, rfl, h.1.1⟩
    · exact ⟨c, rest, heq, h.1.1⟩

/-- A checked name is a word of its own unless it ends in the line break that `$` admits. -/
theorem plainWord_ident {name : String} (h : isIdent name = true) :
    name.toList ≠ [] ∧ (isPlainWord name.toList = true ↔ '\n' ∉ name.toList) := by
  obtain ⟨c, cs, hlist, halpha⟩ := ident_head h
  have hhash : c ≠ '#' := by
    rintro rfl
    cases halpha
  have htilde : c ≠ '~' := by
    rintro rfl
    cases halpha
  have hplain := plain_iff_of_safe fun _ hc => safe_of_ident h hc
  rw [hlist] at hplain ⊢
  refine ⟨List.cons_ne_nil c cs, ?_⟩
  rw [← hplain]
  simp [isPlainWord, hhash, htilde]

theorem mssqlArgs_plain_iff {call : ClientCall} (huser : isIdent call.adminUser = true) :
    (∀ word ∈ mssqlArgs call, word.toList ≠ []) ∧
      ((∀ word ∈ mssqlArgs call, isPlainWord word.toList = true) ↔
        isPlainWord (call.host.toList ++ [',']) = true ∧ '\n' ∉ call.adminUser.toList) := by
  obtain ⟨huserNe, huserIff⟩ := plainWord_ident huser
  have hcomma : (call.host ++ "," ++ toString call.port).toList =
      (call.host.toList ++ [',']) ++ (toString call.port).toList := by
    rw [String.toList_append, String.toList_append]
    rfl
  have hcommaNe : call.host.toList ++ [','] ≠ [] := List.append_ne_nil_of_right_ne_nil _ nofun
  have hhost := Shell.isPlainWord_append_plain hcommaNe (plain_port call.port)
  have hs : isPlainWord ("-S" : String).toList = true := plainWord_ofList _ rfl
  have hu : isPlainWord ("-U" : String).toList = true := plainWord_ofList _ rfl
  have hd : isPlainWord ("-d" : String).toList = true := plainWord_ofList _ rfl
  have hmaster : isPlainWord ("master" : String).toList = true := plainWord_ofList _ rfl
  have hn : isPlainWord ("-Nm" : String).toList = true := plainWord_ofList _ rfl
  have hc : isPlainWord ("-C" : String).toList = true := plainWord_ofList _ rfl
  have hb : isPlainWord ("-b" : String).toList = true := plainWord_ofList _ rfl
  have hq : isPlainWord ("-Q" : String).toList = true := plainWord_ofList _ rfl
  unfold mssqlArgs
  constructor
  · simp only [List.forall_mem_cons, hcomma]
    exact ⟨ne_nil_of_plainWord hs, List.append_ne_nil_of_left_ne_nil hcommaNe _,
      ne_nil_of_plainWord hu, huserNe, ne_nil_of_plainWord hd, ne_nil_of_plainWord hmaster,
      ne_nil_of_plainWord hn, ne_nil_of_plainWord hc, ne_nil_of_plainWord hb,
      ne_nil_of_plainWord hq, nofun⟩
  · simp only [List.forall_mem_cons, hcomma, hhost, hs, hu, hd, hmaster, hn, hc, hb, hq, huserIff,
      List.not_mem_nil, false_implies, implies_true, true_and, and_true]

theorem mssqlCommand_reads_iff {call : ClientCall}
    (hpassword : apostrophe ∉ call.adminPassword.toList) (huser : isIdent call.adminUser = true)
    (hempty : (mssqlBatch call).toList ≠ []) (hbatch : Bare (mssqlBatch call)) :
    Reads (mssqlCommand call) [mssqlWords call] ↔
      (call.image = "" ∨ isPlainWord call.image.toList = true) ∧
        isPlainWord (call.host.toList ++ [',']) = true ∧ '\n' ∉ call.adminUser.toList := by
  obtain ⟨hargsNe, hargs⟩ := mssqlArgs_plain_iff huser
  have hpath : isPlainWord sqlcmdPath.toList = true := plainWord_ofList _ rfl
  have hsetting : isPlainWord ("SQLCMDPASSWORD=" : String).toList = true := plainWord_ofList _ rfl
  by_cases himage : call.image = ""
  · have hne : ∀ word ∈ [sqlcmdPath] ++ mssqlArgs call, word.toList ≠ [] := by
      rw [List.forall_mem_append, List.forall_mem_singleton]
      exact ⟨ne_nil_of_plainWord hpath, hargsNe⟩
    have hfront : ∀ word ∈ ([] : List String), isPlainWord word.toList = true := nofun
    have hreads := Shell.reads_command_iff hfront "SQLCMDPASSWORD='" "SQLCMDPASSWORD=" rfl hsetting
      hpassword hne hempty hbatch
    have hline : mssqlCommand call = " ".intercalate ([] ++ ("SQLCMDPASSWORD='" ++ call.adminPassword ++
        "'") :: ([sqlcmdPath] ++ mssqlArgs call ++ ["\"" ++ mssqlBatch call ++ "\""])) := by
      simp only [mssqlCommand]
      rw [if_neg (not_not.mpr himage)]
      rfl
    have hwords : mssqlWords call = [] ++ ("SQLCMDPASSWORD=" ++ call.adminPassword) ::
        ([sqlcmdPath] ++ mssqlArgs call ++ [mssqlBatch call]) := by
      unfold mssqlWords
      rw [if_neg (not_not.mpr himage)]
      rfl
    rw [hline, hwords]
    refine hreads.trans ?_
    simp only [List.forall_mem_append, List.forall_mem_singleton, hpath, hargs, himage, true_and,
      true_or]
  · have hne : ∀ word ∈ ["--entrypoint", sqlcmdPath, call.image] ++ mssqlArgs call,
        word.toList ≠ [] := by
      have himageNe : call.image.toList ≠ [] := fun hnil =>
        himage (String.toList_injective hnil)
      have hentry : isPlainWord ("--entrypoint" : String).toList = true := plainWord_ofList _ rfl
      rw [List.forall_mem_append]
      simp only [List.forall_mem_cons]
      exact ⟨⟨ne_nil_of_plainWord hentry, ne_nil_of_plainWord hpath, himageNe, nofun⟩, hargsNe⟩
    have hentry : isPlainWord ("--entrypoint" : String).toList = true := plainWord_ofList _ rfl
    have hreads := Shell.reads_command_iff dockerRun_plain "SQLCMDPASSWORD='"
      "SQLCMDPASSWORD=" rfl hsetting hpassword hne hempty hbatch
    have hline : mssqlCommand call = " ".intercalate (["docker", "run", "--rm", "-e"] ++
        ("SQLCMDPASSWORD='" ++ call.adminPassword ++ "'") ::
          (["--entrypoint", sqlcmdPath, call.image] ++ mssqlArgs call ++
            ["\"" ++ mssqlBatch call ++ "\""])) := by
      simp only [mssqlCommand]
      rw [if_pos himage]
      rfl
    have hwords : mssqlWords call = ["docker", "run", "--rm", "-e"] ++
        ("SQLCMDPASSWORD=" ++ call.adminPassword) :: (["--entrypoint", sqlcmdPath, call.image] ++
          mssqlArgs call ++ [mssqlBatch call]) := by
      unfold mssqlWords
      rw [if_pos himage]
      rfl
    rw [hline, hwords]
    refine hreads.trans ?_
    rw [List.forall_mem_append, hargs]
    simp only [List.forall_mem_cons, hpath, hentry, himage, List.not_mem_nil, false_implies,
      implies_true, true_and, and_true, false_or]

/-! ### Oracle -/

def isBase64 (c : Char) : Bool := isPlain c && c ≠ '#' && c ≠ '~'

theorem isBase64_base64Char {v : ℕ} (h : v < 64) : isBase64 (Python.base64Char v) = true := by
  have hall : ∀ v < 64, isBase64 (Python.base64Char v) = true := by decide +kernel
  exact hall v h

theorem isBase64_b64encode (raw : Python.Bytes) : ∀ c ∈ b64encode raw, isBase64 c = true := by
  have hpad : isBase64 '=' = true := by decide
  induction raw using Python.b64encode.induct with
  | case1 a b c rest ih =>
    have ha := a.toNat_lt
    have hb := b.toNat_lt
    have hc := c.toNat_lt
    unfold Python.b64encode
    simp only [List.forall_mem_cons]
    exact ⟨isBase64_base64Char (by omega), isBase64_base64Char (by omega),
      isBase64_base64Char (by omega), isBase64_base64Char (by omega), ih⟩
  | case2 a b =>
    have ha := a.toNat_lt
    have hb := b.toNat_lt
    unfold Python.b64encode
    simp only [List.forall_mem_cons]
    exact ⟨isBase64_base64Char (by omega), isBase64_base64Char (by omega),
      isBase64_base64Char (by omega), hpad, by simp⟩
  | case3 a =>
    have ha := a.toNat_lt
    unfold Python.b64encode
    simp only [List.forall_mem_cons]
    exact ⟨isBase64_base64Char (by omega), isBase64_base64Char (by omega), hpad, hpad, by simp⟩
  | case4 => simp [b64encode]

theorem oracleText_ne_empty (call : ClientCall) : oracleText call ≠ "" := by
  intro h
  have hlist := congrArg String.toList h
  unfold oracleText oracleScript at hlist
  rw [String.toList_append] at hlist
  exact absurd hlist (List.append_ne_nil_of_right_ne_nil _ (by decide))

theorem plainWord_oracleB64 (call : ClientCall) : isPlainWord (oracleB64 call).toList = true := by
  unfold oracleB64
  rw [String.toList_ofList]
  have hall := isBase64_b64encode (utf8Encode (oracleText call))
  have hne : b64encode (utf8Encode (oracleText call)) ≠ [] := by
    intro hnil
    have hdecode := Python.b64decode_b64encode (utf8Encode (oracleText call))
    rw [hnil] at hdecode
    have hraw : utf8Encode "" = utf8Encode (oracleText call) := Option.some.inj hdecode
    exact oracleText_ne_empty call (Python.utf8Encode_injective hraw).symm
  cases hlist : b64encode (utf8Encode (oracleText call)) with
  | nil => exact absurd hlist hne
  | cons c cs =>
    rw [hlist] at hall
    have hplain : (c :: cs).all isPlain = true := by
      rw [List.all_eq_true]
      intro d hd
      have hd := hall d hd
      simp only [isBase64, Bool.and_eq_true] at hd
      exact hd.1.1
    have hc := hall c List.mem_cons_self
    simp only [isBase64, Bool.and_eq_true, decide_eq_true_eq] at hc
    simp only [isPlainWord, Bool.and_eq_true, decide_eq_true_eq]
    exact ⟨⟨hc.1.2, hc.2⟩, hplain⟩

def oracleFront : String := " | base64 -d | docker run -i --rm "

def oracleRest : String := " sqlplus -S /nolog " ++ "| tee /dev/stderr | grep -q " ++ oracleOk

def oracleRestTokens : List Shell.Token :=
  Shell.pipelineTokens ([["sqlplus", "-S", "/nolog"], ["tee", "/dev/stderr"],
    ["grep", "-q", oracleOk]].map fun words => words.map String.toList)

def oracleFrontTokens : List Shell.Token :=
  .wordEnd :: .pipe :: Shell.commandTokens (["base64", "-d"].map String.toList) ++
    .pipe :: Shell.commandTokens (["docker", "run", "-i", "--rm"].map String.toList)

theorem oracleRest_toList : oracleRest.toList =
    " sqlplus -S /nolog | tee /dev/stderr | grep -q DASHBOARD_SQL_OK".toList := by
  rfl

theorem run_oracleFront : Shell.splitter.run .word oracleFront.toList = some (.blank, oracleFrontTokens) := by
  rfl

theorem costly_ofList {cs : List Char} {expected : List Shell.Token}
    (hword : Shell.splitter.read .word cs = some (.wordEnd :: expected))
    (hblank : Shell.splitter.read .blank cs = some expected)
    (hescaped : Shell.splitter.read (.escaped true) cs = some (.char ' ' :: expected) ∧
      Shell.splitter.read (.escaped false) cs = some (.char ' ' :: expected))
    (hopen : Shell.splitter.read .single cs = none ∧ Shell.splitter.read .double cs = none ∧
      Shell.splitter.read .doubleEscaped cs = none) :
    Shell.Costly (String.ofList cs).toList (.wordEnd :: expected) := by
  rw [String.toList_ofList]
  refine Shell.costly_of_unquoted hword hblank (fun begun => ?_) hopen
  cases begun
  · exact hescaped.2
  · exact hescaped.1

theorem costly_oracleRest : Shell.Costly oracleRest.toList (.wordEnd :: oracleRestTokens) := by
  rw [oracleRest_toList]
  exact costly_ofList (by decide +kernel) (by decide +kernel) (by decide +kernel) (by decide +kernel)

theorem read_oracleRest : Shell.splitter.read .word oracleRest.toList = some (.wordEnd :: oracleRestTokens) := by
  have hread (cs : List Char) (h : Shell.splitter.read .word cs = some (.wordEnd :: oracleRestTokens)) :
      Shell.splitter.read .word (String.ofList cs).toList = some (.wordEnd :: oracleRestTokens) := by
    rwa [String.toList_ofList]
  rw [oracleRest_toList]
  exact hread _ (by decide +kernel)

theorem oraclePipeline_tokens (call : ClientCall) :
    Shell.pipelineTokens ((oraclePipeline call).map fun words => words.map String.toList) =
      (Shell.wordTokens "echo".toList ++ ((oracleB64 call).toList.map .char ++ oracleFrontTokens)) ++
        (call.image.toList.map .char ++ .wordEnd :: oracleRestTokens) := by
  simp only [oraclePipeline, List.map_cons, List.map_nil, Shell.pipelineTokens, Shell.commandTokens,
    Shell.wordTokens, oracleFrontTokens, oracleRestTokens, List.flatMap_cons, List.flatMap_nil,
    List.append_assoc, List.append_nil, List.cons_append, List.nil_append]

theorem oracleLine_reads_iff {call : ClientCall} (himage : call.image.toList ≠ []) :
    Reads ("echo " ++ oracleB64 call ++ oracleFront ++ call.image ++ oracleRest)
        (oraclePipeline call) ↔
      isPlainWord call.image.toList = true := by
  have hecho : Shell.splitter.run .blank ("echo " : String).toList =
      some (.blank, Shell.wordTokens "echo".toList) := by decide
  have hfront := Transducer.run_append hecho
    (Transducer.run_append (Shell.run_plainWord (plainWord_oracleB64 call)) run_oracleFront)
  have hline : ("echo " ++ oracleB64 call ++ oracleFront ++ call.image ++ oracleRest).toList =
      ("echo ".toList ++ ((oracleB64 call).toList ++ oracleFront.toList)) ++
        (call.image.toList ++ oracleRest.toList) := by
    simp only [String.toList_append, List.append_assoc]
  unfold Reads
  rw [hline, oraclePipeline_tokens]
  refine (Transducer.read_append_iff hfront _ _).trans ?_
  constructor
  · exact Shell.plainWord_of_read costly_oracleRest himage
  · intro hplain
    exact (Transducer.read_append_iff (Shell.run_plainWord hplain) _ _).mpr read_oracleRest

theorem oracleCommand_eq {call : ClientCall} {line : String} (h : oracleCommand call = .ok line) :
    line = "echo " ++ oracleB64 call ++ oracleFront ++ call.image ++ oracleRest := by
  unfold oracleCommand at h
  obtain ⟨service, hservice, h⟩ := Machine.bind_eq_ok h
  obtain rfl := Except.ok.inj h
  have hdatabase : service = if call.database = "" then "ORCL" else call.database := by
    unfold oracleService at hservice
    split at hservice
    next hempty =>
      rw [if_pos hempty]
      exact (Except.ok.inj hservice).symm
    next hne =>
      rw [if_neg hne]
      unfold ident at hservice
      split at hservice
      · exact (Except.ok.inj hservice).symm
      · cases hservice
  unfold oracleB64 oracleText oracleFront oracleRest
  rw [← hdatabase]
  simp only [String.append_assoc]

/-! ### PostgreSQL -/

theorem read_word_newline {name : List Char} (h : ∀ c ∈ name, isSafe c = true ∨ c = '\n')
    (hmem : '\n' ∈ name) (rest : List Char) : Shell.splitter.read .word (name ++ rest) = none := by
  induction name with
  | nil => cases hmem
  | cons c name ih =>
    by_cases hc : c = '\n'
    · rw [hc]
      rfl
    · have hsafe := (h c List.mem_cons_self).resolve_right hc
      have hin := (List.mem_cons.mp hmem).resolve_left (Ne.symm hc)
      rw [List.cons_append, Transducer.read_cons (Shell.step_word_plain (plain_of_safe hsafe)),
        ih (fun d hd => h d (List.mem_cons_of_mem c hd)) hin]
      rfl

theorem read_word_safe {name : List Char} (h : ∀ c ∈ name, isSafe c = true ∨ c = '\n')
    {rest : List Char} (hrest : Shell.splitter.read .word rest = none) :
    Shell.splitter.read .word (name ++ rest) = none := by
  by_cases hmem : '\n' ∈ name
  · exact read_word_newline h hmem rest
  · have hplain : name.all isPlain = true := by
      rw [List.all_eq_true]
      intro c hc
      refine plain_of_safe ((h c hc).resolve_right ?_)
      rintro rfl
      exact hmem hc
    rw [Transducer.read_append (Shell.run_word_plain hplain), hrest]
    rfl

/-- A name in double quotes inside a text in double quotes loses its quotes, and from an open
apostrophe or from none the rest is not read. -/
theorem not_read_quotedName {front name rest : List Char} {c : Char} {xs : List Shell.Token}
    (hc : ∀ m m' out, Shell.step m c = some (m', out) → m' = .word ∨ m' = .single ∨ m' = .double)
    (hne : name ≠ []) (hname : ∀ c ∈ name, isSafe c = true ∨ c = '\n')
    (hrest : rest.all isDoublePlain = true)
    (hword : Shell.splitter.read .word (rest ++ [quotation]) = none)
    (hsingle : Shell.splitter.read .single (rest ++ [quotation]) = none) :
    Shell.splitter.read .blank (front ++ c :: ' ' :: quotation :: (name ++ quotation :: (rest ++ [quotation]))) ≠
      some (xs ++ .char quotation :: (rest.map .char ++ [.wordEnd])) := by
  intro hread
  obtain ⟨m, out, tail, -, htail, heq⟩ := Transducer.read_append_eq_some hread
  obtain ⟨m', first, tail', hstep, htail', rfl⟩ := Transducer.read_cons_eq_some htail
  obtain ⟨m'', second, tail'', hblank, htail'', rfl⟩ := Transducer.read_cons_eq_some htail'
  have hdouble : ∀ c ∈ name, isDoublePlain c = true := fun c h => doublePlain_of_safe (hname c h)
  have happos : apostrophe ∉ name := by
    intro hmem
    rcases hname apostrophe hmem with hsafe | hline
    · exact absurd hsafe (by decide)
    · exact absurd hline (by decide)
  rcases hc m m' first hstep with rfl | rfl | rfl
  · obtain ⟨rfl, rfl⟩ := Prod.mk.inj (Option.some.inj hblank)
    have hquoted := Shell.run_doubleQuoted (List.all_eq_true.mpr hdouble)
    have hsplit : quotation :: (name ++ quotation :: (rest ++ [quotation])) =
        (quotation :: (name ++ [quotation])) ++ (rest ++ [quotation]) := by
      rw [List.cons_append, List.append_assoc]
      rfl
    rw [hsplit, Transducer.read_append hquoted, hword] at htail''
    cases htail''
  · obtain ⟨rfl, rfl⟩ := Prod.mk.inj (Option.some.inj hblank)
    have hquote : apostrophe ∉ quotation :: (name ++ [quotation]) := by
      rw [List.mem_cons, List.mem_append, List.mem_singleton]
      rintro (h | h | h)
      · exact absurd h (by decide)
      · exact happos h
      · exact absurd h (by decide)
    have hsplit : quotation :: (name ++ quotation :: (rest ++ [quotation])) =
        (quotation :: (name ++ [quotation])) ++ (rest ++ [quotation]) := by
      rw [List.cons_append, List.append_assoc]
      rfl
    rw [hsplit, Transducer.read_append (Shell.run_single hquote), hsingle] at htail''
    cases htail''
  · obtain ⟨rfl, rfl⟩ := Prod.mk.inj (Option.some.inj hblank)
    have hclose : Shell.step .double quotation = some (.word, []) := by decide
    rw [Transducer.read_cons hclose] at htail''
    by_cases hmem : '\n' ∈ name
    · rw [read_word_newline hname hmem] at htail''
      cases htail''
    · have hplain : name.all isPlain = true := by
        rw [List.all_eq_true]
        intro d hd
        refine plain_of_safe ((hname d hd).resolve_right ?_)
        rintro rfl
        exact hmem hd
      have hopen : Shell.splitter.run .word [quotation] = some (.double, []) := by decide
      have hend : Shell.splitter.read .double (rest ++ [quotation]) =
          some (rest.map .char ++ [.wordEnd]) := by
        rw [Transducer.read_append (Shell.run_double hrest)]
        rfl
      have hsplit : name ++ quotation :: (rest ++ [quotation]) =
          (name ++ [quotation]) ++ (rest ++ [quotation]) := by
        rw [List.append_assoc]
        rfl
      have hrun := Transducer.run_append (Shell.run_word_plain hplain) hopen
      rw [hsplit, Transducer.read_append hrun, hend] at htail''
      obtain ⟨start, last, rfl⟩ := (List.eq_nil_or_concat' name).resolve_left hne
      have htokens := Option.some.inj htail''
      have hsame : (xs ++ [.char quotation]) ++ (rest.map Shell.Token.char ++ [.wordEnd]) =
          ((out ++ (first ++ ([.char ' '] ++ start.map .char))) ++ [.char last]) ++
            (rest.map Shell.Token.char ++ [.wordEnd]) := by
        rw [List.append_assoc xs, List.singleton_append, heq, ← htokens]
        simp only [List.map_append, List.map_cons, List.map_nil, List.append_assoc, List.append_nil,
          List.nil_append]
      have hlast := List.append_inj' (List.append_cancel_right hsame) rfl
      have hquote : quotation = last := Shell.Token.char.inj (List.cons.inj hlast.2).1
      rcases hname last (List.mem_append_right start List.mem_cons_self) with hsafe | hline
      · rw [← hquote] at hsafe
        exact absurd hsafe (by decide)
      · rw [← hquote] at hline
        exact absurd hline (by decide)

/-- The last of the names in a statement for PostgreSQL, and what follows it. -/
structure QuotesName (stmt managed : String) (start : List Char) (c : Char) (rest : List Char) :
    Prop where
  text : stmt.toList = start ++ c :: ' ' :: quotation :: (managed.toList ++ quotation :: rest)
  mark : ∀ m m' out, Shell.step m c = some (m', out) → m' = .word ∨ m' = .single ∨ m' = .double
  bare : rest.all isDoublePlain = true
  word : Shell.splitter.read .word (rest ++ [quotation]) = none
  single : Shell.splitter.read .single (rest ++ [quotation]) = none

theorem modes_after_letter {c : Char} (hc : c = 'E' ∨ c = 'S') (m m' : Shell.Mode)
    (out : List Shell.Token) (hstep : Shell.step m c = some (m', out)) :
    m' = .word ∨ m' = .single ∨ m' = .double := by
  have hall : [Shell.Mode.blank, .word, .escaped true, .escaped false, .single, .double,
      .doubleEscaped].all (fun m => ['E', 'S'].all fun c => (Shell.step m c).all fun next =>
        decide (next.1 = .word ∨ next.1 = .single ∨ next.1 = .double)) = true := by
    decide
  have hm : m ∈ [Shell.Mode.blank, .word, .escaped true, .escaped false, .single, .double,
      .doubleEscaped] := by
    cases m with
    | escaped begun => cases begun <;> decide
    | _ => decide
  have hletter : c ∈ ['E', 'S'] := by
    rcases hc with rfl | rfl
    · decide
    · decide
  have hnext := List.all_eq_true.mp (List.all_eq_true.mp hall m hm) c hletter
  rw [hstep] at hnext
  exact of_decide_eq_true hnext

theorem pgTeardown_quotesName (managed : String) :
    ∃ stmt start, pgTeardownSql managed = [stmt] ∧ QuotesName stmt managed start 'S' [';'] := by
  have hrole : "DROP ROLE IF EXISTS \"".toList =
      "DROP ROLE IF EXIST".toList ++ ['S', ' ', quotation] := by
    simp only [String.reduceToList]
    rfl
  have hend : "\";".toList = [quotation, ';'] := by
    simp only [String.reduceToList]
    rfl
  refine ⟨_, "DROP ROLE IF EXIST".toList, rfl, ?_, modes_after_letter (.inr rfl), rfl, rfl, rfl⟩
  rw [String.toList_append, String.toList_append, hrole, hend, List.append_assoc, List.append_assoc]
  rfl

theorem createRole_toList (first managed managedPw : String) :
    (first ++ "CREATE ROLE \"" ++ managed ++ "\" WITH LOGIN PASSWORD ''" ++ managedPw ++
        "''; END IF; END';").toList =
      (first.toList ++ "CREATE ROL".toList) ++ 'E' :: ' ' :: quotation :: (managed.toList ++
        quotation :: (" WITH LOGIN PASSWORD ''".toList ++
          (managedPw.toList ++ "''; END IF; END';".toList))) := by
  have hrole : "CREATE ROLE \"".toList = "CREATE ROL".toList ++ ['E', ' ', quotation] := by
    simp only [String.reduceToList]
    rfl
  have hwith : "\" WITH LOGIN PASSWORD ''".toList = quotation :: " WITH LOGIN PASSWORD ''".toList := by
    simp only [String.reduceToList]
    rfl
  rw [String.toList_append, String.toList_append, String.toList_append, String.toList_append,
    String.toList_append, hrole, hwith]
  simp only [List.append_assoc, List.cons_append, List.nil_append]

theorem pgOnboard_quotesName (managed : String) {managedPw : String}
    (h : ∀ c ∈ managedPw.toList, isSafe c = true ∨ c = '\n') :
    ∃ stmt start rest, pgOnboardSql managed managedPw = [stmt] ∧
      QuotesName stmt managed start 'E' rest := by
  have hwithBare : " WITH LOGIN PASSWORD ''".toList.all isDoublePlain = true := bare_ofList _ rfl
  have hendBare : "''; END IF; END';".toList.all isDoublePlain = true := bare_ofList _ rfl
  have hpwBare : managedPw.toList.all isDoublePlain = true := bare_of_safe h
  have hwithWord : Shell.splitter.run .word " WITH LOGIN PASSWORD ''".toList = some (.word,
      .wordEnd :: Shell.commandTokens (["WITH", "LOGIN", "PASSWORD"].map String.toList)) := by
    simp only [String.reduceToList, List.map_cons, List.map_nil]
    rfl
  have hendWord : Shell.splitter.read .word ("''; END IF; END';".toList ++ [quotation]) = none := by
    simp only [String.reduceToList]
    rfl
  have hwithSingle : Shell.splitter.run .single " WITH LOGIN PASSWORD ''".toList =
      some (.single, " WITH LOGIN PASSWORD ".toList.map .char) := by
    simp only [String.reduceToList]
    rfl
  have hendSingle : Shell.splitter.read .single ("''; END IF; END';".toList ++ [quotation]) = none := by
    simp only [String.reduceToList]
    rfl
  refine ⟨_, _, " WITH LOGIN PASSWORD ''".toList ++ (managedPw.toList ++ "''; END IF; END';".toList),
    rfl, createRole_toList _ managed managedPw, modes_after_letter (.inl rfl), ?_, ?_, ?_⟩
  · rw [List.all_append, List.all_append, hwithBare, hpwBare, hendBare]
    rfl
  · rw [List.append_assoc, List.append_assoc, Transducer.read_append hwithWord, read_word_safe h hendWord]
    rfl
  · rw [List.append_assoc, List.append_assoc, Transducer.read_append hwithSingle,
      Transducer.read_append (Shell.run_single (apostrophe_not_mem h)), hendSingle]
    rfl

theorem pgCommand_not_reads {call : ClientCall} {line stmt managed : String} {start rest : List Char}
    {c : Char} (h : pgCommand call = .ok line) (hstmt : call.statements = [stmt])
    (hname : QuotesName stmt managed start c rest) (hmanaged : isIdent managed = true) :
    ¬Reads line [pgWords call] := by
  obtain ⟨front, hline⟩ : ∃ front : List String,
      line = " ".intercalate (front ++ ["\"" ++ stmt ++ "\""]) := by
    unfold pgCommand at h
    obtain ⟨db, -, h⟩ := Machine.bind_eq_ok h
    obtain rfl := Except.ok.inj h
    refine ⟨["docker", "run", "--rm", "-e", "PGPASSWORD='" ++ call.adminPassword ++ "'", call.image,
      "psql", "\"" ++ pgConn call db ++ "\"", "-v", "ON_ERROR_STOP=1", "-c"], ?_⟩
    rw [hstmt]
    rfl
  obtain ⟨words, hwords⟩ : ∃ words : List String, pgWords call = words ++ [stmt] := by
    refine ⟨["docker", "run", "--rm", "-e", "PGPASSWORD=" ++ call.adminPassword, call.image, "psql",
      pgConn call (if call.database = "" then "postgres" else call.database), "-v",
      "ON_ERROR_STOP=1", "-c"], ?_⟩
    unfold pgWords
    rw [hstmt]
    rfl
  have hquote : ("\"" : String).toList = [quotation] := by decide
  have hspaced : Shell.spaced [] = [] := rfl
  have htext : line.toList = ((front.map String.toList).flatMap (fun word => word ++ [' ']) ++
      quotation :: start) ++ c :: ' ' :: quotation :: (managed.toList ++
        quotation :: (rest ++ [quotation])) := by
    rw [hline, String.toList_intercalate, List.map_append]
    show [' '].intercalate (front.map String.toList ++ ("\"" ++ stmt ++ "\"").toList :: []) = _
    rw [Shell.intercalate_eq_spaced, hspaced, String.toList_append, String.toList_append, hname.text,
      hquote]
    simp only [List.append_assoc, List.cons_append, List.nil_append, List.append_nil]
  have htokens : Shell.pipelineTokens ([pgWords call].map fun words => words.map String.toList) =
      (Shell.commandTokens (words.map String.toList) ++
        (start ++ c :: ' ' :: quotation :: managed.toList).map .char) ++
          .char quotation :: (rest.map .char ++ [.wordEnd]) := by
    have hstmtTokens : Shell.commandTokens [stmt.toList] = stmt.toList.map .char ++ [.wordEnd] :=
      List.append_nil _
    show Shell.commandTokens ((pgWords call).map String.toList) = _
    rw [hwords, List.map_append, Shell.commandTokens_append]
    show _ ++ Shell.commandTokens [stmt.toList] = _
    rw [hstmtTokens, hname.text]
    simp only [List.map_append, List.map_cons, List.append_assoc, List.cons_append]
  unfold Reads
  rw [htext, htokens]
  have hne : managed.toList ≠ [] := (plainWord_ident hmanaged).1
  exact not_read_quotedName hname.mark hne (fun _ hc => safe_of_ident hmanaged hc) hname.bare
    hname.word hname.single

/-! ### Every accepted call -/

/-- The password of an onboarding has passed its check. -/
def Operation.Checked : Operation → Prop
  | .onboard managedPassword => isSafeValue managedPassword = true
  | .teardown => True

structure Accepted (op : Operation) (args : Args) (engine : OnboardEngine) (flavor : Option Flavor)
    (line : String) : Prop where
  known : checkOnboardEngine args.engine = .ok engine
  offered : checkOnboardFlavor engine args.flavor = .ok flavor
  managedUser : isIdent args.managedUser = true
  managedPassword : op.Checked
  adminPassword : isSafeValue args.adminPassword = true
  adminUser : isIdent args.adminUser = true
  built : command (args.call op engine flavor) engine = .ok line

theorem commands_eq_ok {op : Operation} {args : Args} {lines : List String}
    (h : op.commands args = .ok lines) :
    ∃ engine flavor line, Accepted op args engine flavor line ∧ lines = [line] := by
  cases op with
  | onboard managedPassword =>
    obtain ⟨engine, hengine, h⟩ := Machine.bind_eq_ok h
    obtain ⟨managed, hmanaged, h⟩ := Machine.bind_eq_ok h
    obtain ⟨mpw, hmpw, h⟩ := Machine.bind_eq_ok h
    obtain ⟨admin, hadmin, h⟩ := Machine.bind_eq_ok h
    obtain ⟨flavor, hflavor, h⟩ := Machine.bind_eq_ok h
    obtain ⟨user, huser, h⟩ := Machine.bind_eq_ok h
    obtain ⟨line, hline, hlines⟩ := Machine.bind_eq_ok h
    obtain ⟨hmanagedOk, hmanagedEq⟩ := ident_eq_ok hmanaged
    obtain ⟨hmpwOk, hmpwEq⟩ := value_eq_ok hmpw
    obtain ⟨hadminOk, -⟩ := value_eq_ok hadmin
    obtain ⟨huserOk, huserEq⟩ := ident_eq_ok huser
    have hcall : args.call (.onboard managedPassword) engine flavor = ⟨args.host, args.port,
        args.database, args.adminUser, args.adminPassword,
        resolveClientImage engine args.clientImage,
        onboardSql args.managedUser managedPassword flavor engine⟩ := rfl
    rw [hmanagedEq, hmpwEq, huserEq, ← hcall] at hline
    exact ⟨engine, flavor, line, ⟨hengine, hflavor, hmanagedOk, hmpwOk, hadminOk, huserOk, hline⟩,
      (Except.ok.inj hlines).symm⟩
  | teardown =>
    obtain ⟨engine, hengine, h⟩ := Machine.bind_eq_ok h
    obtain ⟨managed, hmanaged, h⟩ := Machine.bind_eq_ok h
    obtain ⟨admin, hadmin, h⟩ := Machine.bind_eq_ok h
    obtain ⟨flavor, hflavor, h⟩ := Machine.bind_eq_ok h
    obtain ⟨user, huser, h⟩ := Machine.bind_eq_ok h
    obtain ⟨line, hline, hlines⟩ := Machine.bind_eq_ok h
    obtain ⟨hmanagedOk, hmanagedEq⟩ := ident_eq_ok hmanaged
    obtain ⟨hadminOk, -⟩ := value_eq_ok hadmin
    obtain ⟨huserOk, huserEq⟩ := ident_eq_ok huser
    have hcall : args.call .teardown engine flavor = ⟨args.host, args.port, args.database,
        args.adminUser, args.adminPassword, resolveClientImage engine args.clientImage,
        teardownSql args.managedUser flavor engine⟩ := rfl
    rw [hmanagedEq, huserEq, ← hcall] at hline
    exact ⟨engine, flavor, line, ⟨hengine, hflavor, hmanagedOk, trivial, hadminOk, huserOk, hline⟩,
      (Except.ok.inj hlines).symm⟩

theorem resolveClientImage_ne_empty {engine : OnboardEngine} (h : defaultClientImage engine ≠ "")
    (configured : String) : (resolveClientImage engine configured).toList ≠ [] := by
  intro hnil
  have hempty : resolveClientImage engine configured = "" := String.toList_injective hnil
  simp only [resolveClientImage] at hempty
  by_cases hstrip : strip configured = ""
  · rw [if_pos hstrip] at hempty
    split at hempty
    · exact h hempty
    · exact h hempty
  · rw [if_neg hstrip] at hempty
    split at hempty
    · exact h hempty
    · exact hstrip hempty

theorem intercalate_ne_nil {separator text : String} (h : text.toList ≠ []) (texts : List String) :
    (separator.intercalate (text :: texts)).toList ≠ [] := by
  cases texts with
  | nil =>
    rw [String.intercalate_singleton]
    exact h
  | cons next texts =>
    rw [String.intercalate_cons_cons, String.toList_append, String.toList_append, List.append_assoc]
    exact List.append_ne_nil_of_left_ne_nil h _

theorem Operation.statements_bare {op : Operation} {managed : String} (hm : isIdent managed = true)
    (hop : op.Checked) (flavor : Option Flavor) :
    (∀ stmt ∈ op.statements managed flavor (.valid .mysql), Bare stmt) ∧
      ∀ stmt ∈ op.statements managed flavor (.valid .sqlserver), Bare stmt := by
  have hmBare : Bare managed := bare_of_safe fun _ hc => safe_of_ident hm hc
  cases op with
  | onboard managedPassword =>
    have hpBare : Bare managedPassword := bare_of_safe fun _ hc => safe_of_value hop hc
    exact ⟨mysqlOnboardSql_bare hmBare hpBare, mssqlOnboardSql_bare hmBare hpBare flavor⟩
  | teardown => exact ⟨mysqlTeardownSql_bare hmBare, mssqlTeardownSql_bare hmBare flavor⟩

theorem Operation.mysqlStatements_cons (op : Operation) (managed : String) (flavor : Option Flavor) :
    ∃ stmt stmts, op.statements managed flavor (.valid .mysql) = stmt :: stmts ∧
      stmt.toList ≠ [] := by
  have hend : "';".toList ≠ [] := by decide
  cases op with
  | onboard managedPassword =>
    refine ⟨_, _, rfl, ?_⟩
    rw [String.toList_append]
    exact List.append_ne_nil_of_right_ne_nil _ hend
  | teardown =>
    refine ⟨_, _, rfl, ?_⟩
    rw [String.toList_append]
    exact List.append_ne_nil_of_right_ne_nil _ (by decide)

theorem Operation.pgStatements_quotesName {op : Operation} (hop : op.Checked) (managed : String)
    (flavor : Option Flavor) :
    ∃ stmt start c rest, op.statements managed flavor (.valid .postgres) = [stmt] ∧
      QuotesName stmt managed start c rest := by
  cases op with
  | onboard managedPassword =>
    obtain ⟨stmt, start, rest, hstmt, hname⟩ :=
      pgOnboard_quotesName managed fun _ hc => safe_of_value hop hc
    exact ⟨stmt, start, 'E', rest, hstmt, hname⟩
  | teardown =>
    obtain ⟨stmt, start, hstmt, hname⟩ := pgTeardown_quotesName managed
    exact ⟨stmt, start, 'S', [';'], hstmt, hname⟩

theorem Args.call_image_ne_nil (args : Args) (op : Operation) {engine : OnboardEngine}
    (h : defaultClientImage engine ≠ "") (flavor : Option Flavor) :
    (args.call op engine flavor).image.toList ≠ [] := by
  rw [Args.call_image]
  exact resolveClientImage_ne_empty h args.clientImage

theorem Accepted.intact_iff {op : Operation} {args : Args} {engine : OnboardEngine}
    {flavor : Option Flavor} {line : String} (h : Accepted op args engine flavor line) :
    Intact (args.call op engine flavor) line engine ↔ Clean (args.call op engine flavor) engine := by
  have hpassword : apostrophe ∉ (args.call op engine flavor).adminPassword.toList :=
    apostrophe_not_mem fun _ hc => safe_of_value h.adminPassword hc
  have hbuilt := h.built
  cases engine with
  | valid engine =>
    cases engine with
    | postgres =>
      obtain ⟨stmt, start, c, rest, hstmt, hname⟩ :=
        Operation.pgStatements_quotesName h.managedPassword args.managedUser flavor
      exact iff_false_intro (pgCommand_not_reads hbuilt hstmt hname h.managedUser)
    | mysql =>
      obtain rfl := Except.ok.inj hbuilt
      obtain ⟨stmt, stmts, hstmts, hne⟩ := op.mysqlStatements_cons args.managedUser flavor
      have hbatch : (mysqlBatch (args.call op (.valid .mysql) flavor)).toList ≠ [] := by
        unfold mysqlBatch
        rw [Args.call_statements, hstmts]
        exact intercalate_ne_nil hne stmts
      have hbare := (Operation.statements_bare h.managedUser h.managedPassword flavor).1
      have hblank : Bare " " := by decide
      have hdefault : defaultClientImage (.valid .mysql) ≠ "" := by decide
      have himage := args.call_image_ne_nil op hdefault flavor
      exact mysqlCommand_reads_iff hpassword himage
        (fun _ hc => safe_of_ident h.adminUser hc) hbatch (bare_intercalate hblank hbare)
    | sqlserver =>
      obtain rfl := Except.ok.inj hbuilt
      have hgo : "\nGO\n".toList ≠ [] := by decide
      have hbatch : (mssqlBatch (args.call op (.valid .sqlserver) flavor)).toList ≠ [] := by
        unfold mssqlBatch
        rw [String.toList_append]
        exact List.append_ne_nil_of_right_ne_nil _ hgo
      have hbare := (Operation.statements_bare h.managedUser h.managedPassword flavor).2
      have hgoBare : Bare "\nGO\n" := by decide
      refine mssqlCommand_reads_iff hpassword h.adminUser hbatch ?_
      unfold mssqlBatch
      rw [bare_append]
      exact ⟨bare_intercalate hgoBare hbare, hgoBare⟩
  | oracle =>
    have hdefault : defaultClientImage .oracle ≠ "" := by decide
    have hreads := oracleLine_reads_iff (args.call_image_ne_nil op hdefault flavor)
    rw [← oracleCommand_eq hbuilt] at hreads
    have hdecode : b64decode (oracleB64 (args.call op .oracle flavor)).toList =
        some (utf8Encode (oracleText (args.call op .oracle flavor))) := by
      unfold oracleB64
      rw [String.toList_ofList]
      exact Python.b64decode_b64encode _
    constructor
    · exact fun hintact => hreads.mp hintact.1
    · exact fun hclean => ⟨hreads.mpr hclean, hdecode⟩

/-- Of the calls that are accepted these and no others reach the client as they were meant. -/
theorem commands_intact_iff {op : Operation} {args : Args} {lines : List String}
    {engine : OnboardEngine} {flavor : Option Flavor} (h : op.commands args = .ok lines)
    (hengine : checkOnboardEngine args.engine = .ok engine)
    (hflavor : checkOnboardFlavor engine args.flavor = .ok flavor) :
    (∃ line, lines = [line] ∧ Intact (args.call op engine flavor) line engine) ↔
      Clean (args.call op engine flavor) engine := by
  obtain ⟨engine', flavor', line, haccepted, rfl⟩ := commands_eq_ok h
  obtain rfl := Except.ok.inj (hengine.symm.trans haccepted.known)
  obtain rfl := Except.ok.inj (hflavor.symm.trans haccepted.offered)
  constructor
  · rintro ⟨other, hline, hintact⟩
    obtain rfl := (List.cons.inj hline).1
    exact haccepted.intact_iff.mp hintact
  · intro hclean
    exact ⟨line, rfl, haccepted.intact_iff.mpr hclean⟩

def sampleArgs (engine : String) : Args :=
  ⟨engine, "db.internal", 5432, "", "dbadmin", "Admin-Pw_123", "psafe_ab12", "", ""⟩

/-- `psql` gets `DROP ROLE IF EXISTS psafe_ab12;` without the quotes round the name. -/
theorem postgres_quotes_lost : ∃ lines,
    Operation.teardown.commands (sampleArgs "postgres") = .ok lines ∧ ¬∃ line,
      lines = [line] ∧ Intact ((sampleArgs "postgres").call .teardown (.valid .postgres) none) line
        (.valid .postgres) := by
  obtain ⟨lines, hlines⟩ : ∃ lines, Operation.teardown.commands (sampleArgs "postgres") = .ok lines :=
    ⟨_, rfl⟩
  refine ⟨lines, hlines, ?_⟩
  rintro ⟨line, rfl, hintact⟩
  obtain ⟨engine, flavor, built, haccepted, hbuilt⟩ := commands_eq_ok hlines
  have hknown : checkOnboardEngine "postgres" = .ok (.valid .postgres) := by decide
  have hoffered : checkOnboardFlavor (.valid .postgres) "" = .ok none := by decide
  obtain rfl := Except.ok.inj (hknown.symm.trans haccepted.known)
  obtain rfl := Except.ok.inj (hoffered.symm.trans haccepted.offered)
  obtain rfl := (List.cons.inj hbuilt).1
  exact haccepted.intact_iff.mp hintact

theorem mysql_drop_intact : ∃ lines, Operation.teardown.commands (sampleArgs "mysql") = .ok lines ∧
    ∃ line, lines = [line] ∧ Intact ((sampleArgs "mysql").call .teardown (.valid .mysql) none)
      line (.valid .mysql) := by
  obtain ⟨lines, hlines⟩ : ∃ lines, Operation.teardown.commands (sampleArgs "mysql") = .ok lines :=
    ⟨_, rfl⟩
  have hclean : Clean ((sampleArgs "mysql").call .teardown (.valid .mysql) none) (.valid .mysql) :=
    ⟨by decide, by decide, by decide⟩
  exact ⟨lines, hlines, (commands_intact_iff hlines (by decide) (by decide)).mpr hclean⟩

end Databases
