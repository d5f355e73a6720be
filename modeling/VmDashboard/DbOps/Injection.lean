import VmDashboard.DbOps.Statements
import VmDashboard.Sql.Lexer

/-!
# What the engine reads in a statement that sets a password

The name and the passwords come out of the engine's lexer as they went in, the name without the space
around it, and the rest is the statement the service means.
-/

namespace DbOps
open Machine (Transducer raiseIf_eq_ok bind_eq_ok)
open Python (strip apostrophe quotation)
open Sql (Token Dialect Kind tsql postgresql lexer tokens delimited isBreak)

/-! ### Quoting -/

theorem ident_eq_ok {name value : String} (h : ident name = .ok value) :
    value = strip name ∧ value.toList.any isControl = false := by
  unfold ident at h
  obtain ⟨-, h⟩ := raiseIf_eq_ok h
  obtain ⟨-, h⟩ := raiseIf_eq_ok h
  obtain ⟨hcontrol, h⟩ := raiseIf_eq_ok h
  obtain rfl := Except.ok.inj h
  exact ⟨rfl, Bool.eq_false_iff.mpr hcontrol⟩

theorem secret_eq_ok {text value : String} (h : secret text = .ok value) :
    value = text ∧ value.toList.any isControl = false := by
  unfold secret at h
  obtain ⟨-, h⟩ := raiseIf_eq_ok h
  obtain ⟨hcontrol, h⟩ := raiseIf_eq_ok h
  obtain rfl := Except.ok.inj h
  exact ⟨rfl, Bool.eq_false_iff.mpr hcontrol⟩

/-- Line ends and NUL are among the control characters. -/
theorem isBreak_of_isControl {c : Char} (h : isControl c = false) : isBreak c = false := by
  have hcode : ¬(c.toNat ≤ 0x1f ∨ c.toNat = 0x7f) := by simpa [isControl] using h
  have hnewline : c ≠ '\n' := by
    rintro rfl
    exact hcode (.inl (by decide))
  have hreturn : c ≠ '\r' := by
    rintro rfl
    exact hcode (.inl (by decide))
  have hnul : c.toNat ≠ 0 := by omega
  simp [isBreak, hnewline, hreturn, hnul]

theorem quoted_eq (d : Dialect) (kind : Kind) (text : String) :
    (quoted (d.opens kind) (d.closes kind) text).toList = delimited d kind text.toList := by
  rw [quoted, String.toList_ofList, Python.replace_singleton]
  rfl

theorem run_quoted (d : Dialect) (kind : Kind) {text : String} (h : text.toList.any isControl = false) :
    (lexer d).run .between (quoted (d.opens kind) (d.closes kind) text).toList =
      some (.closed kind text.toList, []) := by
  rw [quoted_eq]
  have hcontrol : ∀ c ∈ text.toList, isControl c = false := by simpa using h
  exact Sql.run_delimited kind fun c hc => isBreak_of_isControl (hcontrol c hc)

/-! ### The statements -/

def Engine.dialect : Engine → Option Dialect
  | .sqlserver => some tsql
  | .mysql => none
  | .postgres => some postgresql

def word (text : String) : Token := .word text.toList

def name (text : String) : Token := .quoted .name text.toList

def literal (text : String) : Token := .quoted .literal text.toList

/-- The one statement that sets this principal's password. -/
def intended (engine : Engine) (principal new old : String) : List Token :=
  match engine with
  | .sqlserver =>
    [word "ALTER", word "LOGIN", name principal, word "WITH", word "PASSWORD", .equals, literal new] ++
      (if old = "" then [] else [word "OLD_PASSWORD", .equals, literal old]) ++ [.semicolon]
  | .mysql => []
  | .postgres =>
    [word "ALTER", word "ROLE", name principal, word "WITH", word "PASSWORD", literal new, .semicolon]

/-- One statement is sent, and the engine reads it as setting the password of this principal. -/
def ReadAs (d : Dialect) (statements : List Statement) (meaning : List Token) : Prop :=
  ∃ sql, statements = [⟨sql, []⟩] ∧ tokens d sql = some meaning

section Reading
variable {principal new old : String} {text : List Char}

theorem run_alterLogin :
    (lexer tsql).run .between "ALTER LOGIN ".toList =
      some (.between, [word "ALTER", word "LOGIN"]) := by
  decide

theorem run_alterRole :
    (lexer postgresql).run .between "ALTER ROLE ".toList =
      some (.between, [word "ALTER", word "ROLE"]) := by
  decide

theorem run_withPassword_tsql :
    (lexer tsql).run (.closed .name text) " WITH PASSWORD = ".toList =
      some (.between, [.quoted .name text, word "WITH", word "PASSWORD", .equals]) := by
  rfl

theorem run_withPassword_postgresql :
    (lexer postgresql).run (.closed .name text) " WITH PASSWORD ".toList =
      some (.between, [.quoted .name text, word "WITH", word "PASSWORD"]) := by
  rfl

theorem run_oldPassword :
    (lexer tsql).run (.closed .literal text) " OLD_PASSWORD = ".toList =
      some (.between, [.quoted .literal text, word "OLD_PASSWORD", .equals]) := by
  rfl

theorem read_semicolon (d : Dialect) :
    (lexer d).read (.closed .literal text) ";".toList = some [.quoted .literal text, .semicolon] := by
  rfl

/-- `mssqlIdent` and `pgIdent`, each for its own dialect. -/
theorem run_ident (d : Dialect) {delimited : String}
    (h : (do return quoted d.opening d.closing (← ident principal)) = Except.ok delimited) :
    (lexer d).run .between delimited.toList = some (.closed .name (strip principal).toList, []) := by
  obtain ⟨value, hvalue, hquoted⟩ := bind_eq_ok h
  obtain ⟨rfl, hcontrol⟩ := ident_eq_ok hvalue
  obtain rfl := Except.ok.inj hquoted
  exact run_quoted d .name hcontrol

/-- `tsqlLiteral` and `pgLiteral`. -/
theorem run_secret (d : Dialect) {password delimited : String}
    (h : (do return quoted apostrophe apostrophe (← secret password)) = Except.ok delimited) :
    (lexer d).run .between delimited.toList = some (.closed .literal password.toList, []) := by
  obtain ⟨value, hvalue, hquoted⟩ := bind_eq_ok h
  obtain ⟨rfl, hcontrol⟩ := secret_eq_ok hvalue
  obtain rfl := Except.ok.inj hquoted
  exact run_quoted d .literal hcontrol

/-- Up to the end of the new password. -/
theorem run_alterLogin_literal {login text : String}
    (hlogin : (lexer tsql).run .between login.toList =
      some (.closed .name (strip principal).toList, []))
    (htext : (lexer tsql).run .between text.toList = some (.closed .literal new.toList, [])) :
    (lexer tsql).run .between ("ALTER LOGIN " ++ login ++ " WITH PASSWORD = " ++ text).toList =
      some (.closed .literal new.toList, [word "ALTER", word "LOGIN", name (strip principal),
        word "WITH", word "PASSWORD", .equals]) := by
  have hname :=
    Transducer.run_append (Transducer.run_append run_alterLogin hlogin) run_withPassword_tsql
  rw [String.toList_append, String.toList_append, String.toList_append]
  exact Transducer.run_append hname htext

theorem sqlserver_reads {statements : List Statement}
    (h : changePasswordStatements .sqlserver principal new old = .ok statements) :
    ReadAs tsql statements (intended .sqlserver (strip principal) new old) := by
  unfold changePasswordStatements at h
  obtain ⟨login, hlogin, h⟩ := bind_eq_ok h
  obtain ⟨text, htext, h⟩ := bind_eq_ok h
  have hfront := run_alterLogin_literal (run_ident tsql hlogin) (run_secret tsql htext)
  by_cases hold : old = ""
  · rw [if_pos hold] at h
    obtain rfl := Except.ok.inj h
    refine ⟨_, rfl, ?_⟩
    rw [tokens, String.toList_append, Transducer.read_append hfront, read_semicolon, intended,
      if_pos hold]
    rfl
  · rw [if_neg hold] at h
    obtain ⟨oldText, holdText, h⟩ := bind_eq_ok h
    obtain rfl := Except.ok.inj h
    refine ⟨_, rfl, ?_⟩
    have hback := Transducer.run_append (Transducer.run_append hfront run_oldPassword)
      (run_secret tsql holdText)
    rw [tokens, String.toList_append, String.toList_append, String.toList_append,
      Transducer.read_append hback, read_semicolon, intended, if_neg hold]
    rfl

theorem postgres_reads {statements : List Statement}
    (h : changePasswordStatements .postgres principal new old = .ok statements) :
    ReadAs postgresql statements (intended .postgres (strip principal) new old) := by
  unfold changePasswordStatements at h
  obtain ⟨role, hrole, h⟩ := bind_eq_ok h
  obtain ⟨text, htext, h⟩ := bind_eq_ok h
  obtain rfl := Except.ok.inj h
  refine ⟨_, rfl, ?_⟩
  have hname := Transducer.run_append (Transducer.run_append run_alterRole (run_ident postgresql hrole))
    run_withPassword_postgresql
  have hback := Transducer.run_append hname (run_secret postgresql htext)
  rw [tokens, String.toList_append, String.toList_append, String.toList_append, String.toList_append,
    Transducer.read_append hback, read_semicolon]
  rfl

end Reading

theorem statements_read_as_intended {engine : Engine} {d : Dialect} {principal new old : String}
    {statements : List Statement} (hengine : engine.dialect = some d)
    (h : changePasswordStatements engine principal new old = .ok statements) :
    ReadAs d statements (intended engine (strip principal) new old) := by
  cases engine with
  | sqlserver =>
    obtain rfl := Option.some.inj hengine
    exact sqlserver_reads h
  | mysql => cases hengine
  | postgres =>
    obtain rfl := Option.some.inj hengine
    exact postgres_reads h

/-- Quotes and brackets in every part. -/
theorem quotes_read_as_intended : ReadAs tsql
    [⟨"ALTER LOGIN [we]]ird] WITH PASSWORD = 'a''b--x' OLD_PASSWORD = ''';';", []⟩]
    (intended .sqlserver "we]ird" "a'b--x" "';") := by
  have hdialect : Engine.dialect .sqlserver = some tsql := rfl
  have haccepted : changePasswordStatements .sqlserver "we]ird" "a'b--x" "';" =
      .ok [⟨"ALTER LOGIN [we]]ird] WITH PASSWORD = 'a''b--x' OLD_PASSWORD = ''';';", []⟩] := by decide
  have hstrip : strip "we]ird" = "we]ird" := by decide
  have hread := statements_read_as_intended hdialect haccepted
  rwa [hstrip] at hread

/-- Space around a name is not part of the name that is altered. -/
theorem space_not_altered : ¬∀ (engine : Engine) (d : Dialect) (principal new old : String)
    (statements : List Statement), engine.dialect = some d →
    changePasswordStatements engine principal new old = .ok statements →
    ReadAs d statements (intended engine principal new old) := by
  intro h
  obtain ⟨sql, hsql, hread⟩ := h .sqlserver tsql " app" "pw" ""
    [⟨"ALTER LOGIN [app] WITH PASSWORD = 'pw';", []⟩] rfl (by decide)
  have hsent : "ALTER LOGIN [app] WITH PASSWORD = 'pw';" = sql :=
    congrArg Statement.sql (List.cons.inj hsql).1
  rw [← hsent] at hread
  exact absurd hread (by decide)

end DbOps
