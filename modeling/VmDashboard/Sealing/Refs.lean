import Mathlib
import VmDashboard.Python.Case
import VmDashboard.Python.Convert

/-!
# The references a sealed bundle is bound to

`seal_host_key`, `bundle_ref` and `k8s_ref`, which stand once in `services/agent_sealing.py` and once
in `runners/agent/agent.py`. `lower` is `str.lower`.
-/

namespace Sealing
open Python (Json)

/-- `text.rstrip(".")`. -/
def rstripDots (text : String) : String :=
  String.ofList (text.toList.reverse.dropWhile (· = '.')).reverse

/-- `int(port)`, 0 where it raises. -/
def portNumber (port : Json) : ℤ := port.int?.getD 0

section Copies
variable (lower : String → String)

namespace Dashboard

def sealHostKey (host : String) : String := lower (rstripDots (Python.strip host))

def bundleRef (runKind transport host : String) (port : Json) : String :=
  "ansible:" ++ runKind ++ ":" ++ transport ++ ":" ++ sealHostKey lower host ++ ":" ++
    toString (portNumber port)

def k8sRef (host : String) (port : Json) : String :=
  "k8s:" ++ sealHostKey lower host ++ ":" ++ toString (portNumber port)

end Dashboard

namespace Agent

def sealHostKey (host : String) : String := lower (rstripDots (Python.strip host))

def bundleRef (runKind transport host : String) (port : Json) : String :=
  "ansible:" ++ runKind ++ ":" ++ transport ++ ":" ++ sealHostKey lower host ++ ":" ++
    toString (portNumber port)

def k8sRef (host : String) (port : Json) : String :=
  "k8s:" ++ sealHostKey lower host ++ ":" ++ toString (portNumber port)

end Agent

inductive Side where
  | dashboard
  | agent
  deriving DecidableEq

/-- What a bundle is made for. -/
inductive Target where
  | ansible (runKind transport host : String) (port : Json)
  | k8s (host : String) (port : Json)

def Side.ref : Side → Target → String
  | .dashboard, .ansible runKind transport host port =>
    Dashboard.bundleRef lower runKind transport host port
  | .dashboard, .k8s host port => Dashboard.k8sRef lower host port
  | .agent, .ansible runKind transport host port =>
    Agent.bundleRef lower runKind transport host port
  | .agent, .k8s host port => Agent.k8sRef lower host port

/-- The same family, and the same run kind, transport, host key and port. -/
def Target.Same : Target → Target → Prop
  | .ansible runKind transport host port, .ansible runKind' transport' host' port' =>
    runKind = runKind' ∧ transport = transport' ∧
      Dashboard.sealHostKey lower host = Dashboard.sealHostKey lower host' ∧
      portNumber port = portNumber port'
  | .k8s host port, .k8s host' port' =>
    Dashboard.sealHostKey lower host = Dashboard.sealHostKey lower host' ∧
      portNumber port = portNumber port'
  | _, _ => False

/-- `VALID_RUN_KINDS` and `VALID_TRANSPORTS` have no colon in them. -/
def Target.Plain : Target → Prop
  | .ansible runKind transport _ _ => ':' ∉ runKind.toList ∧ ':' ∉ transport.toList
  | .k8s .. => True

/-- The two copies build the same text. -/
theorem Side.ref_eq (side : Side) (target : Target) :
    side.ref lower target = Side.dashboard.ref lower target := by
  cases side with
  | dashboard => rfl
  | agent => cases target <;> rfl

theorem colon_notMem_toString (n : ℤ) : ':' ∉ (toString n).toList := by
  intro h
  rcases Python.mem_toString_int h with hd | hd
  · exact absurd hd (by decide)
  · exact absurd hd (by decide)

/-- The endpoint at the end of both texts: the port is what follows the last colon. -/
theorem endpoint_inj {host host' : List Char} {n n' : ℤ}
    (h : host ++ ':' :: (toString n).toList = host' ++ ':' :: (toString n').toList) :
    host = host' ∧ n = n' := by
  obtain ⟨hhost, hport⟩ := Python.append_cons_inj_right (colon_notMem_toString n)
    (colon_notMem_toString n') h
  exact ⟨hhost, Int.repr_injective (String.toList_injective hport)⟩

theorem bundleRef_toList (runKind transport host : String) (port : Json) :
    (Dashboard.bundleRef lower runKind transport host port).toList =
      "ansible".toList ++ ':' :: (runKind.toList ++ ':' :: (transport.toList ++ ':' ::
        ((Dashboard.sealHostKey lower host).toList ++ ':' ::
          (toString (portNumber port)).toList))) := by
  have hfamily : "ansible:".toList = "ansible".toList ++ [':'] := rfl
  have hcolon : ":".toList = [':'] := rfl
  unfold Dashboard.bundleRef
  simp only [String.toList_append, hfamily, hcolon, List.append_assoc,
    List.cons_append, List.nil_append]

theorem k8sRef_toList (host : String) (port : Json) :
    (Dashboard.k8sRef lower host port).toList =
      "k8s".toList ++ ':' :: ((Dashboard.sealHostKey lower host).toList ++ ':' ::
        (toString (portNumber port)).toList) := by
  have hfamily : "k8s:".toList = "k8s".toList ++ [':'] := rfl
  have hcolon : ":".toList = [':'] := rfl
  unfold Dashboard.k8sRef
  simp only [String.toList_append, hfamily, hcolon, List.append_assoc,
    List.cons_append, List.nil_append]

theorem bundleRef_ne_k8sRef (runKind transport host host' : String) (port port' : Json) :
    Dashboard.bundleRef lower runKind transport host port ≠
      Dashboard.k8sRef lower host' port' := by
  intro h
  have hchars := congrArg String.toList h
  rw [bundleRef_toList, k8sRef_toList] at hchars
  obtain ⟨hfamily, -⟩ := Python.append_cons_inj_left (by decide) (by decide) hchars
  exact absurd hfamily (by decide)

/-- Two references are equal exactly when they are of one family and name one endpoint. -/
theorem ref_eq_iff {target target' : Target} (h : target.Plain) (h' : target'.Plain)
    (side side' : Side) :
    side.ref lower target = side'.ref lower target' ↔ target.Same lower target' := by
  rw [side.ref_eq, side'.ref_eq]
  cases target with
  | ansible runKind transport host port =>
    cases target' with
    | ansible runKind' transport' host' port' =>
      constructor
      · intro heq
        have hchars := congrArg String.toList heq
        simp only [Side.ref, bundleRef_toList] at hchars
        have hrest := (List.cons.inj (List.append_cancel_left hchars)).2
        obtain ⟨hkind, hrest⟩ := Python.append_cons_inj_left h.1 h'.1 hrest
        obtain ⟨htransport, hrest⟩ := Python.append_cons_inj_left h.2 h'.2 hrest
        obtain ⟨hhost, hport⟩ := endpoint_inj hrest
        exact ⟨String.toList_injective hkind, String.toList_injective htransport,
          String.toList_injective hhost, hport⟩
      · rintro ⟨rfl, rfl, hhost, hport⟩
        dsimp only [Side.ref]
        unfold Dashboard.bundleRef
        rw [hhost, hport]
    | k8s host' port' =>
      exact iff_of_false (bundleRef_ne_k8sRef lower runKind transport host host' port port') id
  | k8s host port =>
    cases target' with
    | ansible runKind' transport' host' port' =>
      exact iff_of_false
        (bundleRef_ne_k8sRef lower runKind' transport' host' host port' port).symm id
    | k8s host' port' =>
      constructor
      · intro heq
        have hchars := congrArg String.toList heq
        simp only [Side.ref, k8sRef_toList] at hchars
        have hrest := (List.cons.inj (List.append_cancel_left hchars)).2
        obtain ⟨hhost, hport⟩ := endpoint_inj hrest
        exact ⟨String.toList_injective hhost, hport⟩
      · rintro ⟨hhost, hport⟩
        dsimp only [Side.ref]
        unfold Dashboard.k8sRef
        rw [hhost, hport]

end Copies

/-- A colon in the transport moves into the host. -/
theorem colon_in_transport :
    Side.agent.ref Python.lower (.ansible "vm" "ssh:a" "b" (.int 22)) =
        Side.dashboard.ref Python.lower (.ansible "vm" "ssh" "a:b" (.int 22)) ∧
      ¬Target.Same Python.lower (.ansible "vm" "ssh:a" "b" (.int 22))
        (.ansible "vm" "ssh" "a:b" (.int 22)) :=
  ⟨by decide, fun h => absurd h.2.1 (by decide)⟩

end Sealing
