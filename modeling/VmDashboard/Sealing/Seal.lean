import VmDashboard.Machine.Except
import VmDashboard.Python.Base64
import VmDashboard.Python.JsonText
import VmDashboard.Sealing.Refs

/-!
# Sealing a secret for one delivery

`seal`, `open_sealed` and `check_reply_key` of `services/agent_sealing.py` and the `open_sealed` of
`runners/agent/agent.py`. X25519, HKDF and AES-GCM are arguments; `Ideal` is what is assumed of them.
-/

namespace Sealing
open Python (Bytes Dict Json)

def sealVersion : ℤ := 1

def sealAlg : String := "X25519-HKDF-SHA256-AES256GCM"

def sealInfo : Bytes := Python.utf8Encode "vm-dashboard/agent-secret-seal/v1"

def nonceBytes : ℕ := 12

def keyBytes : ℕ := 32

/-- What `cryptography` gives. `exchange` takes a private and a public key and may refuse. -/
structure Primitives where
  publicKey : Bytes → Bytes
  publicLoads : Bytes → Bool
  exchange : Bytes → Bytes → Option Bytes
  hkdf : (info ikm : Bytes) → Bytes
  encrypt : (key nonce plaintext aad : Bytes) → Bytes
  decrypt : (key nonce ciphertext aad : Bytes) → Option Bytes

/-- Both ends agree on a secret, and a ciphertext opens under what it was made with and no other. -/
structure Primitives.Ideal (P : Primitives) : Prop where
  length : ∀ k, k.length = keyBytes → (P.publicKey k).length = keyBytes
  loads : ∀ k, k.length = keyBytes → P.publicLoads (P.publicKey k) = true
  agree : ∀ a b, P.exchange a (P.publicKey b) = P.exchange b (P.publicKey a)
  tagged : ∀ key nonce plaintext aad, P.encrypt key nonce plaintext aad ≠ []
  opens : ∀ key key' nonce nonce' plaintext aad aad',
    P.decrypt key nonce (P.encrypt key' nonce' plaintext aad') aad =
      if key = key' ∧ nonce = nonce' ∧ aad = aad' then some plaintext else none

/-- One delivery, as both ends know it. -/
structure Context where
  agentId : String
  audience : String
  jobId : String
  ref : String
  deriving DecidableEq

/-! ### The associated data and the keys -/

def serialize (payload : Json) : Bytes := Python.utf8Encode payload.compact

def sealAad (context : Context) (epk : String) : Bytes :=
  serialize (.obj [("agent_id", .str context.agentId), ("aud", .str context.audience),
    ("epk", .str epk), ("job_id", .str context.jobId), ("ref", .str context.ref),
    ("v", .int sealVersion)])

def b64Text (raw : Bytes) : String := String.ofList (Python.b64encode raw)

def rawKey (value label : String) : Except String Bytes :=
  match Python.b64decode value.toList with
  | none => .error (label ++ " is not valid base64")
  | some raw =>
    if raw.length ≠ keyBytes then
      .error (label ++ " is " ++ toString raw.length ++ " bytes, not " ++ toString keyBytes ++
        " — not an X25519 key")
    else .ok raw

/-- `str(envelope.get(name) or "")`. -/
def fieldText (envelope : Dict) (name : String) : String :=
  match envelope.get? name with
  | some value => if value.truthy then value.text else ""
  | none => ""

def b64Field (envelope : Dict) (name : String) : Except String Bytes :=
  match Python.b64decode (fieldText envelope name).toList with
  | none => .error ("sealed envelope field " ++ Python.reprText name ++ " is not valid base64")
  | some [] => .error ("sealed envelope field " ++ Python.reprText name ++ " is missing or empty")
  | some raw => .ok raw

section Calls
variable (P : Primitives)

/-- The two halves of a key pair drawn from `raw`. -/
def replyKeypair (raw : Bytes) : String × String := (b64Text raw, b64Text (P.publicKey raw))

def usableKey (raw : Bytes) : Except String Unit :=
  if P.publicLoads raw then .ok () else .error "reply key is not a usable X25519 public key"

def checkReplyKey (replyKey : String) : Except String Unit := do
  let raw ← rawKey replyKey "reply key"
  usableKey P raw

def agreed (shared : Option Bytes) : Except String Bytes :=
  match shared with
  | some shared => .ok shared
  | none => .error "X25519 key agreement failed"

def derive (shared epk recipient : Bytes) : Bytes := P.hkdf sealInfo (epk ++ recipient ++ shared)

/-- What a seal draws: the ephemeral private key and the nonce. -/
structure Draw where
  ephemeral : Bytes
  nonce : Bytes
  ephemeral_length : ephemeral.length = keyBytes
  nonce_length : nonce.length = nonceBytes

def envelopeOf (epk nonce ciphertext : Bytes) : Dict :=
  [("v", .int sealVersion), ("alg", .str sealAlg), ("epk", .str (b64Text epk)),
    ("nonce", .str (b64Text nonce)), ("ct", .str (b64Text ciphertext))]

/-- `seal`. -/
def sealSecret (draw : Draw) (replyKey secret : String) (context : Context) : Except String Dict := do
  let recipient ← rawKey replyKey "reply key"
  usableKey P recipient
  let epk := P.publicKey draw.ephemeral
  let shared ← agreed (P.exchange draw.ephemeral recipient)
  let aad := sealAad context (b64Text epk)
  return envelopeOf epk draw.nonce (P.encrypt (derive P shared epk recipient) draw.nonce
    (serialize (.obj [("secret", .str secret)])) aad)

/-! ### Opening -/

def readSecret (plaintext : Bytes) : Except String String :=
  match (Python.utf8Decode plaintext).bind Python.loads with
  | none => .error "the sealed payload is not valid JSON"
  | some (.obj payload) =>
    match Dict.get? payload "secret" with
    | some secret => .ok secret.text
    | none => .error "the sealed payload carries no 'secret' field"
  | some _ => .error "the sealed payload carries no 'secret' field"

/-- What both copies do once the fields are read. -/
def openRaw (raw epk nonce ciphertext : Bytes) (context : Context) : Except String String := do
  let shared ← agreed (if P.publicLoads epk then P.exchange raw epk else none)
  let recipient := P.publicKey raw
  let aad := sealAad context (b64Text epk)
  match P.decrypt (derive P shared epk recipient) nonce ciphertext aad with
  | some plaintext => readSecret plaintext
  | none =>
    .error ("the sealed credential did not authenticate — it was sealed to a different key, or " ++
      "for a different agent, job or connection")

/-- `value == SEAL_VERSION`; `True` is 1. -/
def isSealVersion : Option Json → Bool
  | some (.int n) => n = sealVersion
  | some (.bool b) => b
  | _ => false

def isSealAlg : Option Json → Bool
  | some (.str alg) => alg = sealAlg
  | _ => false

/-- `{value!r}`. -/
def reprOf : Option Json → String
  | some value => value.reprText
  | none => "None"

def raiseUnless (holds : Bool) (message : String) : Except String Unit :=
  if holds then .ok () else .error message

def checkLength (raw : Bytes) (name : String) (length : ℕ) : Except String Bytes :=
  if raw.length = length then .ok raw
  else .error ("sealed envelope " ++ Python.reprText name ++ " is " ++ toString raw.length ++
    " bytes, not " ++ toString length)

namespace Dashboard

def openSealed (privateB64 : String) (envelope : Json) (context : Context) :
    Except String String :=
  match envelope with
  | .obj envelope => do
    raiseUnless (isSealVersion (Dict.get? envelope "v")) ("sealed envelope is version " ++
      reprOf (Dict.get? envelope "v") ++ ", but this build only understands version " ++
      toString sealVersion)
    raiseUnless (isSealAlg (Dict.get? envelope "alg")) ("sealed envelope algorithm " ++
      reprOf (Dict.get? envelope "alg") ++ " is not " ++ sealAlg)
    let raw ← rawKey privateB64 "reply private key"
    let epk ← b64Field envelope "epk"
    let epk ← checkLength epk "epk" keyBytes
    let nonce ← b64Field envelope "nonce"
    let nonce ← checkLength nonce "nonce" nonceBytes
    let ciphertext ← b64Field envelope "ct"
    openRaw P raw epk nonce ciphertext context
  | _ => .error "sealed envelope is not an object"

end Dashboard

namespace Agent

/-- `_seal_b64`; a length of 0 is not checked. -/
def sealB64 (envelope : Dict) (name : String) (length : ℕ) : Except String Bytes := do
  let raw ← b64Field envelope name
  if length = 0 then return raw else checkLength raw name length

def openSealed (privateB64 : String) (envelope : Json) (context : Context) :
    Except String String :=
  match envelope with
  | .obj envelope => do
    raiseUnless (isSealVersion (Dict.get? envelope "v"))
      ("the dashboard sealed this credential as version " ++ reprOf (Dict.get? envelope "v") ++
        ", but this agent only understands version " ++ toString sealVersion ++
        " — pull a newer chrweav/dashboard-agent image and restart")
    raiseUnless (isSealAlg (Dict.get? envelope "alg")) ("sealed envelope algorithm " ++
      reprOf (Dict.get? envelope "alg") ++ " is not " ++ sealAlg)
    let raw ← sealB64 [("k", .str privateB64)] "k" keyBytes
    let epk ← sealB64 envelope "epk" keyBytes
    let nonce ← sealB64 envelope "nonce" nonceBytes
    let ciphertext ← sealB64 envelope "ct" 0
    openRaw P raw epk nonce ciphertext context
  | _ => .error "sealed envelope is not an object"

end Agent

def Side.openSealed : Side → String → Json → Context → Except String String
  | .dashboard => Dashboard.openSealed P
  | .agent => Agent.openSealed P

/-! ### The fields that a seal wrote are read back -/

variable {P}

theorem rawKey_b64Text {raw : Bytes} (h : raw.length = keyBytes) (label : String) :
    rawKey (b64Text raw) label = .ok raw := by
  unfold rawKey b64Text
  rw [String.toList_ofList, Python.b64decode_b64encode]
  exact if_neg (not_not.mpr h)

theorem b64Text_ne_empty {raw : Bytes} (h : raw ≠ []) : b64Text raw ≠ "" := by
  intro hempty
  have hdecode := Python.b64decode_b64encode raw
  have hnil : Python.b64encode raw = [] := by
    have hchars := congrArg String.toList hempty
    rw [b64Text, String.toList_ofList] at hchars
    exact hchars
  rw [hnil] at hdecode
  exact h (Option.some.inj hdecode).symm

theorem b64Field_b64Text {envelope : Dict} {name : String} {raw : Bytes} (hraw : raw ≠ [])
    (h : envelope.get? name = some (.str (b64Text raw))) : b64Field envelope name = .ok raw := by
  have htruthy : (Json.str (b64Text raw)).truthy = true := decide_eq_true (b64Text_ne_empty hraw)
  unfold b64Field fieldText
  rw [h]
  dsimp only
  rw [if_pos htruthy]
  simp only [Json.text, b64Text, String.toList_ofList, Python.b64decode_b64encode]

theorem checkLength_eq_ok {raw : Bytes} {length : ℕ} (h : raw.length = length) (name : String) :
    checkLength raw name length = .ok raw := if_pos h

theorem ne_nil_of_length {raw : Bytes} {n : ℕ} (h : raw.length = n) (hn : 0 < n) : raw ≠ [] := by
  rintro rfl
  rw [List.length_nil] at h
  omega

theorem sealB64_b64Text {envelope : Dict} {name : String} {raw : Bytes} (hraw : raw ≠ [])
    (h : envelope.get? name = some (.str (b64Text raw))) {length : ℕ}
    (hlength : length = 0 ∨ raw.length = length) :
    Agent.sealB64 envelope name length = .ok raw := by
  unfold Agent.sealB64
  rw [b64Field_b64Text hraw h]
  change (if length = 0 then Except.ok raw else checkLength raw name length) = .ok raw
  split
  · rfl
  next hne => exact checkLength_eq_ok (hlength.resolve_left hne) name

/-- Both copies get the same four fields out of an envelope. -/
theorem openSealed_envelope {raw epk nonce ciphertext : Bytes} (hraw : raw.length = keyBytes)
    (hepk : epk.length = keyBytes) (hnonce : nonce.length = nonceBytes) (hct : ciphertext ≠ [])
    (side : Side) (context : Context) :
    side.openSealed P (b64Text raw) (.obj (envelopeOf epk nonce ciphertext)) context =
      openRaw P raw epk nonce ciphertext context := by
  have hepkNe : epk ≠ [] := ne_nil_of_length hepk (by decide)
  have hnonceNe : nonce ≠ [] := ne_nil_of_length hnonce (by decide)
  have hrawNe : raw ≠ [] := ne_nil_of_length hraw (by decide)
  have hversion : isSealVersion (Dict.get? (envelopeOf epk nonce ciphertext) "v") = true := rfl
  have halg : isSealAlg (Dict.get? (envelopeOf epk nonce ciphertext) "alg") = true := by
    have hget : Dict.get? (envelopeOf epk nonce ciphertext) "alg" = some (.str sealAlg) := rfl
    rw [hget]
    exact decide_eq_true (Eq.refl sealAlg)
  have hget : Dict.get? (envelopeOf epk nonce ciphertext) "epk" = some (.str (b64Text epk)) ∧
      Dict.get? (envelopeOf epk nonce ciphertext) "nonce" = some (.str (b64Text nonce)) ∧
      Dict.get? (envelopeOf epk nonce ciphertext) "ct" = some (.str (b64Text ciphertext)) :=
    ⟨rfl, rfl, rfl⟩
  cases side with
  | dashboard =>
    unfold Side.openSealed Dashboard.openSealed
    dsimp only
    rw [hversion, halg, rawKey_b64Text hraw, b64Field_b64Text hepkNe hget.1,
      b64Field_b64Text hnonceNe hget.2.1, b64Field_b64Text hct hget.2.2]
    simp only [raiseUnless, if_true, bind, Except.bind, checkLength_eq_ok hepk,
      checkLength_eq_ok hnonce]
  | agent =>
    have hk : Dict.get? [("k", .str (b64Text raw))] "k" = some (.str (b64Text raw)) := rfl
    unfold Side.openSealed Agent.openSealed
    dsimp only
    rw [hversion, halg, sealB64_b64Text hrawNe hk (.inr hraw),
      sealB64_b64Text hepkNe hget.1 (.inr hepk), sealB64_b64Text hnonceNe hget.2.1 (.inr hnonce),
      sealB64_b64Text hct hget.2.2 (.inl rfl)]
    rfl

theorem readSecret_serialize (secret : String) :
    readSecret (serialize (.obj [("secret", .str secret)])) = .ok secret := by
  unfold readSecret serialize
  rw [Python.utf8Decode_utf8Encode, Option.bind_some, Python.loads_compact_field]
  rfl

/-- Fields with a text in them, each before a comma. -/
def textFields : List (String × String) → List Char → List Char
  | [], tail => tail
  | (key, value) :: rest, tail =>
    (Python.escapeText key).toList ++ ':' ::
      ((Python.escapeText value).toList ++ ',' :: textFields rest tail)

theorem textFields_injective {fields fields' : List (String × String)} {tail tail' : List Char}
    (hkeys : fields.map Prod.fst = fields'.map Prod.fst)
    (h : textFields fields tail = textFields fields' tail') : fields = fields' := by
  induction fields generalizing fields' with
  | nil => exact (List.map_eq_nil_iff.mp hkeys.symm).symm
  | cons field fields ih =>
    cases fields' with
    | nil => cases hkeys
    | cons field' fields' =>
      obtain ⟨key, value⟩ := field
      obtain ⟨key', value'⟩ := field'
      obtain ⟨hkey, hrest⟩ := List.cons.inj hkeys
      unfold textFields at h
      obtain ⟨rfl, hvalues⟩ := Python.escapeText_append_inj h
      obtain ⟨rfl, htails⟩ := Python.escapeText_append_inj (List.cons.inj hvalues).2
      rw [ih hrest (List.cons.inj htails).2]

def Context.fields (context : Context) (epk : String) : List (String × String) :=
  [("agent_id", context.agentId), ("aud", context.audience), ("epk", epk),
    ("job_id", context.jobId), ("ref", context.ref)]

theorem sealAad_text (context : Context) (epk : String) :
    (Json.obj [("agent_id", .str context.agentId), ("aud", .str context.audience),
      ("epk", .str epk), ("job_id", .str context.jobId), ("ref", .str context.ref),
      ("v", .int sealVersion)]).compact.toList =
    '\x7b' :: textFields (context.fields epk) ((Python.escapeText "v").toList ++
      ':' :: ((toString sealVersion).toList ++ ['\x7d'])) := by
  have hsorted : Python.compactFields [("agent_id", .str context.agentId),
      ("aud", .str context.audience), ("epk", .str epk), ("job_id", .str context.jobId),
      ("ref", .str context.ref), ("v", .int sealVersion)] |>.Pairwise (·.1 ≤ ·.1) := by
    simp [Python.compactFields]
  unfold Json.compact
  rw [hsorted.insertionSort_eq]
  simp [Python.compactFields, Json.compact, textFields, Context.fields]

/-- The associated data tells the deliveries apart. -/
theorem sealAad_injective {context context' : Context} {epk epk' : String}
    (h : sealAad context epk = sealAad context' epk') : context = context' := by
  have hchars := congrArg String.toList (Python.utf8Encode_injective h)
  rw [sealAad_text, sealAad_text] at hchars
  have hfields : context.fields epk = context'.fields epk' :=
    textFields_injective rfl (List.cons.inj hchars).2
  cases context
  cases context'
  simp only [Context.fields, List.cons.injEq, Prod.mk.injEq, true_and, and_true] at hfields
  obtain ⟨rfl, rfl, -, rfl, rfl⟩ := hfields
  rfl

theorem sealSecret_eq_ok {draw : Draw} {replyKey secret : String} {context : Context} {envelope : Dict}
    (h : sealSecret P draw replyKey secret context = .ok envelope) :
    ∃ recipient shared, rawKey replyKey "reply key" = .ok recipient ∧
      P.exchange draw.ephemeral recipient = some shared ∧
      envelope = envelopeOf (P.publicKey draw.ephemeral) draw.nonce
        (P.encrypt (derive P shared (P.publicKey draw.ephemeral) recipient) draw.nonce
          (serialize (.obj [("secret", .str secret)]))
          (sealAad context (b64Text (P.publicKey draw.ephemeral)))) := by
  obtain ⟨recipient, hrecipient, h⟩ := Machine.bind_eq_ok h
  obtain ⟨-, -, h⟩ := Machine.bind_eq_ok h
  obtain ⟨shared, hshared, h⟩ := Machine.bind_eq_ok h
  refine ⟨recipient, shared, hrecipient, ?_, (Except.ok.inj h).symm⟩
  unfold agreed at hshared
  split at hshared
  next found hfound => rw [hfound, Except.ok.inj hshared]
  next => cases hshared

theorem openRaw_of_some {raw epk nonce ciphertext shared plaintext : Bytes} {context : Context}
    (hloads : P.publicLoads epk = true) (hshared : P.exchange raw epk = some shared)
    (h : P.decrypt (derive P shared epk (P.publicKey raw)) nonce ciphertext
      (sealAad context (b64Text epk)) = some plaintext) :
    openRaw P raw epk nonce ciphertext context = readSecret plaintext := by
  unfold openRaw
  rw [if_pos hloads, hshared]
  simp only [agreed, bind, Except.bind, h]

theorem openRaw_of_none {raw epk nonce ciphertext shared : Bytes} {context : Context}
    (hloads : P.publicLoads epk = true) (hshared : P.exchange raw epk = some shared)
    (h : P.decrypt (derive P shared epk (P.publicKey raw)) nonce ciphertext
      (sealAad context (b64Text epk)) = none) :
    ∃ message, openRaw P raw epk nonce ciphertext context = .error message := by
  unfold openRaw
  rw [if_pos hloads, hshared]
  simp only [agreed, bind, Except.bind, h]
  exact ⟨_, rfl⟩

/-- The matching reply key opens an envelope in the delivery it was made for, and in no other. -/
theorem openSealed_sealSecret (hP : P.Ideal) {draw : Draw} {raw : Bytes}
    (hraw : raw.length = keyBytes) {secret : String} {context : Context} {envelope : Dict}
    (h : sealSecret P draw (replyKeypair P raw).2 secret context = .ok envelope) (side : Side)
    (context' : Context) :
    (context' = context →
      side.openSealed P (replyKeypair P raw).1 (.obj envelope) context' = .ok secret) ∧
    (context' ≠ context → ∃ message,
      side.openSealed P (replyKeypair P raw).1 (.obj envelope) context' = .error message) := by
  obtain ⟨recipient, shared, hrecipient, hshared, rfl⟩ := sealSecret_eq_ok h
  rw [replyKeypair, rawKey_b64Text (hP.length raw hraw)] at hrecipient
  obtain rfl := Except.ok.inj hrecipient
  rw [hP.agree] at hshared
  have hepk := hP.length _ draw.ephemeral_length
  have hloads := hP.loads _ draw.ephemeral_length
  rw [replyKeypair, openSealed_envelope hraw hepk draw.nonce_length (hP.tagged _ _ _ _)]
  constructor
  · rintro rfl
    rw [openRaw_of_some hloads hshared ((hP.opens ..).trans (if_pos ⟨rfl, rfl, rfl⟩))]
    exact readSecret_serialize secret
  · intro hne
    have hfails : ∀ {key key' nonce nonce' plaintext},
        P.decrypt key nonce (P.encrypt key' nonce' plaintext
          (sealAad context (b64Text (P.publicKey draw.ephemeral))))
          (sealAad context' (b64Text (P.publicKey draw.ephemeral))) = none := by
      intro key key' nonce nonce' plaintext
      rw [hP.opens, if_neg]
      rintro ⟨-, -, haad⟩
      exact hne (sealAad_injective haad)
    exact openRaw_of_none hloads hshared hfails

end Calls

end Sealing
