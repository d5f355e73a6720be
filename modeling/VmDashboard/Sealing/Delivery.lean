import VmDashboard.Sealing.Seal

/-!
# One delivery, one endpoint

A sealed secret opens in the delivery it was made for and in no other, and the reference of a bundle
names its family and its endpoint. The run kind and the transport are texts the dashboard checks
against two lists; a colon in one of them would move the border between the fields.
-/

namespace Sealing
open Python (Bytes Dict Json)

theorem openSealed_eq_ok_iff {P : Primitives} (hP : P.Ideal) {draw : Draw} {raw : Bytes}
    (hraw : raw.length = keyBytes) {secret : String} {context : Context} {envelope : Dict}
    (h : sealSecret P draw (replyKeypair P raw).2 secret context = .ok envelope) (side : Side)
    (context' : Context) :
    side.openSealed P (replyKeypair P raw).1 (.obj envelope) context' = .ok secret ↔
      context' = context := by
  obtain ⟨hopens, hfails⟩ := openSealed_sealSecret hP hraw h side context'
  constructor
  · intro hok
    by_contra hne
    obtain ⟨message, herror⟩ := hfails hne
    rw [herror] at hok
    cases hok
  · exact hopens

/-- The matching key opens an envelope exactly in the delivery it was made for, and fails in any
other. Two references are equal exactly when family, run kind, transport, host key and port are, so
an envelope made for one target opens for another only if they are the same. -/
theorem sealed_for_one_delivery {P : Primitives} (hP : P.Ideal) (lower : String → String)
    {draw : Draw} {raw : Bytes} (hraw : raw.length = keyBytes) {secret : String}
    {context : Context} {envelope : Dict}
    (h : sealSecret P draw (replyKeypair P raw).2 secret context = .ok envelope) :
    (∀ (side : Side) context',
      (side.openSealed P (replyKeypair P raw).1 (.obj envelope) context' = .ok secret ↔
        context' = context) ∧
      (context' ≠ context → ∃ message,
        side.openSealed P (replyKeypair P raw).1 (.obj envelope) context' = .error message)) ∧
    (∀ target target' : Target, target.Plain → target'.Plain → ∀ side side' : Side,
      (side.ref lower target = side'.ref lower target' ↔ target.Same lower target') ∧
      (context.ref = side.ref lower target →
        (side'.openSealed P (replyKeypair P raw).1 (.obj envelope)
            { context with ref := side'.ref lower target' } = .ok secret ↔
          target.Same lower target'))) := by
  constructor
  · intro side context'
    exact ⟨openSealed_eq_ok_iff hP hraw h side context',
      (openSealed_sealSecret hP hraw h side context').2⟩
  · intro target target' hplain hplain' side side'
    have href := ref_eq_iff lower hplain hplain' side side'
    refine ⟨href, fun hcontext => ?_⟩
    rw [openSealed_eq_ok_iff hP hraw h, ← href, ← hcontext]
    constructor
    · intro heq
      exact (congrArg Context.ref heq).symm
    · intro heq
      rw [← heq]

theorem sealSecret_of_agreed {P : Primitives} (hP : P.Ideal) {draw : Draw} {raw shared : Bytes}
    (hraw : raw.length = keyBytes)
    (hshared : P.exchange draw.ephemeral (P.publicKey raw) = some shared) (secret : String)
    (context : Context) :
    ∃ envelope, sealSecret P draw (replyKeypair P raw).2 secret context = .ok envelope := by
  unfold sealSecret
  rw [replyKeypair, rawKey_b64Text (hP.length raw hraw)]
  simp only [usableKey, hP.loads raw hraw, agreed, hshared, if_true, bind, Except.bind]
  exact ⟨_, rfl⟩

/-! ### The primitives on one delivery

What X25519, HKDF and AES-GCM answer for two key pairs, one nonce, one secret and one context, and
for every other input something that keeps them ideal. -/

def hexBytes : List Char → Bytes
  | a :: b :: rest =>
    UInt8.ofNat ((Python.hexValue? a).getD 0 * 16 + (Python.hexValue? b).getD 0) :: hexBytes rest
  | _ => []

def sampleDraw : Draw :=
  ⟨List.replicate 32 1, List.replicate 12 3, by decide, by decide⟩

def sampleKey : Bytes := List.replicate 32 2

def sampleEpk : Bytes :=
  hexBytes "a4e09292b651c278b9772c569f5fa9bb13d906b46ab68c9df9dc2b4409f8a209".toList

def sampleRecipient : Bytes :=
  hexBytes "ce8d3ad1ccb633ec7b70c17814a5c76ecd029685050d344745ba05870e587d59".toList

def sampleShared : Bytes :=
  hexBytes "2ed76ab549b1e73c031eb49c9448f0798aea81b698279a0c3dc3e49fbfc4b953".toList

def sampleDerived : Bytes :=
  hexBytes "93d7097d1e95579219bbca13de26fcbe9501733907ae0847b58bc2763f102168".toList

def sampleCiphertext : Bytes :=
  hexBytes "1c33d1c5a074ddf6b68438a0fb5ea34da7d3f3c5d334a33341f77ed0dc9ddeeab1b2ef".toList

def sampleContext : Context := ⟨"a-1", "https://dash.lab", "j-1", "k8s:10.0.0.5:6443"⟩

def samplePublic (key : Bytes) : Bytes :=
  if key = sampleDraw.ephemeral then sampleEpk
  else if key = sampleKey then sampleRecipient
  else key

def sampleMix (x y : Bytes) : Bytes :=
  if (x = sampleEpk ∧ y = sampleRecipient) ∨ (x = sampleRecipient ∧ y = sampleEpk) then sampleShared
  else List.zipWith (· + ·) x y

theorem sampleMix_comm (x y : Bytes) : sampleMix x y = sampleMix y x := by
  have hzip : List.zipWith (· + ·) x y = List.zipWith (· + ·) y x :=
    List.zipWith_comm_of_comm fun a b => add_comm a b
  unfold sampleMix
  rw [hzip]
  refine if_congr ?_ rfl rfl
  rw [or_comm, and_comm, @and_comm (x = sampleEpk)]

/-- A byte list that ends where its mark is, whatever follows. -/
def frameBytes : Bytes → Bytes → Bytes
  | [], rest => 0 :: rest
  | b :: bs, rest => 1 :: b :: frameBytes bs rest

theorem frameBytes_injective {bs cs x y : Bytes} (h : frameBytes bs x = frameBytes cs y) :
    bs = cs ∧ x = y := by
  induction bs generalizing cs with
  | nil =>
    cases cs with
    | nil => exact ⟨rfl, (List.cons.inj h).2⟩
    | cons c cs => exact absurd (List.cons.inj h).1 (by decide)
  | cons b bs ih =>
    cases cs with
    | nil => exact absurd (List.cons.inj h).1 (by decide)
    | cons c cs =>
      obtain ⟨rfl, hrest⟩ := List.cons.inj (List.cons.inj h).2
      obtain ⟨rfl, hxy⟩ := ih hrest
      exact ⟨rfl, hxy⟩

def sampleAad : Bytes := sealAad sampleContext (b64Text sampleEpk)

def samplePlaintext : Bytes := serialize (.obj [("secret", .str "s3cr3t")])

def sampleEncrypt (key nonce plaintext aad : Bytes) : Bytes :=
  if key = sampleDerived ∧ nonce = sampleDraw.nonce ∧ plaintext = samplePlaintext ∧ aad = sampleAad
  then sampleCiphertext
  else 0 :: frameBytes key (frameBytes nonce (frameBytes plaintext (frameBytes aad [])))

theorem sampleEncrypt_injective {k n p a k' n' p' a' : Bytes}
    (h : sampleEncrypt k n p a = sampleEncrypt k' n' p' a') :
    k = k' ∧ n = n' ∧ p = p' ∧ a = a' := by
  have hmark : ∀ rest : Bytes, sampleCiphertext ≠ 0 :: rest := by
    intro rest heq
    have hhead : sampleCiphertext.head? = some 0 := congrArg List.head? heq
    exact absurd hhead (by decide)
  unfold sampleEncrypt at h
  split at h
  next hleft =>
    obtain ⟨rfl, rfl, rfl, rfl⟩ := hleft
    split at h
    next hright =>
      obtain ⟨rfl, rfl, rfl, rfl⟩ := hright
      exact ⟨rfl, rfl, rfl, rfl⟩
    next => exact absurd h (hmark _)
  next =>
    split at h
    next => exact absurd h.symm (hmark _)
    next =>
      obtain ⟨rfl, hn⟩ := frameBytes_injective (List.cons.inj h).2
      obtain ⟨rfl, hp⟩ := frameBytes_injective hn
      obtain ⟨rfl, ha⟩ := frameBytes_injective hp
      exact ⟨rfl, rfl, rfl, (frameBytes_injective ha).1⟩

noncomputable def samplePrimitives : Primitives where
  publicKey := samplePublic
  publicLoads raw := raw.length = keyBytes
  exchange key peer := some (sampleMix (samplePublic key) peer)
  hkdf info ikm :=
    if info = sealInfo ∧ ikm = sampleEpk ++ sampleRecipient ++ sampleShared then sampleDerived
    else ikm
  encrypt := sampleEncrypt
  decrypt key nonce ciphertext aad :=
    open Classical in
    if h : ∃ plaintext, sampleEncrypt key nonce plaintext aad = ciphertext then some h.choose
    else none

theorem length_samplePublic {k : Bytes} (hk : k.length = keyBytes) :
    (samplePublic k).length = keyBytes := by
  unfold samplePublic
  split
  · decide
  · split
    · decide
    · exact hk

theorem samplePrimitives_ideal : samplePrimitives.Ideal where
  length k hk := length_samplePublic hk
  loads k hk := decide_eq_true (length_samplePublic hk)
  agree a b := congrArg some (sampleMix_comm (samplePublic a) (samplePublic b))
  tagged key nonce plaintext aad := by
    change sampleEncrypt key nonce plaintext aad ≠ []
    unfold sampleEncrypt
    split
    · decide
    · exact List.cons_ne_nil _ _
  opens key key' nonce nonce' plaintext aad aad' := by
    classical
    change (if h : ∃ p, sampleEncrypt key nonce p aad = sampleEncrypt key' nonce' plaintext aad'
      then some h.choose else none) = _
    by_cases hsame : key = key' ∧ nonce = nonce' ∧ aad = aad'
    · obtain ⟨rfl, rfl, rfl⟩ := hsame
      have hexists : ∃ p, sampleEncrypt key nonce p aad = sampleEncrypt key nonce plaintext aad :=
        ⟨plaintext, rfl⟩
      rw [dif_pos hexists, if_pos ⟨rfl, rfl, rfl⟩,
        (sampleEncrypt_injective hexists.choose_spec).2.2.1]
    · rw [if_neg hsame, dif_neg]
      rintro ⟨p, hp⟩
      obtain ⟨hk, hn, -, ha⟩ := sampleEncrypt_injective hp
      exact hsame ⟨hk, hn, ha⟩

/-- The agent opens the kubeconfig of its job, and not when it is told of another cluster. -/
theorem kubeconfig_for_one_cluster : ∃ envelope,
    sealSecret samplePrimitives sampleDraw (replyKeypair samplePrimitives sampleKey).2 "s3cr3t"
      sampleContext = .ok envelope ∧
    Side.agent.openSealed samplePrimitives (replyKeypair samplePrimitives sampleKey).1
      (.obj envelope) sampleContext = .ok "s3cr3t" ∧
    ¬Side.agent.openSealed samplePrimitives (replyKeypair samplePrimitives sampleKey).1
      (.obj envelope) { sampleContext with
        ref := Side.agent.ref Python.lower (.k8s "10.0.0.6" (.int 6443)) } = .ok "s3cr3t" := by
  obtain ⟨envelope, henvelope⟩ := @sealSecret_of_agreed samplePrimitives samplePrimitives_ideal
    sampleDraw sampleKey _ (by decide) rfl "s3cr3t" sampleContext
  obtain ⟨hopens, hrefs⟩ := sealed_for_one_delivery samplePrimitives_ideal Python.lower
    (by decide) henvelope
  have hcluster := (hrefs (.k8s "10.0.0.5" (.int 6443)) (.k8s "10.0.0.6" (.int 6443)) trivial
    trivial .dashboard .agent).2 (by decide)
  have hother : ¬Target.Same Python.lower (.k8s "10.0.0.5" (.int 6443))
      (.k8s "10.0.0.6" (.int 6443)) := fun h => absurd h.1 (by decide)
  exact ⟨envelope, henvelope, (hopens .agent sampleContext).1.mpr rfl,
    fun hok => hother (hcluster.mp hok)⟩

end Sealing
