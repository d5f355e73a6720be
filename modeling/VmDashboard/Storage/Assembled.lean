import Mathlib.Data.List.Sort
import Mathlib.Logic.Function.Basic
import VmDashboard.Machine.Except
import VmDashboard.Machine.System
import VmDashboard.Storage.Chunked

/-!
# What a commit of an upload in parts assembles

The parts of a layout tile the declared size. A commit is accepted exactly when every part is listed
once and was staged, as long as nothing else touches what the store holds of the upload.
-/

namespace Storage.Chunked
open Machine (System)
open Machine.Tiling (pieces)

/-! ### The layout -/

def offset (partNumber : ℤ) : ℕ := (partNumber - 1).toNat * partBytes

/-- The parts are contiguous from 0 to the size, none is empty, and each position is in one. -/
structure Tiles (total : ℕ) : Prop where
  first : offset 1 = 0
  contiguous : ∀ n : ℤ, 1 ≤ n → n < partCount total →
    offset n + expectedPartBytes total n = offset (n + 1)
  last : offset (partCount total) + expectedPartBytes total (partCount total) = total
  nonempty : ∀ n ∈ partNumbers (partCount total), 0 < expectedPartBytes total n
  unique : ∀ x < total, ∃! n : ℤ, n ∈ partNumbers (partCount total) ∧ offset n ≤ x ∧
    x < offset n + expectedPartBytes total n

theorem partBytes_pos : 0 < partBytes := by
  unfold partBytes
  decide

theorem partCount_eq {total : ℕ} (h : 0 < total) : partCount total = pieces partBytes total :=
  Nat.max_eq_right (Machine.Tiling.pieces_pos partBytes_pos h)

theorem mem_partNumbers {expected : ℕ} {n : ℤ} :
    n ∈ partNumbers expected ↔ 1 ≤ n ∧ n ≤ expected := by
  unfold partNumbers
  rw [List.mem_map]
  refine ⟨?_, fun ⟨hone, hle⟩ => ⟨(n - 1).toNat, List.mem_range.mpr (by omega), by omega⟩⟩
  rintro ⟨i, hi, rfl⟩
  have hlt := List.mem_range.mp hi
  omega

theorem offset_succ (i : ℕ) : offset ((i : ℤ) + 1) = i * partBytes := by
  unfold offset
  rw [Int.add_sub_cancel, Int.toNat_natCast]

theorem offset_one : offset 1 = 0 := by
  have hzero : ((1 : ℤ) - 1).toNat = 0 := rfl
  rw [offset, hzero, Nat.zero_mul]

theorem expectedPartBytes_succ {total i : ℕ} (htotal : 0 < total) (hi : i < partCount total) :
    expectedPartBytes total ((i : ℤ) + 1) = Machine.Tiling.length partBytes total i := by
  unfold expectedPartBytes
  dsimp only
  rw [partCount_eq htotal] at hi ⊢
  by_cases hinner : i + 1 < pieces partBytes total
  · rw [if_pos (by omega), Machine.Tiling.length_inner partBytes_pos hinner]
  · have hlast : i + 1 = pieces partBytes total := by omega
    rw [if_neg (by omega), Machine.Tiling.length_last partBytes_pos hlast, ← hlast,
      Nat.add_sub_cancel]

/-- A part number is one more than an index. -/
theorem exists_index {n : ℤ} {expected : ℕ} (h : n ∈ partNumbers expected) :
    ∃ i : ℕ, n = (i : ℤ) + 1 ∧ i < expected := by
  have hbounds := mem_partNumbers.mp h
  exact ⟨(n - 1).toNat, by omega, by omega⟩

section
variable {total : ℕ} (htotal : 0 < total)
include htotal

theorem contiguous {n : ℤ} (hone : 1 ≤ n) (hlt : n < partCount total) :
    offset n + expectedPartBytes total n = offset (n + 1) := by
  obtain ⟨i, rfl, hi⟩ := exists_index (mem_partNumbers.mpr ⟨hone, hlt.le⟩)
  have hcount := partCount_eq htotal
  have hnext : ((i : ℤ) + 1) + 1 = ((i + 1 : ℕ) : ℤ) + 1 := by omega
  have hinner : i + 1 < pieces partBytes total := by omega
  rw [expectedPartBytes_succ htotal hi, offset_succ, hnext, offset_succ,
    Machine.Tiling.length_inner partBytes_pos hinner, Nat.add_mul, Nat.one_mul]

theorem last_part : offset (partCount total) + expectedPartBytes total (partCount total) = total := by
  have hcount := partCount_eq htotal
  have hpos : 0 < partCount total := hcount ▸ Machine.Tiling.pieces_pos partBytes_pos htotal
  obtain ⟨i, hindex⟩ : ∃ i : ℕ, i + 1 = partCount total := ⟨partCount total - 1, by omega⟩
  have hnumber : (partCount total : ℤ) = (i : ℤ) + 1 := by omega
  have hbefore : i * partBytes < total := (Machine.Tiling.lt_pieces partBytes_pos).mp (by omega)
  rw [hnumber, expectedPartBytes_succ htotal (by omega), offset_succ,
    Machine.Tiling.length_last partBytes_pos (by omega)]
  exact Nat.add_sub_of_le hbefore.le

theorem part_nonempty {n : ℤ} (hn : n ∈ partNumbers (partCount total)) :
    0 < expectedPartBytes total n := by
  obtain ⟨i, rfl, hi⟩ := exists_index hn
  rw [expectedPartBytes_succ htotal hi]
  rw [partCount_eq htotal] at hi
  exact Machine.Tiling.length_pos partBytes_pos hi

theorem part_unique {x : ℕ} (hx : x < total) :
    ∃! n : ℤ, n ∈ partNumbers (partCount total) ∧ offset n ≤ x ∧
      x < offset n + expectedPartBytes total n := by
  have hcount := partCount_eq htotal
  obtain ⟨i, ⟨hi, hstart, hend⟩, honly⟩ := Machine.Tiling.existsUnique_piece partBytes_pos hx
  refine ⟨(i : ℤ) + 1, ⟨mem_partNumbers.mpr (by omega), ?_, ?_⟩, fun n hn => ?_⟩
  · rwa [offset_succ]
  · rwa [offset_succ, expectedPartBytes_succ htotal (hcount ▸ hi)]
  · obtain ⟨hn, hstart', hend'⟩ := hn
    obtain ⟨j, rfl, hj⟩ := exists_index hn
    rw [offset_succ] at hstart' hend'
    rw [expectedPartBytes_succ htotal hj] at hend'
    rw [honly j ⟨hcount ▸ hj, hstart', hend'⟩]

theorem tiles : Tiles total :=
  ⟨offset_one, fun _ => contiguous htotal, last_part htotal, fun _ => part_nonempty htotal,
    fun _ => part_unique htotal⟩

end

theorem sum_expectedPartBytes {total : ℕ} (htotal : 0 < total) :
    ((partNumbers (partCount total)).map (expectedPartBytes total)).sum = total := by
  have hlengths : (partNumbers (partCount total)).map (expectedPartBytes total) =
      (List.range (partCount total)).map (Machine.Tiling.length partBytes total) := by
    rw [partNumbers, List.map_map]
    refine List.map_congr_left fun i hi => ?_
    rw [Function.comp_apply]
    exact expectedPartBytes_succ htotal (List.mem_range.mp hi)
  rw [hlengths, partCount_eq htotal, Machine.Tiling.sum_pieces partBytes_pos]

/-! ### What the stores document -/

variable {σ : Type}

/-- The least part that S3 and OCI take, except for the last. -/
def minPartBytes : ℕ := 5 * 1024 * 1024

structure Multipart.Documented (client : Multipart σ) : Prop where
  /-- An upload that is created has no parts. -/
  created : ∀ {store store' : σ} {key uploadId : String},
    client.createMultipartUpload store key = some (store', uploadId) →
    client.listParts store' key uploadId = some fun _ => none
  /-- A part replaces the one of its number. -/
  uploaded : ∀ {store store' : σ} {key uploadId etag : String} {held part data},
    client.listParts store key uploadId = some held →
    client.uploadPart store key uploadId part data = (store', some etag) →
    client.listParts store' key uploadId =
      some fun n => if n = part then some (etag, data.length) else held n
  /-- A list in ascending order is completed when its tags are those of the parts, and none but the
  last is too small. -/
  completed : ∀ {store : σ} {key uploadId : String} {held : ℤ → Option (String × ℕ)}
    {listed : List (ℤ × String)}, client.listParts store key uploadId = some held → listed ≠ [] →
    (listed.map Prod.fst).Pairwise (· < ·) →
    ((∃ store', client.completeMultipartUpload store key uploadId listed = some store') ↔
      (∀ p ∈ listed, ∃ length, held p.1 = some (p.2, length)) ∧
        ∀ p ∈ listed.dropLast, ∀ length, held p.1 = some (p.2, length) → minPartBytes ≤ length)
  /-- The object is the listed parts one after another. -/
  assembled : ∀ {store store' : σ} {key uploadId : String} {held : ℤ → Option (String × ℕ)}
    {listed : List (ℤ × String)}, client.listParts store key uploadId = some held →
    client.completeMultipartUpload store key uploadId listed = some store' →
    client.head store' key = some (listed.map fun p => (held p.1).elim 0 Prod.snd).sum

structure Blocks.Documented (client : Blocks σ) : Prop where
  staged : ∀ {store store' : σ} {key blockId : String} {data : Bytes},
    client.stageBlock store key blockId data = (store', true) →
    client.committed store' key = client.committed store key ∧
      client.uncommitted store' key =
        fun id => if id = blockId then some data.length else client.uncommitted store key id
  /-- A list of blocks is committed when each is there, staged or from before. -/
  accepted : ∀ {store : σ} {key : String} {ids : List String},
    (∃ store', client.commitBlockList store key ids = some store') ↔
      ∀ id ∈ ids, client.uncommitted store key id ≠ none ∨ client.committed store key id ≠ none
  assembled : ∀ {store store' : σ} {key : String} {ids : List String},
    client.commitBlockList store key ids = some store' →
    client.head store' key = some (ids.map fun id =>
      ((client.uncommitted store key id).or (client.committed store key id)).getD 0).sum

structure Resumable.Documented (client : Resumable σ) : Prop where
  /-- A session leaves the object as it is until all bytes are persisted. -/
  created : ∀ {store store' : σ} {key uri : String} {total : ℕ}, 0 < total →
    client.createResumableUploadSession store key total = some (store', uri) →
    client.target store' uri = some (key, total) ∧ client.persisted store' uri = 0 ∧
      client.getBlob store' key = client.getBlob store key
  persisted : ∀ {store : σ} {key uri : String} {total : ℕ} (data : Bytes) (offset : ℕ),
    client.target store uri = some (key, total) → client.persisted store uri < total →
    client.target (client.put store uri data offset total).1 uri = some (key, total) ∧
      client.getBlob (client.put store uri data offset total).1 key =
        if client.persisted (client.put store uri data offset total).1 uri = total
          then some (some total) else client.getBlob store key

def Clients.Documented (clients : Clients σ) : Backend → Prop
  | .s3 => clients.s3.Documented
  | .azureBlob => clients.azure.Documented
  | .gcs => clients.gcs.Documented
  | .ociObjectStorage => clients.oci.Documented
  | _ => True

/-! ### The life of an upload -/

/-- The store, what staging has returned, latest first, and whether a commit was accepted. -/
structure Upload (σ : Type) where
  store : σ
  staged : List (ℤ × String)
  committed : Bool

inductive Event (σ : Type) where
  | stage (partNumber : ℤ) (data : Bytes)
  | commit (parts : List (ℤ × String))
  /-- All else that changes the store. -/
  | elsewhere (store : σ)

def life (clients : Clients σ) (session : Session) : System (Upload σ) (Event σ) where
  step u
    | .stage partNumber data =>
      match stagePart clients u.store (.session session) partNumber data session.user with
      | (store, .ok receipt) => some { u with store, staged := (receipt.part, receipt.ref) :: u.staged }
      | (store, .error _) => some { u with store }
    | .commit parts =>
      match commitUpload clients u.store (.session session) parts session.user with
      | .ok (store, _) => some { u with store, committed := true }
      | .error _ => some u
    | .elsewhere store => some { u with store }

/-- The length of the object under a key. -/
def Clients.size (clients : Clients σ) (backend : Backend) (store : σ) (key : String) : Option ℕ :=
  match backend with
  | .s3 => clients.s3.head store key
  | .azureBlob => clients.azure.head store key
  | .gcs => (clients.gcs.getBlob store key).join
  | .ociObjectStorage => clients.oci.head store key
  | _ => none

/-- Each of the numbers is listed exactly once. -/
def Exactly (parts : List (ℤ × String)) (expected : ℕ) : Prop :=
  (parts.map Prod.fst).Perm (partNumbers expected)

def Staged (staged : List (ℤ × String)) (n : ℤ) : Prop := n ∈ staged.map Prod.fst

/-- A commit is accepted when each part is listed once and was staged, and the object then has the
declared size. -/
def CommitsExactly (clients : Clients σ) (session : Session) (u : Upload σ) : Event σ → Prop
  | .commit parts =>
    ((∃ result, commitUpload clients u.store (.session session) parts session.user = .ok result) ↔
      Exactly parts session.parts ∧ ∀ n ∈ partNumbers session.parts, Staged u.staged n) ∧
    ∀ store summary,
      commitUpload clients u.store (.session session) parts session.user = .ok (store, summary) →
      clients.size session.backend store session.key = some session.total
  | _ => True

/-! ### What must not be disturbed -/

/-- No block of the key has an id of the layout, or no object of the declared size is there. -/
def Fresh (clients : Clients σ) (session : Session) (store : σ) : Prop :=
  match session.backend with
  | .azureBlob => ∀ n ∈ partNumbers session.parts,
      clients.azure.committed store session.key (azureBlockId n) = none ∧
        clients.azure.uncommitted store session.key (azureBlockId n) = none
  | .gcs => clients.gcs.getBlob store session.key ≠ some none ∧
      clients.gcs.getBlob store session.key ≠ some (some session.total)
  | _ => True

/-- The store holds the same of the upload. -/
def Same (clients : Clients σ) (session : Session) (store store' : σ) : Prop :=
  match session.backend with
  | .s3 => clients.s3.listParts store' session.key session.ref =
      clients.s3.listParts store session.key session.ref
  | .azureBlob => clients.azure.committed store' session.key =
        clients.azure.committed store session.key ∧
      clients.azure.uncommitted store' session.key = clients.azure.uncommitted store session.key
  | .gcs => clients.gcs.target store' session.ref = clients.gcs.target store session.ref ∧
      clients.gcs.persisted store' session.ref = clients.gcs.persisted store session.ref ∧
      clients.gcs.getBlob store' session.key = clients.gcs.getBlob store session.key
  | .ociObjectStorage => clients.oci.listParts store' session.key session.ref =
      clients.oci.listParts store session.key session.ref
  | _ => True

/-- GCS is sent the next part and persists the whole of it. -/
def InOrder (clients : Clients σ) (session : Session) (store : σ) (partNumber : ℤ) (data : Bytes) :
    Prop :=
  session.backend = .gcs →
    clients.gcs.persisted store session.ref = offset partNumber ∧
      clients.gcs.persisted
        (clients.gcs.put store session.ref data (offset partNumber) session.total).1 session.ref =
        offset partNumber + data.length

/-- S3 and OCI are given the tags that they returned last. -/
def SameTags (session : Session) (staged parts : List (ℤ × String)) : Prop :=
  session.backend = .s3 ∨ session.backend = .ociObjectStorage →
    ∀ p ∈ parts, ∀ etag, staged.lookup p.1 = some etag → p.2 = etag

def Undisturbed (clients : Clients σ) (session : Session) (u : Upload σ) : Event σ → Prop
  | .stage partNumber data => u.committed = false ∧
      ∀ store outcome,
        stagePart clients u.store (.session session) partNumber data session.user = (store, outcome) →
        (∀ receipt, outcome = .ok receipt → InOrder clients session u.store partNumber data) ∧
          ∀ e, outcome = .error e → Same clients session u.store store
  | .commit parts => u.committed = false ∧ SameTags session u.staged parts
  | .elsewhere store => u.committed = false → Same clients session u.store store

/-! ### The list of a commit -/

theorem collectPairs_eq_ok {pairs parts out : List (ℤ × String)}
    (hpairs : (pairs.map Prod.fst).Nodup) :
    collectPairs pairs parts = .ok out ↔
      out = pairs ++ parts ∧ ((pairs ++ parts).map Prod.fst).Nodup := by
  induction parts generalizing pairs with
  | nil =>
    rw [collectPairs, List.append_nil]
    exact ⟨fun h => ⟨(Except.ok.inj h).symm, hpairs⟩, fun h => congrArg Except.ok h.1.symm⟩
  | cons part parts ih =>
    obtain ⟨n, ref⟩ := part
    have happend : pairs ++ (n, ref) :: parts = pairs ++ [(n, ref)] ++ parts := by
      rw [List.append_assoc, List.singleton_append]
    unfold collectPairs
    by_cases hseen : n ∈ pairs.map Prod.fst
    · rw [if_pos hseen]
      refine ⟨nofun, fun h => absurd h.2 fun hnodup => ?_⟩
      rw [List.map_append, List.nodup_append] at hnodup
      exact hnodup.2.2 n hseen n List.mem_cons_self rfl
    · rw [if_neg hseen, happend]
      refine ih ?_
      rw [List.map_append, List.map_singleton]
      refine List.nodup_append.mpr ⟨hpairs, List.nodup_singleton n, fun a ha b hb hab => ?_⟩
      obtain rfl := List.mem_singleton.mp hb
      exact hseen (hab ▸ ha)

theorem nodup_partNumbers (expected : ℕ) : (partNumbers expected).Nodup :=
  List.nodup_range.map fun i j h => by omega

theorem length_partNumbers (expected : ℕ) : (partNumbers expected).length = expected := by
  rw [partNumbers, List.length_map, List.length_range]

/-- The loop of a commit passes exactly the lists with every number once. -/
theorem checkParts_eq_ok {expected : ℕ} {parts out : List (ℤ × String)} :
    checkParts expected parts = .ok out ↔ out = parts ∧ Exactly parts expected := by
  have hcollect {out : List (ℤ × String)} : collectPairs [] parts = .ok out ↔
      out = parts ∧ (parts.map Prod.fst).Nodup := collectPairs_eq_ok List.nodup_nil
  constructor
  · intro h
    obtain ⟨pairs, hpairs, hrest⟩ := Machine.bind_eq_ok h
    obtain ⟨rfl, hnodup⟩ := hcollect.mp hpairs
    dsimp only at hrest
    split at hrest
    next => cases hrest
    next hmissing =>
      by_cases hlength : pairs.length = expected
      · rw [if_neg (not_not.mpr hlength)] at hrest
        refine ⟨(Except.ok.inj hrest).symm, ?_⟩
        have hsubset : partNumbers expected ⊆ pairs.map Prod.fst := by
          intro n hn
          have hall := List.filter_eq_nil_iff.mp hmissing n hn
          rwa [decide_eq_true_eq, not_not] at hall
        have hsubperm := (nodup_partNumbers expected).subperm hsubset
        refine (hsubperm.perm_of_length_le ?_).symm
        rw [List.length_map, hlength, length_partNumbers]
      · rw [if_pos hlength] at hrest
        cases hrest
  · rintro ⟨rfl, hexactly⟩
    have hpairs := hcollect.mpr ⟨rfl, hexactly.nodup_iff.mpr (nodup_partNumbers expected)⟩
    have hmissing : (partNumbers expected).filter (· ∉ out.map Prod.fst) = [] := by
      refine List.filter_eq_nil_iff.mpr fun n hn => ?_
      rw [decide_eq_true_eq, not_not]
      exact hexactly.symm.subset hn
    have hlength : out.length = expected := by
      rw [← List.length_map Prod.fst, hexactly.length_eq, length_partNumbers]
    unfold checkParts
    rw [hpairs]
    dsimp only [bind, Except.bind]
    rw [hmissing]
    dsimp only
    rw [if_neg (not_not.mpr hlength)]
    rfl

/-- Sorting a list with every number once puts the numbers in order. -/
theorem sortedParts_numbers {expected : ℕ} {parts : List (ℤ × String)} (h : Exactly parts expected) :
    (sortedParts parts).map Prod.fst = partNumbers expected := by
  have hperm : ((sortedParts parts).map Prod.fst).Perm (partNumbers expected) :=
    ((List.mergeSort_perm parts _).map Prod.fst).trans h
  have hsorted : (sortedParts parts).Pairwise fun p q => toLex p ≤ toLex q := by
    have hle := @List.pairwise_mergeSort _ (fun p q : ℤ × String => decide (toLex p ≤ toLex q))
      (fun a b c hab hbc => decide_eq_true
        (le_trans (of_decide_eq_true hab) (of_decide_eq_true hbc)))
      (fun a b => by simpa using le_total (toLex a) (toLex b)) parts
    exact hle.imp fun h => of_decide_eq_true h
  have hascending : ((sortedParts parts).map Prod.fst).Pairwise (· ≤ ·) :=
    List.pairwise_map.mpr (hsorted.imp fun h => Prod.Lex.monotone_fst _ _ h)
  have hnumbers : (partNumbers expected).Pairwise (· ≤ ·) :=
    List.pairwise_map.mpr (List.pairwise_lt_range.imp fun h => by omega)
  exact hperm.eq_of_pairwise (fun a b _ _ => le_antisymm) hascending hnumbers

/-! ### S3 and OCI -/

variable {session : Session} {staged parts : List (ℤ × String)} {store store' : σ}

structure Session.Laid (session : Session) : Prop where
  pos : 0 < session.total
  parts : session.parts = partCount session.total

theorem staged_iff {n : ℤ} : Staged staged n ↔ ∃ ref, staged.lookup n = some ref := by
  unfold Staged
  induction staged with
  | nil => exact ⟨nofun, nofun⟩
  | cons p staged ih =>
    obtain ⟨m, ref⟩ := p
    rw [List.map_cons, List.mem_cons, List.lookup_cons]
    by_cases hm : n = m
    · rw [beq_iff_eq.mpr hm]
      exact ⟨fun _ => ⟨ref, rfl⟩, fun _ => .inl hm⟩
    · rw [beq_eq_false_iff_ne.mpr hm, ← ih]
      exact ⟨fun h => h.resolve_left hm, .inr⟩

/-- The open upload has exactly the parts that staging returned. -/
def Multipart.Holds (client : Multipart σ) (session : Session) (store : σ)
    (staged : List (ℤ × String)) : Prop :=
  client.listParts store session.key session.ref =
    some fun n => (staged.lookup n).map fun etag => (etag, expectedPartBytes session.total n)

namespace Multipart
variable {client : Multipart σ}

theorem Holds.stage (hclient : client.Documented) (h : client.Holds session store staged) {n : ℤ}
    {data : Bytes} {etag : String} (hlength : data.length = expectedPartBytes session.total n)
    (hstage : client.stage store session.key session.ref n data = (store', .ok etag)) :
    client.Holds session store' ((n, etag) :: staged) := by
  unfold Multipart.stage at hstage
  split at hstage
  next hupload =>
    obtain ⟨rfl, hok⟩ := Prod.mk.inj hstage
    obtain rfl := Except.ok.inj hok
    unfold Multipart.Holds
    rw [hclient.uploaded h hupload]
    congr 1
    funext m
    rw [List.lookup_cons]
    by_cases hm : m = n
    · rw [if_pos hm, beq_iff_eq.mpr hm, hlength, hm]
      rfl
    · rw [if_neg hm, beq_eq_false_iff_ne.mpr hm]
  next => cases congrArg Prod.snd hstage

theorem minPartBytes_le : minPartBytes ≤ partBytes := by
  unfold partBytes minPartBytes
  decide

/-- A part before the last is whole. -/
theorem expected_inner {total : ℕ} {n : ℤ} (h : n ∈ (partNumbers (partCount total)).dropLast) :
    expectedPartBytes total n = partBytes := by
  have hlt : n < partCount total := by
    have hnumbers : (partNumbers (partCount total)).dropLast = partNumbers (partCount total - 1) := by
      unfold partNumbers
      rw [← List.map_dropLast, List.dropLast_eq_take, List.take_range, List.length_range,
        Nat.min_eq_left (Nat.sub_le _ 1)]
    rw [hnumbers] at h
    have hbounds := mem_partNumbers.mp h
    omega
  exact if_pos hlt

/-- The tags listed are those of the store, as far as the numbers were staged. -/
theorem completed_iff (hclient : client.Documented) (h : client.Holds session store staged)
    (hlaid : session.Laid) (hexactly : Exactly parts session.parts)
    (htags : ∀ p ∈ parts, ∀ etag, staged.lookup p.1 = some etag → p.2 = etag) :
    (∃ store', client.completeMultipartUpload store session.key session.ref (sortedParts parts) =
      some store') ↔ ∀ n ∈ partNumbers session.parts, Staged staged n := by
  have hnumbers := sortedParts_numbers hexactly
  have hmem {p : ℤ × String} : p ∈ sortedParts parts ↔ p ∈ parts :=
    (List.mergeSort_perm parts _).mem_iff
  have hpos : 0 < session.parts := by
    rw [hlaid.parts, partCount_eq hlaid.pos]
    exact Machine.Tiling.pieces_pos partBytes_pos hlaid.pos
  have hnonempty : sortedParts parts ≠ [] := by
    intro hnil
    have hlength := congrArg List.length hnumbers
    rw [hnil, length_partNumbers] at hlength
    exact hpos.ne hlength
  have hascending : ((sortedParts parts).map Prod.fst).Pairwise (· < ·) := by
    rw [hnumbers]
    exact List.pairwise_map.mpr (List.pairwise_lt_range.imp fun h => by omega)
  rw [hclient.completed h hnonempty hascending]
  constructor
  · rintro ⟨hheld, -⟩ n hn
    rw [← hnumbers] at hn
    obtain ⟨p, hp, rfl⟩ := List.mem_map.mp hn
    obtain ⟨length, hlength⟩ := hheld p hp
    obtain ⟨etag, hetag, -⟩ := Option.map_eq_some_iff.mp hlength
    exact staged_iff.mpr ⟨etag, hetag⟩
  · intro hall
    refine ⟨fun p hp => ?_, fun p hp length hlength => ?_⟩
    · have hn : p.1 ∈ partNumbers session.parts := hnumbers ▸ List.mem_map_of_mem hp
      obtain ⟨etag, hetag⟩ := staged_iff.mp (hall p.1 hn)
      rw [hetag, htags p (hmem.mp hp) etag hetag]
      exact ⟨_, rfl⟩
    · have hinner : p.1 ∈ (partNumbers (partCount session.total)).dropLast := by
        rw [← hlaid.parts, ← hnumbers, ← List.map_dropLast]
        exact List.mem_map_of_mem hp
      obtain ⟨etag, -, hpart⟩ := Option.map_eq_some_iff.mp hlength
      rw [← (Prod.mk.inj hpart).2, expected_inner hinner]
      exact minPartBytes_le

/-- Lengths of parts that are all held add up to the size. -/
theorem sum_listed (hlaid : session.Laid) {listed : List (ℤ × String)}
    (hnumbers : listed.map Prod.fst = partNumbers session.parts) {length : ℤ × String → ℕ}
    (hlength : ∀ p ∈ listed, length p = expectedPartBytes session.total p.1) :
    (listed.map length).sum = session.total := by
  have hmap : listed.map length =
      (listed.map Prod.fst).map (expectedPartBytes session.total) := by
    rw [List.map_map]
    exact List.map_congr_left hlength
  rw [hmap, hnumbers, hlaid.parts, sum_expectedPartBytes hlaid.pos]

theorem commit_iff (hclient : client.Documented) (h : client.Holds session store staged)
    (hlaid : session.Laid) (hexactly : Exactly parts session.parts)
    (htags : ∀ p ∈ parts, ∀ etag, staged.lookup p.1 = some etag → p.2 = etag) :
    ((∃ store', client.commit store session.key session.ref parts = .ok store') ↔
      ∀ n ∈ partNumbers session.parts, Staged staged n) ∧
    ∀ store', client.commit store session.key session.ref parts = .ok store' →
      client.head store' session.key = some session.total := by
  have hiff := completed_iff hclient h hlaid hexactly htags
  unfold Multipart.commit
  cases hcomplete : client.completeMultipartUpload store session.key session.ref
      (sortedParts parts) with
  | none =>
    rw [hcomplete] at hiff
    exact ⟨⟨nofun, fun hall => nomatch (hiff.mpr hall).choose_spec⟩, nofun⟩
  | some after =>
    have hall := hiff.mp ⟨after, hcomplete⟩
    refine ⟨⟨fun _ => hall, fun _ => ⟨after, rfl⟩⟩, fun store' hok => ?_⟩
    obtain rfl := Except.ok.inj hok
    rw [hclient.assembled h hcomplete]
    refine congrArg some (sum_listed hlaid (sortedParts_numbers hexactly) fun p hp => ?_)
    have hn : p.1 ∈ partNumbers session.parts :=
      sortedParts_numbers hexactly ▸ List.mem_map_of_mem hp
    obtain ⟨etag, hetag⟩ := staged_iff.mp (hall p.1 hn)
    rw [hetag]
    rfl

end Multipart

/-! ### Azure -/

/-- Parts of a layout are few enough for eight digits. -/
theorem azureBlockId_injective {n m : ℤ} (hn : 0 ≤ n) (hm : 0 ≤ m) (hn' : n < 10 ^ 8)
    (hm' : m < 10 ^ 8) (h : azureBlockId n = azureBlockId m) : n = m := by
  have hencoded := congrArg Python.b64decode (String.ofList_injective h)
  rw [Python.b64decode_b64encode, Python.b64decode_b64encode] at hencoded
  have htext := Python.utf8Encode_injective (Option.some.inj hencoded)
  have hdigits := Python.padded_injective (by omega) (by omega) (String.ofList_injective htext)
  omega

/-- The key has the blocks that staging returned, and none from before. -/
def Blocks.Holds (client : Blocks σ) (session : Session) (store : σ)
    (staged : List (ℤ × String)) : Prop :=
  ∀ n ∈ partNumbers session.parts,
    client.committed store session.key (azureBlockId n) = none ∧
      client.uncommitted store session.key (azureBlockId n) =
        (staged.lookup n).map fun _ => expectedPartBytes session.total n

namespace Blocks
variable {client : Blocks σ}

theorem Holds.stage (hclient : client.Documented) (h : client.Holds session store staged)
    (hfew : session.parts < 10 ^ 8) {n : ℤ} (hn : n ∈ partNumbers session.parts) {data : Bytes}
    {id : String} (hlength : data.length = expectedPartBytes session.total n)
    (hstage : client.stage store session.key n data = (store', .ok id)) :
    client.Holds session store' ((n, id) :: staged) := by
  unfold Blocks.stage at hstage
  split at hstage
  next hblock =>
    obtain rfl := (Prod.mk.inj hstage).1
    obtain ⟨hcommitted, huncommitted⟩ := hclient.staged hblock
    intro m hm
    rw [hcommitted, huncommitted, List.lookup_cons]
    dsimp only
    refine ⟨(h m hm).1, ?_⟩
    have hn' := mem_partNumbers.mp hn
    have hm' := mem_partNumbers.mp hm
    by_cases hmn : m = n
    · rw [if_pos (congrArg azureBlockId hmn), beq_iff_eq.mpr hmn, hlength, hmn]
      rfl
    · have hid : azureBlockId m ≠ azureBlockId n := fun heq =>
        hmn (azureBlockId_injective (by omega) (by omega) (by omega) (by omega) heq)
      rw [if_neg hid, beq_eq_false_iff_ne.mpr hmn]
      exact (h m hm).2
  next => cases congrArg Prod.snd hstage

theorem commit_iff (hclient : client.Documented) (h : client.Holds session store staged)
    (hlaid : session.Laid) (hexactly : Exactly parts session.parts) :
    ((∃ store', client.commit store session.key parts = .ok store') ↔
      ∀ n ∈ partNumbers session.parts, Staged staged n) ∧
    ∀ store', client.commit store session.key parts = .ok store' →
      client.head store' session.key = some session.total := by
  have hnumbers := sortedParts_numbers hexactly
  have hiff : (∃ store', client.commitBlockList store session.key
      ((sortedParts parts).map fun p => azureBlockId p.1) = some store') ↔
      ∀ n ∈ partNumbers session.parts, Staged staged n := by
    rw [hclient.accepted, ← hnumbers, List.forall_mem_map, List.forall_mem_map]
    refine forall₂_congr fun p hp => ?_
    have hn : p.1 ∈ partNumbers session.parts := hnumbers ▸ List.mem_map_of_mem hp
    obtain ⟨hcommitted, huncommitted⟩ := h p.1 hn
    rw [hcommitted, huncommitted, staged_iff, or_iff_left (fun hne => hne rfl), Ne,
      Option.map_eq_none_iff, ← Ne, Option.ne_none_iff_exists']
  unfold Blocks.commit
  cases hcommit : client.commitBlockList store session.key
      ((sortedParts parts).map fun p => azureBlockId p.1) with
  | none =>
    rw [hcommit] at hiff
    exact ⟨⟨nofun, fun hall => nomatch (hiff.mpr hall).choose_spec⟩, nofun⟩
  | some after =>
    have hall := hiff.mp ⟨after, hcommit⟩
    refine ⟨⟨fun _ => hall, fun _ => ⟨after, rfl⟩⟩, fun store' hok => ?_⟩
    obtain rfl := Except.ok.inj hok
    rw [hclient.assembled hcommit, List.map_map]
    refine congrArg some (Multipart.sum_listed hlaid hnumbers fun p hp => ?_)
    have hn : p.1 ∈ partNumbers session.parts := hnumbers ▸ List.mem_map_of_mem hp
    obtain ⟨etag, hetag⟩ := staged_iff.mp (hall p.1 hn)
    rw [Function.comp_apply, (h p.1 hn).2, hetag]
    rfl

end Blocks

/-! ### GCS -/

/-- The session has the parts up to some number, all of them and nothing else, and the key has the
object when these are all. -/
structure Resumable.Holds (client : Resumable σ) (session : Session) (store : σ)
    (staged : List (ℤ × String)) (m : ℕ) : Prop where
  count : m ≤ session.parts
  staged : ∀ n, Staged staged n ↔ n ∈ partNumbers m
  target : client.target store session.ref = some (session.key, session.total)
  persisted : client.persisted store session.ref = min (m * partBytes) session.total
  finished : m = session.parts → client.getBlob store session.key = some (some session.total)
  unfinished : m ≠ session.parts → client.getBlob store session.key ≠ some none ∧
    client.getBlob store session.key ≠ some (some session.total)

namespace Resumable
variable {client : Resumable σ} {m : ℕ}

theorem Holds.stage (hclient : client.Documented) (hlaid : session.Laid)
    (h : client.Holds session store staged m) {n : ℤ} (hn : n ∈ partNumbers session.parts)
    {data : Bytes} {ref : String} (hlength : data.length = expectedPartBytes session.total n)
    (horder : client.persisted store session.ref = offset n)
    (hwhole : client.persisted (client.put store session.ref data (offset n) session.total).1
      session.ref = offset n + data.length) :
    client.Holds session (client.put store session.ref data (offset n) session.total).1
      ((n, ref) :: staged) (m + 1) := by
  obtain ⟨i, rfl, hi⟩ := exists_index hn
  rw [hlaid.parts] at hi
  rw [expectedPartBytes_succ hlaid.pos hi] at hlength
  rw [offset_succ] at horder hwhole ⊢
  have hcount := partCount_eq hlaid.pos
  have hbefore : i * partBytes < session.total :=
    (Machine.Tiling.lt_pieces partBytes_pos).mp (hcount ▸ hi)
  have hindex : i = m :=
    Machine.Tiling.covered_injective partBytes_pos hbefore (horder.symm.trans h.persisted)
  subst hindex
  have hincomplete : client.persisted store session.ref < session.total := horder ▸ hbefore
  obtain ⟨htarget, hblob⟩ := hclient.persisted data (i * partBytes) h.target hincomplete
  have hnow : client.persisted (client.put store session.ref data (i * partBytes) session.total).1
      session.ref = min ((i + 1) * partBytes) session.total := by
    rw [hwhole, hlength, Machine.Tiling.covered_succ hbefore]
  have hlast : min ((i + 1) * partBytes) session.total = session.total ↔ i + 1 = session.parts := by
    rw [Machine.Tiling.covered_total partBytes_pos, hlaid.parts, hcount]
    rw [hcount] at hi
    exact ⟨fun hle => le_antisymm hi hle, fun heq => heq.ge⟩
  rw [hnow] at hblob
  refine ⟨?_, fun k => ?_, htarget, hnow, fun heq => ?_, fun hne => ?_⟩
  · rw [hlaid.parts]
    exact hi
  · have hk : Staged (((i : ℤ) + 1, ref) :: staged) k ↔ k = (i : ℤ) + 1 ∨ Staged staged k :=
      List.mem_cons
    rw [hk, h.staged k, mem_partNumbers, mem_partNumbers]
    omega
  · rw [hblob, if_pos (hlast.mpr heq)]
  · rw [hblob, if_neg (fun heq => hne (hlast.mp heq))]
    refine h.unfinished ?_
    rw [hlaid.parts]
    exact hi.ne

theorem commit_iff (h : client.Holds session store staged m) :
    ((∃ store', client.commit store session.key session.total = .ok store') ↔
      ∀ n ∈ partNumbers session.parts, Staged staged n) ∧
    ∀ store', client.commit store session.key session.total = .ok store' →
      (client.getBlob store' session.key).join = some session.total := by
  have hall : (∀ n ∈ partNumbers session.parts, Staged staged n) ↔ m = session.parts := by
    have hle := h.count
    constructor
    · intro hstaged
      by_contra hne
      have hlast := (h.staged session.parts).mp
        (hstaged session.parts (mem_partNumbers.mpr (by omega)))
      have hbounds := mem_partNumbers.mp hlast
      omega
    · rintro rfl n hn
      exact (h.staged n).mpr hn
  rw [hall]
  unfold Resumable.commit
  by_cases hm : m = session.parts
  · rw [h.finished hm]
    dsimp only
    rw [if_neg (not_not.mpr rfl)]
    refine ⟨⟨fun _ => hm, fun _ => ⟨store, rfl⟩⟩, fun store' hok => ?_⟩
    obtain rfl := Except.ok.inj hok
    rw [h.finished hm]
    rfl
  · obtain ⟨hsized, hother⟩ := h.unfinished hm
    have hrefused : ∀ store', client.commit store session.key session.total ≠ .ok store' := by
      intro store' hok
      unfold Resumable.commit at hok
      split at hok
      next => cases hok
      next hblob => exact hsized hblob
      next size hblob =>
        split at hok
        next => cases hok
        next heq =>
          rw [not_not.mp heq] at hblob
          exact hother hblob
    refine ⟨⟨fun ⟨store', hok⟩ => absurd hok (hrefused store'), fun heq => absurd heq hm⟩, ?_⟩
    exact fun store' hok => absurd hok (hrefused store')

end Resumable

/-! ### A session from its beginning -/

variable {clients : Clients σ} {backend : Backend}

def Holds (clients : Clients σ) (session : Session) (store : σ) (staged : List (ℤ × String)) : Prop :=
  match session.backend with
  | .s3 => clients.s3.Holds session store staged
  | .azureBlob => clients.azure.Holds session store staged
  | .gcs => ∃ m, clients.gcs.Holds session store staged m
  | .ociObjectStorage => clients.oci.Holds session store staged
  | _ => False

theorem partCount_le {total : ℕ} (h : total ≤ maxChunkedUploadBytes) : partCount total ≤ 640 := by
  have hmax : maxChunkedUploadBytes ≤ partBytes * 640 := by
    unfold maxChunkedUploadBytes partBytes
    decide
  have hceil : total ⌈/⌉ partBytes ≤ 640 := (ceilDiv_le_iff_le_mul partBytes_pos).mpr (h.trans hmax)
  exact Nat.max_le.mpr ⟨by decide, hceil⟩

structure Begun (clients : Clients σ) (backend : Backend) (store : σ) (session : Session)
    (opened : σ) : Prop where
  chosen : session.backend = backend
  laid : session.Laid
  few : session.parts ≤ 640
  ref : opBegin clients backend store session.key session.total = .ok (opened, session.ref)

theorem begun {folder name username : String} {totalBytes : ℤ} {opened : σ}
    (h : beginUpload clients backend store folder name totalBytes username = .ok (opened, session)) :
    Begun clients backend store session opened := by
  unfold beginUpload at h
  obtain ⟨-, h⟩ := Machine.raiseIf_eq_ok h
  obtain ⟨_, -, h⟩ := Machine.bind_eq_ok h
  obtain ⟨hpos, h⟩ := Machine.raiseIf_eq_ok h
  obtain ⟨hmax, h⟩ := Machine.raiseIf_eq_ok h
  obtain ⟨⟨opened', ref⟩, hbegin, h⟩ := Machine.bind_eq_ok h
  obtain ⟨rfl, rfl⟩ := Prod.mk.inj (Except.ok.inj h)
  refine ⟨rfl, ⟨?_, rfl⟩, partCount_le ?_, hbegin⟩
  · dsimp only
    omega
  · omega

theorem Multipart.Holds.begin {client : Multipart σ} (hclient : client.Documented) {opened : σ}
    (h : client.begin store session.key = .ok (opened, session.ref)) :
    client.Holds session opened [] := by
  unfold Multipart.begin at h
  split at h
  next hcreate =>
    obtain ⟨rfl, rfl⟩ := Prod.mk.inj (Except.ok.inj h)
    exact hclient.created hcreate
  next => cases h

theorem Resumable.Holds.begin {client : Resumable σ} (hclient : client.Documented) {opened : σ}
    (hlaid : session.Laid)
    (h : client.begin store session.key session.total = .ok (opened, session.ref))
    (hsized : client.getBlob store session.key ≠ some none)
    (hother : client.getBlob store session.key ≠ some (some session.total)) :
    client.Holds session opened [] 0 := by
  unfold Resumable.begin at h
  split at h
  next hcreate =>
    obtain ⟨rfl, rfl⟩ := Prod.mk.inj (Except.ok.inj h)
    obtain ⟨htarget, hpersisted, hblob⟩ := hclient.created hlaid.pos hcreate
    have hpos : 0 < session.parts := by
      rw [hlaid.parts, partCount_eq hlaid.pos]
      exact Machine.Tiling.pieces_pos partBytes_pos hlaid.pos
    refine ⟨Nat.zero_le _, fun n => ⟨nofun, nofun⟩, htarget, ?_, fun heq => absurd heq hpos.ne,
      fun _ => ⟨?_, ?_⟩⟩
    · rw [hpersisted, Nat.zero_mul, Nat.zero_min]
    · rwa [hblob]
    · rwa [hblob]
  next => cases h

theorem Begun.holds {opened : σ} (h : Begun clients backend store session opened)
    (hclients : clients.Documented backend) (hfresh : Fresh clients session store) :
    Holds clients session opened [] := by
  obtain ⟨rfl, hlaid, -, hbegin⟩ := h
  unfold Holds
  unfold Fresh at hfresh
  unfold Clients.Documented at hclients
  unfold opBegin at hbegin
  cases hbackend : session.backend with
  | s3 =>
    rw [hbackend] at hbegin hclients
    exact Multipart.Holds.begin hclients hbegin
  | ociObjectStorage =>
    rw [hbackend] at hbegin hclients
    exact Multipart.Holds.begin hclients hbegin
  | azureBlob =>
    rw [hbackend] at hbegin hfresh
    obtain rfl := (Prod.mk.inj (Except.ok.inj hbegin)).1
    exact fun n hn => hfresh n hn
  | gcs =>
    rw [hbackend] at hbegin hclients hfresh
    exact ⟨0, Resumable.Holds.begin hclients hlaid hbegin hfresh.1 hfresh.2⟩
  | localPath =>
    rw [hbackend] at hbegin
    cases hbegin
  | agentLocal =>
    rw [hbackend] at hbegin
    cases hbegin

/-! ### The steps of an upload -/

theorem decodeHandle_self (session : Session) :
    decodeHandle (.session session) session.user = .ok session :=
  if_neg fun h => h.2.2 rfl

/-- Staging accepts exactly the parts of the layout. -/
theorem checkPart_eq_ok {n : ℤ} {data : Bytes} {start : ℕ} :
    checkPart session n data = .ok start ↔ start = offset n ∧ n ∈ partNumbers session.parts ∧
      data.length = expectedPartBytes session.total n := by
  unfold checkPart
  rw [mem_partNumbers]
  by_cases hn : 1 ≤ n ∧ n ≤ session.parts
  · rw [if_neg (not_not.mpr hn)]
    dsimp only
    by_cases hlength : data.length = expectedPartBytes session.total n
    · rw [if_neg (not_not.mpr hlength)]
      exact ⟨fun h => ⟨(Except.ok.inj h).symm, hn, hlength⟩, fun h => congrArg Except.ok h.1.symm⟩
    · rw [if_pos hlength]
      exact ⟨nofun, fun h => absurd h.2.2 hlength⟩
  · rw [if_pos hn]
    exact ⟨nofun, fun h => absurd h.2.1 hn⟩

theorem stagePart_eq {n : ℤ} {data : Bytes} (clients : Clients σ) (store : σ)
    (hn : n ∈ partNumbers session.parts) (hlength : data.length = expectedPartBytes session.total n) :
    stagePart clients store (.session session) n data session.user =
      match opStage clients session store n data (offset n) with
      | (store, .error e) => (store, .error e)
      | (store, .ok ref) => (store, .ok ⟨n, ref, data.length⟩) := by
  unfold stagePart
  rw [decodeHandle_self]
  have hcheck := checkPart_eq_ok.mpr ⟨rfl, hn, hlength⟩
  dsimp only
  generalize checkPart session n data = checked at hcheck ⊢
  subst hcheck
  rfl

theorem stagePart_ok {n : ℤ} {data : Bytes} {receipt : Receipt}
    (h : stagePart clients store (.session session) n data session.user = (store', .ok receipt)) :
    n ∈ partNumbers session.parts ∧ data.length = expectedPartBytes session.total n ∧
      receipt.part = n ∧
      opStage clients session store n data (offset n) = (store', .ok receipt.ref) := by
  have hlayout : n ∈ partNumbers session.parts ∧
      data.length = expectedPartBytes session.total n := by
    unfold stagePart at h
    rw [decodeHandle_self] at h
    dsimp only at h
    cases hcheck : checkPart session n data with
    | error e =>
      rw [hcheck] at h
      cases congrArg Prod.snd h
    | ok start => exact (checkPart_eq_ok.mp hcheck).2
  obtain ⟨hn, hlength⟩ := hlayout
  rw [stagePart_eq clients store hn hlength] at h
  split at h
  next => cases congrArg Prod.snd h
  next after ref hstage =>
    obtain ⟨rfl, hok⟩ := Prod.mk.inj h
    obtain rfl := Except.ok.inj hok
    exact ⟨hn, hlength, rfl, hstage⟩

theorem Holds.stage (hclients : clients.Documented session.backend) (hlaid : session.Laid)
    (hfew : session.parts ≤ 640) (h : Holds clients session store staged) {n : ℤ} {data : Bytes}
    {ref : String} (hn : n ∈ partNumbers session.parts)
    (hlength : data.length = expectedPartBytes session.total n)
    (horder : InOrder clients session store n data)
    (hstage : opStage clients session store n data (offset n) = (store', .ok ref)) :
    Holds clients session store' ((n, ref) :: staged) := by
  unfold Holds at h ⊢
  unfold Clients.Documented at hclients
  unfold opStage at hstage
  cases hbackend : session.backend with
  | s3 =>
    rw [hbackend] at hclients h hstage
    exact Multipart.Holds.stage hclients h hlength hstage
  | ociObjectStorage =>
    rw [hbackend] at hclients h hstage
    exact Multipart.Holds.stage hclients h hlength hstage
  | azureBlob =>
    rw [hbackend] at hclients h hstage
    exact Blocks.Holds.stage hclients h (by omega) hn hlength hstage
  | gcs =>
    rw [hbackend] at hclients h hstage
    obtain ⟨m, h⟩ := h
    obtain ⟨hbefore, hwhole⟩ := horder hbackend
    have hstore : (clients.gcs.put store session.ref data (offset n) session.total).1 = store' := by
      dsimp only [Resumable.stage] at hstage
      split at hstage
      · exact (Prod.mk.inj hstage).1
      · cases (Prod.mk.inj hstage).2
    exact ⟨m + 1, hstore ▸ Resumable.Holds.stage hclients hlaid h hn hlength hbefore hwhole⟩
  | localPath =>
    rw [hbackend] at h
    exact h.elim
  | agentLocal =>
    rw [hbackend] at h
    exact h.elim

theorem Holds.same (h : Holds clients session store staged)
    (hsame : Same clients session store store') : Holds clients session store' staged := by
  unfold Holds at h ⊢
  unfold Same at hsame
  cases hbackend : session.backend with
  | s3 =>
    rw [hbackend] at h hsame
    exact hsame.trans h
  | ociObjectStorage =>
    rw [hbackend] at h hsame
    exact hsame.trans h
  | azureBlob =>
    rw [hbackend] at h hsame
    intro n hn
    rw [hsame.1, hsame.2]
    exact h n hn
  | gcs =>
    rw [hbackend] at h hsame
    obtain ⟨m, h⟩ := h
    obtain ⟨htarget, hpersisted, hblob⟩ := hsame
    exact ⟨m, h.count, h.staged, htarget.trans h.target, hpersisted.trans h.persisted,
      fun hm => hblob.trans (h.finished hm), fun hm => hblob ▸ h.unfinished hm⟩
  | localPath =>
    rw [hbackend] at h
    exact h.elim
  | agentLocal =>
    rw [hbackend] at h
    exact h.elim

theorem Holds.opCommit (hclients : clients.Documented session.backend) (hlaid : session.Laid)
    (h : Holds clients session store staged) (hexactly : Exactly parts session.parts)
    (htags : SameTags session staged parts) :
    ((∃ store', opCommit clients session store parts = .ok store') ↔
      ∀ n ∈ partNumbers session.parts, Staged staged n) ∧
    ∀ store', opCommit clients session store parts = .ok store' →
      clients.size session.backend store' session.key = some session.total := by
  unfold Holds at h
  unfold Clients.Documented at hclients
  unfold Chunked.opCommit Clients.size
  cases hbackend : session.backend with
  | s3 =>
    rw [hbackend] at hclients h
    exact Multipart.commit_iff hclients h hlaid hexactly (htags (.inl hbackend))
  | ociObjectStorage =>
    rw [hbackend] at hclients h
    exact Multipart.commit_iff hclients h hlaid hexactly (htags (.inr hbackend))
  | azureBlob =>
    rw [hbackend] at hclients h
    exact Blocks.commit_iff hclients h hlaid hexactly
  | gcs =>
    rw [hbackend] at h
    obtain ⟨m, h⟩ := h
    exact Resumable.commit_iff h
  | localPath =>
    rw [hbackend] at h
    exact h.elim
  | agentLocal =>
    rw [hbackend] at h
    exact h.elim

theorem commitUpload_eq_ok {result : σ × Summary} :
    commitUpload clients store (.session session) parts session.user = .ok result ↔
      Exactly parts session.parts ∧ opCommit clients session store parts = .ok result.1 ∧
        result.2 = ⟨session.name, session.backend, session.total, session.parts⟩ := by
  unfold commitUpload
  rw [decodeHandle_self]
  dsimp only [bind, Except.bind]
  constructor
  · intro h
    cases hcheck : checkParts session.parts parts with
    | error e =>
      rw [hcheck] at h
      cases h
    | ok pairs =>
      obtain ⟨rfl, hexactly⟩ := checkParts_eq_ok.mp hcheck
      rw [hcheck] at h
      dsimp only at h
      cases hcommit : opCommit clients session store pairs with
      | error e =>
        rw [hcommit] at h
        cases h
      | ok after =>
        rw [hcommit] at h
        obtain rfl := Except.ok.inj h
        exact ⟨hexactly, rfl, rfl⟩
  · rintro ⟨hexactly, hcommit, hsummary⟩
    rw [checkParts_eq_ok.mpr ⟨rfl, hexactly⟩]
    dsimp only
    rw [hcommit]
    obtain ⟨after, summary⟩ := result
    obtain rfl := hsummary
    rfl

def Upload.Sound (clients : Clients σ) (session : Session) (u : Upload σ) : Prop :=
  u.committed = false → Holds clients session u.store u.staged

/-- What a step keeps, and what a commit among them answers. -/
theorem Upload.Sound.step (hclients : clients.Documented session.backend) (hlaid : session.Laid)
    (hfew : session.parts ≤ 640) {u u' : Upload σ} (h : u.Sound clients session) {event : Event σ}
    (hundisturbed : Undisturbed clients session u event)
    (hstep : (life clients session).step u event = some u') :
    u'.Sound clients session ∧ CommitsExactly clients session u event := by
  cases event with
  | elsewhere store =>
    obtain rfl := Option.some.inj hstep
    exact ⟨fun hopen => (h hopen).same (hundisturbed hopen), trivial⟩
  | stage n data =>
    refine ⟨fun _ => ?_, trivial⟩
    obtain ⟨hopen, hquiet⟩ := hundisturbed
    dsimp only [life] at hstep
    split at hstep
    next store receipt hstage =>
      obtain rfl := Option.some.inj hstep
      obtain ⟨hn, hlength, hpart, hop⟩ := stagePart_ok hstage
      have horder := (hquiet store _ hstage).1 receipt rfl
      dsimp only
      rw [hpart]
      exact (h hopen).stage hclients hlaid hfew hn hlength horder hop
    next store e hstage =>
      obtain rfl := Option.some.inj hstep
      exact (h hopen).same ((hquiet store _ hstage).2 e rfl)
  | commit parts =>
    obtain ⟨hopen, htags⟩ := hundisturbed
    refine ⟨fun hstill => ?_, ?_, fun store summary hok => ?_⟩
    · dsimp only [life] at hstep
      split at hstep
      · obtain rfl := Option.some.inj hstep
        cases hstill
      · obtain rfl := Option.some.inj hstep
        exact h hopen
    · constructor
      · rintro ⟨result, hok⟩
        obtain ⟨hexactly, hcommit, -⟩ := commitUpload_eq_ok.mp hok
        exact ⟨hexactly,
          ((h hopen).opCommit hclients hlaid hexactly htags).1.mp ⟨result.1, hcommit⟩⟩
      · rintro ⟨hexactly, hall⟩
        obtain ⟨after, hcommit⟩ := ((h hopen).opCommit hclients hlaid hexactly htags).1.mpr hall
        exact ⟨(after, _), commitUpload_eq_ok.mpr ⟨hexactly, hcommit, rfl⟩⟩
    · obtain ⟨hexactly, hcommit, -⟩ := commitUpload_eq_ok.mp hok
      exact ((h hopen).opCommit hclients hlaid hexactly htags).2 store hcommit

/-! ### Uploads in parts -/

/-- The layout tiles every size, staging accepts its parts only, and an upload that nothing disturbs
is committed exactly when its parts are listed once each and were staged. -/
theorem chunked_upload (clients : Clients σ) :
    (∀ total, 1 ≤ total → total ≤ maxChunkedUploadBytes → Tiles total) ∧
    (∀ session n data start, checkPart session n data = .ok start ↔ start = offset n ∧
      n ∈ partNumbers session.parts ∧ data.length = expectedPartBytes session.total n) ∧
    ∀ (backend : Backend) (store opened : σ) (folder name username : String) (totalBytes : ℤ)
      (session : Session), clients.Documented backend →
      beginUpload clients backend store folder name totalBytes username = .ok (opened, session) →
      Fresh clients session store → ∀ run : List (Event σ),
      (life clients session).Along (Undisturbed clients session) ⟨opened, [], false⟩ run →
      (life clients session).Along (CommitsExactly clients session) ⟨opened, [], false⟩ run := by
  refine ⟨fun total hone _ => tiles hone, fun session n data start => checkPart_eq_ok, ?_⟩
  intro backend store opened folder name username totalBytes session hclients hbegin hfresh run hrun
  have hbegun := begun hbegin
  have hstart : Upload.Sound clients session ⟨opened, [], false⟩ :=
    fun _ => hbegun.holds hclients hfresh
  obtain rfl := hbegun.chosen
  exact (life clients session).along_of_along (fun _ _ _ h hundisturbed hstep =>
    h.step hclients hbegun.laid hbegun.few hundisturbed hstep) hstart hrun

/-! ### A store that behaves as documented -/

/-- Objects with their lengths, open multipart uploads, blocks, and resumable sessions with their key,
size and what is persisted. -/
structure Bucket where
  objects : String → Option ℕ
  uploads : String × String → Option (ℤ → Option (String × ℕ))
  committed : String → String → Option ℕ
  uncommitted : String → String → Option ℕ
  sessions : String → Option (String × ℕ × ℕ)
  opened : ℕ

namespace Bucket

def empty : Bucket :=
  ⟨fun _ => none, fun _ => none, fun _ _ => none, fun _ _ => none, fun _ => none, 0⟩

def fits (held : ℤ → Option (String × ℕ)) (listed : List (ℤ × String)) : Bool :=
  (listed.all fun p => (held p.1).any fun e => e.1 == p.2) &&
    listed.dropLast.all fun p => (held p.1).all fun e => minPartBytes ≤ e.2

def multipart : Multipart Bucket where
  createMultipartUpload b key :=
    some ({ b with
      uploads := Function.update b.uploads (key, toString b.opened) (some fun _ => none)
      opened := b.opened + 1 }, toString b.opened)
  uploadPart b key uploadId part data :=
    match b.uploads (key, uploadId) with
    | none => (b, none)
    | some held =>
      ({ b with uploads := Function.update b.uploads (key, uploadId) (some fun n =>
          if n = part then some (toString part, data.length) else held n) }, some (toString part))
  completeMultipartUpload b key uploadId listed :=
    match b.uploads (key, uploadId) with
    | none => none
    | some held =>
      if fits held listed then
        some { b with
          objects := Function.update b.objects key
            (some (listed.map fun p => (held p.1).elim 0 Prod.snd).sum)
          uploads := Function.update b.uploads (key, uploadId) none }
      else none
  listParts b key uploadId := b.uploads (key, uploadId)
  head b key := b.objects key

theorem fits_iff {held : ℤ → Option (String × ℕ)} {listed : List (ℤ × String)} :
    fits held listed = true ↔ (∀ p ∈ listed, ∃ length, held p.1 = some (p.2, length)) ∧
      ∀ p ∈ listed.dropLast, ∀ length, held p.1 = some (p.2, length) → minPartBytes ≤ length := by
  have htag {p : ℤ × String} : ((held p.1).any fun e => e.1 == p.2) = true ↔
      ∃ length, held p.1 = some (p.2, length) := by
    cases held p.1 with
    | none => exact ⟨nofun, nofun⟩
    | some e =>
      obtain ⟨etag, length⟩ := e
      rw [Option.any_some, beq_iff_eq]
      constructor
      · rintro rfl
        exact ⟨length, rfl⟩
      · rintro ⟨_, h⟩
        exact (Prod.mk.inj (Option.some.inj h)).1
  unfold fits
  rw [Bool.and_eq_true, List.all_eq_true, List.all_eq_true, forall₂_congr fun p _ => htag]
  refine and_congr_right fun hall => forall₂_congr fun p hp => ?_
  obtain ⟨length, hlength⟩ := hall p (List.dropLast_subset _ hp)
  rw [hlength, Option.all_some, decide_eq_true_iff]
  constructor
  · rintro hle length' h
    rwa [← (Prod.mk.inj (Option.some.inj h)).2]
  · exact fun h => h length rfl

theorem multipart_documented : multipart.Documented where
  created h := by
    obtain ⟨rfl, rfl⟩ := Prod.mk.inj (Option.some.inj h)
    exact Function.update_self _ _ _
  uploaded hheld h := by
    dsimp only [multipart] at hheld h ⊢
    rw [hheld] at h
    obtain ⟨rfl, htag⟩ := Prod.mk.inj h
    obtain rfl := Option.some.inj htag
    exact Function.update_self _ _ _
  completed hheld _ _ := by
    dsimp only [multipart] at hheld ⊢
    rw [hheld, ← fits_iff]
    dsimp only
    split
    next hfits => exact ⟨fun _ => hfits, fun _ => ⟨_, rfl⟩⟩
    next hfits => exact ⟨nofun, fun h => absurd h hfits⟩
  assembled hheld h := by
    dsimp only [multipart] at hheld h ⊢
    rw [hheld] at h
    dsimp only at h
    split at h
    next =>
      obtain rfl := Option.some.inj h
      exact Function.update_self _ _ _
    next => cases h

/-- The latest block of an id. -/
def block (b : Bucket) (key id : String) : Option ℕ := (b.uncommitted key id).or (b.committed key id)

def blocks : Blocks Bucket where
  stageBlock b key blockId data :=
    ({ b with uncommitted := Function.update b.uncommitted key fun id =>
        if id = blockId then some data.length else b.uncommitted key id }, true)
  commitBlockList b key ids :=
    if ids.all fun id => (b.block key id).isSome then
      some { b with
        objects := Function.update b.objects key
          (some (ids.map fun id => (b.block key id).getD 0).sum)
        committed := Function.update b.committed key fun id =>
          if id ∈ ids then b.block key id else none
        uncommitted := Function.update b.uncommitted key fun _ => none }
    else none
  committed b := b.committed
  uncommitted b := b.uncommitted
  head b key := b.objects key

theorem blocks_documented : blocks.Documented where
  staged h := by
    obtain rfl := (Prod.mk.inj h).1
    exact ⟨rfl, Function.update_self _ _ _⟩
  accepted {store key ids} := by
    have hall : (ids.all fun id => (store.block key id).isSome) = true ↔
        ∀ id ∈ ids, store.uncommitted key id ≠ none ∨ store.committed key id ≠ none := by
      rw [List.all_eq_true]
      refine forall₂_congr fun id _ => ?_
      rw [block, Option.isSome_or, Bool.or_eq_true, Option.isSome_iff_ne_none,
        Option.isSome_iff_ne_none]
    dsimp only [blocks]
    rw [← hall]
    split
    next h => exact ⟨fun _ => h, fun _ => ⟨_, rfl⟩⟩
    next h => exact ⟨nofun, fun hall => absurd hall h⟩
  assembled h := by
    dsimp only [blocks] at h ⊢
    split at h
    next =>
      obtain rfl := Option.some.inj h
      exact Function.update_self _ _ _
    next => cases h

/-- A range that starts where the persisted ones end is persisted whole. -/
def put (b : Bucket) (uri : String) (data : Bytes) (offset : ℕ) : Bucket × ℕ × String :=
  match b.sessions uri with
  | none => (b, 404, "")
  | some (key, size, persisted) =>
    if offset ≠ persisted ∨ size < offset + data.length then (b, 503, "")
    else
      let after := persisted + data.length
      let sessions := Function.update b.sessions uri (some (key, size, after))
      if after = size then
        ({ b with sessions, objects := Function.update b.objects key (some size) }, 200, "")
      else ({ b with sessions }, 308, "")

def resumable : Resumable Bucket where
  createResumableUploadSession b key total :=
    some ({ b with
      sessions := Function.update b.sessions (toString b.opened) (some (key, total, 0))
      opened := b.opened + 1 }, toString b.opened)
  put b uri data offset _ := b.put uri data offset
  getBlob b key := (b.objects key).map some
  target b uri := (b.sessions uri).map fun s => (s.1, s.2.1)
  persisted b uri := ((b.sessions uri).map fun s => s.2.2).getD 0

theorem put_cases {b : Bucket} {uri key : String} {size persisted : ℕ} (data : Bytes) (offset : ℕ)
    (h : b.sessions uri = some (key, size, persisted)) (hless : persisted < size) :
    ∃ after, (b.put uri data offset).1.sessions uri = some (key, size, after) ∧
      (b.put uri data offset).1.objects key = if after = size then some size else b.objects key := by
  unfold put
  rw [h]
  dsimp only
  by_cases hrefused : offset ≠ persisted ∨ size < offset + data.length
  · rw [if_pos hrefused]
    exact ⟨persisted, h, (if_neg hless.ne).symm⟩
  · rw [if_neg hrefused]
    refine ⟨persisted + data.length, ?_⟩
    by_cases hlast : persisted + data.length = size
    · rw [if_pos hlast, if_pos hlast]
      exact ⟨Function.update_self _ _ _, Function.update_self _ _ _⟩
    · rw [if_neg hlast, if_neg hlast]
      exact ⟨Function.update_self _ _ _, rfl⟩

theorem resumable_documented : resumable.Documented where
  created _ h := by
    obtain ⟨rfl, rfl⟩ := Prod.mk.inj (Option.some.inj h)
    dsimp only [resumable]
    rw [Function.update_self]
    exact ⟨rfl, rfl, rfl⟩
  persisted {store key uri total} data offset htarget hless := by
    obtain ⟨⟨key', size, persisted⟩, hsession, hpair⟩ := Option.map_eq_some_iff.mp htarget
    obtain ⟨rfl, rfl⟩ := Prod.mk.inj hpair
    have hbefore : resumable.persisted store uri = persisted := congrArg (fun s : Option _ =>
      (s.map fun s : String × ℕ × ℕ => s.2.2).getD 0) hsession
    obtain ⟨after, hafter, hobject⟩ := put_cases data offset hsession (hbefore ▸ hless)
    have hnow : resumable.persisted (resumable.put store uri data offset size).1 uri = after :=
      congrArg (fun s : Option _ => (s.map fun s : String × ℕ × ℕ => s.2.2).getD 0) hafter
    have hblob : resumable.getBlob (resumable.put store uri data offset size).1 key' =
        (if after = size then some size else store.objects key').map some :=
      congrArg (Option.map some) hobject
    refine ⟨congrArg (Option.map fun s : String × ℕ × ℕ => (s.1, s.2.1)) hafter, ?_⟩
    rw [hnow, hblob]
    split
    · rfl
    · rfl

end Bucket

def bucket : Clients Bucket := ⟨Bucket.multipart, Bucket.blocks, Bucket.resumable, Bucket.multipart⟩

theorem bucket_documented (backend : Backend) : bucket.Documented backend := by
  cases backend with
  | s3 => exact Bucket.multipart_documented
  | azureBlob => exact Bucket.blocks_documented
  | gcs => exact Bucket.resumable_documented
  | ociObjectStorage => exact Bucket.multipart_documented
  | localPath => trivial
  | agentLocal => trivial

/-! ### Five bytes on GCS -/

def sampleSession : Session := ⟨.gcs, "setup.sh", "assets/setup.sh", "0", 5, 1, "alice"⟩

/-- The bucket with the session, and with what was there before. -/
def sampleOpened (before : Bucket) : Bucket :=
  { before with
    sessions := Function.update before.sessions "0" (some ("assets/setup.sh", 5, 0))
    opened := 1 }

theorem sample_begun {before : Bucket} (h : before.opened = 0) :
    beginUpload bucket .gcs before "assets" "setup.sh" 5 "alice" =
      .ok (sampleOpened before, sampleSession) := by
  have hcheck : checkUpload "setup.sh" = .ok () := by decide +kernel
  have hcount : partCount 5 = 1 := by decide +kernel
  have hmax : ¬(maxChunkedUploadBytes : ℤ) < 5 := by decide +kernel
  have hkey : "assets" ++ "/" ++ "setup.sh" = "assets/setup.sh" := by decide
  have htoNat : (5 : ℤ).toNat = 5 := rfl
  have hlane : ¬¬supportsChunkedUpload .gcs = true := not_not.mpr rfl
  have hpos : ¬(5 : ℤ) ≤ 0 := by decide
  unfold beginUpload
  dsimp only
  rw [if_neg hlane, hcheck]
  dsimp only [bind, Except.bind]
  rw [if_neg hpos, if_neg hmax]
  dsimp only [opBegin, Resumable.begin, bucket, Bucket.resumable]
  rw [h, hkey, htoNat, hcount]
  rfl

/-- With the five bytes. -/
def sampleStaged : Bucket :=
  { sampleOpened Bucket.empty with
    sessions := Function.update (sampleOpened Bucket.empty).sessions "0"
      (some ("assets/setup.sh", 5, 5))
    objects := Function.update Bucket.empty.objects "assets/setup.sh" (some 5) }

theorem sample_put : (sampleOpened Bucket.empty).put "0" [1, 2, 3, 4, 5] (offset 1) =
    (sampleStaged, 200, "") := by
  rw [offset_one]
  rfl

theorem sample_stage :
    stagePart bucket (sampleOpened Bucket.empty) (.session sampleSession) 1 [1, 2, 3, 4, 5] "alice" =
      (sampleStaged, .ok ⟨1, "", 5⟩) := by
  have hn : (1 : ℤ) ∈ partNumbers sampleSession.parts := by decide
  have hlength : [1, 2, 3, 4, 5].length = expectedPartBytes sampleSession.total 1 := by
    decide +kernel
  have hop : opStage bucket sampleSession (sampleOpened Bucket.empty) 1 [1, 2, 3, 4, 5] (offset 1) =
      (sampleStaged, .ok "") := by
    dsimp only [opStage, sampleSession, Resumable.stage, bucket, Bucket.resumable]
    rw [sample_put]
    rfl
  exact (stagePart_eq bucket _ hn hlength).trans (by rw [hop]; rfl)

def sampleRun : List (Event Bucket) := [.stage 1 [1, 2, 3, 4, 5], .commit [(1, "")]]

theorem sampleRun_undisturbed :
    (life bucket sampleSession).Along (Undisturbed bucket sampleSession)
      ⟨sampleOpened Bucket.empty, [], false⟩ sampleRun := by
  intro u hu
  dsimp only [life] at hu
  rw [show sampleSession.user = "alice" from rfl, sample_stage] at hu
  obtain rfl := Option.some.inj hu
  refine ⟨⟨rfl, fun store outcome houtcome => ?_⟩, fun u' _ => ⟨⟨rfl, ?_⟩, trivial⟩⟩
  · rw [show sampleSession.user = "alice" from rfl, sample_stage] at houtcome
    obtain ⟨rfl, rfl⟩ := Prod.mk.inj houtcome
    refine ⟨fun _ _ _ => ⟨?_, ?_⟩, nofun⟩
    · rw [offset_one]
      rfl
    · dsimp only [bucket, Bucket.resumable]
      rw [show sampleSession.ref = "0" from rfl, sample_put, offset_one]
      rfl
  · exact fun hbackend => absurd hbackend (by decide)

theorem sampleRun_commits :
    (life bucket sampleSession).Along (CommitsExactly bucket sampleSession)
      ⟨sampleOpened Bucket.empty, [], false⟩ sampleRun :=
  (chunked_upload bucket).2.2 .gcs Bucket.empty (sampleOpened Bucket.empty) "assets" "setup.sh"
    "alice" 5 sampleSession (bucket_documented .gcs) (sample_begun rfl)
    ⟨nofun, nofun⟩ sampleRun sampleRun_undisturbed

/-- A bucket with an object of the size. -/
def sampleStale : Bucket :=
  { Bucket.empty with
    objects := Function.update Bucket.empty.objects "assets/setup.sh" (some 5) }

/-- An object of the size that is there from before passes for the upload, with no part staged. -/
theorem chunked_upload_stale : ¬∀ (backend : Backend) (store opened : Bucket)
    (folder name username : String) (totalBytes : ℤ) (session : Session),
    bucket.Documented backend →
    beginUpload bucket backend store folder name totalBytes username = .ok (opened, session) →
    ∀ run : List (Event Bucket),
      (life bucket session).Along (CommitsExactly bucket session) ⟨opened, [], false⟩ run := by
  intro h
  have hexactly : Exactly [(1, "")] sampleSession.parts := List.Perm.refl _
  have haccepted : commitUpload bucket (sampleOpened sampleStale) (.session sampleSession) [(1, "")]
      sampleSession.user = .ok (sampleOpened sampleStale, ⟨"setup.sh", .gcs, 5, 1⟩) :=
    commitUpload_eq_ok.mpr ⟨hexactly, rfl, rfl⟩
  have hrun := h .gcs sampleStale (sampleOpened sampleStale) "assets" "setup.sh" "alice" 5
    sampleSession (bucket_documented .gcs) (sample_begun rfl) [.commit [(1, "")]]
  have hstep : (life bucket sampleSession).step ⟨sampleOpened sampleStale, [], false⟩
      (.commit [(1, "")]) = some ⟨sampleOpened sampleStale, [], true⟩ := by
    dsimp only [life]
    rw [haccepted]
  have hcommit := (hrun _ hstep).1.1.mp ⟨_, haccepted⟩
  exact List.not_mem_nil (hcommit.2 1 (by decide))

end Storage.Chunked
