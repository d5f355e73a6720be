import Mathlib
import VmDashboard.Audit.Chain
import VmDashboard.Machine.HashChain
import VmDashboard.Python.Text

/-!
# What the verification of the audit log notices

A tampered table may edit, delete, insert and renumber rows as long as the rows
it keeps keep their stored hashes. With a collision-free hash the verification
reports it, unless three things hold together: the stored hashes still link up,
every row that was kept still reads to its canonical text, and every inserted
row carries the hash of its own text. In a log without line breaks in its fields
that leaves the removal of the newest rows and the addition of well-hashed ones
after them.
-/

namespace Audit
open Machine (Table)

variable {sha256 : String → String}

/-- The hashed fields of a row, NULL read as `""`. -/
structure Content where
  seq : Option ℤ
  timestamp : Python.DateTime
  username : String
  action : String
  targetVm : String
  details : String
  ipAddress : String
  deriving DecidableEq

def Entry.content (e : Entry) : Content :=
  ⟨e.seq, e.timestamp, e.username.getD "", e.action.getD "", e.targetVm.getD "",
    e.details.getD "", e.ipAddress.getD ""⟩

def Content.parts (c : Content) (prev : String) : List String :=
  [seqText c.seq, c.timestamp.isoformat, c.username, c.action, c.targetVm, c.details, prev,
   c.ipAddress]

def Content.canonical (c : Content) (prev : String) : String := "\n".intercalate (c.parts prev)

/-- SHA-256 is injective on canonical texts. -/
def CollisionFree (sha256 : String → String) : Prop :=
  ∀ (c d : Content) (p q : String), sha256 (c.canonical p) = sha256 (d.canonical q) →
    c.canonical p = d.canonical q

/-- The rows of the chain that `after` keeps have their stored hashes. -/
def Tampered (log after : Log) : Prop :=
  ∀ f ∈ chained after, ∀ e ∈ chained log, f.id = e.id →
    f.prevHash = e.prevHash ∧ f.entryHash = e.entryHash

def Kept (log : Log) (f : Entry) : Prop := ∃ e ∈ chained log, f.id = e.id

instance (log after : Log) : Decidable (Tampered log after) :=
  inferInstanceAs (Decidable (∀ f ∈ chained after, ∀ e ∈ chained log, f.id = e.id →
    f.prevHash = e.prevHash ∧ f.entryHash = e.entryHash))

structure Unnoticed (sha256 : String → String) (log after : Log) : Prop where
  linked : Linked (some genesisPrev) (chained after)
  kept : ∀ f ∈ chained after, ∀ e ∈ chained log, f.id = e.id → f.text = e.text
  added : ∀ f ∈ chained after, ¬Kept log f → f.entryHash = some (sha256 f.text)

theorem tampering_accepted_iff {log after : Log} (hsha : CollisionFree sha256)
    (hok : (verifyAuditChain sha256 log).ok = true) (ht : Tampered log after) :
    (verifyAuditChain sha256 after).ok = true ↔ Unnoticed sha256 log after := by
  rw [verifyAuditChain_ok, walk_ok_iff] at hok
  rw [verifyAuditChain_ok, walk_ok_iff]
  constructor
  · rintro ⟨hlinked, hhashes⟩
    refine ⟨hlinked, fun f hf e he hid => ?_, fun f hf _ => hhashes f hf⟩
    have hstored : f.entryHash = e.entryHash := (ht f hf e he hid).2
    rw [hhashes f hf, hok.2 e he] at hstored
    exact hsha f.content e.content _ _ (Option.some.inj hstored)
  · intro h
    refine ⟨h.linked, fun f hf => ?_⟩
    by_cases hk : Kept log f
    · obtain ⟨e, he, hid⟩ := hk
      rw [(ht f hf e he hid).2, hok.2 e he, h.kept f hf e he hid]
    · exact h.added f hf hk

/-- Tampering is reported exactly when it is not of the unnoticed kind. -/
theorem tampering_reported_iff {log after : Log} (hsha : CollisionFree sha256)
    (hok : (verifyAuditChain sha256 log).ok = true) (ht : Tampered log after) :
    (verifyAuditChain sha256 after).ok = false ↔ ¬Unnoticed sha256 log after := by
  rw [← tampering_accepted_iff hsha hok ht, Bool.not_eq_true]

/- Two rows as `log_audit` writes them, with their SHA-256 digests. -/
def loginHash : String := "5597510aaf3f478628a455a6b9f288c0e763b7dff481e921569734299ce53672"
def stopHash : String := "78676354f53f3869684fcaedb6a014cf49b84b5f145a18e1aa98cc2ff7928907"

def loginEntry : Entry where
  id := "a1"
  timestamp := ⟨2026, 1, 2, 3, 4, 5, 0, by decide, by decide, by decide, by decide, by decide,
    by decide, by decide⟩
  username := some "ann"
  action := some "login"
  targetVm := none
  details := none
  ipAddress := none
  seq := some 1
  prevHash := some genesisPrev
  entryHash := some loginHash

def stopEntry : Entry where
  id := "a2"
  timestamp := ⟨2026, 1, 2, 3, 4, 6, 0, by decide, by decide, by decide, by decide, by decide,
    by decide, by decide⟩
  username := some "ann"
  action := some "vm_stop"
  targetVm := some "web-1"
  details := none
  ipAddress := none
  seq := some 2
  prevHash := some loginHash
  entryHash := some stopHash

/- SHA-256 on the texts of the two rows, and an injective stand-in elsewhere. -/
def sampleSha256 (text : String) : String :=
  if text = loginEntry.text then loginHash
  else if text = stopEntry.text then stopHash
  else "x" ++ text

theorem sampleSha256_injective {s t : String} (h : sampleSha256 s = sampleSha256 t) : s = t := by
  have hx : ∀ digest u : String, digest.toList.head? ≠ some 'x' → digest ≠ "x" ++ u := by
    rintro digest u hd rfl
    exact hd (by simp)
  have hlogin : ∀ u : String, loginHash ≠ "x" ++ u := fun u => hx _ u (by decide)
  have hstop : ∀ u : String, stopHash ≠ "x" ++ u := fun u => hx _ u (by decide)
  have hne : loginHash ≠ stopHash := by decide
  unfold sampleSha256 at h
  by_cases hs : s = loginEntry.text
  · by_cases ht : t = loginEntry.text
    · rw [hs, ht]
    · rw [if_pos hs, if_neg ht] at h
      split at h
      · exact absurd h hne
      · exact absurd h (hlogin t)
  · rw [if_neg hs] at h
    by_cases hs' : s = stopEntry.text
    · rw [if_pos hs'] at h
      split at h
      · exact absurd h.symm hne
      · split at h
        next ht => rw [hs', ht]
        next => exact absurd h (hstop t)
    · rw [if_neg hs'] at h
      split at h
      · exact absurd h.symm (hlogin s)
      · split at h
        · exact absurd h.symm (hstop s)
        · exact (String.append_right_inj "x").mp h

theorem sampleSha256_collisionFree : CollisionFree sampleSha256 :=
  fun _ _ _ _ h => sampleSha256_injective h

def sampleLog : Log := ⟨[loginEntry, stopEntry], by decide⟩
def editedLog : Log := ⟨[loginEntry, { stopEntry with targetVm := some "web-2" }], by decide⟩
def truncatedLog : Log := ⟨[loginEntry], by decide⟩

theorem edit_reported_iff : (verifyAuditChain sampleSha256 editedLog).ok = false ↔
    ¬Unnoticed sampleSha256 sampleLog editedLog :=
  tampering_reported_iff sampleSha256_collisionFree (by decide) (by decide)

/-- The newest row is deleted and the verification still answers that the chain is intact. -/
theorem truncation_not_reported :
    CollisionFree sampleSha256 ∧ (verifyAuditChain sampleSha256 sampleLog).ok = true ∧
      Tampered sampleLog truncatedLog ∧ truncatedLog.rows ≠ sampleLog.rows ∧
      (verifyAuditChain sampleSha256 truncatedLog).ok = true :=
  ⟨sampleSha256_collisionFree, by decide, by decide, by decide, by decide⟩

/-! ### Logs whose fields hold no line break -/

def Content.Plain (c : Content) : Prop :=
  ∀ s ∈ [c.username, c.action, c.targetVm, c.details, c.ipAddress], '\n' ∉ s.toList

theorem seqText_injective {m n : Option ℤ} (h : seqText m = seqText n) : m = n := by
  have hnone : ∀ n : ℤ, "None" ≠ toString n := by
    intro n hn
    have hmem : 'N' ∈ (toString n).toList := hn ▸ by decide
    rcases Python.mem_toString_int hmem with hd | hd
    · exact absurd hd (by decide)
    · exact absurd hd (by decide)
  cases m with
  | none =>
    cases n with
    | none => rfl
    | some n => exact absurd h (hnone n)
  | some m =>
    cases n with
    | none => exact absurd h.symm (hnone m)
    | some n => rw [Int.repr_injective h]

theorem newline_notMem_seqText (n : Option ℤ) : '\n' ∉ (seqText n).toList := by
  cases n with
  | none => decide
  | some n =>
    intro h
    rcases Python.mem_toString_int h with hd | hd
    · exact absurd hd (by decide)
    · exact absurd hd (by decide)

/-- A plain row shares its canonical text with no other row and no other predecessor. -/
theorem canonical_injective {c d : Content} {p q : String} (hp : '\n' ∉ p.toList)
    (hc : c.Plain) (h : c.canonical p = d.canonical q) : p = q ∧ c = d := by
  have hplain : ∀ s ∈ c.parts p, '\n' ∉ s.toList := by
    intro s hs
    simp only [Content.parts, List.mem_cons, List.not_mem_nil, or_false] at hs
    rcases hs with rfl | rfl | hs | hs | hs | hs | rfl | hs
    · exact newline_notMem_seqText c.seq
    · exact c.timestamp.newline_notMem_isoformat
    · exact hc s (by simp [hs])
    · exact hc s (by simp [hs])
    · exact hc s (by simp [hs])
    · exact hc s (by simp [hs])
    · exact hp
    · exact hc s (by simp [hs])
  have hparts : c.parts p = d.parts q := Python.join_injective (by decide) rfl hplain h
  simp only [Content.parts, List.cons.injEq, and_true] at hparts
  obtain ⟨hseq, hts, hu, ha, ht, hx, hpq, hi⟩ := hparts
  refine ⟨hpq, ?_⟩
  obtain ⟨seq, ts, u, a, t, x, i⟩ := c
  obtain ⟨seq', ts', u', a', t', x', i'⟩ := d
  obtain rfl := seqText_injective hseq
  obtain rfl := Python.DateTime.isoformat_injective hts
  simp only at hu ha ht hx hi
  subst hu ha ht hx hi
  rfl

/-- The hash chain of the log as the library has it. -/
def link (sha256 : String → String) (prev : String) (c : Content) : String :=
  sha256 (c.canonical prev)

def digest (sha256 : String → String) (entries : List Entry) : String :=
  Machine.HashChain.digest (link sha256) genesisPrev (entries.map Entry.content)

theorem digest_determines {xs ys : List Entry} (hsha : CollisionFree sha256)
    (hline : ∀ (c : Content) p, '\n' ∉ (sha256 (c.canonical p)).toList)
    (hgenesis : ∀ (c : Content) p, sha256 (c.canonical p) ≠ genesisPrev)
    (hplain : ∀ e ∈ xs, e.content.Plain) (h : digest sha256 xs = digest sha256 ys) :
    xs.map Entry.content = ys.map Entry.content := by
  have hnone : '\n' ∉ genesisPrev.toList := by decide
  have hlink : ∀ (p q : String) (c d : Content), '\n' ∉ p.toList → c.Plain →
      link sha256 p c = link sha256 q d → p = q ∧ c = d :=
    fun p q c d hp hc hcd => canonical_injective hp hc (hsha c d p q hcd)
  refine Machine.HashChain.digest_injective (link sha256) genesisPrev hnone
    (fun p c => hline c p) hlink (fun p c => hgenesis c p) ?_ h
  intro c hc
  obtain ⟨e, he, rfl⟩ := List.mem_map.mp hc
  exact hplain e he

/-- In an accepted log every stored hash is the digest of the rows up to it. -/
theorem stored_eq_digest {entries : List Entry}
    (h : (walk sha256 entries genesisPrev).1 = true) :
    ∀ xs e, xs ++ [e] <+: entries → e.entryHash = some (digest sha256 (xs ++ [e])) := by
  have hrun : ∀ ys xs, (walk sha256 ys (digest sha256 xs)).1 = true → ∀ zs e,
      zs ++ [e] <+: ys → e.entryHash = some (digest sha256 (xs ++ zs ++ [e])) := by
    intro ys
    induction ys with
    | nil =>
      intro xs _ zs e hpre
      simp at hpre
    | cons y ys ih =>
      intro xs hwalk zs e hpre
      obtain ⟨-, hhash, hrest⟩ := walk_cons_ok.mp hwalk
      have hstep : computeEntryHash sha256 y (digest sha256 xs) = digest sha256 (xs ++ [y]) := by
        simp only [digest, List.map_append, List.map_cons, List.map_nil,
          Machine.HashChain.digest_concat]
        rfl
      rw [hstep] at hhash hrest
      cases zs with
      | nil =>
        obtain ⟨rfl, -⟩ := List.cons_prefix_cons.mp hpre
        rw [List.append_nil]
        exact hhash
      | cons z zs =>
        obtain ⟨hzy, hpre⟩ := List.cons_prefix_cons.mp hpre
        rw [hzy]
        have := ih (xs ++ [y]) hrest zs e hpre
        simpa only [List.append_assoc, List.cons_append, List.nil_append] using this
  intro xs e hpre
  simpa only [List.nil_append] using hrun entries [] h xs e hpre

/-- What an accepted tampering of a plain log can be: a beginning of the log, field by field,
and then rows that were not in it. An edit, a deletion before the newest row that is kept, an
insertion before it or a new order of the rows is always reported. -/
theorem accepted_plain {log after : Log} (hsha : CollisionFree sha256)
    (hline : ∀ (c : Content) p, '\n' ∉ (sha256 (c.canonical p)).toList)
    (hgenesis : ∀ (c : Content) p, sha256 (c.canonical p) ≠ genesisPrev)
    (hplain : ∀ e ∈ chained log, e.content.Plain)
    (hok : (verifyAuditChain sha256 log).ok = true) (ht : Tampered log after)
    (hok' : (verifyAuditChain sha256 after).ok = true) :
    ∃ kept added, chained after = kept ++ added ∧
      kept.map Entry.content <+: (chained log).map Entry.content ∧ ∀ f ∈ added, ¬Kept log f := by
  rw [verifyAuditChain_ok] at hok hok'
  have hprefixes : ∀ zs, zs <+: chained after → ∃ kept added, zs = kept ++ added ∧
      kept.map Entry.content <+: (chained log).map Entry.content ∧ ∀ f ∈ added, ¬Kept log f := by
    intro zs
    induction zs using List.reverseRecOn with
    | nil => exact fun _ => ⟨[], [], rfl, List.nil_prefix, by simp⟩
    | append_singleton zs f ih =>
      intro hpre
      have hf : f ∈ chained after := hpre.subset (by simp)
      by_cases hk : Kept log f
      · obtain ⟨e, he, hid⟩ := hk
        obtain ⟨xs, ys, hsplit⟩ := List.append_of_mem he
        have hxs : xs ++ [e] <+: chained log := ⟨ys, by simp [hsplit]⟩
        have hdigest : digest sha256 (xs ++ [e]) = digest sha256 (zs ++ [f]) := by
          have hstored := (ht f hf e he hid).2
          rw [stored_eq_digest hok' zs f hpre, stored_eq_digest hok xs e hxs] at hstored
          exact (Option.some.inj hstored).symm
        have hsame : (xs ++ [e]).map Entry.content = (zs ++ [f]).map Entry.content :=
          digest_determines hsha hline hgenesis (fun d hd => hplain d (hxs.subset hd)) hdigest
        refine ⟨zs ++ [f], [], by rw [List.append_nil], ?_, by simp⟩
        rw [← hsame]
        exact hxs.map Entry.content
      · obtain ⟨kept, added, rfl, hkept, hadded⟩ := ih ((List.prefix_append zs [f]).trans hpre)
        refine ⟨kept, added ++ [f], by rw [List.append_assoc], hkept, ?_⟩
        intro g hg
        rcases List.mem_append.mp hg with hg | hg
        · exact hadded g hg
        · rwa [List.mem_singleton.mp hg]
  exact hprefixes (chained after) List.prefix_rfl

end Audit
