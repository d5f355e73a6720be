import VmDashboard.Agent.Ber
import VmDashboard.Machine.Except
import VmDashboard.Python.Utf8

/-!
# Reading the rootDSE

`parse_rootdse_response` of the agent over a buffer that grows by every chunk received, and the
receive loop of `probe_directory`. Each chunk is parsed from the start of the buffer again.
-/

namespace RootDse
open Ber (Record berRead)
open Python (encodeUtf8 decodeReplace)

/-! ### The parser -/

/-- Why there is no value: a `ValueError`, or a loop that is still running. -/
inductive Stop where
  | valueError (text : String)
  | running
deriving DecidableEq

abbrev Attributes := List (String × List String)

def read (buf : List UInt8) (pos : ℕ) : Except Stop (UInt8 × List UInt8 × ℕ) :=
  (berRead buf pos).mapError .valueError

/-- `out[name] = values`. -/
def setItem (out : Attributes) (name : String) (values : List String) : Attributes :=
  if name ∈ out.map Prod.fst then out.map fun item => if item.1 = name then (name, values) else item
  else out ++ [(name, values)]

/-- `v.decode("utf-8", "replace")[:256]`. -/
def readValue (v : List UInt8) : String := String.ofList ((decodeReplace v).toList.take 256)

def readValues : ℕ → List UInt8 → ℕ → List String → Except Stop (List String)
  | 0, _, _, _ => .error .running
  | fuel + 1, vals, q, values =>
    if q < vals.length ∧ values.length < 32 then do
      let (_, v, q) ← read vals q
      readValues fuel vals q (values ++ [readValue v])
    else .ok values

def readAttributes : ℕ → List UInt8 → ℕ → Attributes → Except Stop Attributes
  | 0, _, _, _ => .error .running
  | fuel + 1, attrs, p, out =>
    if p < attrs.length then do
      let (_, pair, p) ← read attrs p
      let (_, name, vpos) ← read pair 0
      let (_, vals, _) ← read pair vpos
      let values ← readValues (vals.length + 1) vals 0 []
      readAttributes fuel attrs p (setItem out (decodeReplace name) values)
    else .ok out

def readEntry (op : List UInt8) : Except Stop Attributes := do
  let (_, _, apos) ← read op 0
  let (_, attrs, _) ← read op apos
  readAttributes (attrs.length + 1) attrs 0 []

def parseFrom : ℕ → List UInt8 → ℕ → Except Stop (Option Attributes)
  | 0, _, _ => .error .running
  | fuel + 1, buf, pos =>
    if pos < buf.length then
      match read buf pos with
      | .error _ => .ok none
      | .ok (tag, msg, pos) =>
        if tag ≠ 0x30 then .ok none
        else do
          let (_, _, inner) ← read msg 0
          let (opTag, op, _) ← read msg inner
          if opTag = 0x65 then .ok (some [])
          else if opTag ≠ 0x64 then parseFrom fuel buf pos
          else (readEntry op).map some
    else .ok none

/-- `parse_rootdse_response`. -/
def parseRootdseResponse (buf : List UInt8) : Except Stop (Option Attributes) :=
  parseFrom (buf.length + 1) buf 0

/-- The receive loop of `probe_directory` up to the classification, over the chunks that arrive. -/
def receive : List UInt8 → List (List UInt8) → Except Stop (Option Attributes)
  | _, [] => .ok none
  | buf, chunk :: chunks =>
    if buf.length < 65536 then
      if chunk = [] then .ok none
      else do
        match ← parseRootdseResponse (buf ++ chunk) with
        | some attrs => .ok (some attrs)
        | none => receive (buf ++ chunk) chunks
    else .ok none

/-! ### What a directory sends -/

section
variable (limit : ℕ)

inductive EncodesValues : List String → List UInt8 → Prop where
  | nil : EncodesValues [] []
  | cons {value : String} {values : List String} {record bytes : List UInt8} :
      Record limit 0x04 (encodeUtf8 value) record → EncodesValues values bytes →
      EncodesValues (value :: values) (record ++ bytes)

inductive EncodesAttributes : Attributes → List UInt8 → Prop where
  | nil : EncodesAttributes [] []
  | cons {name : String} {values : List String} {attributes : Attributes}
      {nameRecord vals valsRecord pair bytes : List UInt8} :
      Record limit 0x04 (encodeUtf8 name) nameRecord → EncodesValues limit values vals →
      Record limit 0x31 vals valsRecord → Record limit 0x30 (nameRecord ++ valsRecord) pair →
      EncodesAttributes attributes bytes → EncodesAttributes ((name, values) :: attributes) (pair ++ bytes)

/-- A `SearchResultEntry` with any name. -/
inductive EncodesEntry (attributes : Attributes) : List UInt8 → Prop where
  | mk {dn dnRecord attrs attrsRecord : List UInt8} :
      Record limit 0x04 dn dnRecord → EncodesAttributes limit attributes attrs →
      Record limit 0x30 attrs attrsRecord → EncodesEntry attributes (dnRecord ++ attrsRecord)

/-- An `LDAPMessage`: its id, the operation, and controls. -/
inductive Message (opTag : UInt8) (op : List UInt8) : List UInt8 → Prop where
  | mk {messageId idRecord opRecord controls message : List UInt8} :
      Record limit 0x02 messageId idRecord → Record limit opTag op opRecord →
      Record limit 0x30 (idRecord ++ (opRecord ++ controls)) message → Message opTag op message

/-- Messages that are neither an entry nor the end, and then an entry. -/
inductive Answer (attributes : Attributes) : List UInt8 → Prop where
  | entry {op bytes : List UInt8} : EncodesEntry limit attributes op → Message limit 0x64 op bytes →
      Answer attributes bytes
  | other {opTag : UInt8} {op first bytes : List UInt8} : opTag ≠ 0x64 → opTag ≠ 0x65 →
      Message limit opTag op first → Answer attributes bytes → Answer attributes (first ++ bytes)

end

/-- Distinct names, with no more values and no longer ones than are kept. -/
structure Kept (attributes : Attributes) : Prop where
  names : (attributes.map Prod.fst).Nodup
  values : ∀ item ∈ attributes, item.2.length ≤ 32 ∧ ∀ value ∈ item.2, value.toList.length ≤ 256

/-- With lengths of so many octets, no part of an answer is read and the whole is, however it is cut. -/
def Inverts (limit : ℕ) : Prop :=
  ∀ attributes bytes, Answer limit attributes bytes → Kept attributes →
    (∀ part rest, part ++ rest = bytes → rest ≠ [] → parseRootdseResponse part = .ok none) ∧
    (∀ rest, parseRootdseResponse (bytes ++ rest) = .ok (some attributes)) ∧
    ∀ chunks rest, bytes.length < 65536 → (∀ chunk ∈ chunks, chunk ≠ []) →
      chunks.flatten = bytes ++ rest → receive [] chunks = .ok (some attributes)

/-! ### Reading what was encoded -/

/-- A record at the end of what has been read. -/
theorem read_record {tag : UInt8} {content record : List UInt8} (h : Record 4 tag content record)
    (front rest : List UInt8) :
    read (front ++ (record ++ rest)) front.length = .ok (tag, content, (front ++ record).length) := by
  unfold read
  rw [Ber.berRead_shift, Ber.berRead_record h, List.length_append]
  rfl

theorem read_first {tag : UInt8} {content record : List UInt8} (h : Record 4 tag content record)
    (rest : List UInt8) : read (record ++ rest) 0 = .ok (tag, content, record.length) :=
  read_record h [] rest

theorem read_second {tag : UInt8} {content record : List UInt8} (h : Record 4 tag content record)
    (front : List UInt8) :
    read (front ++ record) front.length = .ok (tag, content, (front ++ record).length) := by
  have hread := read_record h front []
  rwa [List.append_nil] at hread

theorem record_length_pos {limit : ℕ} {tag : UInt8} {content record : List UInt8}
    (h : Record limit tag content record) : 0 < record.length := by
  obtain ⟨octets, -⟩ := h
  exact Nat.succ_pos _

theorem readValue_encode {value : String} (h : value.toList.length ≤ 256) :
    readValue (encodeUtf8 value) = value := by
  unfold readValue
  rw [Python.decodeReplace_encode, List.take_of_length_le h, String.ofList_toList]

theorem readValues_encoded {values : List String} {bytes : List UInt8}
    (h : EncodesValues 4 values bytes) (hshort : ∀ value ∈ values, value.toList.length ≤ 256)
    (fuel : ℕ) (hfuel : bytes.length < fuel) (front : List UInt8) (before : List String)
    (hfew : before.length + values.length ≤ 32) :
    readValues fuel (front ++ bytes) front.length before = .ok (before ++ values) := by
  induction h generalizing fuel front before with
  | nil =>
    obtain ⟨fuel, rfl⟩ := Nat.exists_eq_succ_of_ne_zero (Nat.ne_zero_of_lt hfuel)
    rw [readValues, List.append_nil, List.append_nil, if_neg fun hmore => Nat.lt_irrefl _ hmore.1]
  | @cons value values record bytes hrecord hvalues ih =>
    obtain ⟨fuel, rfl⟩ := Nat.exists_eq_succ_of_ne_zero (Nat.ne_zero_of_lt hfuel)
    have hpos := record_length_pos hrecord
    rw [List.length_append] at hfuel
    rw [List.length_cons] at hfew
    have hmore : front.length < (front ++ (record ++ bytes)).length ∧ before.length < 32 := by
      rw [List.length_append, List.length_append]
      omega
    rw [readValues, if_pos hmore, read_record hrecord]
    have hrest := ih (fun other hother => hshort other (List.mem_cons_of_mem _ hother))
      fuel (by omega) (front ++ record) (before ++ [value])
      (by rw [List.length_append, List.length_singleton]; omega)
    rw [List.append_assoc, List.append_assoc, List.singleton_append] at hrest
    dsimp only [bind, Except.bind]
    rw [readValue_encode (hshort value List.mem_cons_self)]
    exact hrest

theorem readAttributes_encoded {attributes : Attributes} {bytes : List UInt8}
    (h : EncodesAttributes 4 attributes bytes) (fuel : ℕ) (hfuel : bytes.length < fuel)
    (front : List UInt8) (before : Attributes) (hkept : Kept (before ++ attributes)) :
    readAttributes fuel (front ++ bytes) front.length before = .ok (before ++ attributes) := by
  induction h generalizing fuel front before with
  | nil =>
    obtain ⟨fuel, rfl⟩ := Nat.exists_eq_succ_of_ne_zero (Nat.ne_zero_of_lt hfuel)
    rw [readAttributes, List.append_nil, List.append_nil, if_neg (Nat.lt_irrefl _)]
  | @cons name values attributes nameRecord vals valsRecord pair bytes hname hvalues hvals hpair hrest ih =>
    obtain ⟨fuel, rfl⟩ := Nat.exists_eq_succ_of_ne_zero (Nat.ne_zero_of_lt hfuel)
    have hpos := record_length_pos hpair
    rw [List.length_append] at hfuel
    have hmore : front.length < (front ++ (pair ++ bytes)).length := by
      rw [List.length_append, List.length_append]
      omega
    obtain ⟨hfew, hshort⟩ := hkept.values (name, values)
      (List.mem_append_right _ List.mem_cons_self)
    have hread : readValues (vals.length + 1) vals 0 [] = .ok values :=
      readValues_encoded hvalues hshort _ (Nat.lt_succ_self _) [] [] (by simpa using hfew)
    have hnew : name ∉ before.map Prod.fst := by
      have hnodup := hkept.names
      rw [List.map_append, List.nodup_append] at hnodup
      exact fun hmem => hnodup.2.2 name hmem name List.mem_cons_self rfl
    have hset : setItem before (decodeReplace (encodeUtf8 name)) values = before ++ [(name, values)] := by
      unfold setItem
      rw [Python.decodeReplace_encode, if_neg hnew]
    have hassoc : before ++ [(name, values)] ++ attributes = before ++ (name, values) :: attributes := by
      rw [List.append_assoc, List.singleton_append]
    have hnext := ih fuel (by omega) (front ++ pair) (before ++ [(name, values)])
      (by rwa [hassoc])
    rw [List.append_assoc, hassoc] at hnext
    rw [readAttributes, if_pos hmore, read_record hpair]
    dsimp only [bind, Except.bind]
    rw [read_first hname]
    dsimp only
    rw [read_second hvals]
    dsimp only
    rw [hread]
    dsimp only
    rw [hset]
    exact hnext

theorem readEntry_encoded {attributes : Attributes} {op : List UInt8}
    (h : EncodesEntry 4 attributes op) (hkept : Kept attributes) : readEntry op = .ok attributes := by
  obtain ⟨hdn, hattributes, hattrs⟩ := h
  unfold readEntry
  rw [read_first hdn]
  dsimp only [bind, Except.bind]
  rw [read_second hattrs]
  exact readAttributes_encoded hattributes _ (Nat.lt_succ_self _) [] [] hkept

/-! ### Reading messages -/

theorem message_length_pos {limit : ℕ} {opTag : UInt8} {op message : List UInt8}
    (h : Message limit opTag op message) : 0 < message.length := by
  obtain ⟨-, -, hmessage⟩ := h
  exact record_length_pos hmessage

/-- A complete message: the loop ends with its entry, or goes on behind it. -/
theorem parseFrom_message {opTag : UInt8} {op message : List UInt8} (h : Message 4 opTag op message)
    (fuel : ℕ) (front rest : List UInt8) :
    parseFrom (fuel + 1) (front ++ (message ++ rest)) front.length =
      if opTag = 0x65 then .ok (some [])
      else if opTag ≠ 0x64 then parseFrom fuel (front ++ (message ++ rest)) (front ++ message).length
      else (readEntry op).map some := by
  have hpos := message_length_pos h
  obtain ⟨hid, hop, hmessage⟩ := h
  have hmore : front.length < (front ++ (message ++ rest)).length := by
    rw [List.length_append, List.length_append]
    omega
  rw [parseFrom, if_pos hmore, read_record hmessage]
  dsimp only
  rw [if_neg (not_not.mpr rfl)]
  dsimp only [bind, Except.bind]
  rw [read_first hid]
  dsimp only
  rw [read_record hop]

/-- Part of a message. -/
theorem parseFrom_part {limit : ℕ} {opTag : UInt8} {op part rest : List UInt8}
    (h : Message limit opTag op (part ++ rest)) (hrest : rest ≠ []) (fuel : ℕ) (front : List UInt8) :
    parseFrom (fuel + 1) (front ++ part) front.length = .ok none := by
  obtain ⟨-, -, hmessage⟩ := h
  obtain ⟨error, herror⟩ := Ber.berRead_part hmessage hrest
  rw [parseFrom]
  split
  · unfold read
    rw [Ber.berRead_shift, herror]
    rfl
  · rfl

theorem parseFrom_answer {attributes : Attributes} {bytes : List UInt8} (h : Answer 4 attributes bytes)
    (hkept : Kept attributes) (fuel : ℕ) (hfuel : bytes.length < fuel) (front rest : List UInt8) :
    parseFrom fuel (front ++ (bytes ++ rest)) front.length = .ok (some attributes) := by
  induction h generalizing fuel front with
  | entry hentry hmessage =>
    obtain ⟨fuel, rfl⟩ := Nat.exists_eq_succ_of_ne_zero (Nat.ne_zero_of_lt hfuel)
    rw [parseFrom_message hmessage, if_neg (by decide), if_neg (by decide),
      readEntry_encoded hentry hkept]
    rfl
  | @other opTag op first bytes hentry hdone hmessage hanswer ih =>
    obtain ⟨fuel, rfl⟩ := Nat.exists_eq_succ_of_ne_zero (Nat.ne_zero_of_lt hfuel)
    have hpos := message_length_pos hmessage
    rw [List.length_append] at hfuel
    have hnext := ih fuel (by omega) (front ++ first)
    rw [List.append_assoc] at hnext
    rw [List.append_assoc, parseFrom_message hmessage, if_neg hdone, if_pos hentry]
    exact hnext

theorem parseFrom_answer_part {attributes : Attributes} {bytes : List UInt8}
    (h : Answer 4 attributes bytes) {part rest : List UInt8} (hpart : part ++ rest = bytes)
    (hrest : rest ≠ []) (fuel : ℕ) (hfuel : part.length < fuel) (front : List UInt8) :
    parseFrom fuel (front ++ part) front.length = .ok none := by
  induction h generalizing fuel front part with
  | entry hentry hmessage =>
    obtain ⟨fuel, rfl⟩ := Nat.exists_eq_succ_of_ne_zero (Nat.ne_zero_of_lt hfuel)
    exact parseFrom_part (hpart.symm ▸ hmessage) hrest fuel front
  | @other opTag op first bytes hentry hdone hmessage hanswer ih =>
    obtain ⟨fuel, rfl⟩ := Nat.exists_eq_succ_of_ne_zero (Nat.ne_zero_of_lt hfuel)
    have hpos := message_length_pos hmessage
    rcases List.append_eq_append_iff.mp hpart with ⟨missing, rfl, hmissing⟩ | ⟨later, rfl, hlater⟩
    · by_cases hwhole : missing = []
      · -- the part ends with the message, and the next one has not begun
        subst hwhole
        rw [List.append_nil] at hmessage hpos
        have hbytes : bytes ≠ [] := fun hempty => hrest (by rw [hmissing, hempty]; rfl)
        have hnil : [] ++ rest = bytes := hmissing
        have hnext := ih hnil fuel (Nat.lt_of_lt_of_le hpos (Nat.le_of_lt_succ hfuel)) (front ++ part)
        rw [List.append_nil] at hnext
        have hread := parseFrom_message hmessage fuel front []
        rw [List.append_nil] at hread
        rw [hread, if_neg hdone, if_pos hentry]
        exact hnext
      · exact parseFrom_part hmessage hwhole fuel front
    · rw [List.length_append] at hfuel
      have hnext := ih hlater.symm fuel (by omega) (front ++ first)
      rw [List.append_assoc] at hnext
      rw [parseFrom_message hmessage, if_neg hdone, if_pos hentry]
      exact hnext

theorem length_lt_append (bytes rest : List UInt8) : bytes.length < (bytes ++ rest).length + 1 := by
  rw [List.length_append]
  omega

/-- Chunk by chunk: nothing until the buffer holds the answer. -/
theorem receive_answer {attributes : Attributes} {bytes : List UInt8} (h : Answer 4 attributes bytes)
    (hkept : Kept attributes) (hsize : bytes.length < 65536) {chunks : List (List UInt8)}
    (hchunks : ∀ chunk ∈ chunks, chunk ≠ []) {part missing rest : List UInt8}
    (hpart : part ++ missing = bytes) (hmissing : missing ≠ []) (hflat : chunks.flatten = missing ++ rest) :
    receive part chunks = .ok (some attributes) := by
  induction chunks generalizing part missing with
  | nil => exact absurd (List.append_eq_nil_iff.mp hflat.symm).1 hmissing
  | cons chunk chunks ih =>
    have hroom : part.length < 65536 := by
      rw [← hpart, List.length_append] at hsize
      omega
    rw [receive, if_pos hroom, if_neg (hchunks chunk List.mem_cons_self)]
    rw [List.flatten_cons] at hflat
    rcases List.append_eq_append_iff.mp hflat with ⟨later, hmore, hlater⟩ | ⟨later, hdone, -⟩
    · by_cases hend : later = []
      · have hwhole : parseRootdseResponse (part ++ chunk) = .ok (some attributes) := by
          have hbytes : part ++ chunk = bytes ++ [] := by
            rw [← hpart, hmore, hend, List.append_nil, List.append_nil]
          unfold parseRootdseResponse
          rw [hbytes]
          exact parseFrom_answer h hkept _ (length_lt_append bytes []) [] []
        rw [hwhole]
        rfl
      · have hnext : part ++ chunk ++ later = bytes := by rw [List.append_assoc, ← hmore, hpart]
        have hnone : parseRootdseResponse (part ++ chunk) = .ok none :=
          parseFrom_answer_part h hnext hend _ (Nat.lt_succ_self _) []
        rw [hnone]
        exact ih (fun other hother => hchunks other (List.mem_cons_of_mem _ hother)) hnext hend hlater
    · have hwhole : parseRootdseResponse (part ++ chunk) = .ok (some attributes) := by
        unfold parseRootdseResponse
        rw [hdone, ← List.append_assoc, hpart]
        exact parseFrom_answer h hkept _ (length_lt_append bytes later) [] later
      rw [hwhole]
      rfl

theorem answer_ne_nil {limit : ℕ} {attributes : Attributes} {bytes : List UInt8}
    (h : Answer limit attributes bytes) : bytes ≠ [] := by
  rintro rfl
  generalize hbytes : [] = bytes at h
  cases h with
  | entry hentry hmessage =>
    have hpos := message_length_pos hmessage
    rw [← hbytes] at hpos
    cases hpos
  | other hentry hdone hmessage hanswer =>
    have hpos := message_length_pos hmessage
    rw [(List.append_eq_nil_iff.mp hbytes.symm).1] at hpos
    cases hpos

theorem inverts_four : Inverts 4 := by
  intro attributes bytes hanswer hkept
  refine ⟨?_, ?_, ?_⟩
  · intro part rest hpart hrest
    exact parseFrom_answer_part hanswer hpart hrest _ (Nat.lt_succ_self _) []
  · intro rest
    exact parseFrom_answer hanswer hkept _ (length_lt_append bytes rest) [] rest
  · intro chunks rest hsize hchunks hflat
    exact receive_answer hanswer hkept hsize hchunks (List.nil_append _) (answer_ne_nil hanswer) hflat

/-! ### Any bytes -/

theorem read_moves {buf content : List UInt8} {pos next : ℕ} {tag : UInt8}
    (h : read buf pos = .ok (tag, content, next)) : pos < next := by
  have hread : berRead buf pos = .ok (tag, content, next) := by
    unfold read at h
    cases hber : berRead buf pos with
    | error error =>
      rw [hber] at h
      cases h
    | ok answer =>
      rw [hber] at h
      exact congrArg _ (Except.ok.inj h)
  by_cases hpos : pos ≤ buf.length
  · have hshift := Ber.berRead_shift (buf.take pos) (buf.drop pos)
    rw [List.take_append_drop, List.length_take_of_le hpos, hread] at hshift
    cases hber : berRead (buf.drop pos) 0 with
    | error error =>
      rw [hber] at hshift
      cases hshift
    | ok answer =>
      obtain ⟨tag', content', next'⟩ := answer
      rw [hber] at hshift
      cases hshift
      have hmoved := (Ber.berRead_next hber).1
      omega
  · unfold berRead at hread
    rw [if_pos (by omega)] at hread
    cases hread

theorem read_stop {buf : List UInt8} {pos : ℕ} : read buf pos ≠ .error .running := by
  intro h
  unfold read at h
  cases hber : berRead buf pos <;> rw [hber] at h <;> cases h

theorem readValues_stops {fuel : ℕ} {vals : List UInt8} {q : ℕ} (hpos : 0 < fuel)
    (hfuel : vals.length < q + fuel) (before : List String) :
    readValues fuel vals q before ≠ .error .running := by
  induction fuel generalizing q before with
  | zero => cases hpos
  | succ fuel ih =>
    intro h
    rw [readValues] at h
    split at h
    next hmore =>
      rcases Machine.bind_eq_error h with hread | ⟨_, hread, hrest⟩
      · exact read_stop hread
      · have hmoved := read_moves hread
        exact ih (by omega) (by omega) _ hrest
    next => cases h

theorem readAttributes_stops {fuel : ℕ} {attrs : List UInt8} {p : ℕ} (hpos : 0 < fuel)
    (hfuel : attrs.length < p + fuel) (before : Attributes) :
    readAttributes fuel attrs p before ≠ .error .running := by
  induction fuel generalizing p before with
  | zero => cases hpos
  | succ fuel ih =>
    intro h
    rw [readAttributes] at h
    split at h
    next hmore =>
      rcases Machine.bind_eq_error h with hread | ⟨_, hread, h⟩
      · exact read_stop hread
      have hmoved := read_moves hread
      rcases Machine.bind_eq_error h with hread | ⟨_, hread, h⟩
      · exact read_stop hread
      rcases Machine.bind_eq_error h with hread | ⟨_, hread, h⟩
      · exact read_stop hread
      rcases Machine.bind_eq_error h with hvalues | ⟨_, hvalues, h⟩
      · exact readValues_stops (Nat.succ_pos _) (by omega) _ hvalues
      · exact ih (by omega) (by omega) _ h
    next => cases h

theorem readEntry_stops (op : List UInt8) : readEntry op ≠ .error .running := by
  intro h
  unfold readEntry at h
  rcases Machine.bind_eq_error h with hread | ⟨_, hread, h⟩
  · exact read_stop hread
  rcases Machine.bind_eq_error h with hread | ⟨_, hread, h⟩
  · exact read_stop hread
  exact readAttributes_stops (Nat.succ_pos _) (by omega) _ h

theorem parseFrom_stops {fuel : ℕ} {buf : List UInt8} {pos : ℕ} (hpos : 0 < fuel)
    (hfuel : buf.length < pos + fuel) : parseFrom fuel buf pos ≠ .error .running := by
  induction fuel generalizing pos with
  | zero => cases hpos
  | succ fuel ih =>
    intro h
    rw [parseFrom] at h
    split at h
    next hmore =>
      split at h
      · cases h
      next tag msg next hread =>
        have hmoved := read_moves hread
        split at h
        · cases h
        rcases Machine.bind_eq_error h with hread | ⟨_, hread, h⟩
        · exact read_stop hread
        rcases Machine.bind_eq_error h with hread | ⟨_, hread, h⟩
        · exact read_stop hread
        dsimp only at h
        split at h
        · cases h
        split at h
        · exact ih (by omega) (by omega) h
        · cases hentry : readEntry _ with
          | error stop =>
            rw [hentry] at h
            cases h
            exact readEntry_stops _ hentry
          | ok attributes =>
            rw [hentry] at h
            cases h
    next => cases h

/-- The parser ends on any bytes, with a value, none or a `ValueError`. -/
theorem parse_stops (buf : List UInt8) : parseRootdseResponse buf ≠ .error .running :=
  parseFrom_stops (Nat.succ_pos _) (by omega)

/-- The answer is read back from lengths of up to four octets, however it is cut, and every parse
ends. -/
theorem rootdse_read_back : Inverts 4 ∧ ∀ buf, parseRootdseResponse buf ≠ .error .running :=
  ⟨inverts_four, parse_stops⟩

/-- `{"cn": ["é"]}`, the length of the operation in the long form. -/
def cnEntry : List UInt8 :=
  [0x30, 22, 0x02, 1, 1, 0x64, 0x81, 16, 0x04, 0, 0x30, 12, 0x30, 10, 0x04, 2, 99, 110,
    0x31, 4, 0x04, 2, 0xC3, 0xA9]

theorem cnEntry_answer : Answer 4 [("cn", ["é"])] cnEntry := by
  have hname : Record 4 0x04 (encodeUtf8 "cn") [0x04, 2, 99, 110] :=
    .mk [2] (.short 2 (by decide) (by decide))
  have hvalue : Record 4 0x04 (encodeUtf8 "é") [0x04, 2, 0xC3, 0xA9] :=
    .mk [2] (.short 2 (by decide) (by decide))
  have hvals : Record 4 0x31 ([0x04, 2, 0xC3, 0xA9] ++ []) [0x31, 4, 0x04, 2, 0xC3, 0xA9] :=
    .mk [4] (.short 4 rfl (by decide))
  have hpair : Record 4 0x30 ([0x04, 2, 99, 110] ++ [0x31, 4, 0x04, 2, 0xC3, 0xA9])
      [0x30, 10, 0x04, 2, 99, 110, 0x31, 4, 0x04, 2, 0xC3, 0xA9] := .mk [10] (.short 10 rfl (by decide))
  have hattrs : Record 4 0x30 ([0x30, 10, 0x04, 2, 99, 110, 0x31, 4, 0x04, 2, 0xC3, 0xA9] ++ [])
      [0x30, 12, 0x30, 10, 0x04, 2, 99, 110, 0x31, 4, 0x04, 2, 0xC3, 0xA9] :=
    .mk [12] (.short 12 rfl (by decide))
  have hdn : Record 4 0x04 [] [0x04, 0] := .mk [0] (.short 0 rfl (by decide))
  have hop : Record 4 0x64
      ([0x04, 0] ++ [0x30, 12, 0x30, 10, 0x04, 2, 99, 110, 0x31, 4, 0x04, 2, 0xC3, 0xA9])
      [0x64, 0x81, 16, 0x04, 0, 0x30, 12, 0x30, 10, 0x04, 2, 99, 110, 0x31, 4, 0x04, 2, 0xC3, 0xA9] :=
    .mk [0x81, 16] (.long 0x81 [16] rfl (by decide) (by decide) rfl)
  have hid : Record 4 0x02 [1] [0x02, 1, 1] := .mk [1] (.short 1 rfl (by decide))
  have hmessage : Record 4 0x30 ([0x02, 1, 1] ++ ([0x64, 0x81, 16, 0x04, 0, 0x30, 12, 0x30, 10, 0x04, 2,
      99, 110, 0x31, 4, 0x04, 2, 0xC3, 0xA9] ++ [])) cnEntry := .mk [22] (.short 22 rfl (by decide))
  exact .entry (.mk hdn (.cons hname (.cons hvalue .nil) hvals hpair .nil) hattrs)
    (.mk hid hop hmessage)

/-- Cut in the middle of the value, which takes two bytes. -/
theorem cnEntry_read_back :
    parseRootdseResponse (cnEntry.take 23) = .ok none ∧
      receive [] [cnEntry.take 23, cnEntry.drop 23] = .ok (some [("cn", ["é"])]) := by
  obtain ⟨hpart, -, hreceive⟩ := rootdse_read_back.1 _ _ cnEntry_answer ⟨by decide, by decide⟩
  exact ⟨hpart _ (cnEntry.drop 23) (List.take_append_drop 23 cnEntry) (by decide),
    hreceive _ [] (by decide) (by decide) (by decide)⟩

/-! ### Five octets -/

/-- An entry without attributes, in a message whose length takes five octets. -/
def longLength : List UInt8 :=
  [0x30, 0x85, 0, 0, 0, 0, 9, 0x02, 1, 1, 0x64, 4, 0x04, 0, 0x30, 0]

theorem longLength_answer : Answer 126 [] longLength := by
  have hid : Record 126 0x02 [1] [0x02, 1, 1] := .mk [1] (.short 1 rfl (by decide))
  have hop : Record 126 0x64 [0x04, 0, 0x30, 0] [0x64, 4, 0x04, 0, 0x30, 0] :=
    .mk [4] (.short 4 rfl (by decide))
  have hdn : Record 126 0x04 [] [0x04, 0] := .mk [0] (.short 0 rfl (by decide))
  have hattrs : Record 126 0x30 [] [0x30, 0] := .mk [0] (.short 0 rfl (by decide))
  have hmessage : Record 126 0x30 ([0x02, 1, 1] ++ ([0x64, 4, 0x04, 0, 0x30, 0] ++ [])) longLength :=
    .mk [0x85, 0, 0, 0, 0, 9] (.long 0x85 [0, 0, 0, 0, 9] rfl (by decide) (by decide) rfl)
  have hentry : EncodesEntry 126 [] [0x04, 0, 0x30, 0] := .mk hdn .nil hattrs
  exact .entry hentry (.mk hid hop hmessage)

theorem inverts_not_long : ¬Inverts 126 := by
  intro h
  have hread := (h [] longLength longLength_answer ⟨by decide, by decide⟩).2.1 []
  exact absurd hread (by decide +kernel)

end RootDse
