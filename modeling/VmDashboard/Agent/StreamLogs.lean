import VmDashboard.Agent.Ber
import VmDashboard.Machine.Reader
import VmDashboard.Python.Utf8

/-!
# Following a container's output (`_stream_logs` in `runners/agent/agent.py`)

The Engine sends frames of standard output and standard error, in the order they were written. What one
`read1` returns ends anywhere, in a frame's header too. A line is given on when its end is there, or
where 8192 bytes hold none.
-/

namespace Agent
open Machine (Reader)

abbrev Bytes := List UInt8

/-! ### Frames -/

/-- One turn of `_demux_frames`: the stream and the payload, and what the buffer holds after it. -/
def nextFrame (buf : Bytes) : Option ((UInt8 × Bytes) × Bytes) :=
  if buf.length < 8 then none
  else
    let size := Ber.value (Ber.slice buf 4 8)
    if buf.length < 8 + size then none
    else
      let first := buf.getD 0 0
      some ((if first = 0 then 1 else first, Ber.slice buf 8 (8 + size)), buf.drop (8 + size))

theorem nextFrame_header (first a b c : UInt8) {size : Bytes} (h : size.length = 4) (rest : Bytes) :
    nextFrame (first :: a :: b :: c :: (size ++ rest)) =
      if rest.length < Ber.value size then none
      else some ((if first = 0 then 1 else first, rest.take (Ber.value size)),
        rest.drop (Ber.value size)) := by
  obtain ⟨s, t, u, v, rfl⟩ : ∃ s t u v, size = [s, t, u, v] := by
    match size, h with
    | [s, t, u, v], _ => exact ⟨s, t, u, v, rfl⟩
  have hlength : (first :: a :: b :: c :: ([s, t, u, v] ++ rest)).length = 8 + rest.length := by
    simp only [List.length_cons, List.length_append, List.length_nil]
    omega
  have hsize : Ber.slice (first :: a :: b :: c :: ([s, t, u, v] ++ rest)) 4 8 = [s, t, u, v] := rfl
  unfold nextFrame
  dsimp only
  rw [hsize, hlength, if_neg (by omega)]
  generalize Ber.value [s, t, u, v] = n
  have hpayload : Ber.slice (first :: a :: b :: c :: ([s, t, u, v] ++ rest)) 8 (8 + n) = rest.take n := by
    rw [Ber.slice, Nat.add_comm]
    rfl
  have hdrop : (first :: a :: b :: c :: ([s, t, u, v] ++ rest)).drop (8 + n) = rest.drop n := by
    rw [Nat.add_comm]
    rfl
  rw [hpayload, hdrop]
  by_cases hn : rest.length < n
  · rw [if_pos (by omega), if_pos hn]
  · rw [if_neg (by omega), if_neg hn]
    rfl

theorem exists_header {buf : Bytes} (h : 8 ≤ buf.length) :
    ∃ first a b c size rest, size.length = 4 ∧ buf = first :: a :: b :: c :: (size ++ rest) := by
  match buf, h with
  | first :: a :: b :: c :: s :: t :: u :: v :: rest, _ =>
    exact ⟨first, a, b, c, [s, t, u, v], rest, rfl, rfl⟩

theorem nextFrame_some {buf rest : Bytes} {frame : UInt8 × Bytes} (h : nextFrame buf = some (frame, rest)) :
    8 ≤ buf.length := by
  by_contra hshort
  unfold nextFrame at h
  rw [if_pos (by omega)] at h
  cases h

def frameReader : Reader UInt8 (UInt8 × Bytes) where
  next := nextFrame
  shorter buf frame rest h := by
    obtain ⟨first, a, b, c, size, tail, hsize, rfl⟩ := exists_header (nextFrame_some h)
    rw [nextFrame_header first a b c hsize] at h
    split at h
    · cases h
    · obtain ⟨-, rfl⟩ := Prod.mk.inj (Option.some.inj h)
      simp only [List.length_cons, List.length_append, List.length_drop]
      omega

theorem frameReader_stable : frameReader.Stable := by
  intro buf frame rest more h
  obtain ⟨first, a, b, c, size, tail, hsize, rfl⟩ := exists_header (nextFrame_some h)
  have hmore : first :: a :: b :: c :: (size ++ tail) ++ more =
      first :: a :: b :: c :: (size ++ (tail ++ more)) := by
    simp only [List.cons_append, List.append_assoc]
  have h : nextFrame (first :: a :: b :: c :: (size ++ tail)) = some (frame, rest) := h
  show nextFrame _ = _
  rw [nextFrame_header first a b c hsize] at h
  rw [hmore, nextFrame_header first a b c hsize]
  split at h
  · cases h
  next hwhole =>
    obtain ⟨rfl, rfl⟩ := Prod.mk.inj (Option.some.inj h)
    rw [if_neg (by rw [List.length_append]; omega), List.take_append_of_le_length (by omega),
      List.drop_append_of_le_length (by omega)]

def demuxFrames (buf : Bytes) : List (UInt8 × Bytes) × Bytes := frameReader.drain buf

/-- `_demux` of a body that is all in hand. -/
def demux (raw : Bytes) : String :=
  let frames := (demuxFrames raw).1
  if frames.isEmpty then Python.decodeReplace raw
  else Python.decodeReplace (frames.flatMap Prod.snd)

/-! ### Lines -/

def newline : UInt8 := 10

def maxStreamLine : ℕ := 8192

/-- One turn of the inner loop: the line, and what the stream holds after it. -/
def nextLine (pending : Bytes) : Option (Bytes × Bytes) :=
  if newline ∈ pending then
    some (pending.takeWhile (· ≠ newline), (pending.dropWhile (· ≠ newline)).drop 1)
  else if maxStreamLine ≤ pending.length then
    some (pending.take maxStreamLine, pending.drop maxStreamLine)
  else none

theorem nextLine_newline {line : Bytes} (h : newline ∉ line) (rest : Bytes) :
    nextLine (line ++ newline :: rest) = some (line, rest) := by
  have hne : ∀ b ∈ line, decide (b ≠ newline) = true :=
    fun b hb => decide_eq_true fun heq => h (heq ▸ hb)
  have htake : (line ++ newline :: rest).takeWhile (· ≠ newline) = line := by
    rw [List.takeWhile_append_of_pos hne, List.takeWhile_cons_of_neg (by simp), List.append_nil]
  have hdrop : (line ++ newline :: rest).dropWhile (· ≠ newline) = newline :: rest := by
    rw [List.dropWhile_append_of_pos hne, List.dropWhile_cons_of_neg (by simp)]
  unfold nextLine
  rw [if_pos (List.mem_append_right line List.mem_cons_self), htake, hdrop]
  rfl

/-- The line ends in a newline, or it is a piece of the longest length. -/
theorem nextLine_some {pending line rest : Bytes} (h : nextLine pending = some (line, rest)) :
    newline ∉ line ∧ (pending = line ++ newline :: rest ∨
      pending = line ++ rest ∧ line.length = maxStreamLine) := by
  by_cases hmem : newline ∈ pending
  · obtain ⟨front, tail, rfl, hfront⟩ := List.eq_append_cons_of_mem hmem
    rw [nextLine_newline hfront] at h
    obtain ⟨rfl, rfl⟩ := Prod.mk.inj (Option.some.inj h)
    exact ⟨hfront, .inl rfl⟩
  · unfold nextLine at h
    rw [if_neg hmem] at h
    split at h
    next hlong =>
      obtain ⟨rfl, rfl⟩ := Prod.mk.inj (Option.some.inj h)
      exact ⟨fun hline => hmem (List.mem_of_mem_take hline),
        .inr ⟨(List.take_append_drop maxStreamLine pending).symm, List.length_take_of_le hlong⟩⟩
    · cases h

theorem nextLine_none {pending : Bytes} (h : nextLine pending = none) :
    newline ∉ pending ∧ pending.length < maxStreamLine := by
  unfold nextLine at h
  split at h
  · cases h
  next hmem =>
    split at h
    · cases h
    next hshort => exact ⟨hmem, Nat.lt_of_not_le hshort⟩

def lineReader : Reader UInt8 Bytes where
  next := nextLine
  shorter pending line rest h := by
    rcases (nextLine_some h).2 with rfl | ⟨rfl, hlength⟩
    · rw [List.length_append, List.length_cons]
      omega
    · rw [List.length_append, hlength, maxStreamLine]
      omega

/-! ### The loop -/

inductive Source
  | stdout
  | stderr
  deriving DecidableEq

/-- What each stream ended on without a newline. -/
abbrev Held := Source → Bytes

def Held.set (held : Held) (source : Source) (pending : Bytes) : Held :=
  fun other => if other = source then pending else held other

def sourceOf (stream : UInt8) : Source := if stream = 2 then .stderr else .stdout

/-- The lines a frame ends, each with the stream it is of. -/
def handleFrame (held : Held) (frame : UInt8 × Bytes) : List (Source × Bytes) × Held :=
  let source := sourceOf frame.1
  let (lines, pending) := lineReader.drain (held source ++ frame.2)
  (lines.map fun line => (source, line), held.set source pending)

def handleFrames (held : Held) : List (UInt8 × Bytes) → List (Source × Bytes) × Held
  | [] => ([], held)
  | frame :: frames =>
    let (lines, held) := handleFrame held frame
    let (more, held) := handleFrames held frames
    (lines ++ more, held)

def lastLine (source : Source) (pending : Bytes) : List (Source × Bytes) :=
  if pending.isEmpty then [] else [(source, pending)]

def lastLines (held : Held) : List (Source × Bytes) :=
  lastLine .stdout (held .stdout) ++ lastLine .stderr (held .stderr)

/-- `reads` is what `read1` returns up to the end of the stream, which is an empty read or an
exception. -/
def follow (buf : Bytes) (held : Held) : List Bytes → List (Source × Bytes)
  | [] => lastLines held
  | chunk :: reads =>
    if chunk.isEmpty then lastLines held
    else
      let (frames, buf) := demuxFrames (buf ++ chunk)
      let (lines, held) := handleFrames held frames
      lines ++ follow buf held reads

def unreadable (status : ℕ) (body : Bytes) : String :=
  if status = 501 then
    "this host's Docker logging driver is not file-based, so the run's " ++
      "output cannot be read back (the Engine answered 501). The agent asks " ++
      "for json-file per container, so this usually means the daemon forbids " ++
      "it — check `log-driver` in /etc/docker/daemon.json."
  else "could not read the runner's output (" ++ toString status ++ "): " ++
    Python.decodeReplace (body.take 200)

/-- The lines given to `on_line`, or the text of a `RunFailure`. -/
def streamLogs (status : ℕ) (body : Bytes) (reads : List Bytes) : Except String (List String) :=
  if status ≠ 200 then .error (unreadable status body)
  else .ok ((follow [] (fun _ => []) reads).map fun line => Python.decodeReplace line.2)

/-! ### The reads do not matter -/

theorem handleFrames_cons (held : Held) (frame : UInt8 × Bytes) (frames : List (UInt8 × Bytes)) :
    handleFrames held (frame :: frames) =
      ((handleFrame held frame).1 ++ (handleFrames (handleFrame held frame).2 frames).1,
        (handleFrames (handleFrame held frame).2 frames).2) := rfl

theorem handleFrames_append (held : Held) (front frames : List (UInt8 × Bytes)) :
    handleFrames held (front ++ frames) =
      ((handleFrames held front).1 ++ (handleFrames (handleFrames held front).2 frames).1,
        (handleFrames (handleFrames held front).2 frames).2) := by
  induction front generalizing held with
  | nil => rfl
  | cons frame front ih =>
    rw [List.cons_append, handleFrames_cons, handleFrames_cons, ih, List.append_assoc]

theorem follow_eq {reads : List Bytes} (h : ∀ chunk ∈ reads, chunk ≠ []) (buf : Bytes) (held : Held) :
    follow buf held reads =
      (handleFrames held (frameReader.feed buf reads).1).1 ++
        lastLines (handleFrames held (frameReader.feed buf reads).1).2 := by
  induction reads generalizing buf held with
  | nil => rfl
  | cons chunk reads ih =>
    have hchunk : chunk.isEmpty = false := List.isEmpty_eq_false_iff.mpr (h chunk List.mem_cons_self)
    have hrest := ih fun other hother => h other (List.mem_cons_of_mem chunk hother)
    have hstep : follow buf held (chunk :: reads) =
        (handleFrames held (frameReader.drain (buf ++ chunk)).1).1 ++
          follow (frameReader.drain (buf ++ chunk)).2
            (handleFrames held (frameReader.drain (buf ++ chunk)).1).2 reads := by
      rw [follow, hchunk]
      rfl
    rw [hstep, hrest, Reader.feed, handleFrames_append, List.append_assoc]

/-! ### One stream at a time -/

def payloads (source : Source) (frames : List (UInt8 × Bytes)) : List Bytes :=
  (frames.filter fun frame => sourceOf frame.1 = source).map Prod.snd

def ofSource (source : Source) (lines : List (Source × Bytes)) : List Bytes :=
  (lines.filter fun line => line.1 = source).map Prod.snd

theorem ofSource_append (source : Source) (lines more : List (Source × Bytes)) :
    ofSource source (lines ++ more) = ofSource source lines ++ ofSource source more := by
  simp only [ofSource, List.filter_append, List.map_append]

theorem ofSource_lastLines (source : Source) (held : Held) :
    ofSource source (lastLines held) = if (held source).isEmpty then [] else [held source] := by
  have hone (other : Source) : ofSource source (lastLine other (held other)) =
      if other = source then (if (held other).isEmpty then [] else [held other]) else [] := by
    unfold lastLine
    by_cases hempty : (held other).isEmpty = true
    · rw [if_pos hempty, if_pos hempty]
      split <;> rfl
    · rw [if_neg hempty, if_neg hempty]
      by_cases h : other = source
      · simp [ofSource, h]
      · simp [ofSource, h]
  rw [lastLines, ofSource_append, hone, hone]
  cases source with
  | stdout => exact List.append_nil _
  | stderr => rfl

theorem ofSource_map (source other : Source) (lines : List Bytes) :
    ofSource source (lines.map fun line => (other, line)) = if other = source then lines else [] := by
  unfold ofSource
  by_cases h : other = source
  · rw [if_pos h, List.filter_eq_self.mpr, List.map_map]
    · exact List.map_id lines
    · intro line hline
      obtain ⟨text, -, rfl⟩ := List.mem_map.mp hline
      exact decide_eq_true h
  · rw [if_neg h, List.filter_eq_nil_iff.mpr, List.map_nil]
    intro line hline
    obtain ⟨text, -, rfl⟩ := List.mem_map.mp hline
    simpa using h

/-- What is given of a stream, and what it is left with, comes from that stream's frames alone. -/
theorem handleFrames_ofSource (held : Held) (source : Source) (frames : List (UInt8 × Bytes)) :
    ofSource source (handleFrames held frames).1 =
        (lineReader.feed (held source) (payloads source frames)).1 ∧
      (handleFrames held frames).2 source =
        (lineReader.feed (held source) (payloads source frames)).2 := by
  induction frames generalizing held with
  | nil => exact ⟨rfl, rfl⟩
  | cons frame frames ih =>
    obtain ⟨hlines, hheld⟩ := ih (handleFrame held frame).2
    have hfirst : (handleFrame held frame).1 =
        (lineReader.drain (held (sourceOf frame.1) ++ frame.2)).1.map
          fun line => (sourceOf frame.1, line) := rfl
    have hset : (handleFrame held frame).2 source =
        if source = sourceOf frame.1 then (lineReader.drain (held (sourceOf frame.1) ++ frame.2)).2
        else held source := rfl
    rw [handleFrames_cons, ofSource_append, hlines, hheld, hfirst, ofSource_map, hset]
    by_cases hsource : sourceOf frame.1 = source
    · have hpayloads : payloads source (frame :: frames) = frame.2 :: payloads source frames := by
        simp only [payloads, List.filter_cons, hsource, decide_true, if_true, List.map_cons]
      rw [hpayloads, if_pos hsource, if_pos hsource.symm, hsource]
      exact ⟨rfl, rfl⟩
    · have hpayloads : payloads source (frame :: frames) = payloads source frames := by
        simp only [payloads, List.filter_cons, hsource, decide_false, Bool.false_eq_true, if_false]
      rw [hpayloads, if_neg hsource, if_neg (Ne.symm hsource)]
      exact ⟨rfl, rfl⟩

/-! ### What the lines are of -/

/-- The bytes are the lines, each with its newline or cut off where it has the longest length, and a
rest. -/
inductive Split : Bytes → List Bytes → Bytes → Prop
  | rest (last : Bytes) : Split last [] last
  | line {line more last : Bytes} {lines : List Bytes} : newline ∉ line → Split more lines last →
      Split (line ++ newline :: more) (line :: lines) last
  | piece {line more last : Bytes} {lines : List Bytes} : newline ∉ line →
      line.length = maxStreamLine → Split more lines last → Split (line ++ more) (line :: lines) last

theorem split_drain (pending : Bytes) :
    Split pending (lineReader.drain pending).1 (lineReader.drain pending).2 := by
  refine Reader.drain_induction (R := lineReader)
    (motive := fun pending => Split pending (lineReader.drain pending).1 (lineReader.drain pending).2)
    ?_ ?_ pending
  · intro pending h
    rw [Reader.drain_none h]
    exact .rest pending
  · intro pending line rest h ih
    rw [Reader.drain_some h]
    obtain ⟨hline, rfl | ⟨rfl, hlength⟩⟩ := nextLine_some h
    · exact .line hline ih
    · exact .piece hline hlength ih

theorem Split.append {front bytes last last' : Bytes} {lines more : List Bytes}
    (h : Split front lines last) (h' : Split (last ++ bytes) more last') :
    Split (front ++ bytes) (lines ++ more) last' := by
  induction h with
  | rest last => exact h'
  | @line line rest last lines hline _ ih =>
    rw [List.append_assoc, List.cons_append]
    exact .line hline (ih h')
  | @piece line rest last lines hline hlength _ ih =>
    rw [List.append_assoc]
    exact .piece hline hlength (ih h')

theorem split_feed (pending : Bytes) (texts : List Bytes) :
    Split (pending ++ texts.flatten) (lineReader.feed pending texts).1
      (lineReader.feed pending texts).2 := by
  induction texts generalizing pending with
  | nil =>
    rw [List.flatten_nil, List.append_nil]
    exact .rest pending
  | cons text texts ih =>
    have hall := (split_drain (pending ++ text)).append (ih (lineReader.drain (pending ++ text)).2)
    rwa [List.append_assoc] at hall

theorem next_feed {pending : Bytes} (h : lineReader.next pending = none) (texts : List Bytes) :
    lineReader.next (lineReader.feed pending texts).2 = none := by
  induction texts generalizing pending with
  | nil => exact h
  | cons text texts ih => exact ih (Reader.next_drain (pending ++ text))

/-- No line of the text is so long that it is cut. -/
def ShortLines (text : Bytes) : Prop :=
  ∀ line, line <:+: text → line.length = maxStreamLine → newline ∈ line

theorem Split.splitOn {text last : Bytes} {lines : List Bytes} (h : Split text lines last)
    (hshort : ShortLines text) (hlast : newline ∉ last) : text.splitOn newline = lines ++ [last] := by
  induction h with
  | rest last => exact List.splitOn_eq_singleton hlast
  | @line line more last lines hline _ ih =>
    have hmore : ShortLines more := fun part hpart =>
      hshort part (hpart.trans ⟨line ++ [newline], [], by simp⟩)
    have hne : ∀ b ∈ line, (b == newline) = false :=
      fun b hb => beq_eq_false_iff_ne.mpr fun heq => hline (heq ▸ hb)
    rw [List.splitOn_append_cons_self, List.splitOn_eq_singleton hline, ih hmore hlast]
    rfl
  | @piece line more last lines hline hlength _ _ =>
    exact absurd (hshort line (List.infix_append' [] line more) hlength) hline

/-! ### Frames on the wire -/

/-- The text is a whole frame: a header with the length of the payload, and the payload. -/
def IsFrame (frame : UInt8 × Bytes) (text : Bytes) : Prop :=
  ∃ first a b c size, size.length = 4 ∧ Ber.value size = frame.2.length ∧
    frame.1 = (if first = 0 then 1 else first) ∧ text = first :: a :: b :: c :: (size ++ frame.2)

theorem IsFrame.next {frame : UInt8 × Bytes} {text : Bytes} (h : IsFrame frame text) :
    frameReader.next text = some (frame, []) := by
  obtain ⟨first, a, b, c, size, hsize, hvalue, hstream, rfl⟩ := h
  show nextFrame _ = _
  rw [nextFrame_header first a b c hsize, hvalue, if_neg (Nat.lt_irrefl _), List.take_length,
    List.drop_length, ← hstream]

/-- The beginning of a frame, not all of it. -/
def Partial (text : Bytes) : Prop := ∃ frame more, more ≠ [] ∧ IsFrame frame (text ++ more)

theorem Partial.next {text : Bytes} (h : Partial text) : frameReader.next text = none := by
  obtain ⟨frame, more, hmore, hframe⟩ := h
  cases hnext : frameReader.next text with
  | none => rfl
  | some item =>
    have hwhole := frameReader_stable text item.1 item.2 more hnext
    rw [hframe.next] at hwhole
    have hrest : [] = item.2 ++ more := (Prod.mk.inj (Option.some.inj hwhole)).2
    exact absurd (List.append_eq_nil_iff.mp hrest.symm).2 hmore

theorem frames_feed {frames : List (UInt8 × Bytes)} {texts reads : List Bytes}
    (hframes : List.Forall₂ IsFrame frames texts) {tail : Bytes} (htail : Partial tail)
    (hsame : reads.flatten = texts.flatten ++ tail) : frameReader.feed [] reads = (frames, tail) := by
  rw [Reader.feed_eq frameReader_stable Reader.next_nil, List.nil_append, hsame]
  exact Reader.drain_items frameReader_stable (fun _ _ h => h.next) hframes htail.next

/-- However the bytes of the frames are cut into reads, the same lines are given, long ones too. However
the frames of the two streams alternate, each stream's lines are given in order and are its own: joined
again they are what it wrote, a line is cut only where it is of the longest length, and what never came
whole is left out. -/
theorem streamLogs_lines (body : Bytes) {frames : List (UInt8 × Bytes)} {texts : List Bytes}
    (hframes : List.Forall₂ IsFrame frames texts) {tail : Bytes} (htail : Partial tail) :
    ∃ given,
      (∀ reads : List Bytes, (∀ chunk ∈ reads, chunk ≠ []) → reads.flatten = texts.flatten ++ tail →
        streamLogs 200 body reads = .ok (given.map fun line => Python.decodeReplace line.2)) ∧
      ∀ source, ∃ lines last, ofSource source given = lines ++ (if last.isEmpty then [] else [last]) ∧
        Split (payloads source frames).flatten lines last ∧
        newline ∉ last ∧ last.length < maxStreamLine ∧
        (ShortLines (payloads source frames).flatten →
          (payloads source frames).flatten.splitOn newline = lines ++ [last]) := by
  let ended := handleFrames (fun _ => []) frames
  refine ⟨ended.1 ++ lastLines ended.2, fun reads hreads hsame => ?_, fun source => ?_⟩
  · have hfollow := follow_eq hreads [] fun _ => []
    rw [frames_feed hframes htail hsame] at hfollow
    unfold streamLogs
    rw [if_neg (by decide), hfollow]
  · obtain ⟨hlines, hheld⟩ := handleFrames_ofSource (fun _ => []) source frames
    have hsplit := split_feed [] (payloads source frames)
    obtain ⟨hlast, hlength⟩ := nextLine_none (next_feed Reader.next_nil (payloads source frames))
    refine ⟨(lineReader.feed [] (payloads source frames)).1,
      (lineReader.feed [] (payloads source frames)).2, ?_, hsplit, hlast, hlength,
      fun hshort => hsplit.splitOn hshort hlast⟩
    rw [ofSource_append, hlines, ofSource_lastLines, hheld]

def sampleFrames : List (UInt8 × Bytes) := [(2, [33]), (1, [97, 10, 98]), (2, [10])]

def sampleReads : List Bytes :=
  [[2, 0, 0, 0, 0, 0, 0], [1, 33, 1, 0, 0, 0, 0, 0, 0, 3, 97], [10, 98, 2, 0, 0, 0, 0, 0, 0, 1, 10, 1, 0]]

theorem sampleReads_lines : ∃ given,
    streamLogs 200 [] sampleReads = .ok (given.map fun line => Python.decodeReplace line.2) ∧
      ∀ source, ∃ lines last, ofSource source given = lines ++ (if last.isEmpty then [] else [last]) ∧
        Split (payloads source sampleFrames).flatten lines last ∧
        newline ∉ last ∧ last.length < maxStreamLine ∧
        (ShortLines (payloads source sampleFrames).flatten →
          (payloads source sampleFrames).flatten.splitOn newline = lines ++ [last]) := by
  obtain ⟨given, hreads, hsources⟩ := @streamLogs_lines [] sampleFrames
    [[2, 0, 0, 0, 0, 0, 0, 1, 33], [1, 0, 0, 0, 0, 0, 0, 3, 97, 10, 98], [2, 0, 0, 0, 0, 0, 0, 1, 10]]
    (.cons ⟨2, 0, 0, 0, [0, 0, 0, 1], rfl, rfl, by decide, rfl⟩
      (.cons ⟨1, 0, 0, 0, [0, 0, 0, 3], rfl, rfl, by decide, rfl⟩
        (.cons ⟨2, 0, 0, 0, [0, 0, 0, 1], rfl, rfl, by decide, rfl⟩ .nil))) [1, 0]
    ⟨(1, []), [0, 0, 0, 0, 0, 0], by decide, 1, 0, 0, 0, [0, 0, 0, 0], rfl, rfl, by decide, rfl⟩
  exact ⟨given, hreads sampleReads (by decide) rfl, hsources⟩

/-- A body in hand holds the payloads, and text where it holds no whole frame. -/
theorem demux_frames {frames : List (UInt8 × Bytes)} {texts : List Bytes}
    (hframes : List.Forall₂ IsFrame frames texts) {tail : Bytes} (htail : Partial tail) :
    demux (texts.flatten ++ tail) =
      Python.decodeReplace (if frames.isEmpty then tail else frames.flatMap Prod.snd) := by
  have hdrain : demuxFrames (texts.flatten ++ tail) = (frames, tail) :=
    Reader.drain_items frameReader_stable (fun _ _ h => h.next) hframes htail.next
  unfold demux
  rw [hdrain]
  cases hframes with
  | nil => rfl
  | cons => rfl

end Agent
