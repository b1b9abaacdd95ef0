import Kierki.Lib.Frames
import Kierki.Lib.Lts
import Kierki.Lines

/-!
# Lines through a socket

`read_from_socket` and `write_to_socket`. Both are loops over a system call that may do less than it was
asked for. The condition of the reading loop never changes, since the body declares a variable of the
same name; what ends it is the test for the delimiter, the limit on the bytes read, or a `read` that
reads nothing.

A sender and a receiver are then put at the two ends of a connection, moving in any order: what was
written and not yet read is on the wire, and an interleaving says when it arrives.
-/

namespace Kierki

open Lib.Frames Lib.Lts

namespace Sockets

/-! ### `read_from_socket` -/

/-- `MAX_BUFFER_SIZE` -/
def maxBufferSize : ℕ := 90

/-- What `read` of one byte does. -/
inductive ReadResult
  | byte (c : Char)
  /-- It returns a number that is not positive: the stream has ended, or the call fails. -/
  | stop (r : ℤ) (h : r ≤ 0)

/-- The variables of `read_from_socket`, the buffer of the caller among them. -/
structure Reading where
  buffer : Text := []
  totalRead : ℕ := 0

/-- One turn of the loop of `read_from_socket`: it goes on, or returns with a result and the buffer. -/
def readTurn (rd : Reading) : ReadResult → Reading ⊕ (ℤ × Text)
  | .stop r _ => .inr (r, rd.buffer)
  | .byte c =>
    let buffer := rd.buffer ++ [c]
    let totalRead := rd.totalRead + 1
    if 2 ≤ buffer.length ∧ delimeter <:+ buffer then .inr (buffer.length, buffer)
    else if maxBufferSize < totalRead then .inr (-1, buffer)
    else .inl { buffer := buffer, totalRead := totalRead }

/-- How a call ended: its result, the buffer and the number of calls of `read`. -/
structure Return where
  result : ℤ
  buffer : Text
  calls : ℕ

/-- The loop of `read_from_socket`, `n` being the calls of `read` so far. -/
def readLoop (reads : ℕ → ReadResult) : (fuel n : ℕ) → Reading → Option Return
  | 0, _, _ => none
  | fuel + 1, n, rd =>
    match readTurn rd (reads n) with
    | .inl rd => readLoop reads fuel (n + 1) rd
    | .inr (result, buffer) => some { result := result, buffer := buffer, calls := n + 1 }

/-- **`read_from_socket`** with an empty buffer, the calls of `read` ending as `reads` says. -/
def readFromSocket (reads : ℕ → ReadResult) (fuel : ℕ) : Option Return := readLoop reads fuel 0 {}

/-- The bytes are the first ones that are read. -/
def Begins (reads : ℕ → ReadResult) (buffer : Text) : Prop :=
  (List.range buffer.length).map reads = buffer.map .byte

/-- **How a call may end**, and what it has read. -/
inductive Ends (reads : ℕ → ReadResult) : Return → Prop
  /-- With the result of a `read` that read nothing. -/
  | stopped (buffer : Text) (r : ℤ) (h : r ≤ 0) (hbytes : Begins reads buffer)
      (hstop : reads buffer.length = .stop r h) (hopen : Open delimeter buffer)
      (hlen : buffer.length ≤ 90) :
      Ends reads { result := r, buffer := buffer, calls := buffer.length + 1 }
  /-- With a line, and nothing read beyond its end. -/
  | line (l : Text) (hbytes : Begins reads l) (hl : Framed delimeter l) (hlen : l.length ≤ 91) :
      Ends reads { result := l.length, buffer := l, calls := l.length }
  /-- With -1 after 91 bytes without a delimiter. -/
  | tooLong (buffer : Text) (hbytes : Begins reads buffer) (hopen : Open delimeter buffer)
      (hlen : buffer.length = 91) : Ends reads { result := -1, buffer := buffer, calls := 91 }

lemma readTurn_byte {rd : Reading} (h : rd.totalRead = rd.buffer.length) (c : Char) :
    readTurn rd (.byte c) =
      if delimeter <:+ rd.buffer ++ [c] then .inr ((rd.buffer ++ [c]).length, rd.buffer ++ [c])
      else if maxBufferSize < (rd.buffer ++ [c]).length then .inr (-1, rd.buffer ++ [c])
      else .inl { buffer := rd.buffer ++ [c], totalRead := (rd.buffer ++ [c]).length } := by
  have hiff : (2 ≤ (rd.buffer ++ [c]).length ∧ delimeter <:+ rd.buffer ++ [c]) ↔
      delimeter <:+ rd.buffer ++ [c] :=
    ⟨And.right, fun hd => ⟨hd.length_le, hd⟩⟩
  simp only [readTurn, hiff, h]
  simp only [List.length_append, List.length_singleton]

lemma Begins.snoc {reads : ℕ → ReadResult} {buffer : Text} {c : Char} (h : Begins reads buffer)
    (hc : reads buffer.length = .byte c) : Begins reads (buffer ++ [c]) := by
  unfold Begins at *
  rw [List.length_append, List.length_singleton, List.range_succ, List.map_append, h, List.map_append,
    List.map_singleton, hc]
  rfl

lemma readLoop_ends {reads : ℕ → ReadResult} {fuel : ℕ} (rd : Reading)
    (htotal : rd.totalRead = rd.buffer.length) (hlen : rd.buffer.length ≤ 90)
    (hbytes : Begins reads rd.buffer) (hopen : Open delimeter rd.buffer)
    (hfuel : 91 ≤ fuel + rd.buffer.length) :
    ∃ ret, readLoop reads fuel rd.buffer.length rd = some ret ∧ Ends reads ret := by
  induction fuel generalizing rd with
  | zero => omega
  | succ fuel ih =>
    simp only [readLoop]
    cases hread : reads rd.buffer.length with
    | stop r hr => exact ⟨_, rfl, .stopped _ r hr hbytes hread hopen hlen⟩
    | byte c =>
      have hb := hbytes.snoc hread
      have hl : (rd.buffer ++ [c]).length = rd.buffer.length + 1 := by simp
      rw [readTurn_byte htotal]
      split_ifs with hd hmax
      · have hline := Ends.line _ hb (hopen.framed hd) (by omega)
        rw [hl] at hline
        exact ⟨_, rfl, by rwa [hl]⟩
      · unfold maxBufferSize at hmax
        have h91 : (rd.buffer ++ [c]).length = 91 := by omega
        refine ⟨_, rfl, ?_⟩
        rw [show rd.buffer.length + 1 = 91 by omega]
        exact .tooLong _ hb (hopen.snoc hd) h91
      · unfold maxBufferSize at hmax
        have hlen' : (rd.buffer ++ [c]).length ≤ 90 := by omega
        have hfuel' : 91 ≤ fuel + (rd.buffer ++ [c]).length := by omega
        have := ih ⟨rd.buffer ++ [c], (rd.buffer ++ [c]).length⟩ rfl hlen' hb (hopen.snoc hd) hfuel'
        simpa only [hl] using this

/-- **`read_from_socket` ends on every stream**, after at most 91 calls of `read`. -/
theorem readFromSocket_ends (reads : ℕ → ReadResult) {fuel : ℕ} (h : 91 ≤ fuel) :
    ∃ ret, readFromSocket reads fuel = some ret ∧ Ends reads ret :=
  readLoop_ends {} rfl (by decide) rfl (open_nil (by decide)) h

/-! ### `write_to_socket` -/

/-- The variables of `write_to_socket`; `rest` are the `buffer_length` bytes from `iter_ptr` on. -/
structure Writing where
  storeBuffLen : ℕ
  rest : Text

/-- The variables when `write_to_socket` is called. -/
def Writing.call (buffer : Text) : Writing := { storeBuffLen := buffer.length, rest := buffer }

/-- The test of the loop, and the return behind it. -/
def writeTest (w : Writing) : Writing ⊕ ℤ :=
  if w.rest = [] then .inr (w.storeBuffLen - w.rest.length) else .inl w

/-- One turn of the loop of `write_to_socket`, `bytesWritten` being what `write` returns. -/
def writeTurn (w : Writing) (bytesWritten : ℤ) : Writing ⊕ ℤ :=
  if bytesWritten ≤ 0 then .inr bytesWritten
  else writeTest { w with rest := w.rest.drop bytesWritten.toNat }

/-! ### The two ends of a connection -/

/-- A sender that writes messages one after another, and a receiver that calls `read_from_socket` again
and again, each time with an empty buffer. -/
structure Link where
  /-- The messages `write_to_socket` has still to be called for. -/
  toSend : List Text
  writing : Option Writing := none
  /-- What the calls of `write_to_socket` returned. -/
  writeResults : List ℤ := []
  /-- All the bytes written so far. -/
  written : Text := []
  wire : Text := []
  reading : Reading := {}
  /-- What the calls of `read_from_socket` returned, with their buffers. -/
  readResults : List (ℤ × Text) := []
  /-- All the bytes read so far. -/
  consumed : Text := []

inductive LinkAct
  /-- The sender calls `write_to_socket` for the next message. -/
  | call
  /-- `write` returns to the sender. -/
  | write (bytesWritten : ℤ)
  /-- `read` returns a byte to the receiver. -/
  | read
  deriving DecidableEq

/-- `write_to_socket` goes on or has returned. -/
def Link.wrote (l : Link) : Writing ⊕ ℤ → Link
  | .inl w => { l with writing := some w }
  | .inr r => { l with writing := none, writeResults := l.writeResults ++ [r] }

/-- `read_from_socket` goes on, or has returned and is called again. -/
def Link.got (l : Link) : Reading ⊕ (ℤ × Text) → Link
  | .inl rd => { l with reading := rd }
  | .inr r => { l with reading := {}, readResults := l.readResults ++ [r] }

section Frame

variable (l : Link) (x : Writing ⊕ ℤ) (y : Reading ⊕ (ℤ × Text))

@[simp] lemma Link.wrote_toSend : (l.wrote x).toSend = l.toSend := by cases x <;> rfl
@[simp] lemma Link.wrote_written : (l.wrote x).written = l.written := by cases x <;> rfl
@[simp] lemma Link.wrote_wire : (l.wrote x).wire = l.wire := by cases x <;> rfl
@[simp] lemma Link.wrote_reading : (l.wrote x).reading = l.reading := by cases x <;> rfl
@[simp] lemma Link.wrote_readResults : (l.wrote x).readResults = l.readResults := by cases x <;> rfl
@[simp] lemma Link.wrote_consumed : (l.wrote x).consumed = l.consumed := by cases x <;> rfl
@[simp] lemma Link.got_toSend : (l.got y).toSend = l.toSend := by cases y <;> rfl
@[simp] lemma Link.got_writing : (l.got y).writing = l.writing := by cases y <;> rfl
@[simp] lemma Link.got_writeResults : (l.got y).writeResults = l.writeResults := by cases y <;> rfl
@[simp] lemma Link.got_written : (l.got y).written = l.written := by cases y <;> rfl
@[simp] lemma Link.got_wire : (l.got y).wire = l.wire := by cases y <;> rfl
@[simp] lemma Link.got_consumed : (l.got y).consumed = l.consumed := by cases y <;> rfl

end Frame

/-- One step at one of the ends. The receiver waits while nothing is on the wire. -/
def linkStep (l : Link) : LinkAct → Option Link
  | .call =>
    match l.writing, l.toSend with
    | none, m :: ms => some ({ l with toSend := ms }.wrote (writeTest (.call m)))
    | _, _ => none
  | .write bytesWritten =>
    match l.writing with
    | none => none
    | some w =>
      if bytesWritten ≤ w.rest.length then
        let bytes := w.rest.take bytesWritten.toNat
        some ({ l with
          written := l.written ++ bytes
          wire := l.wire ++ bytes }.wrote (writeTurn w bytesWritten))
      else none
  | .read =>
    match l.wire with
    | [] => none
    | c :: wire =>
      some ({ l with
        wire := wire
        consumed := l.consumed ++ [c] }.got (readTurn l.reading (.byte c)))

/-- Every `write` writes something, as little as it may be. -/
def Positive (_ : Link) : LinkAct → Prop
  | .write bytesWritten => 0 < bytesWritten
  | .call | .read => True

instance (l : Link) : (a : LinkAct) → Decidable (Positive l a)
  | .write bytesWritten => inferInstanceAs (Decidable (0 < bytesWritten))
  | .call | .read => inferInstanceAs (Decidable True)

/-- A message that `read_from_socket` can read: it ends with the delimiter, has none before its end, and
is no longer than the limit allows. -/
structure Message (m : Text) : Prop where
  framed : Framed delimeter m
  length_le : m.length ≤ 91

/-- What the sender has done: whole messages, and a part of the next one inside a call. -/
inductive Sent (ms : List Text) (l : Link) : Prop
  | between (done : List Text) (hw : l.writing = none) (hms : ms = done ++ l.toSend)
      (hresults : l.writeResults = done.map fun m => (m.length : ℤ))
      (hwritten : l.written = done.flatten)
  | inside (done : List Text) (part : Text) (w : Writing) (hw : l.writing = some w)
      (hms : ms = done ++ (part ++ w.rest) :: l.toSend) (hlen : w.storeBuffLen = (part ++ w.rest).length)
      (hne : w.rest ≠ []) (hresults : l.writeResults = done.map fun m => (m.length : ℤ))
      (hwritten : l.written = done.flatten ++ part)

/-- What the receiver has done: whole messages, and a part of the next one in the buffer. -/
structure Received (ms got left : List Text) (l : Link) : Prop where
  messages : ms = got ++ left
  results : l.readResults = got.map fun m => ((m.length : ℤ), m)
  consumed : l.consumed = got.flatten ++ l.reading.buffer
  total : l.reading.totalRead = l.reading.buffer.length
  inside : Inside l.reading.buffer left

/-- **The invariant of the connection.** -/
structure Linked (ms : List Text) (l : Link) : Prop where
  sent : Sent ms l
  wire : l.written = l.consumed ++ l.wire
  received : ∃ got left, Received ms got left l

section Steps

variable {ms : List Text} {l l' : Link}

lemma Sent.written_prefix (h : Sent ms l) : l.written <+: ms.flatten := by
  cases h with
  | between done hw hms hresults hwritten =>
    rw [hwritten, hms, List.flatten_append]
    exact List.prefix_append _ _
  | inside done part w hw hms hlen hne hresults hwritten =>
    rw [hwritten, hms, List.flatten_append, List.flatten_cons, List.append_assoc]
    exact (List.prefix_append_right_inj _).mpr (List.prefix_append _ _)

/-- The loop of `write_to_socket` goes on with what is left of the message, or returns its length. -/
lemma Sent.test (done : List Text) (part : Text) (w : Writing)
    (hms : ms = done ++ (part ++ w.rest) :: l.toSend) (hlen : w.storeBuffLen = (part ++ w.rest).length)
    (hresults : l.writeResults = done.map fun m => (m.length : ℤ))
    (hwritten : l.written = done.flatten ++ part) : Sent ms (l.wrote (writeTest w)) := by
  unfold writeTest
  split_ifs with hrest
  · rw [hrest, List.append_nil] at hms hlen
    refine .between (done ++ [part]) rfl (by simpa [Link.wrote] using hms) ?_ ?_
    · simp [Link.wrote, hresults, hrest, hlen]
    · simp [Link.wrote, hwritten]
  · exact .inside done part w rfl hms hlen hrest hresults hwritten

lemma Sent.congr (h : Sent ms l) (hw : l'.writing = l.writing) (hto : l'.toSend = l.toSend)
    (hres : l'.writeResults = l.writeResults) (hwr : l'.written = l.written) : Sent ms l' := by
  cases h with
  | between done hw' hms hresults hwritten =>
    exact .between done (hw.trans hw') (hto ▸ hms) (hres.trans hresults) (hwr.trans hwritten)
  | inside done part w hw' hms hlen hne hresults hwritten =>
    exact .inside done part w (hw.trans hw') (hto ▸ hms) hlen hne (hres.trans hresults)
      (hwr.trans hwritten)

lemma Sent.call {m : Text} {rest : List Text} (h : Sent ms l) (hw : l.writing = none)
    (hto : l.toSend = m :: rest) :
    Sent ms ({ l with toSend := rest }.wrote (writeTest (.call m))) := by
  cases h with
  | inside done part w hw' => cases hw.symm.trans hw'
  | between done _ hms hresults hwritten =>
    rw [hto] at hms
    exact .test (l := { l with toSend := rest }) done [] (.call m) hms rfl hresults
      (hwritten.trans (List.append_nil _).symm)

lemma Sent.write {w : Writing} {n : ℤ} (h : Sent ms l) (hw : l.writing = some w) (hn : 0 < n) :
    Sent ms ({ l with
      written := l.written ++ w.rest.take n.toNat
      wire := l.wire ++ w.rest.take n.toNat }.wrote (writeTurn w n)) := by
  cases h with
  | between done hw' => cases hw.symm.trans hw'
  | inside done part w' hw' hms hlen hne hresults hwritten =>
    obtain rfl := Option.some.inj (hw.symm.trans hw')
    have hcut : part ++ w.rest = part ++ w.rest.take n.toNat ++ w.rest.drop n.toNat := by
      rw [List.append_assoc, List.take_append_drop]
    rw [writeTurn, if_neg (by omega)]
    refine .test done (part ++ w.rest.take n.toNat) { w with rest := w.rest.drop n.toNat } ?_ ?_
      hresults ?_
    · rw [hms, hcut]
    · rw [hlen, hcut]
    · rw [hwritten, List.append_assoc]

/-- **A `read` brings the receiver on inside its message**, or to the end of it. -/
lemma Received.read {got left : List Text} {c : Char} {wire : Text} (h : Received ms got left l)
    (hmessages : ∀ m ∈ ms, Message m) (hwire : l.consumed ++ c :: wire <+: ms.flatten) :
    ∃ got left, Received ms got left
      ({ l with wire := wire, consumed := l.consumed ++ [c] }.got (readTurn l.reading (.byte c))) := by
  have hleft : ∀ m ∈ left, Message m := fun m hm => hmessages m (by simp [h.messages, hm])
  obtain ⟨after, hafter⟩ := hwire
  rw [h.messages, h.consumed, List.flatten_append, List.append_assoc, List.append_assoc,
    List.append_cancel_left_eq] at hafter
  rw [readTurn_byte h.total]
  obtain ⟨m, rest, hmr, ⟨hend, -⟩ | ⟨hin, hopen, hlen⟩⟩ :=
    h.inside.next (fun m hm => (hleft m hm).framed) hafter
  all_goals
    subst hmr
    have hm := hleft m (by simp)
  · rw [hend, if_pos hm.framed.ends]
    refine ⟨got ++ [m], rest, ?_, ?_, ?_, rfl, ?_⟩
    · rw [h.messages, List.append_assoc, List.singleton_append]
    · simp [Link.got, h.results]
    · simp [Link.got, h.consumed, ← hend]
    · exact inside_nil (by decide) fun m hm => (hleft m (by simp [hm])).framed
  · have hle := hm.length_le
    rw [if_neg hopen, if_neg (by unfold maxBufferSize; omega)]
    refine ⟨got, m :: rest, h.messages, h.results, ?_, rfl, hin⟩
    simp [Link.got, h.consumed]

/-- **One step keeps the invariant**, whichever end moves. -/
lemma Linked.step {a : LinkAct} (hmessages : ∀ m ∈ ms, Message m) (h : Linked ms l)
    (ha : Positive l a) (hs : linkStep l a = some l') : Linked ms l' := by
  obtain ⟨hsent, hwire, got, left, hr⟩ := h
  cases a with
  | call =>
    simp only [linkStep] at hs
    split at hs
    · rename_i m rest hw hto
      cases hs
      refine ⟨hsent.call hw hto, by simpa using hwire, got, left, ?_⟩
      exact ⟨hr.messages, by simpa using hr.results, by simpa using hr.consumed,
        by simpa using hr.total, by simpa using hr.inside⟩
    · cases hs
  | write n =>
    simp only [linkStep] at hs
    split at hs
    · cases hs
    · rename_i w hw
      split_ifs at hs with hn
      cases hs
      refine ⟨hsent.write hw ha, by simp [hwire], got, left, ?_⟩
      exact ⟨hr.messages, by simpa using hr.results, by simpa using hr.consumed,
        by simpa using hr.total, by simpa using hr.inside⟩
  | read =>
    simp only [linkStep] at hs
    split at hs
    · cases hs
    · rename_i c wire hw
      cases hs
      have hpre : l.consumed ++ c :: wire <+: ms.flatten := by
        rw [← hw, ← hwire]
        exact hsent.written_prefix
      refine ⟨hsent.congr (by simp) (by simp) (by simp) (by simp), ?_, hr.read hmessages hpre⟩
      simp [hwire, hw]

end Steps

/-- What a sender and a receiver have a right to: `write_to_socket` has returned the full length of each
message so far, and written its bytes once and in order; `read_from_socket` has returned the messages so
far one by one with their lengths, and a return has left the bytes of the next message alone. -/
structure Delivers (ms : List Text) (l : Link) : Prop where
  writeResults : l.writeResults = (ms.take l.writeResults.length).map fun m => (m.length : ℤ)
  written : l.written <+: ms.flatten
  returned : l.writing = none → l.written = (ms.take l.writeResults.length).flatten
  readResults : l.readResults = (ms.take l.readResults.length).map fun m => ((m.length : ℤ), m)
  consumed : l.consumed = (ms.take l.readResults.length).flatten ++ l.reading.buffer
  wire : l.written = l.consumed ++ l.wire

/-- All the messages have been sent and read. -/
structure Delivered (ms : List Text) (l : Link) : Prop where
  writeResults : l.writeResults = ms.map fun m => (m.length : ℤ)
  written : l.written = ms.flatten
  readResults : l.readResults = ms.map fun m => ((m.length : ℤ), m)
  consumed : l.consumed = ms.flatten

/-- The bytes and the calls still to come. -/
def Link.left (l : Link) : ℕ :=
  2 * ((l.writing.elim 0 fun w => w.rest.length) + l.toSend.flatten.length) + l.toSend.length +
    l.wire.length

section Runs

variable {ms : List Text} {l l' : Link}

lemma Linked.delivers (h : Linked ms l) : Delivers ms l := by
  obtain ⟨hsent, hwire, got, left, hr⟩ := h
  have htake : ms.take l.readResults.length = got := by
    rw [hr.results, List.length_map, hr.messages, List.take_left]
  obtain ⟨done, next, hms, hresults, hreturned⟩ : ∃ done next, ms = done ++ next ∧
      l.writeResults = (done.map fun m => (m.length : ℤ)) ∧
      (l.writing = none → l.written = done.flatten) := by
    cases hsent with
    | between done _ hms hresults hwritten => exact ⟨done, _, hms, hresults, fun _ => hwritten⟩
    | inside done part w hw hms _ _ hresults =>
      exact ⟨done, _, hms, hresults, fun hnone => (nomatch hnone.symm.trans hw)⟩
  have hdone : ms.take l.writeResults.length = done := by
    rw [hresults, List.length_map, hms, List.take_left]
  exact ⟨by rw [hdone, hresults], hsent.written_prefix, fun hw => hdone ▸ hreturned hw,
    by rw [htake, hr.results], htake ▸ hr.consumed, hwire⟩

lemma pending_test (w : Writing) :
    ((l.wrote (writeTest w)).writing.elim 0 fun w => w.rest.length) = w.rest.length := by
  unfold writeTest
  split_ifs with hrest
  · simp [Link.wrote, hrest]
  · rfl

lemma left_lt {a : LinkAct} (ha : Positive l a) (hs : linkStep l a = some l') : l'.left < l.left := by
  unfold Link.left
  cases a with
  | call =>
    simp only [linkStep] at hs
    split at hs
    · rename_i m rest hw hto
      cases hs
      rw [pending_test]
      simp only [Link.wrote_toSend, Link.wrote_wire, hw, hto, Writing.call, Option.elim_none,
        List.flatten_cons, List.length_append, List.length_cons]
      omega
    · cases hs
  | write n =>
    simp only [linkStep] at hs
    split at hs
    · cases hs
    · rename_i w hw
      split_ifs at hs with hn
      cases hs
      have hpos : 0 < n := ha
      rw [writeTurn, if_neg (by omega), pending_test]
      simp only [Link.wrote_toSend, Link.wrote_wire, hw, Option.elim_some, List.length_append,
        List.length_take, List.length_drop]
      omega
  | read =>
    simp only [linkStep] at hs
    split at hs
    · cases hs
    · rename_i c wire hw
      cases hs
      simp only [Link.got_toSend, Link.got_wire, Link.got_writing, hw, List.length_cons]
      omega

/-- **A connection that has come to rest has delivered everything.** -/
lemma Linked.delivered (h : Linked ms l) (hrest : ∀ a, Positive l a → linkStep l a = none) :
    Delivered ms l := by
  obtain ⟨hsent, hwire, got, left, hr⟩ := h
  have hempty : l.wire = [] := by
    have hread := hrest .read trivial
    simp only [linkStep] at hread
    split at hread
    · assumption
    · cases hread
  cases hsent with
  | inside done part w hw hms hlen hne =>
    -- a call in progress could write one more byte
    have hwrite := hrest (.write 1) (show (0 : ℤ) < 1 by decide)
    have hpos := List.length_pos_iff.mpr hne
    simp only [linkStep, hw] at hwrite
    rw [if_pos (by omega)] at hwrite
    cases hwrite
  | between done hw hms hresults hwritten =>
    have hto : l.toSend = [] := by
      have hcall := hrest .call trivial
      simp only [linkStep, hw] at hcall
      split at hcall
      · cases hcall
      · rename_i hnot
        cases hto : l.toSend with
        | nil => rfl
        | cons m rest => exact absurd hto (hnot m rest rfl)
    rw [hto, List.append_nil] at hms
    subst hms
    have hconsumed : l.consumed = ms.flatten := by rw [← hwritten, hwire, hempty, List.append_nil]
    have hleft : left = [] := by
      refine hr.inside.eq_nil (List.append_cancel_left (?_ : got.flatten ++ _ = got.flatten ++ _))
      rw [← hr.consumed, hconsumed, hr.messages, List.flatten_append]
    have hgot : ms = got := by rw [hr.messages, hleft, List.append_nil]
    exact ⟨hresults, hwritten, hgot ▸ hr.results, hconsumed⟩

/-- The connection before the first call. -/
def start (ms : List Text) : Link := { toSend := ms }

lemma linked_start (hmessages : ∀ m ∈ ms, Message m) : Linked ms (start ms) where
  sent := .between [] rfl rfl rfl rfl
  wire := rfl
  received := ⟨[], ms, rfl, rfl, rfl, rfl,
    inside_nil (by decide) fun m hm => (hmessages m hm).framed⟩

lemma linked (hmessages : ∀ m ∈ ms, Message m) (h : Reach linkStep Positive (start ms) l) :
    Linked ms l :=
  h.invariant (I := Linked ms) (linked_start hmessages) fun _ _ _ hi ha hs => hi.step hmessages ha hs

end Runs

/-! ### The lines of the senders -/

open Senders

/-- The lines the senders build, with numbers and cards as the game has them. -/
inductive SenderLine : Text → Prop
  | iam (seat : Seat) : SenderLine (iamLine seat)
  | busy (seats : List Seat) (h : seats.length ≤ 4) : SenderLine (busyLine seats)
  | deal (dealType : ℕ) (startSeat : Seat) (cards : List Text) (htype : 1 ≤ dealType ∧ dealType ≤ 7)
      (h13 : cards.length ≤ 13) (hcards : ∀ card ∈ cards, IsCard card) :
      SenderLine (dealLine dealType startSeat cards)
  | trick (n : ℕ) (cards : List Text) (hn : 1 ≤ n ∧ n ≤ 13) (h4 : cards.length ≤ 4)
      (hcards : ∀ card ∈ cards, IsCard card) : SenderLine (trickLine n cards)
  | wrong (n : ℕ) (hn : 1 ≤ n ∧ n ≤ 13) : SenderLine (wrongLine n)
  | taken (n : ℕ) (cards : List Text) (takingSeat : Seat) (hn : 1 ≤ n ∧ n ≤ 13)
      (h4 : cards.length ≤ 4) (hcards : ∀ card ∈ cards, IsCard card) :
      SenderLine (takenLine n cards takingSeat)
  | score (scores : Seat → ℤ) (h : ∀ s, -2147483648 ≤ scores s ∧ scores s < 2147483648) :
      SenderLine (scoreLine scores)
  | total (scores : Seat → ℤ) (h : ∀ s, -2147483648 ≤ scores s ∧ scores s < 2147483648) :
      SenderLine (totalLine scores)

/-- What may stand in a line before its delimiter, and how long it is at most. -/
structure Part (n : ℕ) (p : Text) : Prop where
  notMem : '\n' ∉ p
  length_le : p.length ≤ n

section Parts

variable {n k : ℕ} {p q : Text}

lemma Part.append (hp : Part n p) (hq : Part k q) : Part (n + k) (p ++ q) := by
  refine ⟨by simp [hp.notMem, hq.notMem], ?_⟩
  have hp' := hp.length_le
  have hq' := hq.length_le
  rw [List.length_append]
  omega

lemma part_flatten {ps : List Text} (h : ∀ p ∈ ps, Part n p) : Part (n * ps.length) ps.flatten := by
  induction ps with
  | nil => exact ⟨by simp, by simp⟩
  | cons p ps ih =>
    have happ := (h p (by simp)).append (ih fun q hq => h q (by simp [hq]))
    rw [List.flatten_cons, List.length_cons, Nat.mul_succ, Nat.add_comm]
    exact happ

lemma Part.message (h : Part n p) (hn : n ≤ 89) : Message (p ++ delimeter) := by
  have hframed : Framed (['\r'] ++ ['\n']) (p ++ (['\r'] ++ ['\n'])) :=
    framed_of_notMem (by decide) h.notMem
  refine ⟨hframed, ?_⟩
  have hlen := h.length_le
  rw [List.length_append]
  show p.length + 2 ≤ 91
  omega

lemma part_seat (s : Seat) : Part 1 s.name := by
  cases s <;> exact ⟨by decide, by decide⟩

lemma part_card (h : IsCard p) : Part 3 p := by
  refine ⟨fun hmem => ?_, h.length_pos.2⟩
  rcases isCard_iff.mp h with ⟨a, b, rfl, ha, hb⟩ | ⟨b, rfl, hb⟩
  · simp only [List.mem_cons, List.not_mem_nil, or_false] at hmem
    rcases hmem with rfl | rfl
    · exact absurd ha (by decide)
    · exact absurd hb (by decide)
  · simp only [List.mem_cons, List.not_mem_nil, or_false] at hmem
    rcases hmem with h | h | rfl
    · exact absurd h (by decide)
    · exact absurd h (by decide)
    · exact absurd hb (by decide)

lemma part_toText (hk : 0 < k) (h : n < 10 ^ k) : Part k (toText n) :=
  ⟨fun hmem => absurd (toText_isDigit hmem) (by decide),
    (Nat.length_toDigits_le_iff (by decide) hk).mpr h⟩

lemma part_intText {x : ℤ} (h : -2147483648 ≤ x ∧ x < 2147483648) : Part 11 (intText x) := by
  obtain ⟨h₁, h₂⟩ := h
  cases x with
  | ofNat n =>
    rw [Int.ofNat_eq_natCast] at h₂
    have hn : Part 10 (toText n) := part_toText (by decide) (by omega)
    exact ⟨hn.notMem, hn.length_le.trans (by decide)⟩
  | negSucc n =>
    have hn : Part 10 (toText (n + 1)) := part_toText (by decide) (by omega)
    exact Part.append (n := 1) (p := ['-']) ⟨by decide, by decide⟩ hn

lemma part_scores {scores : Seat → ℤ} (h : ∀ s, -2147483648 ≤ scores s ∧ scores s < 2147483648) :
    Part 48 (scoresText scores) := by
  have hseats : ∀ p ∈ Seat.mapOrder.map fun s => s.name ++ intText (scores s), Part 12 p := by
    intro p hp
    obtain ⟨s, -, rfl⟩ := List.mem_map.mp hp
    exact (part_seat s).append (part_intText (h s))
  exact part_flatten hseats

end Parts

/-- **Every line of a sender can be read.** -/
theorem SenderLine.message {l : Text} (h : SenderLine l) : Message l := by
  have hnumber : ∀ n ≤ 13, Part 2 (toText n) := fun n hn => part_toText (by decide) (by omega)
  have hcards : ∀ {cards : List Text}, (∀ card ∈ cards, IsCard card) →
      Part (3 * cards.length) cards.flatten := fun hc => part_flatten fun c h => part_card (hc c h)
  cases h with
  | iam seat =>
    have hword : Part 5 ['I', 'A', 'M'] := ⟨by decide, by decide⟩
    exact (hword.append (part_seat seat)).message (by decide)
  | busy seats h =>
    have hword : Part 5 ['B', 'U', 'S', 'Y'] := ⟨by decide, by decide⟩
    have hseats : Part (1 * (seats.map Seat.name).length) (seats.map Seat.name).flatten :=
      part_flatten (by simp [part_seat])
    rw [List.length_map] at hseats
    exact (hword.append hseats).message (by omega)
  | deal dealType startSeat cards htype h13 hc =>
    have hword : Part 5 ['D', 'E', 'A', 'L'] := ⟨by decide, by decide⟩
    have hfront := (hword.append (hnumber dealType (by omega))).append (part_seat startSeat)
    exact (hfront.append (hcards hc)).message (by omega)
  | trick n cards hn h4 hc =>
    have hword : Part 5 ['T', 'R', 'I', 'C', 'K'] := ⟨by decide, by decide⟩
    exact ((hword.append (hnumber n hn.2)).append (hcards hc)).message (by omega)
  | wrong n hn =>
    have hword : Part 5 ['W', 'R', 'O', 'N', 'G'] := ⟨by decide, by decide⟩
    exact (hword.append (hnumber n hn.2)).message (by decide)
  | taken n cards takingSeat hn h4 hc =>
    have hword : Part 5 ['T', 'A', 'K', 'E', 'N'] := ⟨by decide, by decide⟩
    have hfront := (hword.append (hnumber n hn.2)).append (hcards hc)
    exact (hfront.append (part_seat takingSeat)).message (by omega)
  | score scores h =>
    have hword : Part 5 ['S', 'C', 'O', 'R', 'E'] := ⟨by decide, by decide⟩
    exact (hword.append (part_scores h)).message (by decide)
  | total scores h =>
    have hword : Part 5 ['T', 'O', 'T', 'A', 'L'] := ⟨by decide, by decide⟩
    exact (hword.append (part_scores h)).message (by decide)

/-! ### All together -/

/-- **Framing.** Whatever the partial writes and the delays are, the messages come out one by one as they
went in, in a number of steps that is bounded, and a connection at rest has delivered them all. On every
stream `read_from_socket` ends, in one of the three ways of `Ends`. And the lines of the senders are
messages it can read. -/
theorem framing :
    (∀ ms, (∀ m ∈ ms, Message m) → ∀ as l, exec linkStep Positive (start ms) as = some l →
      Delivers ms l ∧ as.length ≤ 2 * ms.flatten.length + ms.length ∧
        ((∀ a, Positive l a → linkStep l a = none) → Delivered ms l)) ∧
    (∀ reads fuel, 91 ≤ fuel → ∃ ret, readFromSocket reads fuel = some ret ∧ Ends reads ret) ∧
    (∀ l, SenderLine l → Message l) := by
  refine ⟨fun ms hmessages as l hexec => ?_, fun reads fuel h => readFromSocket_ends reads h,
    fun l h => h.message⟩
  have hi := linked hmessages (.of_exec hexec)
  have hlen := length_le_of_exec (fun _ _ _ ha hs => left_lt ha hs) hexec
  have hstart : (start ms).left = 2 * ms.flatten.length + ms.length := by
    simp [start, Link.left]
  exact ⟨hi.delivers, by omega, hi.delivered⟩

/-- Two lines in pieces, which arrive in other pieces. -/
def twoLines : List LinkAct :=
  [.call, .write 2, .read, .write 4, .read, .read, .read, .call, .write 7, .read, .read, .write 1] ++
    List.replicate 8 .read

/-- They come out one by one, and a stream without a delimiter is given up after 91 bytes. -/
theorem framing_two : (∃ l, exec linkStep Positive (start [iamLine .N, wrongLine 1]) twoLines = some l ∧
      Delivers [iamLine .N, wrongLine 1] l ∧
      l.readResults = [(6, iamLine .N), (8, wrongLine 1)]) ∧
    (∃ ret, readFromSocket (fun _ => .byte 'x') 91 = some ret ∧ Ends (fun _ => .byte 'x') ret) ∧
    Message (wrongLine 1) := by
  have hmessages : ∀ m ∈ [iamLine .N, wrongLine 1], Message m := by
    intro m hm
    simp only [List.mem_cons, List.not_mem_nil, or_false] at hm
    rcases hm with rfl | rfl
    · exact (SenderLine.iam .N).message
    · exact (SenderLine.wrong 1 (by decide)).message
  have hrun : (exec linkStep Positive (start [iamLine .N, wrongLine 1]) twoLines).any
      (fun l => decide (l.readResults = [(6, iamLine .N), (8, wrongLine 1)])) = true := by
    decide +kernel
  obtain ⟨l, hl, hres⟩ := (Option.any_eq_true _ _).mp hrun
  exact ⟨⟨l, hl, (framing.1 _ hmessages _ _ hl).1, of_decide_eq_true hres⟩,
    framing.2.1 _ 91 le_rfl, framing.2.2 _ (.wrong 1 (by decide))⟩

end Sockets

end Kierki
