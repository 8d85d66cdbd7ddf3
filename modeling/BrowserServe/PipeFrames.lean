import Mathlib.Data.List.ReduceOption
import BrowserServe.CdpClient
import BrowserServe.Library.Async
import BrowserServe.Library.Framing

namespace BrowserServe
open Library
set_option autoImplicit true

def mapClosed (e : IoError) : PipeError :=
  if e.kind = "broken pipe" then .closed else .io

/-- The pipe after `send_raw` has written its message. -/
def sendRaw (written frame : List UInt8) : List UInt8 := written ++ frame ++ [0]

def takeFrame (buf : List UInt8) (maxFrame : Nat) :
    Except PipeError (Option (List UInt8) × List UInt8) :=
  match buf.idxOf? 0 with
  | some pos =>
    if maxFrame < pos then .error (.frameTooLarge maxFrame)
    else .ok (some (buf.take pos), (buf.drop pos).drop 1)
  | none =>
    if maxFrame < buf.length then .error (.frameTooLarge maxFrame) else .ok (none, buf)

structure CdpReader where
  buf : List UInt8
  maxFrame : Nat
  deriving DecidableEq

/-- How one await of `read_buf` ends: with at least one byte, with an error, or because the
`recv_raw` that waits for it is dropped. Past the last one the stream is at its end. -/
inductive PipeRead where
  | data (byte : UInt8) (bytes : List UInt8)
  | failed (error : IoError)
  | cancelled
  deriving DecidableEq

/-- What one call of `recv_raw` returns, if it is not dropped, with the reader and the reads
it leaves. -/
def CdpReader.recvRaw (reader : CdpReader) (reads : List PipeRead) :
    Option (Except PipeError (List UInt8)) × CdpReader × List PipeRead :=
  match takeFrame reader.buf reader.maxFrame with
  | .error e => (some (.error e), reader, reads)
  | .ok (some frame, buf) => (some (.ok frame), { reader with buf }, reads)
  | .ok (none, buf) =>
    match reads with
    | [] => (some (.error .closed), reader, [])
    | .data byte bytes :: reads => recvRaw { reader with buf := buf ++ byte :: bytes } reads
    | .failed e :: reads => (some (.error (mapClosed e)), reader, reads)
    | .cancelled :: reads => (none, reader, reads)

/-- What a number of calls, one after the other, return. -/
def CdpReader.recvCalls :
    Nat → CdpReader → List PipeRead → List (Option (Except PipeError (List UInt8)))
  | 0, _, _ => []
  | calls + 1, reader, reads =>
    let result := reader.recvRaw reads
    result.1 :: recvCalls calls result.2.1 result.2.2

def PipeRead.bytes : PipeRead → List UInt8
  | .data byte bytes => byte :: bytes
  | _ => []

/-- The bytes of a stream that is cut into reads. -/
def streamOf (reads : List PipeRead) : List UInt8 := reads.flatMap PipeRead.bytes

/-- What `take_frame` finds in a buffer: a frame within the cap, the start of one that is over
it, or an unfinished one within it. -/
inductive Taken (maxFrame : Nat) (buf : List UInt8) :
    Except PipeError (Option (List UInt8) × List UInt8) → Prop
  | frame (hbuf : buf = frame ++ 0 :: rest) (hz : 0 ∉ frame) (hle : frame.length ≤ maxFrame) :
      Taken maxFrame buf (.ok (some frame, rest))
  | tooLarge (hbuf : buf = start ++ rest) (hz : 0 ∉ start) (hlt : maxFrame < start.length) :
      Taken maxFrame buf (.error (.frameTooLarge maxFrame))
  | unfinished (hz : 0 ∉ buf) (hle : buf.length ≤ maxFrame) : Taken maxFrame buf (.ok (none, buf))

theorem split_at_idxOf {buf : List UInt8} (h : buf.idxOf? 0 = some pos) :
    buf = buf.take pos ++ 0 :: (buf.drop pos).drop 1 ∧ 0 ∉ buf.take pos ∧
      (buf.take pos).length = pos := by
  obtain ⟨hlt, hzero, hbefore⟩ := List.findIdx?_eq_some_iff_getElem.1 h
  have hdrop := List.drop_eq_getElem_cons hlt
  refine ⟨?_, ?_, List.length_take_of_le (Nat.le_of_lt hlt)⟩
  · have hsplit := List.take_append_drop pos buf
    rw [hdrop, eq_of_beq hzero] at hsplit
    rw [List.drop_drop]
    exact hsplit.symm
  · intro hmem
    obtain ⟨j, hj, heq⟩ := List.getElem_of_mem hmem
    have hjpos : j < pos := Nat.lt_of_lt_of_le hj (List.length_take_le _ _)
    apply hbefore j hjpos
    rw [List.getElem_take] at heq
    exact beq_iff_eq.2 heq

theorem takeFrame_taken (buf : List UInt8) (maxFrame : Nat) :
    Taken maxFrame buf (takeFrame buf maxFrame) := by
  unfold takeFrame
  cases hpos : buf.idxOf? 0 with
  | some pos =>
    obtain ⟨hbuf, hz, hlen⟩ := split_at_idxOf hpos
    by_cases hlt : maxFrame < pos
    · simp only [if_pos hlt]
      exact .tooLarge hbuf hz (hlen.symm ▸ hlt)
    · simp only [if_neg hlt]
      exact .frame hbuf hz (Nat.le_trans (Nat.le_of_eq hlen) (Nat.le_of_not_lt hlt))
  | none =>
    have hz : 0 ∉ buf := List.idxOf?_eq_none_iff.1 hpos
    by_cases hlt : maxFrame < buf.length
    · simp only [if_pos hlt]
      exact .tooLarge (List.append_nil buf).symm hz hlt
    · simp only [if_neg hlt]
      exact .unfinished hz (Nat.le_of_not_lt hlt)

/-- What a call makes of the stream before it, and the stream it leaves: the buffer and the
reads to come. -/
inductive Delivered (maxFrame : Nat) :
    List UInt8 → Option (Except PipeError (List UInt8)) → List UInt8 → Prop
  | frame (hz : 0 ∉ frame) (hle : frame.length ≤ maxFrame) :
      Delivered maxFrame (frame ++ 0 :: rest) (some (.ok frame)) rest
  | tooLarge (hz : 0 ∉ start) (hlt : maxFrame < start.length) :
      Delivered maxFrame (start ++ rest) (some (.error (.frameTooLarge maxFrame))) (start ++ rest)
  | closed (hz : 0 ∉ stream) (hle : stream.length ≤ maxFrame) :
      Delivered maxFrame stream (some (.error .closed)) stream
  | cancelled : Delivered maxFrame stream none stream

/-- The calls that can still be dropped. -/
def cancellations (reads : List PipeRead) : Nat := reads.count .cancelled

/-- A call delivers the next frame of the stream, leaves the rest, and is dropped once at
most. -/
structure CdpReader.Delivers (reader : CdpReader) (reads : List PipeRead) : Prop where
  delivered : Delivered reader.maxFrame (reader.buf ++ streamOf reads) (reader.recvRaw reads).1
    ((reader.recvRaw reads).2.1.buf ++ streamOf (reader.recvRaw reads).2.2)
  maxFrame : (reader.recvRaw reads).2.1.maxFrame = reader.maxFrame
  unfailed : ∀ e, .failed e ∉ (reader.recvRaw reads).2.2
  count : cancellations (reader.recvRaw reads).2.2 +
    (if (reader.recvRaw reads).1 = none then 1 else 0) = cancellations reads

/-- A buffer that holds a frame, or too much of one, is served without a read. -/
theorem CdpReader.delivers_ready {reader : CdpReader}
    (htaken : Taken reader.maxFrame reader.buf taken)
    (heq : takeFrame reader.buf reader.maxFrame = taken)
    (hready : ∀ buf, taken ≠ .ok (none, buf)) (h : ∀ e, .failed e ∉ reads) :
    reader.Delivers reads := by
  cases htaken with
  | @frame frame rest hbuf hz hle =>
    have hcall : reader.recvRaw reads = (some (.ok frame), { reader with buf := rest }, reads) := by
      unfold recvRaw
      rw [heq]
    refine ⟨?_, by rw [hcall], by rw [hcall]; exact h, by rw [hcall]; rfl⟩
    rw [hcall, hbuf, List.append_assoc, List.cons_append]
    exact .frame hz hle
  | @tooLarge start rest hbuf hz hlt =>
    have hcall : reader.recvRaw reads =
        (some (.error (.frameTooLarge reader.maxFrame)), reader, reads) := by
      unfold recvRaw
      rw [heq]
    refine ⟨?_, by rw [hcall], by rw [hcall]; exact h, by rw [hcall]; rfl⟩
    rw [hcall, hbuf, List.append_assoc]
    exact .tooLarge hz hlt
  | unfinished => exact (hready _ rfl).elim

/-- However the stream is cut, a call delivers its next frame. -/
theorem CdpReader.delivers (reader : CdpReader) (reads : List PipeRead)
    (h : ∀ e, .failed e ∉ reads) : reader.Delivers reads := by
  induction reads generalizing reader with
  | nil =>
    have htaken := takeFrame_taken reader.buf reader.maxFrame
    cases heq : takeFrame reader.buf reader.maxFrame with
    | error e => exact delivers_ready htaken rfl (by simp [heq]) h
    | ok taken =>
      obtain ⟨found, buf⟩ := taken
      cases found with
      | some frame => exact delivers_ready htaken rfl (by simp [heq]) h
      | none =>
        rw [heq] at htaken
        cases htaken with
        | unfinished hz hle =>
          have hcall : reader.recvRaw [] = (some (.error .closed), reader, []) := by
            unfold recvRaw
            rw [heq]
          refine ⟨?_, by rw [hcall], by rw [hcall]; exact h, by rw [hcall]; rfl⟩
          rw [hcall, streamOf, List.flatMap_nil, List.append_nil]
          exact .closed hz hle
  | cons read reads ih =>
    have hrest : ∀ e, PipeRead.failed e ∉ reads := fun e hmem => h e (List.mem_cons_of_mem _ hmem)
    have htaken := takeFrame_taken reader.buf reader.maxFrame
    cases heq : takeFrame reader.buf reader.maxFrame with
    | error e => exact delivers_ready htaken rfl (by simp [heq]) h
    | ok taken =>
      obtain ⟨found, buf⟩ := taken
      cases found with
      | some frame => exact delivers_ready htaken rfl (by simp [heq]) h
      | none =>
        rw [heq] at htaken
        cases htaken with
        | unfinished hz hle =>
          cases read with
          | data byte bytes =>
            have hnext := ih { reader with buf := reader.buf ++ byte :: bytes } hrest
            have hcall : reader.recvRaw (.data byte bytes :: reads) =
                recvRaw { reader with buf := reader.buf ++ byte :: bytes } reads := by
              rw [recvRaw, heq]
            have hstream : reader.buf ++ streamOf (.data byte bytes :: reads) =
                (reader.buf ++ byte :: bytes) ++ streamOf reads := by
              simp [streamOf, PipeRead.bytes]
            have hcount : cancellations (.data byte bytes :: reads) = cancellations reads :=
              List.count_cons_of_ne (by simp)
            refine ⟨?_, ?_, ?_, ?_⟩
            · rw [hcall, hstream]
              exact hnext.delivered
            · rw [hcall]
              exact hnext.maxFrame
            · rw [hcall]
              exact hnext.unfailed
            · rw [hcall, hcount]
              exact hnext.count
          | failed e => exact absurd List.mem_cons_self (h e)
          | cancelled =>
            have hcall : reader.recvRaw (.cancelled :: reads) = (none, reader, reads) := by
              rw [recvRaw, heq]
            refine ⟨?_, by rw [hcall], by rw [hcall]; exact hrest, ?_⟩
            · rw [hcall]
              exact .cancelled
            · rw [hcall]
              exact List.count_cons_self.symm

/-- What a call that was not dropped returns. -/
def Library.Received.result (maxFrame : Nat) : Received UInt8 → Except PipeError (List UInt8)
  | .message frame => .ok frame
  | .tooLarge => .error (.frameTooLarge maxFrame)
  | .closed => .error .closed

theorem Delivered.received (h : Delivered maxFrame stream (some r) rest) :
    r = (received 0 maxFrame stream 0).result maxFrame ∧
      ∀ i, received 0 maxFrame rest i = received 0 maxFrame stream (i + 1) := by
  cases h with
  | frame hz hle =>
    rw [received_zero hz hle]
    exact ⟨rfl, fun i => (received_succ hz hle _ i).symm⟩
  | tooLarge hz hlt =>
    rw [received_tooLarge hz hlt]
    exact ⟨rfl, fun i => by rw [received_tooLarge hz hlt, received_tooLarge hz hlt]⟩
  | closed hz hle =>
    rw [received_closed hz hle]
    exact ⟨rfl, fun i => by rw [received_closed hz hle, received_closed hz hle]⟩

/-- The calls that return give what the stream holds, in order, and only as many calls fail
to return as are dropped. -/
theorem CdpReader.recvCalls_received (calls : Nat) (reader : CdpReader) (reads : List PipeRead)
    (h : ∀ e, .failed e ∉ reads) :
    (∀ i r, (reader.recvCalls calls reads).reduceOption[i]? = some r →
        r = (received 0 reader.maxFrame (reader.buf ++ streamOf reads) i).result
          reader.maxFrame) ∧
      calls ≤ (reader.recvCalls calls reads).reduceOption.length + cancellations reads := by
  induction calls generalizing reader reads with
  | zero => exact ⟨fun i r hr => (by cases hr), Nat.zero_le _⟩
  | succ calls ih =>
    obtain ⟨hdelivered, hmax, hrest, hcount⟩ := reader.delivers reads h
    obtain ⟨hvalues, hlength⟩ := ih (reader.recvRaw reads).2.1 (reader.recvRaw reads).2.2 hrest
    rw [hmax] at hvalues
    cases hresult : (reader.recvRaw reads).1 with
    | none =>
      rw [hresult] at hdelivered hcount
      have hsame : reader.buf ++ streamOf reads = (reader.recvRaw reads).2.1.buf ++
          streamOf (reader.recvRaw reads).2.2 := by
        generalize reader.buf ++ streamOf reads = before,
          (reader.recvRaw reads).2.1.buf ++ streamOf (reader.recvRaw reads).2.2 = left at hdelivered
        cases hdelivered
        rfl
      simp only [recvCalls, hresult, List.reduceOption_cons_of_none]
      rw [hsame]
      refine ⟨hvalues, ?_⟩
      simp only [if_pos] at hcount
      omega
    | some r =>
      rw [hresult] at hdelivered hcount
      obtain ⟨hr, hshift⟩ := hdelivered.received
      simp only [recvCalls, hresult, List.reduceOption_cons_of_some]
      constructor
      · intro i r' hr'
        cases i with
        | zero =>
          cases hr'
          exact hr
        | succ i =>
          rw [← hshift i]
          exact hvalues i r' hr'
      · simp only [List.length_cons, reduceCtorEq, if_false] at hcount ⊢
        omega

theorem sendRaw_all (messages : List (List UInt8)) :
    messages.foldl sendRaw [] = messages.flatMap (· ++ [0]) := by
  have happend : ∀ written, messages.foldl sendRaw written =
      written ++ messages.flatMap (· ++ [0]) := by
    induction messages with
    | nil => simp
    | cons message messages ih =>
      intro written
      rw [List.foldl_cons, ih, List.flatMap_cons]
      simp [sendRaw]
  rw [happend, List.nil_append]

/-- Whatever the cutting, the calls return the frames of the stream up to the first one over
the cap, and messages within it come back as they were sent. -/
theorem frames_lossless_in_every_cutting (maxFrame calls : Nat) (reads : List PipeRead)
    (h : ∀ e, .failed e ∉ reads) :
    let returned := (CdpReader.recvCalls calls ⟨[], maxFrame⟩ reads).reduceOption
    (∀ i r, returned[i]? = some r →
        r = (received 0 maxFrame (streamOf reads) i).result maxFrame) ∧
      calls ≤ returned.length + cancellations reads ∧
      ∀ messages : List (List UInt8), (∀ message ∈ messages, 0 ∉ message ∧
          message.length ≤ maxFrame) →
        streamOf reads = messages.foldl sendRaw [] →
        ∀ (i : Nat) (r : Except PipeError (List UInt8)), returned[i]? = some r →
          r = (messages[i]?.map Except.ok).getD (.error PipeError.closed) := by
  intro returned
  have hcalls := CdpReader.recvCalls_received calls ⟨[], maxFrame⟩ reads h
  simp only [List.nil_append] at hcalls
  obtain ⟨hvalues, hlength⟩ := hcalls
  refine ⟨hvalues, hlength, ?_⟩
  intro messages hmessages hstream i r hr
  have hvalue := hvalues i r hr
  rw [hstream, sendRaw_all, received_sent hmessages] at hvalue
  rw [hvalue]
  cases messages[i]? with
  | some message => rfl
  | none => rfl

/-- Two messages whose bytes arrive in three reads, with one call dropped between them. -/
theorem frames_lossless_cancelled_midway :
    let reads : List PipeRead := [.data 7 [], .cancelled, .data 8 [0, 9], .data 0 []]
    let messages : List (List UInt8) := [[7, 8], [9]]
    (CdpReader.recvCalls 4 ⟨[], 2⟩ reads).reduceOption[1]? = some (.ok [9]) ∧
      .ok [9] = (messages[1]?.map Except.ok).getD (.error PipeError.closed) := by
  intro reads messages
  have hunfailed : ∀ e, PipeRead.failed e ∉ reads := by
    intro e
    simp [reads]
  have hreturned : (CdpReader.recvCalls 4 ⟨[], 2⟩ reads).reduceOption[1]? =
      some (.ok [9]) := by decide
  refine ⟨hreturned, ?_⟩
  exact (frames_lossless_in_every_cutting 2 4 reads hunfailed).2.2 messages (by decide)
    (by decide) 1 _ hreturned

end BrowserServe
