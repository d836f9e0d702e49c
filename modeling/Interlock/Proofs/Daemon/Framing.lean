import Interlock.Proofs.Daemon.Wire
import Mathlib.Data.List.Basic

/-!
Frames tell where they end. A stream starts with a whole frame, or its first four bytes announce a
body that is too large, or it stops inside the frame. So frames one after the other are read as
their bodies one after the other, and no body is read that nobody wrote. Specification, section 6:
External Interfaces.
-/
namespace Interlock.Daemon

namespace Frame

/-- Receive so many bodies, one after the other, and give what is left. -/
def receiveEach (ending : Ending) : Nat → Bytes → List (Except WireError Bytes) × Bytes
  | 0, stream => ([], stream)
  | n + 1, stream =>
    let (body, stream) := receive ending stream
    let (bodies, stream) := receiveEach ending n stream
    (body :: bodies, stream)

/-! What a stream starts with. -/

/-- Four bytes are the length that they denote. -/
theorem lengthBytes_lengthOf {head : Bytes} (four : head.length = 4) :
    lengthBytes (lengthOf head) = head := by
  obtain ⟨a, b, c, d, rfl⟩ : ∃ a b c d, head = [a, b, c, d] := List.length_eq_four.1 four
  have ha := a.toNat_lt
  have hb := b.toNat_lt
  have hc := c.toNat_lt
  have hd := d.toNat_lt
  simp only [lengthOf, lengthBytes, List.foldl_cons, List.foldl_nil, List.cons.injEq, and_true,
    ← UInt8.toNat_inj, UInt8.toNat_ofNat']
  omega

theorem splitAt_head {head : Bytes} (four : head.length = 4) (rest : Bytes) :
    (head ++ rest).splitAt 4 = (head, rest) := by
  rw [List.splitAt_eq, ← four, List.take_left, List.drop_left]

theorem read_short {stream : Bytes} (short : stream.length < 4) :
    read stream = (.shortLength, []) := by
  have head : (stream.take 4).length < 4 := by
    rw [List.length_take]
    omega
  simp only [read, List.splitAt_eq, if_pos head]

theorem read_tooLarge {head : Bytes} (four : head.length = 4) (large : bodyLimit < lengthOf head)
    (rest : Bytes) : read (head ++ rest) = (.tooLarge (lengthOf head), rest) := by
  have whole : ¬ head.length < 4 := by omega
  simp only [read, splitAt_head four, if_neg whole, if_pos large]

theorem read_cut {head part : Bytes} (four : head.length = 4) (small : lengthOf head ≤ bodyLimit)
    (cut : part.length < lengthOf head) : read (head ++ part) = (.shortBody, []) := by
  have whole : ¬ head.length < 4 := by omega
  have short : (part.take (lengthOf head)).length < lengthOf head := by
    rw [List.length_take]
    omega
  simp only [read, splitAt_head four, if_neg whole, if_neg (Nat.not_lt.2 small), List.splitAt_eq,
    if_pos short]

/-- A stream is too short for a length, or announces too much, or stops inside the body it
announces, or starts with a frame. -/
theorem stream_cases (stream : Bytes) :
    stream.length < 4 ∨
      (∃ head rest, stream = head ++ rest ∧ head.length = 4 ∧ bodyLimit < lengthOf head) ∨
      (∃ head part, stream = head ++ part ∧ head.length = 4 ∧ lengthOf head ≤ bodyLimit ∧
        part.length < lengthOf head) ∨
      ∃ body rest, stream = lengthBytes body.length ++ body ++ rest ∧ body.length ≤ bodyLimit := by
  by_cases short : stream.length < 4
  · exact .inl short
  have four : (stream.take 4).length = 4 := by
    rw [List.length_take]
    omega
  have split : stream = stream.take 4 ++ stream.drop 4 := (List.take_append_drop 4 stream).symm
  by_cases large : bodyLimit < lengthOf (stream.take 4)
  · exact .inr (.inl ⟨_, _, split, four, large⟩)
  by_cases cut : (stream.drop 4).length < lengthOf (stream.take 4)
  · exact .inr (.inr (.inl ⟨_, _, split, four, Nat.not_lt.1 large, cut⟩))
  · have size : ((stream.drop 4).take (lengthOf (stream.take 4))).length =
        lengthOf (stream.take 4) := by
      rw [List.length_take]
      omega
    refine .inr (.inr (.inr ⟨(stream.drop 4).take (lengthOf (stream.take 4)),
      (stream.drop 4).drop (lengthOf (stream.take 4)), ?_, ?_⟩))
    · rw [size, lengthBytes_lengthOf four, List.append_assoc, List.take_append_drop]
      exact split
    · rw [size]
      exact Nat.not_lt.1 large

/-! What is received. -/

theorem ofBody_eq_ok_iff {body frame : Bytes} :
    ofBody body = .ok frame ↔
      body.length ≤ bodyLimit ∧ frame = lengthBytes body.length ++ body := by
  unfold ofBody
  by_cases large : bodyLimit < body.length
  · simp [large]
  · simp [large, Nat.not_lt.1 large, eq_comm]

/-- A body is received exactly where its frame stands. -/
theorem receive_eq_ok_iff {ending : Ending} {stream body rest : Bytes} :
    receive ending stream = (.ok body, rest) ↔
      ∃ frame, ofBody body = .ok frame ∧ stream = frame ++ rest := by
  constructor
  · intro received
    rcases stream_cases stream with short | ⟨head, rest', rfl, four, large⟩ |
      ⟨head, part, rfl, four, small, cut⟩ | ⟨body', rest', rfl, small⟩
    · simp [receive, read_short short, Reading.body?] at received
    · simp [receive, read_tooLarge four large, Reading.body?] at received
    · simp [receive, read_cut four small cut, Reading.body?] at received
    · have framed : ofBody body' = .ok (lengthBytes body'.length ++ body') :=
        ofBody_eq_ok_iff.2 ⟨small, rfl⟩
      rw [receive_append framed] at received
      cases received
      exact ⟨_, framed, rfl⟩
  · rintro ⟨frame, framed, rfl⟩
    exact receive_append framed ending rest

/-- A part of a frame is an error at the end of a stream. -/
theorem receive_part {body frame part : Bytes} (framed : ofBody body = .ok frame)
    (start : part <+: frame) (proper : part ≠ frame) :
    receive .ended part = (.error (if part.length < 4 then .closed else .cutShort), []) := by
  obtain ⟨small, rfl⟩ := ofBody_eq_ok_iff.1 framed
  by_cases short : part.length < 4
  · rw [receive, read_short short, if_pos short]
    rfl
  · have whole : (lengthBytes body.length).length ≤ part.length := by
      rw [length_lengthBytes]
      omega
    obtain ⟨inside, rfl⟩ : lengthBytes body.length <+: part :=
      List.prefix_of_prefix_length_le (List.prefix_append _ _) start whole
    have size : lengthOf (lengthBytes body.length) = body.length := lengthOf_lengthBytes small
    have within : inside <+: body := (List.prefix_append_right_inj _).1 start
    have cut : inside.length < lengthOf (lengthBytes body.length) := by
      rw [size]
      refine within.length_le.lt_of_ne fun same => proper ?_
      rw [within.eq_of_length same]
    have room : lengthOf (lengthBytes body.length) ≤ bodyLimit := by rwa [size]
    rw [receive, read_cut (length_lengthBytes _) room cut, if_neg short]
    rfl

/-- Frames one after the other are received as their bodies, and what stands behind them is left. -/
theorem receiveEach_frames {bodies frames : List Bytes}
    (framed : bodies.mapM ofBody = .ok frames) (ending : Ending) (rest : Bytes) :
    receiveEach ending bodies.length (frames.flatten ++ rest) = (bodies.map .ok, rest) := by
  induction bodies generalizing frames with
  | nil =>
    cases framed
    rfl
  | cons body bodies ih =>
    rw [List.mapM_cons] at framed
    obtain ⟨frame, first, framed⟩ := Time.ok_of_bind framed
    obtain ⟨frames', others, framed⟩ := Time.ok_of_bind framed
    cases framed
    have next : receive ending (frame ++ (frames'.flatten ++ rest)) =
        (.ok body, frames'.flatten ++ rest) := receive_append first ending _
    simp only [List.length_cons, receiveEach, List.flatten_cons, List.append_assoc, next,
      ih others, List.map_cons]

theorem exists_frames {bodies : List Bytes} (small : ∀ body ∈ bodies, body.length ≤ bodyLimit) :
    ∃ frames, bodies.mapM ofBody = .ok frames := by
  induction bodies with
  | nil => exact ⟨[], rfl⟩
  | cons body bodies ih =>
    have framed : ofBody body = .ok (lengthBytes body.length ++ body) :=
      ofBody_eq_ok_iff.2 ⟨small body List.mem_cons_self, rfl⟩
    obtain ⟨frames, others⟩ := ih fun b mem => small b (List.mem_cons_of_mem body mem)
    refine ⟨(lengthBytes body.length ++ body) :: frames, ?_⟩
    rw [List.mapM_cons, framed, others]
    rfl

end Frame

/-- A body that is larger than the limit is refused, whatever the pipe is like, and nothing is
written of it. -/
theorem Pipe.send_large {body : Bytes} (large : bodyLimit < body.length) (p : Pipe) :
    p.send body = (.error (.tooLarge body.length), []) := by
  have refused : Frame.ofBody body = .error (.tooLarge body.length) := if_pos large
  simp only [Pipe.send, refused]

/-- No other body is refused for its size. -/
theorem Pipe.large_of_send {p : Pipe} {body : Bytes} {size : Nat}
    (refused : (p.send body).1 = .error (.tooLarge size)) : bodyLimit < body.length := by
  by_contra small
  have framed : Frame.ofBody body = .ok (Frame.lengthBytes body.length ++ body) := if_neg small
  simp only [Pipe.send, framed] at refused
  split at refused
  · cases refused
  · split at refused
    · cases refused
    · cases refused

namespace Frame

/-- A length over the limit is refused, and only its four bytes are used up. -/
theorem receive_tooLarge {head : Bytes} (four : head.length = 4) (large : bodyLimit < lengthOf head)
    (ending : Ending) (rest : Bytes) :
    receive ending (head ++ rest) = (.error (.tooLarge (lengthOf head)), rest) := by
  rw [receive, read_tooLarge four large]
  rfl

/-- Frames delimit themselves, and no byte of a body is made up. Bodies within the limit have
frames, and these one after the other are received as the bodies, in their order, with whatever
stands behind them left. A pipe refuses a body for its size exactly if it is over the limit, and
then takes nothing of it; what it takes of any other body that it does not refuse is the frame, and
it refuses none if it is open and has room. A length over the limit is refused when only its four
bytes are used up. A frame that stops before its end, where the stream ends too, is an error. And
what is received of any stream as a body is one whose frame the stream starts with. -/
theorem delimits_itself :
    (∀ bodies : List Bytes, (∀ body ∈ bodies, body.length ≤ bodyLimit) →
      ∃ frames, bodies.mapM ofBody = .ok frames ∧ ∀ ending rest,
        receiveEach ending bodies.length (frames.flatten ++ rest) = (bodies.map .ok, rest)) ∧
    (∀ (p : Pipe) (body : Bytes),
      ((∃ size, (p.send body).1 = .error (.tooLarge size)) ↔ bodyLimit < body.length) ∧
      (bodyLimit < body.length → p.send body = (.error (.tooLarge body.length), [])) ∧
      (∀ written, p.send body = (.ok (), written) → ofBody body = .ok written) ∧
      (body.length ≤ bodyLimit → p.isClosed = false → 4 + body.length ≤ p.capacity →
        (p.send body).1 = .ok ())) ∧
    (∀ (head : Bytes) (ending : Ending) (rest : Bytes), head.length = 4 →
      bodyLimit < lengthOf head →
        receive ending (head ++ rest) = (.error (.tooLarge (lengthOf head)), rest)) ∧
    (∀ body frame part : Bytes, ofBody body = .ok frame → part <+: frame → part ≠ frame →
      receive .ended part = (.error (if part.length < 4 then .closed else .cutShort), [])) ∧
    ∀ (ending : Ending) (stream body rest : Bytes),
      receive ending stream = (.ok body, rest) ↔
        ∃ frame, ofBody body = .ok frame ∧ stream = frame ++ rest := by
  refine ⟨fun bodies small => ?_, fun p body => ⟨⟨?_, ?_⟩, ?_, ?_, ?_⟩, ?_, ?_, ?_⟩
  · obtain ⟨frames, framed⟩ := exists_frames small
    exact ⟨frames, framed, receiveEach_frames framed⟩
  · rintro ⟨size, refused⟩
    exact Pipe.large_of_send refused
  · intro large
    exact ⟨body.length, congrArg Prod.fst (Pipe.send_large large p)⟩
  · intro large
    exact Pipe.send_large large p
  · intro written sent
    exact Pipe.ofBody_of_send sent
  · intro small isOpen room
    rw [Pipe.send_eq_ok small isOpen room]
  · intro head ending rest four large
    exact receive_tooLarge four large ending rest
  · intro body frame part framed start proper
    exact receive_part framed start proper
  · intro ending stream body rest
    exact receive_eq_ok_iff

/-- A message of two bytes and an empty one with a byte behind them; a pipe with room for the first;
the smallest length over the limit; a frame that stops inside its length, and one that stops inside
its body. -/
theorem delimits_itself_twoMessages :
    receiveEach .silent 2 [0, 0, 0, 2, 7, 8, 0, 0, 0, 0, 9] = ([.ok [7, 8], .ok []], [9]) ∧
      (Pipe.send ⟨6, false⟩ [7, 8]).1 = .ok () ∧
      receive .silent ([0, 16, 0, 1] ++ [7]) = (.error (.tooLarge 1048577), [7]) ∧
      receive .ended [0, 0, 0] = (.error .closed, []) ∧
      receive .ended [0, 0, 0, 2, 7] = (.error .cutShort, []) := by
  obtain ⟨bodies, pipes, lengths, parts, -⟩ := delimits_itself
  have small : ∀ body ∈ [[7, 8], []], (body : Bytes).length ≤ bodyLimit := by decide
  obtain ⟨frames, framed, received⟩ := bodies [[7, 8], []] small
  cases framed
  have two : ofBody [7, 8] = .ok [0, 0, 0, 2, 7, 8] := rfl
  exact ⟨received .silent [9], (pipes ⟨6, false⟩ [7, 8]).2.2.2 (by decide) rfl (by decide),
    lengths [0, 16, 0, 1] .silent [7] rfl (by decide),
    parts [7, 8] _ [0, 0, 0] two (by decide) (by decide),
    parts [7, 8] _ [0, 0, 0, 2, 7] two (by decide) (by decide)⟩

end Frame

end Interlock.Daemon
