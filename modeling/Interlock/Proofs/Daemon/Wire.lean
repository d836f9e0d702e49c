import Interlock.Daemon.Frame
import Interlock.Proofs.Daemon.Messages

/-!
Messages come through. What is written of a message is its frame, whose length says where it ends:
whoever reads gets the body and leaves everything behind it, and the body is read as the message.
Specification, section 6: External Interfaces.
-/
namespace Interlock.Daemon

/-! Frames. -/

namespace Frame

theorem length_lengthBytes (n : Nat) : (lengthBytes n).length = 4 := rfl

/-- Four bytes are enough for any body within the limit. -/
theorem lengthOf_lengthBytes {n : Nat} (small : n ≤ bodyLimit) : lengthOf (lengthBytes n) = n := by
  simp only [bodyLimit] at small
  simp only [lengthOf, lengthBytes, List.foldl_cons, List.foldl_nil, UInt8.toNat_ofNat']
  omega

/-- A frame is read as its body, and what stands behind it is left. -/
theorem read_append {body : Bytes} (small : body.length ≤ bodyLimit) (rest : Bytes) :
    read (lengthBytes body.length ++ body ++ rest) = (.body body, rest) := by
  have head : (lengthBytes body.length ++ body ++ rest).splitAt 4 =
      (lengthBytes body.length, body ++ rest) := by
    rw [List.append_assoc, List.splitAt_eq]
    exact Prod.ext (List.take_left' rfl) (List.drop_left' rfl)
  have tail : (body ++ rest).splitAt body.length = (body, rest) := by
    rw [List.splitAt_eq]
    exact Prod.ext (List.take_left' rfl) (List.drop_left' rfl)
  have four : ¬ (lengthBytes body.length).length < 4 := Nat.lt_irrefl 4
  simp only [read, head, if_neg four, lengthOf_lengthBytes small, if_neg (Nat.not_lt.2 small),
    tail, if_neg (Nat.lt_irrefl _)]

/-- What is received of a frame is its body, whatever comes behind it. -/
theorem receive_append {body frame : Bytes} (framed : ofBody body = .ok frame) (ending : Ending)
    (rest : Bytes) : receive ending (frame ++ rest) = (.ok body, rest) := by
  unfold ofBody at framed
  split at framed
  · cases framed
  · next small =>
    cases framed
    simp only [receive, read_append (Nat.not_lt.1 small), Reading.body?]

end Frame

/-- What a pipe took when a body was sent through it is the frame of the body. -/
theorem Pipe.ofBody_of_send {p : Pipe} {body written : Bytes}
    (sent : p.send body = (.ok (), written)) : Frame.ofBody body = .ok written := by
  unfold Pipe.send at sent
  split at sent
  · cases sent
  · next frame framed =>
    split at sent
    · cases sent
    · split at sent
      · cases sent
      · cases sent
        exact framed

/-- A body within the limit is sent through a pipe that is open and has room for its frame. -/
theorem Pipe.send_eq_ok {p : Pipe} {body : Bytes} (small : body.length ≤ bodyLimit)
    (isOpen : p.isClosed = false) (room : 4 + body.length ≤ p.capacity) :
    p.send body = (.ok (), Frame.lengthBytes body.length ++ body) := by
  have framed : Frame.ofBody body = .ok (Frame.lengthBytes body.length ++ body) :=
    if_neg (Nat.not_lt.2 small)
  have fits : ¬ p.capacity < (Frame.lengthBytes body.length ++ body).length := by
    rw [List.length_append, Frame.length_lengthBytes]
    exact Nat.not_lt.2 room
  simp only [Pipe.send, framed, isOpen, Bool.false_eq_true, if_false, if_neg fits]

/-! Messages. -/

/-- A plain tree in a body is read back and decoded. -/
theorem readBody_render {α : Type} {d : Json.Decoder α} {depth : Nat} {v : Json.Value} {a : α}
    (plain : Json.Plain depth v) (reads : d v = .ok a) :
    readBody d (.ofText v.render) = .ok a := by
  simp only [readBody, Bytes.toText?_ofText, plain.read_render, reads]

def receiveMessage {α : Type} (read : Bytes → Except WireError α) (ending : Frame.Ending)
    (stream : Bytes) : Except WireError α × Bytes :=
  let (body, rest) := Frame.receive ending stream
  (body.bind read, rest)

/-- A message with a body comes through: it is read in its body; a pipe with room for it takes
exactly the body behind its length; and whoever reads what a pipe took gets the message and leaves
what comes behind it. -/
structure ComesThrough {α : Type} (read : Bytes → Except WireError α) (m : α) (body : Bytes) :
    Prop where
  read_body : read body = .ok m
  sent : body.length ≤ bodyLimit → ∀ p : Pipe, p.isClosed = false →
    4 + body.length ≤ p.capacity → p.send body = (.ok (), Frame.lengthBytes body.length ++ body)
  received : ∀ (p : Pipe) (written : Bytes), p.send body = (.ok (), written) →
    ∀ ending rest, receiveMessage read ending (written ++ rest) = (.ok m, rest)

theorem comesThrough_of_read {α : Type} {read : Bytes → Except WireError α} {m : α} {body : Bytes}
    (same : read body = .ok m) : ComesThrough read m body where
  read_body := same
  sent small _ isOpen room := Pipe.send_eq_ok small isOpen room
  received p written sent ending rest := by
    have received := Frame.receive_append (Pipe.ofBody_of_send sent) ending rest
    simp only [receiveMessage, received, Except.bind, same]

/-- Every request comes through, and so does every response, as long as the records in it validate
and their times are in the calendar. -/
theorem round_trip :
    (∀ r : Request, ComesThrough Request.ofBody r r.body) ∧
      ∀ r : Response, r.Sound → ComesThrough Response.ofBody r r.body :=
  ⟨fun r => comesThrough_of_read (readBody_render r.plain r.decode_toJson),
    fun r sound => comesThrough_of_read (readBody_render r.plain (Response.decode_toJson sound))⟩

def pingFrame : Bytes := [0, 0, 0, 15] ++ Request.ping.body

/-- A queue in which every codec on the way could stumble comes back from its body; and a request is
taken out of a stream that goes on behind it. -/
theorem round_trip_stumbling :
    (Response.queue Store.Document.stumbling.records).Sound ∧
      Response.ofBody (Response.queue Store.Document.stumbling.records).body =
        .ok (.queue Store.Document.stumbling.records) ∧
      Pipe.send ⟨100, false⟩ Request.ping.body = (.ok (), pingFrame) ∧
      receiveMessage Request.ofBody .silent (pingFrame ++ [7]) = (.ok .ping, [7]) := by
  have dated : ∀ r ∈ Store.Document.stumbling.records, r.enqueuedAt.Representable := by decide
  have sound : (Response.queue Store.Document.stumbling.records).Sound :=
    fun r mem => ⟨Store.Document.stumbling.valid r mem, dated r mem⟩
  have size : Request.ping.body.length = 15 := by decide +kernel
  have ping := round_trip.1 .ping
  have sent := ping.sent (by rw [size]; decide) ⟨100, false⟩ rfl (by rw [size]; decide)
  rw [size] at sent
  exact ⟨sound, (round_trip.2 _ sound).read_body, sent, ping.received _ _ sent .silent [7]⟩

end Interlock.Daemon
