import Interlock.Proofs.Daemon.Readable
import Interlock.Proofs.Sequential.Scene
import Interlock.Proofs.Store.Enrolled

/-!
What a client gets for its request. An answer that fits into a frame is sent, and the client reads
it. An answer that does not fit is dropped when all is done: the client is told nothing, and what it
asked for has happened. An enrollment is answered with more bytes than it was asked for with, so
there are requests that fit and whose answers do not. Specification, section 6: External Interfaces.
-/
namespace Interlock

open Program

/-! Sizes. -/

def utf8Length (cs : List Char) : Nat := (cs.map Char.utf8Size).sum

@[simp] theorem utf8Length_nil : utf8Length [] = 0 := rfl

@[simp] theorem utf8Length_append (cs cs' : List Char) :
    utf8Length (cs ++ cs') = utf8Length cs + utf8Length cs' := by
  simp [utf8Length]

@[simp] theorem utf8Length_cons (c : Char) (cs : List Char) :
    utf8Length (c :: cs) = c.utf8Size + utf8Length cs := by
  simp [utf8Length]

theorem Bytes.length_ofText_ofList (cs : List Char) :
    (Bytes.ofText (String.ofList cs)).length = utf8Length cs := by
  have bytes : Bytes.ofText (String.ofList cs) = cs.flatMap String.utf8EncodeChar := by
    simp [Bytes.ofText, List.utf8Encode]
  rw [bytes, List.length_flatMap]
  simp [utf8Length]

namespace Daemon

open Json (Value renderText)

/-- The marks between the parts of an object take one byte each. -/
theorem utf8Size_marks : '\x7b'.utf8Size = 1 ∧ '\x7d'.utf8Size = 1 ∧ ':'.utf8Size = 1 ∧
    ','.utf8Size = 1 := by decide

theorem length_body_enroll (w : WorkerId) (s : SpaceId) :
    (Request.enroll w s).body.length =
      49 + utf8Length (renderText w.text) + utf8Length (renderText s.text) := by
  have names : utf8Length (renderText "type") = 6 ∧ utf8Length (renderText "Enroll") = 8 ∧
      utf8Length (renderText "worker_id") = 11 ∧
      utf8Length (renderText "shared_space_id") = 17 := by decide
  have marks := utf8Size_marks
  simp only [Request.body, Value.render, Bytes.length_ofText_ofList, Request.toJson, kindObject,
    Value.chars, Value.charsOfMembers, utf8Length_cons, utf8Length_append, utf8Length_nil]
  omega

/-- An enrollment is answered with more bytes than it was asked for with. -/
theorem length_body_enrolled (w : WorkerId) (s : SpaceId) (p : Priority) :
    (Request.enroll w s).body.length + 46 ≤ (Response.outcome (.enrolled s w p)).body.length := by
  have names : utf8Length (renderText "type") = 6 ∧ utf8Length (renderText "Outcome") = 9 ∧
      utf8Length (renderText "outcome") = 9 ∧ utf8Length (renderText "ENROLLED") = 10 ∧
      utf8Length (renderText "worker_id") = 11 ∧
      utf8Length (renderText "shared_space_id") = 17 ∧
      utf8Length (renderText "priority") = 10 := by decide
  have marks := utf8Size_marks
  rw [length_body_enroll]
  simp only [Response.body, Value.render, Bytes.length_ofText_ofList, Response.toJson, kindObject,
    Outcome.toJson, Outcome.tag, Outcome.space, Outcome.details, Value.chars, Value.charsOfMembers,
    utf8Length_cons, utf8Length_append, utf8Length_nil]
  omega

/-! Enrollments. -/

namespace Services

open Coordinator Schedule

/-- Whether a store call has been made. -/
def touched (log : Log actions) : Bool :=
  log.any fun e =>
    match e.1 with
    | .store .. => true
    | _ => false

/-- Tokens are drawn, and then a record of the worker is added, as the only store call. -/
def newcomer (w : WorkerId) (space : SpaceId) : Conduct actions where
  allows log a := (∃ m, a = .stamp m) ∨
    touched log = false ∧ ∃ l p at', a = .store l (.addIfAbsent (.waiting space w p at'))
  expects a r :=
    match a, r with
    | .store _ (.addIfAbsent _), r => r = .inTime (.ok true)
    | _, _ => True

/-- The store is in memory, and the worker has a record in it once the call has been made. -/
def Enrolls (w : WorkerId) (space : SpaceId) (log : Log actions) (s : Services) : Prop :=
  ∃ t, s.store = .memory t ∧
    if touched log then t.Has w space else t.find space w = []

variable {s : Services} {w : WorkerId} {space : SpaceId}

theorem Enrolls.answers {log : Log actions} {a : Action}
    (named : Coordinator.checkIds w space = .ok ())
    (asked : (newcomer w space).allows log a) (enrolls : Enrolls w space log s)
    (stack : List Trace.Span) (now : Nat) :
    let e := site.runBase (a.limit?.map fun l => now + l.toNanos) stack (expand a s) now s
    (newcomer w space).expects a (a.answer e.1) ∧
      Enrolls w space (⟨a, a.answer e.1⟩ :: log) e.2.2 := by
  obtain ⟨t, memory, known⟩ := enrolls
  rcases asked with ⟨m, rfl⟩ | ⟨fresh, limit, p, time, rfl⟩
  · exact ⟨trivial, t, memory, known⟩
  · rw [fresh] at known
    have absent : t.find space w = [] := known
    obtain ⟨placed, called⟩ := Coordinator.checkIds_eq_ok_iff.1 named
    have valid : (Record.waiting space w p time).validate = .ok () :=
      Record.validate_waiting placed called _ _
    have stored : t.put (.waiting space w p time) = .ok (t.insert _ valid) :=
      Store.Table.put_eq_ok_iff.2 ⟨valid, rfl⟩
    have applied : (Store.Call.addIfAbsent (.waiting space w p time)).apply t =
        (.ok true, t.insert _ valid) := by
      have none : t.find (Record.waiting space w p time).space
          (Record.waiting space w p time).worker = [] := absent
      simp only [Store.Call.apply, valid, none, List.isEmpty_nil, if_true, stored,
        Store.Call.settle]
    intro e
    have ended : e = (some (.ok true), now, { s with store := .memory (t.insert _ valid) }) := by
      have called : e = (some _, now, { s with store := .memory _ }) := runBase_memory memory _
      rwa [applied] at called
    have once (c : Store.Call) r : touched (⟨.store limit c, r⟩ :: log) = true := rfl
    rw [ended]
    refine ⟨rfl, t.insert _ valid, rfl, ?_⟩
    rw [if_pos (once _ _)]
    exact ⟨_, (Store.Table.mem_insert valid).2 (.inl rfl), rfl, rfl⟩

/-- Whoever may enroll and has no record there is enrolled. -/
theorem keeps_newcomer (c : Coordinator) (named : Coordinator.checkIds w space = .ok ())
    {log : Log actions} (fresh : touched log = false) :
    ((Request.enroll w space).plan c).Keeps (newcomer w space)
      (fun log reaction => touched log = true ∧
        ∃ p, reaction.response = .outcome (.enrolled space w p)) log := by
  have enrolls : (c.enroll w space).Keeps (newcomer w space)
      (fun log a => touched log = true ∧ ∃ p, a = .ok (.enrolled space w p)) log := by
    obtain ⟨placed, called⟩ := Coordinator.checkIds_eq_ok_iff.1 named
    unfold Coordinator.enroll
    rw [named]
    refine keeps_bind.2 (keeps_bind.2 (keeps_call.2 ⟨.inl ⟨_, rfl⟩, fun stamp _ => ?_⟩))
    simp only [keeps_done, Record.validate_waiting placed called]
    refine keeps_bind.2 (keeps_callStore.2
      ⟨.inr ⟨fresh, _, _, _, rfl⟩, fun a added => ?_, fun late => ?_⟩)
    · cases added
      exact ⟨rfl, _, rfl⟩
    · cases late
  refine keeps_bind.2 (enrolls.mono fun log a enrolled => ?_)
  obtain ⟨made, p, rfl⟩ := enrolled
  exact keeps_bind.2 (keeps_sayAll.2 ⟨made, p, rfl⟩)

end Services

namespace Running

variable {s : Services} {ending : Frame.Ending} {stream : Bytes}

/-- A worker that has no record in a space, and asks for one while the store is in memory, gets it,
and the answer says so. -/
theorem answer_newcomer {t : Store.Table} {w : WorkerId} {space : SpaceId} (r : Running)
    (memory : s.store = .memory t) (named : Coordinator.checkIds w space = .ok ())
    (absent : t.find space w = []) :
    (∃ p, (r.answer (.enroll w space) s).1 = .outcome (.enrolled space w p)) ∧
      ∃ t', (r.answer (.enroll w space) s).2.2.store = .memory t' ∧ t'.Has w space := by
  have noted : ∀ log n stack (y : Services), Services.Enrolls w space log y →
      Services.Enrolls w space log (Services.site.note n stack y) := by
    rintro log n stack y ⟨t, memory, known⟩
    exact ⟨t, (Services.store_note n stack y).trans memory, known⟩
  have fresh : Services.touched [] = false := rfl
  obtain ⟨log, ⟨made, p, response⟩, t', memory, known⟩ :=
    Services.site.runAlone_keeps (Services.Enrolls w space)
      (Services.keeps_newcomer r.crew.coordinator named fresh) noted
      (fun _ _ stack now _ asked enrolls => enrolls.answers named asked stack now) []
      ⟨t, memory, absent⟩
  rw [if_pos made] at known
  exact ⟨⟨p, response⟩, t', memory, known⟩

/-! Answers and frames. -/

/-- A request that has been read is carried out, and then its answer is sent if it fits. -/
theorem serve_eq (r : Running) {request : Request}
    (accepted : (receiveMessage Request.ofBody ending stream).1 = .ok request) :
    r.serve ending stream s =
      (if bodyLimit < (r.answer request s).1.body.length then
          ⟨.error (.wire (.tooLarge (r.answer request s).1.body.length)), [],
            !(Frame.receive ending stream).2.isEmpty⟩
        else
          ⟨.ok (), Frame.lengthBytes (r.answer request s).1.body.length ++
            (r.answer request s).1.body, !(Frame.receive ending stream).2.isEmpty⟩,
        (r.answer request s).2) := by
  have read : (Frame.receive ending stream).1.bind Request.ofBody = .ok request := accepted
  by_cases large : bodyLimit < (r.answer request s).1.body.length
  · have refused : Frame.ofBody (r.answer request s).1.body = .error (.tooLarge _) := if_pos large
    simp only [serve, read, refused, if_pos large]
  · have framed : Frame.ofBody (r.answer request s).1.body = .ok _ := if_neg large
    simp only [serve, read, framed, if_neg large]

theorem response_of_empty (result : Except ConnectionError Unit) (unread : Bool)
    (response : Response) : (Served.mk result [] unread).response ≠ .ok response := by
  cases unread <;> nofun

/-- Whatever state the daemon and its services are in, as long as the times of a store in memory
are in the calendar, and whatever request arrives: it is carried out, and an answer that fits into a
frame is sent in one, from which the client reads the answer and after which nothing is left. If the
answer does not fit, nothing is sent and the client reads no answer, though the request has been
carried out. -/
theorem answered_if_fits (r : Running) (dated : s.Dated) {request : Request}
    (accepted : (receiveMessage Request.ofBody ending stream).1 = .ok request) :
    let response := (r.answer request s).1
    let served := (r.serve ending stream s).1
    (r.serve ending stream s).2 = (r.answer request s).2 ∧
      (response.body.length ≤ bodyLimit → served.result = .ok () ∧
        served.sent = Frame.lengthBytes response.body.length ++ response.body ∧
        receiveMessage Response.ofBody .ended served.sent = (.ok response, []) ∧
        served.response = .ok response) ∧
      (bodyLimit < response.body.length →
        served.result = .error (.wire (.tooLarge response.body.length)) ∧ served.sent = [] ∧
        ∀ other, served.response ≠ .ok other) := by
  have served := serve_eq r (s := s) accepted
  have sound := sound_answer r request dated
  generalize r.answer request s = e at served sound
  obtain ⟨response, after⟩ := e
  rw [served]
  by_cases large : bodyLimit < response.body.length
  · rw [if_pos large]
    exact ⟨rfl, fun small => absurd large (Nat.not_lt.2 small),
      fun _ => ⟨rfl, rfl, response_of_empty _ _⟩⟩
  · have framed : Frame.ofBody response.body =
        .ok (Frame.lengthBytes response.body.length ++ response.body) := if_neg large
    have received := Frame.receive_append framed .ended []
    rw [List.append_nil] at received
    have read : Response.ofBody response.body = .ok response :=
      readBody_render response.plain (Response.decode_toJson sound)
    rw [if_neg large]
    refine ⟨rfl, fun _ => ⟨rfl, rfl, ?_, ?_⟩, fun large' => absurd large' large⟩
    · simp only [receiveMessage, received, Except.bind, read]
    · simp only [Served.response, received, read]

/-- The frame of a request that fits is accepted. -/
theorem receiveMessage_frame {request : Request} (fits : request.body.length ≤ bodyLimit)
    (ending : Frame.Ending) :
    receiveMessage Request.ofBody ending (Frame.lengthBytes request.body.length ++ request.body) =
      (.ok request, []) := by
  have framed : Frame.ofBody request.body =
      .ok (Frame.lengthBytes request.body.length ++ request.body) := if_neg (Nat.not_lt.2 fits)
  have received := Frame.receive_append framed ending []
  rw [List.append_nil] at received
  have read : Request.ofBody request.body = .ok request :=
    readBody_render request.plain request.decode_toJson
  simp only [receiveMessage, received, Except.bind, read]

def lettered (n : Nat) : WorkerId := ⟨String.ofList (List.replicate n 'w')⟩

/-- An enrollment of somebody whose name leaves little room in the request. -/
def longRequest : Request := .enroll (lettered 1048500) ⟨"s-1"⟩

def oneSpace : Running where
  paths := ⟨⟨"/run/daemon.sock"⟩, ⟨"/run/daemon.pid"⟩, ⟨"/run/daemon.log"⟩⟩
  crew := .start { spaces := [⟨"s-1"⟩] } [] 0

def bare : Services := { clock := ⟨0, 0⟩ }

theorem utf8Length_lettered (n : Nat) : utf8Length (renderText (lettered n).text) = n + 2 := by
  have plain : (List.replicate n 'w').flatMap Json.escapedChar = List.replicate n 'w' := by
    induction n with
    | zero => rfl
    | succ n ih =>
      rw [List.replicate_succ, List.flatMap_cons, ih]
      rfl
  have letters : utf8Length (List.replicate n 'w') = n := by
    have one : 'w'.utf8Size = 1 := by decide
    simp [utf8Length, one]
  have quote : '"'.utf8Size = 1 := by decide
  simp only [renderText, lettered, String.toList_ofList, plain, utf8Length_cons, utf8Length_append,
    utf8Length_nil, letters, quote]
  omega

theorem isBlank_lettered {n : Nat} (some : 0 < n) : (lettered n).isBlank = false := by
  have letter : Text.isBlank 'w' = false := by decide
  have first : 'w' ∈ List.replicate n 'w' := List.mem_replicate.2 ⟨Nat.ne_of_gt some, rfl⟩
  simp only [WorkerId.isBlank, Text.blank, lettered, String.toList_ofList, List.all_eq_false]
  exact ⟨'w', first, by simp [letter]⟩

def longFrame : Bytes := Frame.lengthBytes longRequest.body.length ++ longRequest.body

/-- The request fits and is carried out, so that the worker is enrolled; the answer does not fit,
and the client finds the connection closed. -/
theorem answered_if_fits_longName :
    (receiveMessage Request.ofBody .silent longFrame).1 = .ok longRequest ∧
      (∃ t, (oneSpace.serve .silent longFrame bare).2.2.store = .memory t ∧
        t.Has (lettered 1048500) ⟨"s-1"⟩) ∧
      (oneSpace.serve .silent longFrame bare).1.sent = [] ∧
        ∀ response, (oneSpace.serve .silent longFrame bare).1.response ≠ .ok response := by
  have size : longRequest.body.length = 1048556 := by
    have five : utf8Length (renderText "s-1") = 5 := by decide
    rw [longRequest, length_body_enroll, utf8Length_lettered, five]
  have fits : longRequest.body.length ≤ bodyLimit := by
    rw [size]
    decide
  have accepted : (receiveMessage Request.ofBody .silent longFrame).1 = .ok longRequest :=
    congrArg Prod.fst (receiveMessage_frame fits .silent)
  have named : Coordinator.checkIds (lettered 1048500) ⟨"s-1"⟩ = .ok () :=
    Coordinator.checkIds_eq_ok_iff.2 ⟨by decide, isBlank_lettered (by omega)⟩
  have dated : bare.Dated := by
    intro t memory
    cases memory
    exact nofun
  have memory : bare.store = .memory .empty := rfl
  have absent (w : WorkerId) : Store.Table.empty.find ⟨"s-1"⟩ w = [] := rfl
  have asked : Request.enroll (lettered 1048500) ⟨"s-1"⟩ = longRequest := rfl
  have gets := answer_newcomer oneSpace memory named (absent _)
  rw [asked] at gets
  obtain ⟨⟨p, response⟩, t, memory, there⟩ := gets
  have large : bodyLimit < (oneSpace.answer longRequest bare).1.body.length := by
    have longer := length_body_enrolled (lettered 1048500) ⟨"s-1"⟩ p
    rw [asked, size] at longer
    rw [response]
    exact Nat.lt_of_lt_of_le (by decide) longer
  obtain ⟨same, -, dropped⟩ := answered_if_fits oneSpace dated accepted
  obtain ⟨-, silent, nothing⟩ := dropped large
  refine ⟨accepted, ⟨t, ?_, there⟩, silent, nothing⟩
  rw [same]
  exact memory

end Running

end Daemon

end Interlock
