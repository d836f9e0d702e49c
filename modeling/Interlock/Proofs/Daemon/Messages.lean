import Interlock.Daemon.Message
import Interlock.Proofs.Json.Compact
import Interlock.Proofs.Store.Written

/-!
Messages are read from the trees they are written as. A tree of a message is plain, so its kind can
be told from its other members before they are read; each kind has its own name, and each member is
read as what it was written for. Records carry a sort key and a time that have a written form of
their own, and come back as long as they validate and the time is in the calendar.
-/
namespace Interlock

namespace Json

/-- An object that names its kind first, and nowhere else, is split into the kind and the rest. -/
theorem Value.tagged_eq {tag kind : String} {members : Members} {name : Decoder String}
    (plain : Plain 127 (.object ((tag, .text kind) :: members)))
    (named : name (.text kind) = .ok kind) (fresh : ∀ m ∈ members, m.1 ≠ tag) :
    (Value.object ((tag, .text kind) :: members)).tagged tag name =
      .ok (kind, .members members) := by
  have alone : members.filter (·.1 == tag) = [] :=
    List.filter_eq_nil_iff.2 fun m mem => by simpa using fresh m mem
  have others : members.filter (·.1 != tag) = members :=
    List.filter_eq_self.2 fun m mem => by simpa using fresh m mem
  have whole : (Value.object ((tag, .text kind) :: members)).settable (127 - 0) = .ok () :=
    plain.settable
  simp [Value.tagged, Format.json, whole, alone, others, named, bind, Except.bind, pure,
    Except.pure]

/-- Items are read one after the other. -/
theorem Decoder.list_map {α : Type} {d : Decoder α} {write : α → Value} {as : List α}
    (reads : ∀ a ∈ as, d (write a) = .ok a) : Decoder.list d (.array (as.map write)) = .ok as := by
  induction as with
  | nil => rfl
  | cons a as ih =>
    have later : (as.map write).mapM d = .ok as :=
      ih fun b mem => reads b (List.mem_cons_of_mem a mem)
    rw [Decoder.list, List.map_cons, List.mapM_cons, reads a List.mem_cons_self, later]
    rfl

end Json

open Json (Plain Value)

theorem Priority.decode_nat (p : Priority) : Priority.decode (.nat p.toNat) = .ok p := by
  have small : p.toNat < UInt64.size := p.value.toNat_lt
  simp [Priority.decode, Json.Decoder.word, Value.nat, Json.Number.toWord?, Json.Number.isInteger,
    Json.Number.ofNat, Json.ofDigits_digitsOf, small, Except.map, Priority.ofNat_toNat]

/-! Outcomes. -/

namespace Outcome

theorem plain (o : Outcome) (depth : Nat) : Plain (depth + 1) o.toJson := by
  have small (p : Priority) : p.toNat < UInt64.size := p.value.toNat_lt
  refine .object ?_
  cases o <;> simp [details, Plain.text, Plain.bool, Plain.nat, small]

/-- An outcome inside a message is read as it was written. -/
theorem decodeInner_toJson (o : Outcome) : decodeInner o.toJson = .ok o := by
  have split : o.toJson.tagged "outcome" (Json.Decoder.nameOrPlace tags) =
      .ok (o.tag, .members (("shared_space_id", .text o.space.text) :: o.details)) :=
    Value.tagged_eq (o.plain 126) rfl (by cases o <;> simp [details])
  rw [decodeInner, decodeAs, split]
  cases o with
  | enrolled s w p =>
    change (Priority.decode (.nat p.toNat)).bind (fun q => .ok (enrolled s w q)) = _
    rw [Priority.decode_nat]
    rfl
  | _ => rfl

end Outcome

/-! Records. -/

namespace Record

theorem plain (r : Record) (depth : Nat) : Plain (depth + 1) r.toJson := by
  have small : r.priority.toNat < UInt64.size := r.priority.value.toNat_lt
  refine .object ?_
  simp [Plain.text, Plain.nat, small]

theorem decode_toJson {r : Record} (valid : r.validate = .ok ())
    (dated : r.enqueuedAt.Representable) : decode r.toJson = .ok r := by
  have key : SortKey.decode (.text r.sortKey.display) = .ok r.sortKey := by
    simp [SortKey.decode, Json.Decoder.text, Record.ofText?_sortKey valid, bind, Except.bind, pure,
      Except.pure]
  have time : Time.Instant.decode (.text r.enqueuedAt.display) = .ok r.enqueuedAt := by
    simp [Time.Instant.decode, Json.Decoder.text, Time.Instant.ofText_display dated, bind,
      Except.bind, pure, Except.pure]
  simp [decode, toJson, Value.members, Json.membersOfObject, Json.firstRepeated,
    Json.Members.required, List.lookup_cons, SpaceId.decode, WorkerId.decode, Json.Decoder.text,
    Except.map, key, time, Priority.decode_nat, bind, Except.bind, pure, Except.pure]

end Record

namespace Daemon

theorem plain_kindObject (kind : String) {depth : Nat} {members : List (String × Value)}
    (plain : ∀ m ∈ members, Plain depth m.2) : Plain (depth + 1) (kindObject kind members) :=
  .object (List.forall_mem_cons.2 ⟨.text kind, plain⟩)

namespace Request

theorem plain (r : Request) : Plain 127 r.toJson := by
  cases r <;> exact plain_kindObject _ (by simp [Plain.text])

theorem decode_toJson (r : Request) : decode r.toJson = .ok r := by
  cases r <;> rfl

end Request

theorem Holder.plain (h : Holder) (depth : Nat) : Plain (depth + 1) h.toJson :=
  .object (by simp [Plain.text])

theorem Holder.decode_toJson (h : Holder) : Holder.decode h.toJson = .ok h := rfl

namespace Response

/-- The records of the message validate, and their times are in the calendar. -/
def Sound : Response → Prop
  | .queue rs => ∀ r ∈ rs, r.validate = .ok () ∧ r.enqueuedAt.Representable
  | _ => True

theorem plain (r : Response) : Plain 127 r.toJson := by
  have list {α : Type} {write : α → Value} (as : List α)
      (plain : ∀ a, Plain 125 (write a)) : Plain 126 (.array (as.map write)) :=
    .array fun v mem => by
      obtain ⟨a, -, rfl⟩ := List.mem_map.1 mem
      exact plain a
  cases r with
  | outcome o => exact plain_kindObject _ (by simpa using o.plain 125)
  | outcomes os => exact plain_kindObject _ (by simpa using list os (Outcome.plain · 124))
  | holders hs => exact plain_kindObject _ (by simpa using list hs (Holder.plain · 124))
  | queue rs => exact plain_kindObject _ (by simpa using list rs (Record.plain · 124))
  | error message => exact plain_kindObject _ (by simpa using .text message)
  | _ => exact plain_kindObject _ (by simp)

/-- The only field of a response is read as it was written. -/
theorem decode_kindObject {α : Type} {kind name : String} {v : Value} {d : Json.Decoder α} {a : α}
    (plain : Plain 127 (kindObject kind [(name, v)])) (other : name ≠ "type")
    (reads : d v = .ok a) :
    (kindObject kind [(name, v)]).tagged "type" = .ok (kind, .members [(name, v)]) ∧
      only (.members [(name, v)]) name d = .ok a := by
  refine ⟨Value.tagged_eq plain rfl (by simpa using other), ?_⟩
  simp [only, Json.Payload.fields, Json.membersOfObject, Json.firstRepeated, Json.Members.required,
    reads, bind, Except.bind]

/-- A message is read as it was written. -/
theorem decode_toJson {r : Response} (sound : r.Sound) : decode r.toJson = .ok r := by
  cases r with
  | outcome o =>
    obtain ⟨split, read⟩ := decode_kindObject (plain (.outcome o)) (by decide)
      o.decodeInner_toJson
    rw [toJson, decode, split]
    change (only _ "outcome" Outcome.decodeInner).bind (fun o => .ok (outcome o)) = _
    rw [read]
    rfl
  | outcomes os =>
    obtain ⟨split, read⟩ := decode_kindObject (plain (.outcomes os)) (by decide)
      (Json.Decoder.list_map fun o _ => o.decodeInner_toJson)
    rw [toJson, decode, split]
    change (only _ "outcomes" (Json.Decoder.list Outcome.decodeInner)).bind
      (fun os => .ok (outcomes os)) = _
    rw [read]
    rfl
  | holders hs =>
    obtain ⟨split, read⟩ := decode_kindObject (plain (.holders hs)) (by decide)
      (Json.Decoder.list_map fun h _ => h.decode_toJson)
    rw [toJson, decode, split]
    change (only _ "holders" (Json.Decoder.list Holder.decode)).bind
      (fun hs => .ok (holders hs)) = _
    rw [read]
    rfl
  | queue rs =>
    obtain ⟨split, read⟩ := decode_kindObject (plain (.queue rs)) (by decide)
      (Json.Decoder.list_map fun r mem => Record.decode_toJson (sound r mem).1 (sound r mem).2)
    rw [toJson, decode, split]
    change (only _ "records" (Json.Decoder.list Record.decode)).bind
      (fun rs => .ok (queue rs)) = _
    rw [read]
    rfl
  | _ => rfl

end Response

end Daemon

end Interlock
