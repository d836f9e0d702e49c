import Interlock.Store.Call

/-!
How store calls are reported: a span for the calls that change the table and one event for every
answer. Reads stand in the span of whoever asked. Specification, section 10.2: Logging.
-/
namespace Interlock.Store.Call

open Trace

/-- The span a call opens, if it may change the table. -/
def span? : Call → Option Span
  | .add r =>
    some ⟨"store.add",
      [("space", .text r.space.text), ("worker", .text r.worker.text),
        ("sort_key", .text r.sortKey.display)]⟩
  | .addIfAbsent r =>
    some ⟨"store.add_if_absent", [("space", .text r.space.text), ("worker", .text r.worker.text)]⟩
  | .delete r =>
    some ⟨"store.delete",
      [("space", .text r.space.text), ("worker", .text r.worker.text),
        ("sort_key", .text r.sortKey.display)]⟩
  | .swap new old =>
    some ⟨"store.swap",
      [("space", .text new.space.text), ("worker", .text new.worker.text),
        ("from", .text old.sortKey.display)]⟩
  | _ => none

/-- The number of records found, unless the call failed. -/
def countField (answer : Except StoreError (List Record)) : Fields :=
  match answer with
  | .ok rs => [("count", .number rs.length)]
  | .error _ => []

/-- The worker of the record found, as debugging output shows it; a failed call found none. -/
def workerShown (answer : Except StoreError (Option Record)) : String :=
  match answer with
  | .ok (some r) => Text.quotedOption (some r.worker.text)
  | _ => Text.quotedOption none

/-- The event of a change. -/
def changeEvent {α : Type} (answer : Except StoreError α) (level : Level) (message : String)
    (fields : Fields) (failedLevel : Level) (failed : String) : Event :=
  match answer with
  | .ok _ => ⟨level, message, fields⟩
  | .error e => ⟨failedLevel, failed, [("error", .text e.message)]⟩

/-- The event of an answer. -/
def event : (c : Call) → c.Answer → Event
  | .add _, a => changeEvent a .debug "record added" [] .error "add failed"
  | .addIfAbsent _, a =>
    match a with
    | .ok added => ⟨.debug, "checked enrollment", [("added", .flag added)]⟩
    | .error e => ⟨.error, "add failed", [("error", .text e.message)]⟩
  | .delete _, a => changeEvent a .debug "record deleted" [] .warn "delete failed"
  | .find s w, a =>
    ⟨.trace, "found records", [("space", .text s.text), ("worker", .text w.text)] ++ countField a⟩
  | .list s, a => ⟨.trace, "listed records", ("space", .text s.text) :: countField a⟩
  | .nextWaiter s, a =>
    ⟨.trace, "next waiter", [("space", .text s.text), ("waiter", .text (workerShown a))]⟩
  | .lockHolder s, a =>
    ⟨.trace, "lock holder", [("space", .text s.text), ("holder", .text (workerShown a))]⟩
  | .lockHolders, a => ⟨.trace, "listed lock holders", countField a⟩
  | .swap .., a => changeEvent a .info "lock holder swapped in" [] .warn "swap rejected"

/-- What is said before a call. -/
def opening (c : Call) : List Note :=
  match c.span? with
  | some s => [.enter s]
  | none => []

/-- What is said when a call ends without an answer: its span is left. -/
def dropped (c : Call) : List Note :=
  match c.span? with
  | some _ => [.leave]
  | none => []

/-- What is said after an answer. -/
def closing (c : Call) (a : c.Answer) : List Note := .event (c.event a) :: c.dropped

end Interlock.Store.Call
