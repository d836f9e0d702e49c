import Interlock.Record

/-!
Errors of record stores: a record that does not validate, or a transaction that was refused, timed
out or failed in the backend. Specification, section 7: Error Handling Design.
-/
namespace Interlock.Store

/-- Why a transaction did not happen. -/
inductive TransactionError where
  | waiterMissing (key : String)
  | holderExists (space : SpaceId) (holder : WorkerId)
  | workerHoldsOther (worker : WorkerId) (space : SpaceId)
  | rejected (reason : String)
  | timeout (limit : Time.Duration)
  | backend (reason : String)
  deriving DecidableEq, Repr

/-- Why a store call failed. -/
inductive StoreError where
  | invalidRecord (e : RecordError)
  | transaction (e : TransactionError)
  deriving DecidableEq, Repr

/-- The wording of a transaction error. -/
def TransactionError.message : TransactionError → String
  | .waiterMissing key => "waiting record " ++ key ++ " no longer exists"
  | .holderExists s w => "shared space " ++ s.text ++ " is already held by " ++ w.text
  | .workerHoldsOther w s => "worker " ++ w.text ++ " already holds shared space " ++ s.text
  | .rejected reason => "transaction rejected: " ++ reason
  | .timeout limit => "storage call timed out after " ++ limit.display
  | .backend reason => "storage backend error: " ++ reason

/-- The wording of a store error. -/
def StoreError.message : StoreError → String
  | .invalidRecord e => "invalid record: " ++ e.message
  | .transaction e => "transaction failed: " ++ e.message

/-- The backend failed for the reason given. -/
def StoreError.backend (reason : String) : StoreError := .transaction (.backend reason)

end Interlock.Store
