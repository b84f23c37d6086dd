import WxcodeAdm.Audit.System
import WxcodeAdm.Lib.Paging

/-! `audit/router.py`: the log as the super-admins read it, a page of the rows that pass the
filters and their number, the newest first. -/

namespace WxcodeAdm

open Lib

/-- The filters of the query string. -/
structure AuditFilters where
  action : Option String := none
  tenantId : Option String := none
  actorId : Option String := none

/-- The UUID that a parameter asks for, if it asks for one; a text that is no UUID is an error. -/
def askedUuid (parse : String → Option Uuid) : Option String → Option (Option Uuid)
  | none => some none
  | some text => (parse text).map some

/-- The conditions of the query, where the texts of the filters are UUIDs. -/
def AuditFilters.condition (parse : String → Option Uuid) (f : AuditFilters) :
    Option (AuditLog → Bool) := do
  let tenantId ← askedUuid parse f.tenantId
  let actorId ← askedUuid parse f.actorId
  return fun row => f.action.all (fun action => row.action = action) &&
    tenantId.all (fun id => row.tenantId = some id) && actorId.all fun id => row.actorId = some id

/-- `orderBy` is how the database carries out `ORDER BY audit_logs.created_at DESC`. -/
def listAuditLogs (parse : String → Option Uuid) (orderBy : List AuditLog → List AuditLog)
    (logs : List AuditLog) (limit offset : Nat) (f : AuditFilters) : List AuditLog × Nat :=
  match f.condition parse with
  | none => ([], 0)
  | some condition =>
    (page limit offset (orderBy (logs.filter condition)), (logs.filter condition).length)

end WxcodeAdm
