import WxcodeAdm.Context
import WxcodeAdm.Lib.Journal

/-! `audit/service.py`: the rows of `audit_logs`, which the requests add in their own transactions,
and the job that deletes the old ones. -/

namespace WxcodeAdm

open Lib

/-- The arguments of `write_audit`. -/
structure AuditFields where
  action : String
  resourceType : String
  actorId : Option Uuid := none
  tenantId : Option Uuid := none
  resourceId : Option String := none
  ipAddress : Option String := none
  details : List (String × Json) := []

structure AuditLog extends AuditFields where
  createdAt : Nat

/-- What the columns of `audit_logs` take. -/
def AuditLog.Fits (row : AuditLog) : Prop :=
  Varchar 100 row.action ∧ Varchar 100 row.resourceType ∧ (∀ id ∈ row.resourceId, Varchar 255 id) ∧
  (∀ ip ∈ row.ipAddress, Varchar 45 ip) ∧ (Json.obj row.details).fitsJsonb = true

instance (row : AuditLog) : Decidable row.Fits :=
  inferInstanceAs (Decidable (_ ∧ _ ∧ _ ∧ _ ∧ _))

/-- The row takes the time of its transaction from the database. -/
def writeAudit (c : Ctx) (entry : AuditFields) : AuditLog := { entry with createdAt := c.now }

/-- `purge_old_audit_logs` at a time, for `settings.AUDIT_LOG_RETENTION_DAYS`: the rows it leaves. -/
def purgeOldAuditLogs (retentionDays now : Nat) (logs : List AuditLog) : List AuditLog :=
  cut AuditLog.createdAt (now - seconds (86400 * retentionDays)) logs

end WxcodeAdm
