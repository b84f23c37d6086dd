import WxcodeAdm.Audit.Rows
import WxcodeAdm.System

/-! The system with its audit log.  The rows of a request are committed with the request or rolled
back with it, and the database checks whom and which tenant they name and whether the columns take
them; a job of the worker deletes the old ones.  Without the log this is the system as it is without
the audit. -/

namespace WxcodeAdm

open Lib

/-- The foreign keys of `audit_logs`. -/
def AuditLog.Refers (db : Db) (row : AuditLog) : Prop :=
  (∀ id ∈ row.actorId, db.HasUser id) ∧ ∀ id ∈ row.tenantId, db.HasTenant id

instance (db : Db) (row : AuditLog) : Decidable (row.Refers db) :=
  inferInstanceAs (Decidable (_ ∧ _))

/-- The flush of the rows of the log.  Its errors from the driver, for a text that a column does not
take, come after those of the foreign keys. -/
def flushLogs (rows : List AuditLog) : App Unit := do
  let refers ← .query fun db => decide (∀ row ∈ rows, row.Refers db)
  .ensure (refers = true) .integrityError
  .ensure (∀ row ∈ rows, row.Fits) (.other "DBAPIError")

/-- A request up to its commit, with the rows that it adds. -/
def auditedTransaction (c : Ctx) (o : Occasion) (r : Request) : App AuditedResponse := do
  let x ← audited c o r
  flush
  flushLogs x.2
  return x

/-- `get_session` around a request, for the rows of the audit log as for the others. -/
def serveAudited (c : Ctx) (o : Occasion) (r : Request) (w : World) (logs : List AuditLog) :
    Except PyError Response × World × List AuditLog :=
  match (auditedTransaction c o r).atomically w with
  | (.ok x, w') => (.ok x.1, w', logs ++ x.2)
  | (.error error, w') => (.error error, w', logs)

structure AuditedSys where
  sys : Sys
  auditLogs : List AuditLog
  clock : Nat

inductive AuditedEvent where
  | request (e : Event) (occasion : Occasion)
  | purge (now : Nat)

/-- One request, as in `Step`, with its rows. -/
structure Serves (cfg : Config) (s : AuditedSys) (e : Event) (o : Occasion) (s' : AuditedSys) :
    Prop where
  time : s.sys.now ≤ e.now ∧ s.clock ≤ e.now
  fresh : ∀ past ∈ s.sys.log, past.draws.Apart cfg e.draws
  presented : ∀ p, .signed p ∈ e.request.bearers → p ∈ s.sys.minted
  genuine : e.request.Genuine s.sys.world.cache.jobs
  served : serveAudited (e.ctx cfg) o e.request s.sys.world s.auditLogs =
    (e.outcome, s'.sys.world, s'.auditLogs)
  clock : s'.sys.now = e.now ∧ s'.clock = e.now
  log : s'.sys.log = s.sys.log ++ [e]

/-- A request, or `purge_old_audit_logs` in the worker. -/
inductive AuditedStep (cfg : Config) (retentionDays : Nat) :
    AuditedSys → AuditedEvent → AuditedSys → Prop
  | request {s e o s'} (serves : Serves cfg s e o s') :
      AuditedStep cfg retentionDays s (.request e o) s'
  | purge {s now} (time : s.clock ≤ now) : AuditedStep cfg retentionDays s (.purge now)
      { s with auditLogs := purgeOldAuditLogs retentionDays now s.auditLogs, clock := now }

/-! ### The rows name those who are there -/

section Handlers

variable {c : Ctx} {o : Occasion} {w w' : World} {r : Request} {actor tenant : Option Uuid}

theorem Names.actor_mem (hValid : w.db.Valid) (h : Names c w r actor tenant) :
    ∀ id ∈ actor, w.db.HasUser id := by
  rintro id rfl
  cases h with
  | signedIn _ guard | newcomer _ guard =>
    exact ⟨_, Db.user_mem (requireVerified_ok guard.choose_spec).2.1, rfl⟩
  | member _ acts => exact hValid.membershipUser _ acts.mem.1
  | admin _ guard | adminOf _ guard _ =>
    obtain ⟨_, -, -, -, -, hUser, -⟩ := requireAdmin_ok.mp guard.choose_spec
    exact ⟨_, Db.user_mem hUser, rfl⟩
  | password _ found | adminPassword _ found => exact ⟨_, List.mem_of_find?_eq_some found, rfl⟩
  | refreshToken _ _ found => exact hValid.refreshTokenUser _ (Db.refreshToken_mem found).1

theorem Names.tenant_mem (hValid : w.db.Valid) (h : Names c w r actor tenant) :
    ∀ id ∈ tenant, w.db.HasTenant id := by
  rintro id rfl
  cases h with
  | member _ acts => exact ⟨_, acts.known, rfl⟩
  | newcomer _ _ redeems => exact hValid.invitationTenant _ redeems.mem
  | adminOf _ _ found =>
    obtain ⟨hMem, -, rfl⟩ := Db.membership_mem found
    exact hValid.membershipTenant _ hMem

/-- No request takes a tenant away. -/
theorem handle_hasTenant {response : Response} {id : Uuid}
    (hAud : ∀ p, .signed p ∈ r.bearers → ∃ a, p.aud = some a ∧ a ≠ "")
    (hRun : (handle c r).run w = .ok response w') (hHas : w.db.HasTenant id) :
    w'.db.HasTenant id := by
  rcases ((handle_evolves r hAud).of_ok hRun).tenancy with hPower | hSame
  · by_cases hTouched : Part.tenants ∈ r.parts
    · -- the one request that changes the members of a tenant and the table of the tenants
      cases r with
      | createWorkspace token name =>
        obtain ⟨user, m, hUser, hRun⟩ := Handler.run_bind_ok.mp hRun
        obtain ⟨⟨tenant, membership⟩, m', hCreate, hRun⟩ := Handler.run_bind_ok.mp hRun
        obtain ⟨-, rfl⟩ := Handler.run_pure_ok.mp hRun
        rw [← (requireVerified_ok hUser).1] at hHas
        obtain ⟨t, ht, rfl⟩ := hHas
        exact ⟨t, (createWorkspace_ok hCreate).tenants ▸ List.mem_append_left _ ht, rfl⟩
      | _ => simp [Request.parts, Request.powers, Request.changesTenancy] at hTouched hPower
    · rw [Db.HasTenant, (handle_touches r .tenants hTouched).of_ok hRun]
      exact hHas
  · have hIds : w'.db.tenants.map (fun t => t.id) = w.db.tenants.map fun t => t.id :=
      congrArg (fun t => t.2.2.2) hSame
    have hIn : id ∈ w'.db.tenants.map fun t => t.id := hIds ▸ List.mem_map.mpr hHas
    exact List.mem_map.mp hIn

/-- The database takes every row that a request adds. -/
theorem audited_refers {x : AuditedResponse} (hValid : w.db.Valid)
    (hAud : ∀ p, .signed p ∈ r.bearers → ∃ a, p.aud = some a ∧ a ≠ "")
    (hRun : (audited c o r).run w = .ok x w') : ∀ row ∈ x.2, row.Refers w'.db := by
  have hHandle := audited_ok hRun
  rcases audited_writes hRun with ⟨-, hNone⟩ | ⟨-, actor, tenant, hNames, row, hRow, -, rfl, rfl⟩
  · simp [hNone]
  · rw [hRow]
    refine List.forall_mem_singleton.mpr ⟨fun id hId => ?_, fun id hId => ?_⟩
    · exact ((handle_evolves r hAud).of_ok hHandle).users.hasUser hValid
        (hNames.actor_mem hValid id hId)
    · exact handle_hasTenant hAud hHandle (hNames.tenant_mem hValid id hId)

/-- The rows that a request adds, if it returns. -/
def handledRows (c : Ctx) (o : Occasion) (r : Request) (w : World) : List AuditLog :=
  match (audited c o r).run w with
  | .ok x _ => x.2
  | .error .. => []

/-- The columns of the log take the rows that a request adds. -/
def RowsFit (c : Ctx) (o : Occasion) (r : Request) (w : World) : Prop :=
  ∀ row ∈ handledRows c o r w, row.Fits

instance : Decidable (RowsFit c o r w) := inferInstanceAs (Decidable (∀ row ∈ _, _))

theorem rowsFit_of_run {x : AuditedResponse} (hRun : (audited c o r).run w = .ok x w') :
    RowsFit c o r w ↔ ∀ row ∈ x.2, row.Fits := by
  rw [RowsFit, handledRows, hRun]

theorem run_flushLogs {rows : List AuditLog} (hRefers : ∀ row ∈ rows, row.Refers w.db) :
    (flushLogs rows).run w =
      if ∀ row ∈ rows, row.Fits then .ok () w else .error (.other "DBAPIError") w := by
  rw [flushLogs, Handler.run_query_bind, Handler.ensure_bind_of (decide_eq_true hRefers),
    Handler.run_ensure]

theorem run_flushLogs_ok {rows : List AuditLog} : (flushLogs rows).run w = .ok () w' ↔
    (∀ row ∈ rows, row.Refers w.db) ∧ (∀ row ∈ rows, row.Fits) ∧ w = w' := by
  rw [flushLogs, Handler.run_query_bind, Handler.run_ensure_bind_ok, decide_eq_true_eq,
    Handler.run_ensure]
  by_cases hFits : ∀ row ∈ rows, row.Fits
  · rw [if_pos hFits, and_iff_right hFits]
    simp
  · rw [if_neg hFits]
    simp [-not_forall, hFits]

/-- A transaction that ends in a commit. -/
theorem run_auditedTransaction_ok {x : AuditedResponse} :
    (auditedTransaction c o r).run w = .ok x w' ↔ (audited c o r).run w = .ok x w' ∧
      w'.db.Valid ∧ (∀ row ∈ x.2, row.Refers w'.db) ∧ ∀ row ∈ x.2, row.Fits := by
  constructor
  · intro hRun
    obtain ⟨y, m, hAudited, hRun⟩ := Handler.run_bind_ok.mp hRun
    obtain ⟨hValid, hRun⟩ := run_flush_bind_ok.mp hRun
    obtain ⟨⟨⟩, m', hRows, hPure⟩ := Handler.run_bind_ok.mp hRun
    obtain ⟨rfl, rfl⟩ := Handler.run_pure_ok.mp hPure
    obtain ⟨hRefers, hFits, rfl⟩ := run_flushLogs_ok.mp hRows
    exact ⟨hAudited, hValid, hRefers, hFits⟩
  · rintro ⟨hAudited, hValid, hRefers, hFits⟩
    refine Handler.run_bind_ok.mpr ⟨x, w', hAudited, run_flush_bind_ok.mpr ⟨hValid, ?_⟩⟩
    exact Handler.run_bind_ok.mpr ⟨(), w', run_flushLogs_ok.mpr ⟨hRefers, hFits, rfl⟩, rfl⟩

/-- Where the columns of the log take the rows, the transaction with the audit is the one without it,
and its rows. -/
theorem atomically_audited (hValid : w.db.Valid)
    (hAud : ∀ p, .signed p ∈ r.bearers → ∃ a, p.aud = some a ∧ a ≠ "") (hFits : RowsFit c o r w) :
    serve c r w = (((auditedTransaction c o r).atomically w).1.map Prod.fst,
      ((auditedTransaction c o r).atomically w).2) := by
  cases hRun : (audited c o r).run w with
  | error error m =>
    have hAudited : (auditedTransaction c o r).atomically w =
        (.error error, { m with db := w.db }) := by
      refine Handler.atomically_error.mpr ⟨m, ?_, rfl⟩
      rw [auditedTransaction, Handler.run_bind, hRun]
    rw [serve_of_error (audited_error hRun), hAudited]
    rfl
  | ok x m =>
    by_cases hFlush : m.db.Valid
    · have hAudited : (auditedTransaction c o r).atomically w = (.ok x, m) :=
        Handler.atomically_ok.mpr <| run_auditedTransaction_ok.mpr
          ⟨hRun, hFlush, audited_refers hValid hAud hRun, (rowsFit_of_run hRun).mp hFits⟩
      rw [serve_of_run (audited_ok hRun) hFlush, hAudited]
      rfl
    · -- the flush at the commit raises in both
      have hAudited : (auditedTransaction c o r).atomically w =
          (.error .integrityError, { m with db := w.db }) := by
        refine Handler.atomically_error.mpr ⟨m, ?_, rfl⟩
        simp only [auditedTransaction, Handler.run_bind, hRun, run_flush_invalid hFlush]
      rw [serve_of_invalid (audited_ok hRun) hFlush, hAudited]
      rfl

/-- And where they do not, it is rolled back. -/
theorem atomically_unfit (hValid : w.db.Valid)
    (hAud : ∀ p, .signed p ∈ r.bearers → ∃ a, p.aud = some a ∧ a ≠ "") (hUnfit : ¬RowsFit c o r w) :
    (auditedTransaction c o r).atomically w =
      ((serve c r w).1.bind fun _ => .error (.other "DBAPIError"),
        { (serve c r w).2 with db := w.db }) := by
  cases hRun : (audited c o r).run w with
  | error error m =>
    refine absurd (fun row hRow => ?_) hUnfit
    rw [handledRows, hRun] at hRow
    cases hRow
  | ok x m =>
    have hRows := mt (rowsFit_of_run hRun).mpr hUnfit
    by_cases hFlush : m.db.Valid
    · rw [serve_of_run (audited_ok hRun) hFlush]
      refine Handler.atomically_error.mpr ⟨m, ?_, rfl⟩
      have hFlushed : flush.run m = .ok () m := run_flush_ok.mpr ⟨hFlush, rfl⟩
      have hRefers := audited_refers hValid hAud hRun
      simp only [auditedTransaction, Handler.run_bind, hRun, hFlushed, run_flushLogs hRefers,
        if_neg hRows]
    · rw [serve_of_invalid (audited_ok hRun) hFlush]
      refine Handler.atomically_error.mpr ⟨m, ?_, rfl⟩
      simp only [auditedTransaction, Handler.run_bind, hRun, run_flush_invalid hFlush]

/-- The rows that a request adds, if it is committed. -/
def addedRows (c : Ctx) (o : Occasion) (r : Request) (w : World) : List AuditLog :=
  match (auditedTransaction c o r).atomically w with
  | (.ok x, _) => x.2
  | (.error _, _) => []

theorem serveAudited_logs (logs : List AuditLog) :
    (serveAudited c o r w logs).2.2 = logs ++ addedRows c o r w := by
  rw [serveAudited, addedRows]
  split <;> simp

/-- A request whose rows the log takes is served as without the audit, and adds its rows. -/
theorem serveAudited_eq (hValid : w.db.Valid)
    (hAud : ∀ p, .signed p ∈ r.bearers → ∃ a, p.aud = some a ∧ a ≠ "") (hFits : RowsFit c o r w)
    (logs : List AuditLog) :
    serveAudited c o r w logs =
      ((serve c r w).1, (serve c r w).2, logs ++ addedRows c o r w) := by
  rw [atomically_audited (o := o) hValid hAud hFits, serveAudited, addedRows]
  split <;> simp [*, Except.map]

/-- What comes of a request: what comes of it without the audit, but for the columns of the log. -/
theorem serveAudited_outcome (hValid : w.db.Valid)
    (hAud : ∀ p, .signed p ∈ r.bearers → ∃ a, p.aud = some a ∧ a ≠ "") (logs : List AuditLog) :
    (serveAudited c o r w logs).1 = (serve c r w).1.bind fun response =>
      if RowsFit c o r w then .ok response else .error (.other "DBAPIError") := by
  by_cases hFits : RowsFit c o r w
  · rw [serveAudited_eq hValid hAud hFits]
    simp only [if_pos hFits]
    exact (bind_pure _).symm
  · rw [serveAudited, atomically_unfit hValid hAud hFits]
    simp only [if_neg hFits]
    cases (serve c r w).1 <;> rfl

theorem addedRows_of_run {x : AuditedResponse}
    (hRun : (auditedTransaction c o r).atomically w = (.ok x, w')) :
    (audited c o r).run w = .ok x w' ∧ addedRows c o r w = x.2 :=
  ⟨(run_auditedTransaction_ok.mp (Handler.atomically_ok.mp hRun)).1, by rw [addedRows, hRun]⟩

/-- A row that a request adds has the time of the request. -/
theorem createdAt_of_added {row : AuditLog} (hRow : row ∈ addedRows c o r w) :
    row.createdAt = c.now := by
  cases hRun : (auditedTransaction c o r).atomically w with
  | mk outcome m =>
    cases outcome with
    | error => simp [addedRows, hRun] at hRow
    | ok x =>
      obtain ⟨hAudited, hRows⟩ := addedRows_of_run hRun
      rw [hRows] at hRow
      rcases audited_writes hAudited with ⟨-, hNone⟩ | ⟨-, _, _, -, row', hIs, hTime, -⟩
      · simp [hNone] at hRow
      · rw [hIs, List.mem_singleton] at hRow
        rw [hRow, hTime]

/-- A request that is committed has added its rows, which the log takes. -/
theorem serveAudited_ok {response : Response} {logs logs' : List AuditLog}
    (hServe : serveAudited c o r w logs = (.ok response, w', logs')) :
    (audited c o r).run w = .ok (response, addedRows c o r w) w' ∧ RowsFit c o r w := by
  cases hRun : (auditedTransaction c o r).atomically w with
  | mk outcome m =>
    rw [serveAudited, hRun] at hServe
    cases outcome with
    | error => simp at hServe
    | ok x =>
      obtain ⟨rfl, rfl, -⟩ : x.1 = response ∧ m = w' ∧ logs ++ x.2 = logs' := by simpa using hServe
      obtain ⟨hAudited, -, -, hFits⟩ := run_auditedTransaction_ok.mp (Handler.atomically_ok.mp hRun)
      rw [(addedRows_of_run hRun).2]
      exact ⟨hAudited, (rowsFit_of_run hAudited).mpr hFits⟩

/-- A request that is refused leaves the tables, and adds nothing. -/
theorem serveAudited_error {error : PyError} {logs logs' : List AuditLog}
    (hServe : serveAudited c o r w logs = (.error error, w', logs')) :
    w'.db = w.db ∧ addedRows c o r w = [] := by
  cases hRun : (auditedTransaction c o r).atomically w with
  | mk outcome m =>
    rw [serveAudited, hRun] at hServe
    cases outcome with
    | ok x => simp at hServe
    | error =>
      obtain ⟨-, rfl, -⟩ : _ ∧ m = w' ∧ _ := by simpa using hServe
      exact ⟨Handler.atomically_error_db hRun, by rw [addedRows, hRun]⟩

end Handlers

/-! ### Steps with and without the log -/

section Steps

variable {cfg : Config} {days : Nat} {s s' : AuditedSys} {e : Event} {o : Occasion}

/-- The columns of the log take the rows of the request of a step. -/
def StepFits (cfg : Config) (p : AuditedSys × AuditedEvent) : Prop :=
  match p.2 with
  | .request e o => RowsFit (e.ctx cfg) o e.request p.1.sys.world
  | .purge _ => True

theorem Serves.presented_aud (hs : s.sys.Sound cfg) (h : Serves cfg s e o s') (p : Payload)
    (hp : .signed p ∈ e.request.bearers) : ∃ a, p.aud = some a ∧ a ≠ "" :=
  hs.minted_aud (h.presented p hp)

/-- A request of the system with the log is one of the system without it, if its rows fit. -/
theorem Serves.step (hs : s.sys.Sound cfg) (h : Serves cfg s e o s')
    (hFits : RowsFit (e.ctx cfg) o e.request s.sys.world) : Step cfg s.sys e s'.sys where
  time := h.time.1
  fresh := h.fresh
  presented := h.presented
  genuine := h.genuine
  served := by
    have hServed := h.served
    rw [serveAudited_eq hs.valid (h.presented_aud hs) hFits] at hServed
    simp only [Prod.mk.injEq] at hServed
    exact Prod.ext hServed.1 hServed.2.1
  clock := h.clock.1
  log := h.log

/-- A request is one of the system without the log, or it is rolled back. -/
theorem Serves.step_or_rolledBack (hs : s.sys.Sound cfg) (h : Serves cfg s e o s') :
    Step cfg s.sys e s'.sys ∨
      e.issued = none ∧ s'.sys.world.db = s.sys.world.db := by
  cases hOutcome : e.outcome with
  | ok response =>
    exact .inl (h.step hs (serveAudited_ok (hOutcome ▸ h.served)).2)
  | error error =>
    exact .inr ⟨by rw [Event.issued, hOutcome], (serveAudited_error (hOutcome ▸ h.served)).1⟩

theorem Serves.sound (hs : s.sys.Sound cfg) (h : Serves cfg s e o s') : s'.sys.Sound cfg := by
  rcases h.step_or_rolledBack hs with hStep | ⟨hNone, hDb⟩
  · exact hStep.sound hs
  · exact hs.refused h.time.1 h.fresh hNone hDb h.clock.1 h.log

theorem AuditedStep.sound {event : AuditedEvent} (hs : s.sys.Sound cfg)
    (h : AuditedStep cfg days s event s') : s'.sys.Sound cfg := by
  cases h with
  | request serves => exact serves.sound hs
  | purge => exact hs

theorem sound_of_auditedRun {steps : List (AuditedSys × AuditedEvent)} (hs : s.sys.Sound cfg)
    (hRun : Run (AuditedStep cfg days) s steps s') : s'.sys.Sound cfg :=
  hRun.invariant (I := fun s => s.sys.Sound cfg) (fun hs hStep => hStep.sound hs) hs

theorem Serves.auditLogs (h : Serves cfg s e o s') :
    s'.auditLogs = s.auditLogs ++ addedRows (e.ctx cfg) o e.request s.sys.world := by
  rw [← serveAudited_logs, h.served]

/-- The system after a request that leaves `m` without the log. -/
def AuditedSys.after (cfg : Config) (s : AuditedSys) (e : Event) (o : Occasion) (m : Sys) :
    AuditedSys where
  sys := m
  auditLogs := s.auditLogs ++ addedRows (e.ctx cfg) o e.request s.sys.world
  clock := e.now

/-- And the other way around: rows that fit keep no request from being served. -/
theorem Step.serves {m : Sys} (hs : s.sys.Sound cfg) (h : Step cfg s.sys e m)
    (hClock : s.clock ≤ e.now) (hFits : RowsFit (e.ctx cfg) o e.request s.sys.world) :
    Serves cfg s e o (s.after cfg e o m) where
  time := ⟨h.time, hClock⟩
  fresh := h.fresh
  presented := h.presented
  genuine := h.genuine
  served := by
    rw [serveAudited_eq hs.valid (h.presented_aud hs) hFits, h.served]
    rfl
  clock := ⟨h.clock, rfl⟩
  log := h.log

end Steps

end WxcodeAdm
