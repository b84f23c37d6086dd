import WxcodeAdm.Audit.System
import WxcodeAdm.Guarantees.TenantTeams

/-! The audit log over the runs of the system.  It keeps a request from nothing, as long as its
columns take the rows; it holds the rows of the committed requests and no others, names nobody who
has not shown who they are, and has a record of every act on a team, each for as long as it is
retained. -/

namespace WxcodeAdm

open Lib

section Runs

variable {cfg : Config} {days : Nat} {s s' : AuditedSys} {steps : List (AuditedSys × AuditedEvent)}

/-! ### With the log and without it -/

/-- The requests of a run, at the states without the log. -/
def requests (steps : List (AuditedSys × AuditedEvent)) : List (Sys × Event) :=
  steps.filterMap fun p =>
    match p.2 with
    | .request e _ => some (p.1.sys, e)
    | .purge _ => none

theorem requests_run (hs : s.sys.Sound cfg) (hRun : Run (AuditedStep cfg days) s steps s')
    (hFits : ∀ p ∈ steps, StepFits cfg p) : Run (Step cfg) s.sys (requests steps) s'.sys := by
  induction hRun with
  | nil => exact .nil
  | @snoc steps m s' e hBefore hLast ih =>
    have hAll := List.forall_mem_append.mp hFits
    rw [requests, List.filterMap_append]
    cases hLast with
    | request serves =>
      have hLastFits := hAll.2 _ (List.mem_singleton_self _)
      exact .snoc (ih hAll.1) (serves.step (sound_of_auditedRun hs hBefore) hLastFits)
    | purge time => simpa [requests] using ih hAll.1

/-- The request of a step, with the rows that it may add, fits the columns of the log. -/
theorem requests_fit (hFits : ∀ p ∈ steps, StepFits cfg p) :
    ∀ q ∈ requests steps, ∃ o, RowsFit (q.2.ctx cfg) o q.2.request q.1.world := by
  intro q hq
  obtain ⟨⟨s₁, event⟩, hp, hIs⟩ := List.mem_filterMap.mp hq
  cases event with
  | purge => cases hIs
  | request e o =>
    obtain rfl := Option.some.inj hIs
    exact ⟨o, hFits _ hp⟩

/-- Every request of a run comes to what it comes to without the log, unless the columns of the log
do not take its rows, and is rolled back then.  The runs of the system in which they take them are,
but for the log, the runs of the system without one. -/
theorem audit_transparent (hReach : Reachable cfg s.sys) (hClock : s.clock ≤ s.sys.now)
    (days : Nat) (plain : List (Sys × Event)) (m : Sys) :
    (∀ steps s', Run (AuditedStep cfg days) s steps s' → ∀ s₁ e o, (s₁, .request e o) ∈ steps →
      e.outcome = (serve (e.ctx cfg) e.request s₁.sys.world).1.bind fun response =>
        if RowsFit (e.ctx cfg) o e.request s₁.sys.world then .ok response
        else .error (.other "DBAPIError")) ∧
    (Run (Step cfg) s.sys plain m ∧
        (∀ q ∈ plain, ∃ o, RowsFit (q.2.ctx cfg) o q.2.request q.1.world) ↔
      ∃ steps s', Run (AuditedStep cfg days) s steps s' ∧ (∀ p ∈ steps, StepFits cfg p) ∧
        requests steps = plain ∧ s'.sys = m) := by
  refine ⟨fun steps s' hRun s₁ e o hMem => ?_, ?_, ?_⟩
  · obtain ⟨pre, post, n, -, hPre, hStep, -⟩ := hRun.split _ hMem
    have hs := sound_of_auditedRun hReach.sound hPre
    cases hStep with
    | request serves =>
      rw [← serveAudited_outcome hs.valid (serves.presented_aud hs) s₁.auditLogs, serves.served]
  · rintro ⟨hRun, hFits⟩
    suffices h : ∃ steps s', Run (AuditedStep cfg days) s steps s' ∧ (∀ p ∈ steps, StepFits cfg p) ∧
        requests steps = plain ∧ s'.sys = m ∧ s'.clock ≤ m.now by
      obtain ⟨steps, s', hAudited, hStepFits, hPlain, hSys, -⟩ := h
      exact ⟨steps, s', hAudited, hStepFits, hPlain, hSys⟩
    induction hRun with
    | nil => exact ⟨[], s, .nil, by simp, rfl, rfl, hClock⟩
    | @snoc plain m n e hBefore hLast ih =>
      obtain ⟨hFits, hLastFits⟩ := List.forall_mem_append.mp hFits
      obtain ⟨steps, a, hAudited, hStepFits, rfl, rfl, hTime⟩ := ih hFits
      obtain ⟨o, hRows⟩ := hLastFits _ (List.mem_singleton_self _)
      have hServes := hLast.serves (hReach.run hBefore).sound (Nat.le_trans hTime hLast.time) hRows
      refine ⟨_, _, .snoc hAudited (.request hServes), ?_, ?_, rfl, ?_⟩
      · exact List.forall_mem_append.mpr ⟨hStepFits, List.forall_mem_singleton.mpr hRows⟩
      · rw [requests, List.filterMap_append]
        rfl
      · exact Nat.le_of_eq hLast.clock.symm
  · rintro ⟨steps, s', hRun, hFits, rfl, rfl⟩
    exact ⟨requests_run hReach.sound hRun hFits, requests_fit hFits⟩

/-! ### What the log holds -/

/-- The rows that a step adds. -/
def written (cfg : Config) (p : AuditedSys × AuditedEvent) : List AuditLog :=
  match p.2 with
  | .request e o => addedRows (e.ctx cfg) o e.request p.1.sys.world
  | .purge _ => []

/-- The time before which a step deletes the rows. -/
def cutoff (days : Nat) (p : AuditedSys × AuditedEvent) : Nat :=
  match p.2 with
  | .request .. => 0
  | .purge now => now - seconds (86400 * days)

theorem auditJournal (cfg : Config) (days : Nat) :
    Journal (AuditedStep cfg days) AuditedSys.clock AuditedSys.auditLogs AuditLog.createdAt
      (cutoff days) (written cfg) where
  log_step h := by
    cases h with
    | request serves => simp [cutoff, written, serves.auditLogs]
    | purge => simp [cutoff, written, purgeOldAuditLogs]
  clock_le h := by
    cases h with
    | request serves => exact serves.clock.2 ▸ serves.time.2
    | purge time => exact time
  cutoff_le h := by
    cases h with
    | request => exact Nat.zero_le _
    | purge => exact Nat.sub_le _ _
  added_stamp h r hr := by
    cases h with
    | request serves =>
      rw [createdAt_of_added hr, serves.clock.2]
      exact ⟨serves.time.2, Nat.zero_le _, Nat.le_refl _⟩
    | purge => simp [written] at hr

/-- What a request adds: nothing if it is refused or reads only, and else one row. -/
theorem Serves.writes {s s' : AuditedSys} {e : Event} {o : Occasion} (h : Serves cfg s e o s') :
    (∀ error, e.outcome = .error error → written cfg (s, .request e o) = []) ∧
    ∀ response, e.outcome = .ok response →
      (e.request.audits = false → written cfg (s, .request e o) = []) ∧
      (e.request.audits = true → ∃ row, written cfg (s, .request e o) = [row] ∧
        row.createdAt = e.now ∧
        Names (e.ctx cfg) s.sys.world e.request row.actorId row.tenantId) := by
  refine ⟨fun error hError => ?_, fun response hOk => ?_⟩
  · exact (serveAudited_error (hError ▸ h.served)).2
  · obtain ⟨hAudited, -⟩ := serveAudited_ok (hOk ▸ h.served)
    rcases audited_writes hAudited with
      ⟨hSilent, hNone⟩ | ⟨hAudits, _, _, hNames, row, hRow, hTime, rfl, rfl⟩
    · exact ⟨fun _ => hNone, fun h => absurd h (by simp [hSilent])⟩
    · exact ⟨fun h => absurd h (by simp [hAudits]), fun _ => ⟨row, hRow, hTime, hNames⟩⟩

/-- The log holds, in their order, the rows that the committed requests have written, less those
that a purge has deleted since.  A committed request writes one row, unless it is one of the few
kinds that write none, and a refused request writes none. -/
theorem audit_trail (hRun : Run (AuditedStep cfg days) s steps s') :
    s'.auditLogs = ((s.auditLogs ++ steps.flatMap (written cfg)).filter
      fun row => ∀ p ∈ steps, cutoff days p ≤ row.createdAt) ∧
    ∀ s₁ e o, (s₁, .request e o) ∈ steps →
      (∀ error, e.outcome = .error error → written cfg (s₁, .request e o) = []) ∧
      ∀ response, e.outcome = .ok response →
        (e.request.audits = false → written cfg (s₁, .request e o) = []) ∧
        (e.request.audits = true → ∃ row, written cfg (s₁, .request e o) = [row] ∧
          row.createdAt = e.now) := by
  refine ⟨(auditJournal cfg days).log_eq hRun, fun s₁ e o hMem => ?_⟩
  obtain ⟨pre, post, n, -, hPre, hStep, -⟩ := hRun.split _ hMem
  cases hStep with
  | request serves =>
    obtain ⟨hError, hOk⟩ := serves.writes
    refine ⟨hError, fun response hResponse => ⟨(hOk response hResponse).1, fun hAudits => ?_⟩⟩
    obtain ⟨row, hRow, hTime, -⟩ := (hOk response hResponse).2 hAudits
    exact ⟨row, hRow, hTime⟩

/-- The act of a step on the team of a tenant, with who made it, and its row. -/
structure Acted (cfg : Config) (tenantId : Uuid) (p : AuditedSys × AuditedEvent)
    (act : TeamAct Uuid String MemberRole) (e : Event) (performer : Uuid) (row : AuditLog) :
    Prop where
  event : ∃ o, p.2 = .request e o
  performs : Performs (e.ctx cfg) p.1.sys.world e.request tenantId performer act
  writes : written cfg p = [row]
  time : row.createdAt = e.now
  recorded : Recorded (e.ctx cfg) e.request tenantId performer row act

theorem AuditedStep.seen {s s' : AuditedSys} {event : AuditedEvent} (hs : s.sys.Sound cfg)
    (h : AuditedStep cfg days s event s') (tenantId : Uuid) :
    s'.sys.world.db.teamOf tenantId = s.sys.world.db.teamOf tenantId ∨ ∃ act,
      Team.Step .admin (s.sys.world.db.teamOf tenantId) act (s'.sys.world.db.teamOf tenantId) ∧
        ∃ e performer row, Acted cfg tenantId (s, event) act e performer row := by
  cases h with
  | purge => exact .inl rfl
  | @request e o _ serves =>
    cases hOutcome : e.outcome with
    | error error =>
      exact .inl (by rw [(serveAudited_error (hOutcome ▸ serves.served)).1])
    | ok response =>
      obtain ⟨hAudited, -⟩ := serveAudited_ok (hOutcome ▸ serves.served)
      rcases audited_seen hs.valid hAudited tenantId with
        hSame | ⟨act, performer, hAct, hPerforms, row, hRow, hRecorded⟩
      · exact .inl hSame
      · refine .inr ⟨act, hAct, e, performer, row, ⟨o, rfl⟩, hPerforms, hRow, ?_, hRecorded⟩
        exact createdAt_of_added (hRow ▸ List.mem_singleton_self row)

/-- Whatever has happened to the team of a tenant in a run, the audit log has a row of each act from
its time, unless a purge has deleted the row since.  The row names the act and the member, the
founder or the super-admin who made it, but for a user who has joined by verifying the address. -/
theorem team_acts_audited (hReach : Reachable cfg s.sys)
    (hRun : Run (AuditedStep cfg days) s steps s') (tenantId : Uuid) :
    ∃ acts, Run (Team.Step .admin) (s.sys.world.db.teamOf tenantId) acts
        (s'.sys.world.db.teamOf tenantId) ∧
      Makes (fun p act => act.1 = p.1.sys.world.db.teamOf tenantId ∧
        ∃ e performer row, Acted cfg tenantId p act.2 e performer row ∧
          ((∀ q ∈ steps, cutoff days q ≤ e.now) → row ∈ s'.auditLogs)) steps acts := by
  obtain ⟨acts, hActs, hMakes⟩ := hRun.simulates
    (f := fun s => s.sys.world.db.teamOf tenantId) (I := fun s => s.sys.Sound cfg)
    (P := fun p act => ∃ e performer row, Acted cfg tenantId p act e performer row)
    (fun hs hStep => hStep.sound hs) (fun hs hStep => hStep.seen hs tenantId) hReach.sound
  refine ⟨acts, hActs, hMakes.imp_mem fun p hp act hAct => ?_⟩
  obtain ⟨hTeam, e, performer, row, hActed⟩ := hAct
  refine ⟨hTeam, e, performer, row, hActed, fun hKept => ?_⟩
  refine ((auditJournal cfg days).mem_log_iff hRun).mpr ⟨.inr ⟨p, hp, ?_⟩, ?_⟩
  · exact hActed.writes ▸ List.mem_singleton_self row
  · exact hActed.time ▸ hKept

end Runs

/-! ### Bob is made a viewer -/

def aliceAudited : AuditedSys :=
  AuditedSys.after sampleConfig ⟨teamStart, [], 0⟩ teamSignedIn.1 ⟨some "203.0.113.7", ""⟩
    teamSignedIn.2

def demotionAudited : AuditedSys :=
  aliceAudited.after sampleConfig bobDemoted.1 ⟨some "203.0.113.7", ""⟩ bobDemoted.2

/-- The log a year and some seconds later: the row of the sign-in is gone. -/
def demotionPurged : AuditedSys :=
  { demotionAudited with
    auditLogs := purgeOldAuditLogs 365 (seconds 31536015) demotionAudited.auditLogs
    clock := seconds 31536015 }

def auditedDemotion : List (AuditedSys × AuditedEvent) :=
  [(⟨teamStart, [], 0⟩, .request teamSignedIn.1 ⟨some "203.0.113.7", ""⟩),
    (aliceAudited, .request bobDemoted.1 ⟨some "203.0.113.7", ""⟩),
    (demotionAudited, .purge (seconds 31536015))]

theorem demotion_serves : Serves sampleConfig aliceAudited bobDemoted.1 ⟨some "203.0.113.7", ""⟩
    demotionAudited :=
  Step.serves (teamStart_initial.reachable.step teamSignedIn_step).sound
    (.of_admits (by decide) (by trivial)) (by decide) (by decide)

theorem auditedDemotion_run :
    Run (AuditedStep sampleConfig 365) ⟨teamStart, [], 0⟩ auditedDemotion demotionPurged := by
  have hAlice : Serves sampleConfig ⟨teamStart, [], 0⟩ teamSignedIn.1 ⟨some "203.0.113.7", ""⟩
      aliceAudited :=
    Step.serves teamStart_initial.reachable.sound teamSignedIn_step (by decide) (by decide)
  exact .cons (.request hAlice) <| .cons (.request demotion_serves) <| .single (.purge (by decide))

def demotionRow : AuditLog where
  action := "change_role"
  resourceType := "membership"
  actorId := some ⟨1⟩
  tenantId := some ⟨5⟩
  resourceId := some (sampleLib.uuidText ⟨2⟩)
  ipAddress := some "203.0.113.7"
  details := [("new_role", .str "viewer")]
  createdAt := seconds 20

/-- A purge after a year takes the row of the sign-in and leaves that of the change. -/
example : demotionPurged.auditLogs = [demotionRow] := rfl

theorem audit_transparent_demotion : ∃ steps s',
    Run (AuditedStep sampleConfig 365) ⟨teamStart, [], 0⟩ steps s' ∧
      (∀ p ∈ steps, StepFits sampleConfig p) ∧ requests steps = demotion ∧
      s'.sys = bobDemoted.2 := by
  refine (audit_transparent (s := ⟨teamStart, [], 0⟩) teamStart_initial.reachable (by decide) 365
    demotion bobDemoted.2).2.mp ⟨demotion_run, ?_⟩
  rw [demotion, List.forall_mem_cons, List.forall_mem_singleton]
  exact ⟨⟨⟨some "203.0.113.7", ""⟩, by decide⟩, ⟨some "203.0.113.7", ""⟩, by decide⟩

theorem audit_trail_demotion :
    demotionPurged.auditLogs = (auditedDemotion.flatMap (written sampleConfig)).filter
      fun row => ∀ p ∈ auditedDemotion, cutoff 365 p ≤ row.createdAt :=
  (audit_trail (s := ⟨teamStart, [], 0⟩) auditedDemotion_run).1

theorem team_acts_audited_demotion :
    ∃ acts, Run (Team.Step .admin) (teamStart.world.db.teamOf ⟨5⟩) acts
        (demotionPurged.sys.world.db.teamOf ⟨5⟩) ∧
      Makes (fun p act => act.1 = p.1.sys.world.db.teamOf ⟨5⟩ ∧
        ∃ e performer row, Acted sampleConfig ⟨5⟩ p act.2 e performer row ∧
          ((∀ q ∈ auditedDemotion, cutoff 365 q ≤ e.now) → row ∈ demotionPurged.auditLogs))
        auditedDemotion acts :=
  team_acts_audited (s := ⟨teamStart, [], 0⟩) teamStart_initial.reachable auditedDemotion_run ⟨5⟩

end WxcodeAdm
