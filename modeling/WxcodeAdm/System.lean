import WxcodeAdm.Lib.Run
import WxcodeAdm.Router

/-! The backend as a system: requests, each in one transaction, at times that do not go back, with
the values they draw and what came of them.  The log of past requests is no part of the backend; it
is what statements about its history speak of. -/

namespace WxcodeAdm

open Lib

/-- A request up to its commit, which flushes what is still pending. -/
def transaction (c : Ctx) (r : Request) : App Response := do
  let response ← handle c r
  flush
  return response

/-- `get_session` around a request: committed when it returns, rolled back when it raises. -/
def serve (c : Ctx) (r : Request) (s : World) : Except PyError Response × World :=
  (transaction c r).atomically s

/-- A request whose handler returns in a state that meets the constraints commits. -/
theorem serve_of_run {c : Ctx} {r : Request} {w w' : World} {response : Response}
    (hRun : (handle c r).run w = .ok response w') (hValid : w'.db.Valid) :
    serve c r w = (.ok response, w') :=
  Handler.atomically_ok.mpr <| Handler.run_bind_ok.mpr
    ⟨response, w', hRun, run_flush_bind_ok.mpr ⟨hValid, rfl⟩⟩

/-- A request whose handler raises is rolled back. -/
theorem serve_of_error {c : Ctx} {r : Request} {w m : World} {error : PyError}
    (hRun : (handle c r).run w = .error error m) :
    serve c r w = (.error error, { m with db := w.db }) := by
  refine Handler.atomically_error.mpr ⟨m, ?_, rfl⟩
  rw [transaction, Handler.run_bind, hRun]

/-- A request whose handler returns in a state that breaks the constraints is rolled back. -/
theorem serve_of_invalid {c : Ctx} {r : Request} {w m : World} {response : Response}
    (hRun : (handle c r).run w = .ok response m) (hInvalid : ¬m.db.Valid) :
    serve c r w = (.error .integrityError, { m with db := w.db }) := by
  refine Handler.atomically_error.mpr ⟨m, ?_, rfl⟩
  simp only [transaction, Handler.run_bind, hRun, run_flush_invalid hInvalid]

/-- A request leaves in Redis what its handler leaves there. -/
theorem serve_cache (c : Ctx) (r : Request) (w : World) :
    (serve c r w).2.cache = ((handle c r).final w).cache := by
  rw [serve, Handler.atomically_cache, transaction, Handler.final_bind_of_within_eq]
  exact fun _ => .bind (.bind (.query _) fun _ => .ensure _ _) fun _ => .pure _

/-- A request with its time, the values that it drew, and what came of it. -/
structure Event where
  now : Nat
  draws : Draws
  request : Request
  outcome : Except PyError Response

namespace Event

variable (cfg : Config) (e : Event)

def ctx : Ctx := { cfg with now := e.now, draws := e.draws }

def issued : Option TokenResponse :=
  match e.outcome with
  | .ok response => response.issued
  | .error _ => none

end Event

structure Sys where
  world : World
  now : Nat
  log : List Event

namespace Sys

variable (s : Sys)

def minted : List Payload := s.log.filterMap fun e => e.issued.map fun t => t.accessToken

end Sys

/-- Two requests draw different values where a repetition would be a collision of 128 random bits
or more. -/
structure Draws.Apart (cfg : Config) (d d' : Draws) : Prop where
  jti : d.jti ≠ d'.jti
  refreshTokenId : d.refreshTokenId ≠ d'.refreshTokenId
  refreshToken : d.refreshToken ≠ d'.refreshToken
  deviceTokenHash : cfg.lib.sha256 d.deviceToken ≠ cfg.lib.sha256 d'.deviceToken

instance (cfg : Config) (d d' : Draws) : Decidable (d.Apart cfg d') :=
  decidable_of_iff (d.jti ≠ d'.jti ∧ d.refreshTokenId ≠ d'.refreshTokenId ∧
      d.refreshToken ≠ d'.refreshToken ∧
      cfg.lib.sha256 d.deviceToken ≠ cfg.lib.sha256 d'.deviceToken)
    ⟨fun ⟨hJti, hId, hToken, hDevice⟩ => ⟨hJti, hId, hToken, hDevice⟩,
      fun h => ⟨h.jti, h.refreshTokenId, h.refreshToken, h.deviceTokenHash⟩⟩

/-- The signed texts that a request presents are ones that were sent. -/
def Request.Genuine (jobs : List Job) : Request → Prop
  | .resetPassword token _ =>
    token.signature.isSome = true → ∃ userId email, .sendResetEmail userId email token ∈ jobs
  | .acceptInvitation _ token =>
    token.signature.isSome = true →
      ∃ email tenantName role, .sendInvitationEmail email tenantName token role ∈ jobs
  | _ => True

/-- One request.  Signatures are not forged: a signed token that is presented was issued, and a
signed text was sent. -/
structure Step (cfg : Config) (s : Sys) (e : Event) (s' : Sys) : Prop where
  time : s.now ≤ e.now
  fresh : ∀ past ∈ s.log, past.draws.Apart cfg e.draws
  presented : ∀ p, .signed p ∈ e.request.bearers → p ∈ s.minted
  genuine : e.request.Genuine s.world.cache.jobs
  served : serve (e.ctx cfg) e.request s.world = (e.outcome, s'.world)
  clock : s'.now = e.now
  log : s'.log = s.log ++ [e]

/-- A database with users, tenants, members and plans, in which nobody has a session, a trusted
device, an invitation or a transfer yet, and an empty Redis. -/
structure Initial (s : Sys) : Prop where
  valid : s.world.db.Valid
  refreshTokens : s.world.db.refreshTokens = []
  trustedDevices : s.world.db.trustedDevices = []
  invitations : s.world.db.invitations = []
  transfers : s.world.db.transfers = []
  cache : s.world.cache = {}
  log : s.log = []

def Reachable (cfg : Config) (s : Sys) : Prop :=
  ∃ s₀ steps, Initial s₀ ∧ Run (Step cfg) s₀ steps s

/-- What the log says of the state: constraints hold, every refresh token and device comes from a
past request, what was issued is made of the values drawn, for a user who is there, and no
invitation offers the owner role. -/
structure Sys.Sound (cfg : Config) (s : Sys) : Prop where
  valid : s.world.db.Valid
  past : ∀ e ∈ s.log, e.now ≤ s.now
  apart : s.log.Pairwise fun e e' => e.draws.Apart cfg e'.draws
  issued : ∀ e ∈ s.log, ∀ t, e.issued = some t →
    t.refreshToken = e.draws.refreshToken ∧ t.accessToken.jti = e.draws.jti ∧
      t.accessToken.aud = some e.request.audience ∧
      t.accessToken.exp = timestamp (e.now + cfg.accessTtl)
  users : ∀ e ∈ s.log, ∀ t, e.issued = some t → ∃ u, s.world.db.user t.accessToken.sub = some u
  rows : ∀ r ∈ s.world.db.refreshTokens, ∃ e ∈ s.log, ∃ t, e.issued = some t ∧
    r = newRefreshToken (e.ctx cfg) t.accessToken.sub
  devices : ∀ d ∈ s.world.db.trustedDevices, ∃ e ∈ s.log,
    d.tokenHash = cfg.lib.sha256 e.draws.deviceToken
  invitations : s.world.db.InvitesNoOwner

variable {cfg : Config} {s s' : Sys} {e : Event}

theorem Event.issued_some {t : TokenResponse} (h : e.issued = some t) :
    ∃ response, e.outcome = .ok response ∧ response.issued = some t := by
  unfold Event.issued at h
  split at h
  · exact ⟨_, ‹_›, h⟩
  · cases h

theorem Request.audience_eq (r : Request) :
    r.audience = "wxcode-adm" ∨ r.audience = "wxcode-adm-admin" := by
  unfold Request.audience
  split <;> simp

theorem Request.audience_ne (r : Request) : r.audience ≠ "" := by
  rcases r.audience_eq with h | h <;> simp [h]

theorem Sys.mem_minted {p : Payload} :
    p ∈ s.minted ↔ ∃ e ∈ s.log, ∃ t, e.issued = some t ∧ t.accessToken = p := by
  simp [minted, Option.map_eq_some_iff]

/-- Minted tokens name an audience, so `blacklist_access_token` does nothing to them. -/
theorem Sys.Sound.minted_aud (h : s.Sound cfg) {p : Payload} (hp : p ∈ s.minted) :
    ∃ a, p.aud = some a ∧ a ≠ "" := by
  obtain ⟨e, he, t, ht, rfl⟩ := mem_minted.mp hp
  exact ⟨_, (h.issued e he t ht).2.2.1, e.request.audience_ne⟩

theorem Sys.Sound.minted_audience (h : s.Sound cfg) {p : Payload} (hp : p ∈ s.minted) :
    p.aud = some "wxcode-adm" ∨ p.aud = some "wxcode-adm-admin" := by
  obtain ⟨e, he, t, ht, rfl⟩ := mem_minted.mp hp
  simpa [(h.issued e he t ht).2.2.1] using e.request.audience_eq

theorem Sys.Sound.minted_user (h : s.Sound cfg) {p : Payload} (hp : p ∈ s.minted) :
    ∃ u, s.world.db.user p.sub = some u := by
  obtain ⟨e, he, t, ht, rfl⟩ := mem_minted.mp hp
  exact h.users e he t ht

/-- A minted token lives no longer than a token lives that is minted now. -/
theorem Sys.Sound.minted_exp (h : s.Sound cfg) {p : Payload} (hp : p ∈ s.minted) :
    seconds p.exp ≤ s.now + cfg.accessTtl := by
  obtain ⟨e, he, t, ht, rfl⟩ := mem_minted.mp hp
  rw [(h.issued e he t ht).2.2.2, seconds, timestamp]
  exact Nat.le_trans (Nat.mul_div_le _ _) (Nat.add_le_add_right (h.past e he) _)

/-! What the log says, with one more event. -/

theorem Sys.Sound.past_concat (h : s.Sound cfg) (hTime : s.now ≤ e.now) :
    ∀ e' ∈ s.log ++ [e], e'.now ≤ e.now := by
  intro e' he
  rw [List.mem_append, List.mem_singleton] at he
  rcases he with he | rfl
  · exact Nat.le_trans (h.past e' he) hTime
  · exact Nat.le_refl _

theorem Sys.Sound.apart_concat (h : s.Sound cfg)
    (hFresh : ∀ past ∈ s.log, past.draws.Apart cfg e.draws) :
    (s.log ++ [e]).Pairwise fun e e' => e.draws.Apart cfg e'.draws := by
  refine List.pairwise_append.mpr ⟨h.apart, List.pairwise_singleton _ _, fun past hp e' he => ?_⟩
  rw [List.mem_singleton] at he
  exact he ▸ hFresh past hp

/-- A request that issues nothing and leaves the tables alone keeps what the log says. -/
theorem Sys.Sound.refused (h : s.Sound cfg) (hTime : s.now ≤ e.now)
    (hFresh : ∀ past ∈ s.log, past.draws.Apart cfg e.draws) (hNone : e.issued = none)
    (hDb : s'.world.db = s.world.db) (hClock : s'.now = e.now) (hLog : s'.log = s.log ++ [e]) :
    s'.Sound cfg := by
  have hIssued {e' : Event} (he : e' ∈ s'.log) {t : TokenResponse} (ht : e'.issued = some t) :
      e' ∈ s.log := by
    rw [hLog, List.mem_append, List.mem_singleton] at he
    rcases he with he | rfl
    · exact he
    · rw [hNone] at ht
      cases ht
  have hSubset : s.log ⊆ s'.log := by simp [hLog]
  exact {
    valid := hDb ▸ h.valid
    past := by
      rw [hLog, hClock]
      exact h.past_concat hTime
    apart := hLog ▸ h.apart_concat hFresh
    issued := fun e' he t ht => h.issued e' (hIssued he ht) t ht
    users := fun e' he t ht => hDb ▸ h.users e' (hIssued he ht) t ht
    rows := fun r hr => by
      obtain ⟨e', he, hRow⟩ := h.rows r (hDb ▸ hr)
      exact ⟨e', hSubset he, hRow⟩
    devices := fun d hd => by
      obtain ⟨e', he, hHash⟩ := h.devices d (hDb ▸ hd)
      exact ⟨e', hSubset he, hHash⟩
    invitations := hDb ▸ h.invitations }

namespace Step

theorem presented_aud (hs : s.Sound cfg) (h : Step cfg s e s') (p : Payload)
    (hp : .signed p ∈ e.request.bearers) : ∃ a, p.aud = some a ∧ a ≠ "" :=
  hs.minted_aud (h.presented p hp)

/-- Every step stays within the relation, with the powers of its request. -/
theorem evolves (hs : s.Sound cfg) (h : Step cfg s e s') :
    Evolves (e.ctx cfg) e.request.powers s.world s'.world := by
  have hWithin : Handler.Within (Evolves (e.ctx cfg) e.request.powers)
      (transaction (e.ctx cfg) e.request) :=
    .bind (handle_evolves _ (h.presented_aud hs)) fun _ => .bind Evolves.flush fun _ => .pure _
  have hStep := hWithin.atomically (fun _ _ => Evolves.rollback) s.world
  rwa [show Handler.atomically _ s.world = _ from h.served] at hStep

/-- What a committed step ran, with the constraints that its flush has checked. -/
theorem committed (h : Step cfg s e s') {response : Response} (hOk : e.outcome = .ok response) :
    (handle (e.ctx cfg) e.request).run s.world = .ok response s'.world ∧ s'.world.db.Valid := by
  have hRun := h.served
  rw [hOk, serve, transaction, Handler.atomically_ok] at hRun
  obtain ⟨a, m, hHandle, hRun⟩ := Handler.run_bind_ok.mp hRun
  simp only [run_flush_bind_ok, Handler.run_pure_ok] at hRun
  obtain ⟨hValid, rfl, rfl⟩ := hRun
  exact ⟨hHandle, hValid⟩

/-- A request whose handler returns in a state that meets the constraints is a step. -/
theorem of_run {now : Nat} {draws : Draws} {r : Request} {response : Response} {w : World}
    (hTime : s.now ≤ now) (hFresh : ∀ past ∈ s.log, past.draws.Apart cfg draws)
    (hPresented : ∀ p, .signed p ∈ r.bearers → p ∈ s.minted)
    (hGenuine : r.Genuine s.world.cache.jobs)
    (hRun : (handle ⟨cfg, now, draws⟩ r).run s.world = .ok response w) (hValid : w.db.Valid) :
    Step cfg s ⟨now, draws, r, .ok response⟩
      ⟨w, now, s.log ++ [⟨now, draws, r, .ok response⟩]⟩ :=
  ⟨hTime, hFresh, hPresented, hGenuine, serve_of_run hRun hValid, rfl, rfl⟩

theorem rolledBack (h : Step cfg s e s') {error : PyError} (hError : e.outcome = .error error) :
    s'.world.db = s.world.db := by
  have hRun := h.served
  rw [hError] at hRun
  exact Handler.atomically_error_db hRun

/-- A step whose handler returns in a state that meets the constraints. -/
theorem returned (h : Step cfg s e s') {response : Response} {w : World}
    (hRun : (handle (e.ctx cfg) e.request).run s.world = .ok response w) (hValid : w.db.Valid) :
    e.outcome = .ok response ∧ s'.world = w :=
  Prod.mk.inj (h.served.symm.trans (serve_of_run hRun hValid))

/-- A step whose handler raises. -/
theorem raised (h : Step cfg s e s') {error : PyError} {m : World}
    (hRun : (handle (e.ctx cfg) e.request).run s.world = .error error m) :
    e.outcome = .error error ∧ s'.world = { m with db := s.world.db } :=
  Prod.mk.inj (h.served.symm.trans (serve_of_error hRun))

/-- A step whose handler returns in a state that breaks the constraints. -/
theorem refused (h : Step cfg s e s') {response : Response} {m : World}
    (hRun : (handle (e.ctx cfg) e.request).run s.world = .ok response m) (hInvalid : ¬m.db.Valid) :
    e.outcome = .error .integrityError ∧ s'.world = { m with db := s.world.db } :=
  Prod.mk.inj (h.served.symm.trans (serve_of_invalid hRun hInvalid))

/-- A step issues what its response says, and adds no other refresh token. -/
theorem issues (hs : s.Sound cfg) (h : Step cfg s e s') :
    (∀ t, e.issued = some t → Issue (e.ctx cfg) e.request.audience t s.world s'.world) ∧
      (e.issued = none → s'.world.db.refreshTokens ⊆ s.world.db.refreshTokens) := by
  unfold Event.issued
  cases hOutcome : e.outcome with
  | ok response =>
    exact handle_issues e.request (h.presented_aud hs) _ _ _ (h.committed hOutcome).1
  | error error => simp [h.rolledBack hOutcome]

theorem mem_log (h : Step cfg s e s') : e ∈ s'.log := by simp [h.log]

theorem log_subset (h : Step cfg s e s') : s.log ⊆ s'.log := by simp [h.log]

theorem valid (hs : s.Sound cfg) (h : Step cfg s e s') : s'.world.db.Valid := by
  cases hOutcome : e.outcome with
  | ok => exact (h.committed hOutcome).2
  | error => exact h.rolledBack hOutcome ▸ hs.valid

/-- The refresh token that a step draws is new. -/
theorem rows_fresh (hs : s.Sound cfg) (h : Step cfg s e s') :
    ∀ r ∈ s.world.db.refreshTokens,
      r.id ≠ e.draws.refreshTokenId ∧ r.token ≠ e.draws.refreshToken := fun r hr => by
  obtain ⟨past, hPast, t, -, rfl⟩ := hs.rows r hr
  exact ⟨(h.fresh past hPast).refreshTokenId, (h.fresh past hPast).refreshToken⟩

/-- A step keeps what the log says. -/
theorem sound (hs : s.Sound cfg) (h : Step cfg s e s') : s'.Sound cfg where
  valid := h.valid hs
  past := by
    rw [h.log, h.clock]
    exact hs.past_concat h.time
  apart := h.log ▸ hs.apart_concat h.fresh
  issued := by
    intro e' he t ht
    rw [h.log, List.mem_append, List.mem_singleton] at he
    rcases he with he | rfl
    · exact hs.issued e' he t ht
    · have hIssue := (h.issues hs).1 t ht
      exact ⟨hIssue.refreshToken, hIssue.jti, hIssue.aud, hIssue.exp⟩
  users := by
    intro e' he t ht
    rw [h.log, List.mem_append, List.mem_singleton] at he
    rcases he with he | rfl
    · obtain ⟨u, hu⟩ := hs.users e' he t ht
      obtain ⟨u', hu', -⟩ := (h.evolves hs).users _ _ hu
      exact ⟨u', hu'⟩
    · exact (h.valid hs).user_of_refreshToken ((h.issues hs).1 t ht).row
  rows := by
    intro r hr
    obtain ⟨hSome, hNone⟩ := h.issues hs
    cases hIssued : e.issued with
    | none =>
      obtain ⟨e', he, hRow⟩ := hs.rows r (hNone hIssued hr)
      exact ⟨e', h.log_subset he, hRow⟩
    | some t =>
      rcases (hSome t hIssued).rows r hr with hr | rfl
      · obtain ⟨e', he, hRow⟩ := hs.rows r hr
        exact ⟨e', h.log_subset he, hRow⟩
      · exact ⟨e, h.mem_log, t, hIssued, rfl⟩
  devices := by
    intro d hd
    rcases (h.evolves hs).trustedDevices d hd with hd | hd
    · obtain ⟨e', he, hHash⟩ := hs.devices d hd
      exact ⟨e', h.log_subset he, hHash⟩
    · exact ⟨e, h.mem_log, hd⟩
  invitations := (h.evolves hs).invitations hs.invitations

end Step

theorem Initial.sound (h : Initial s) : s.Sound cfg where
  valid := h.valid
  past := by simp [h.log]
  apart := by simp [h.log]
  issued := by simp [h.log]
  users := by simp [h.log]
  rows := by simp [h.refreshTokens]
  devices := by simp [h.trustedDevices]
  invitations := by simp [Db.InvitesNoOwner, h.invitations]

theorem log_of_run {steps : List (Sys × Event)} (h : Run (Step cfg) s steps s') :
    s'.log = s.log ++ steps.map fun p => p.2 := by
  induction h with
  | nil => simp
  | snoc _ hStep ih => simp [hStep.log, ih]

/-- A refresh token tells which request drew it. -/
theorem Sys.Sound.event_eq (hs : s.Sound cfg) {e' : Event} (he : e ∈ s.log) (he' : e' ∈ s.log)
    (hToken : e.draws.refreshToken = e'.draws.refreshToken) : e = e' := by
  have hNodup : (s.log.map fun e => e.draws.refreshToken).Nodup :=
    List.pairwise_map.mpr (hs.apart.imp Draws.Apart.refreshToken)
  exact List.inj_on_of_nodup_map hNodup he he' hToken

theorem Reachable.sound (h : Reachable cfg s) : s.Sound cfg := by
  obtain ⟨s₀, steps, hInit, hRun⟩ := h
  exact hRun.invariant (fun hs hStep => hStep.sound hs) hInit.sound

theorem Initial.reachable (h : Initial s) : Reachable cfg s := ⟨s, [], h, .nil⟩

theorem Reachable.step (h : Reachable cfg s) (hStep : Step cfg s e s') : Reachable cfg s' := by
  obtain ⟨s₀, steps, hInit, hRun⟩ := h
  exact ⟨s₀, _, hInit, hRun.snoc hStep⟩

theorem Reachable.run {steps : List (Sys × Event)} (h : Reachable cfg s)
    (hRun : Run (Step cfg) s steps s') : Reachable cfg s' := by
  obtain ⟨s₀, before, hInit, hBefore⟩ := h
  exact ⟨s₀, _, hInit, hBefore.append hRun⟩

/-! ### Runs by evaluation -/

def Sys.serve (cfg : Config) (s : Sys) (now : Nat) (draws : Draws) (r : Request) : Event × Sys :=
  let (outcome, world) := WxcodeAdm.serve { cfg with now, draws } r s.world
  let e : Event := { now, draws, request := r, outcome }
  (e, { world, now, log := s.log ++ [e] })

/-- What a step asks of a request before it is served, but for the signed texts. -/
def Sys.Admits (cfg : Config) (s : Sys) (now : Nat) (draws : Draws) (r : Request) : Prop :=
  s.now ≤ now ∧ (∀ past ∈ s.log, past.draws.Apart cfg draws) ∧
    ∀ bearer ∈ r.bearers, bearer ∈ s.minted.map Bearer.signed

instance (now : Nat) (draws : Draws) (r : Request) : Decidable (s.Admits cfg now draws r) :=
  inferInstanceAs (Decidable (_ ∧ _ ∧ _))

theorem Step.of_admits {now : Nat} {draws : Draws} {r : Request}
    (h : s.Admits cfg now draws r) (hGenuine : r.Genuine s.world.cache.jobs) :
    Step cfg s (s.serve cfg now draws r).1 (s.serve cfg now draws r).2 where
  time := h.1
  fresh := h.2.1
  presented := fun p hp => by simpa using h.2.2 _ hp
  genuine := hGenuine
  served := rfl
  clock := rfl
  log := rfl

/-! ### A small deployment -/

/-- An ASCII digit in place of a full-width one. -/
def narrowDigit (ch : Char) : Char :=
  if 0xFF10 ≤ ch.toNat ∧ ch.toNat ≤ 0xFF19 then Char.ofNat (ch.toNat - 0xFF10 + 48) else ch

/-- Stand-ins for the third-party functions: injective hashes, and TOTP codes of six digits. -/
def sampleLib : Library where
  sha256 := fun text => "sha256$" ++ text
  hashPassword := fun salt plain => salt ++ "$" ++ plain
  verifyPassword := fun plain hash =>
    decide ((plain.toList.reverse ++ ['$']) = hash.toList.reverse.take (plain.length + 1))
  totpAt := fun _ step => toString (100000 + step % 900000)
  nfkc := fun text => .ofList (text.toList.map narrowDigit)
  isDigit := fun ch => (narrowDigit ch).isDigit
  parseUuid := fun _ => none
  uuidText := fun id => toString id.toNat
  parseUserAgent := fun _ => ⟨false, false, true, "Firefox", "128.0"⟩
  geoCity := fun _ => none
  slugify := fun name => name.text?.getD ""
  invitationText := fun token => (token.payload.map fun p => p.email).getD ""

def sampleConfig : Config := ⟨{}, sampleLib⟩

/-- The values that the request with this number draws. -/
def sampleDraws (n : Nat) : Draws where
  jti := ⟨n⟩
  refreshTokenId := ⟨n⟩
  refreshToken := "refresh-" ++ toString n
  sessionId := ⟨n⟩
  userId := ⟨1000 + n⟩
  otp := "482913"
  salt := "salt-" ++ toString n
  mfaToken := "mfa-" ++ toString n
  linkToken := "link-" ++ toString n
  deviceId := ⟨n⟩
  deviceToken := "device-" ++ toString n
  wxcodeCode := "code-" ++ toString n
  mfaSecret := "secret-" ++ toString n
  backupCodes := []
  tenantId := ⟨n⟩
  membershipIds := fun i => ⟨100 * n + i⟩
  invitationId := ⟨n⟩
  transferId := ⟨n⟩
  stripeCustomerId := none

/-- Samples number their requests: the numerals are made of the same constants in all of them. -/
instance neZeroTwo : @NeZero Nat Zero.ofOfNat0 2 := ⟨by decide⟩

instance neZeroThree : @NeZero Nat Zero.ofOfNat0 3 := ⟨by decide⟩

/-- A user with the password `pw`. -/
def sampleUser : User where
  id := ⟨1⟩
  email := "alice@example.com"
  passwordHash := some "salt$pw"
  emailVerified := true

def samplePlan : Plan where
  id := ⟨1⟩
  monthlyFeeCents := 0
  memberCap := 0
  createdAt := 0

def sampleStart (db : Db) : Sys := ⟨⟨db, {}⟩, 0, []⟩

/-- The next request of a sample run, numbered by the requests before it. -/
def Sys.sample (s : Sys) (now : Nat) (r : Request) : Event × Sys :=
  s.serve sampleConfig now (sampleDraws s.log.length) r

theorem Reachable.sample {now : Nat} {r : Request} (h : Reachable sampleConfig s)
    (hAdmits : s.Admits sampleConfig now (sampleDraws s.log.length) r)
    (hGenuine : r.Genuine s.world.cache.jobs) :
    Step sampleConfig s (s.sample now r).1 (s.sample now r).2 ∧
      Reachable sampleConfig (s.sample now r).2 :=
  ⟨.of_admits hAdmits hGenuine, h.step (.of_admits hAdmits hGenuine)⟩

def sampleHome : Sys := sampleStart { users := [sampleUser], plans := [samplePlan] }

theorem sampleHome_initial : Initial sampleHome := ⟨by decide, rfl, rfl, rfl, rfl, rfl, rfl⟩

def signedInEvent : Event :=
  (sampleHome.sample (seconds 10) (.login "alice@example.com" "pw" none none none)).1

def signedIn : Sys :=
  (sampleHome.sample (seconds 10) (.login "alice@example.com" "pw" none none none)).2

def signedInToken : Payload where
  sub := ⟨1⟩
  aud := some "wxcode-adm"
  iat := 10
  exp := 86410
  jti := ⟨0⟩

theorem signedIn_step : Step sampleConfig sampleHome signedInEvent signedIn :=
  .of_admits (by decide) (by trivial)

theorem signedIn_reachable : Reachable sampleConfig signedIn :=
  sampleHome_initial.reachable.step signedIn_step

def refreshedOnce : Sys := (signedIn.sample (seconds 20) (.refresh "refresh-0" none none)).2

def refreshedToken : Payload where
  sub := ⟨1⟩
  aud := some "wxcode-adm"
  iat := 20
  exp := 86420
  jti := ⟨1⟩

theorem refreshedOnce_reachable : Reachable sampleConfig refreshedOnce :=
  (signedIn_reachable.sample (by decide) (by trivial)).2

def enrolledStart : Sys := sampleStart
  { users := [{ sampleUser with mfaEnabled := true, mfaSecret := some "secret" }] }

theorem enrolledStart_initial : Initial enrolledStart := ⟨by decide, rfl, rfl, rfl, rfl, rfl, rfl⟩

end WxcodeAdm
