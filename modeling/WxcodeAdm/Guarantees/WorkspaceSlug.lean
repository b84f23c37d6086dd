import WxcodeAdm.Guarantees.FreeQuota

/-! Workspaces by their slugs.  `create_workspace` gives a tenant the first of ten slugs that is
free, and `get_tenant_context` looks a tenant up by its slug unless the header can be read as a
UUID, which a slug of 32 hexadecimal digits can. -/

namespace WxcodeAdm

open Lib

variable {c : Ctx} {w w' : World} {user : User} {name : PyStr} {text slug : String} {db : Db}

def slugUnavailable : PyError :=
  .conflict "SLUG_UNAVAILABLE" "Workspace name is too common, try a different one"

def baseSlug (c : Ctx) (name : PyStr) : String :=
  if c.lib.slugify name = "" then "workspace" else c.lib.slugify name

/-- The first of the ten candidates that no tenant has. -/
def freeSlug (c : Ctx) (db : Db) (name : PyStr) : Option String :=
  (slugCandidates (baseSlug c name)).find? fun slug => (db.tenantBySlug slug).isNone

/-- All ten candidates are slugs of tenants. -/
def Db.AllTaken (db : Db) (c : Ctx) (name : PyStr) : Prop :=
  ∀ slug ∈ slugCandidates (baseSlug c name), ∃ t ∈ db.tenants, t.slug = slug

def foundedTenant (c : Ctx) (name slug : String) : Tenant where
  id := c.draws.tenantId
  name := name
  slug := slug

def founder (c : Ctx) (user : User) : TenantMembership where
  id := c.draws.membershipIds 0
  userId := user.id
  tenantId := c.draws.tenantId
  role := .owner
  billingAccess := true
  createdAt := c.now

/-- The database with the workspace, before its subscription. -/
def Db.withWorkspace (db : Db) (c : Ctx) (user : User) (name slug : String) : Db :=
  { db with
    tenants := db.tenants ++ [foundedTenant c name slug]
    memberships := db.memberships ++ [founder c user] }

def Db.withSubscription (db : Db) (c : Ctx) (plan : Plan) : Db :=
  { db with
    subscriptions := db.subscriptions ++
      [{ tenantId := c.draws.tenantId, planId := plan.id,
         stripeCustomerId := c.draws.stripeCustomerId, status := .free }] }

/-! ### The slug -/

theorem tenantBySlug_none : db.tenantBySlug slug = none ↔ ∀ t ∈ db.tenants, t.slug ≠ slug := by
  simp [Db.tenantBySlug]

theorem freeSlug_none : freeSlug c db name = none ↔ db.AllTaken c name := by
  simp only [freeSlug, List.find?_eq_none, Option.isNone_iff_eq_none, tenantBySlug_none,
    Db.AllTaken]
  push Not
  rfl

theorem freeSlug_some (h : freeSlug c db name = some slug) :
    slug ∈ slugCandidates (baseSlug c name) ∧ ∀ t ∈ db.tenants, t.slug ≠ slug :=
  ⟨List.mem_of_find?_eq_some h,
    tenantBySlug_none.mp (by simpa using List.find?_some (p := fun s => (db.tenantBySlug s).isNone) h)⟩

/-- The counter adds three characters at most. -/
theorem slugCandidates_length {base : String} (h : slug ∈ slugCandidates base) :
    slug.length ≤ base.length + 3 := by
  rcases List.mem_cons.mp h with rfl | h
  · omega
  · obtain ⟨counter, hCounter, rfl⟩ := List.mem_map.mp h
    have hDigits : (toString counter).length ≤ 2 :=
      (by decide : ∀ n ∈ List.range' 2 9, (toString n).length ≤ 2) counter hCounter
    rw [String.length_append, String.length_append]
    have hDash : "-".length = 1 := by decide
    omega

/-- What `slugify` makes of a name. -/
def IsSlug (text : String) : Prop :=
  text.length ≤ 80 ∧ ∀ ch ∈ text.toList, ch ∈ "abcdefghijklmnopqrstuvwxyz0123456789-".toList

instance (text : String) : Decidable (IsSlug text) := inferInstanceAs (Decidable (_ ∧ _))

theorem baseSlug_isSlug (name : PyStr) (h : ∀ name, IsSlug (c.lib.slugify name)) :
    IsSlug (baseSlug c name) := by
  unfold baseSlug
  split
  · exact ⟨by decide, by simp⟩
  · exact h name

/-- The column takes the slugs. -/
theorem slugCandidates_fit {base : String} (hBase : IsSlug base) (h : slug ∈ slugCandidates base) :
    Varchar 100 slug := by
  refine ⟨Nat.le_trans (slugCandidates_length h) (by have := hBase.1; omega), fun hNul => ?_⟩
  have hNot (ch : Char) (hCh : ch ∈ base.toList) : ch ≠ Char.ofNat 0 := fun hZero =>
    absurd (hZero ▸ hBase.2 ch hCh) (by decide)
  rcases List.mem_cons.mp h with rfl | h
  · exact hNot _ hNul rfl
  · obtain ⟨counter, hCounter, rfl⟩ := List.mem_map.mp h
    have hDigits : Char.ofNat 0 ∉ ("-" ++ toString counter).toList :=
      (by decide : ∀ n ∈ List.range' 2 9, Char.ofNat 0 ∉ ("-" ++ toString n).toList) counter hCounter
    rw [String.append_assoc, String.toList_append] at hNul
    exact (List.mem_append.mp hNul).elim (fun hBase => hNot _ hBase rfl) hDigits

theorem run_generateUniqueSlug :
    (generateUniqueSlug c name).run w = match freeSlug c w.db name with
      | some slug => .ok slug w
      | none => .error slugUnavailable w := by
  change (Handler.orRaise (freeSlug c w.db name) slugUnavailable : App String).run w = _
  cases freeSlug c w.db name <;> rfl

/-! ### The workspace -/

/-- What the draws of a workspace have to be: new ids. -/
structure NewWorkspace (c : Ctx) (db : Db) : Prop where
  tenant : ¬db.HasTenant c.draws.tenantId
  membership : ∀ m ∈ db.memberships, m.id ≠ c.draws.membershipIds 0

theorem Db.Valid.withWorkspace (h : db.Valid) (hNew : NewWorkspace c db)
    (hUser : db.HasUser user.id) (hFree : ∀ t ∈ db.tenants, t.slug ≠ slug)
    (hFits : (foundedTenant c text slug).Fits) :
    ({ db with tenants := db.tenants ++ [foundedTenant c text slug] } : Db).Valid ∧
      (db.withWorkspace c user text slug).Valid := by
  have hGrows (id : Uuid) (hOld : db.HasTenant id) :
      ∃ t ∈ db.tenants ++ [foundedTenant c text slug], t.id = id := by
    obtain ⟨t, ht, hId⟩ := hOld
    exact ⟨t, List.mem_append_left _ ht, hId⟩
  have hTenants : ({ db with tenants := db.tenants ++ [foundedTenant c text slug] } : Db).Valid :=
    { h with
      tenantId := Db.nodup_map_concat.mpr ⟨h.tenantId, fun t ht hSame => hNew.tenant ⟨t, ht, hSame⟩⟩
      tenantSlug := Db.nodup_map_concat.mpr ⟨h.tenantSlug, hFree⟩
      lastUsedTenant := fun u hu id hId => hGrows id (h.lastUsedTenant u hu id hId)
      membershipTenant := fun m hm => hGrows _ (h.membershipTenant m hm)
      invitationTenant := fun i hi => hGrows _ (h.invitationTenant i hi)
      transferTenant := fun x hx => hGrows _ (h.transferTenant x hx)
      subscriptionTenant := fun s hs => hGrows _ (h.subscriptionTenant s hs)
      tenantText := fun t ht => by
        rcases List.mem_append.mp ht with ht | ht
        · exact h.tenantText t ht
        · exact List.mem_singleton.mp ht ▸ hFits }
  refine ⟨hTenants, { hTenants with
    membershipId := Db.nodup_map_concat.mpr ⟨h.membershipId, hNew.membership⟩
    membershipUserTenant := Db.nodup_map_concat.mpr ⟨h.membershipUserTenant, fun m hm hSame => ?_⟩
    membershipUser := fun m hm => ?_
    membershipTenant := fun m hm => ?_
    membershipInvitedBy := fun m hm => ?_ }⟩
  · have hTenant : m.tenantId = c.draws.tenantId := (Prod.mk.inj hSame).2
    exact hNew.tenant (hTenant ▸ h.membershipTenant m hm)
  all_goals rcases List.mem_append.mp hm with hm | hm
  · exact h.membershipUser m hm
  · exact List.mem_singleton.mp hm ▸ hUser
  · exact hTenants.membershipTenant m hm
  · obtain rfl := List.mem_singleton.mp hm
    exact ⟨foundedTenant c text slug, List.mem_append_right _ (List.mem_singleton_self _), rfl⟩
  · exact h.membershipInvitedBy m hm
  · obtain rfl := List.mem_singleton.mp hm
    exact fun _ hNone => by cases hNone

theorem Db.Valid.withSubscription (h : (db.withWorkspace c user text slug).Valid)
    (hNew : NewWorkspace c db) (hBefore : db.Valid) {plan : Plan} (hPlan : plan ∈ db.plans) :
    ((db.withWorkspace c user text slug).withSubscription c plan).Valid :=
  { h with
    subscriptionTenantId := Db.nodup_map_concat.mpr ⟨h.subscriptionTenantId, fun s hs hSame => by
      have hTenant : s.tenantId = c.draws.tenantId := hSame
      exact hNew.tenant (hTenant ▸ hBefore.subscriptionTenant s hs)⟩
    subscriptionTenant := fun s hs => by
      rcases List.mem_append.mp hs with hs | hs
      · exact h.subscriptionTenant s hs
      · obtain rfl := List.mem_singleton.mp hs
        exact ⟨foundedTenant c text slug, List.mem_append_right _ (List.mem_singleton_self _), rfl⟩
    subscriptionPlan := fun s hs => by
      rcases List.mem_append.mp hs with hs | hs
      · exact h.subscriptionPlan s hs
      · obtain rfl := List.mem_singleton.mp hs
        exact ⟨plan, hPlan, rfl⟩ }

/-- What comes of a workspace under a free slug: nothing without a name that its column takes, and
nothing without a plan to start on. -/
def workspaceOutcome (c : Ctx) (w : World) (user : User) (slug : String) (name : Option String) :
    Outcome Db Redis PyError (Tenant × TenantMembership) :=
  match name with
  | none => .error (.other "DBAPIError") w
  | some text =>
    if (foundedTenant c text slug).Fits then
      match w.db.freePlan with
      | none => .error (.other "RuntimeError") { w with db := w.db.withWorkspace c user text slug }
      | some plan => .ok (foundedTenant c text slug, founder c user)
          { w with db := (w.db.withWorkspace c user text slug).withSubscription c plan }
    else .error .integrityError
      { w with db := { w.db with tenants := w.db.tenants ++ [foundedTenant c text slug] } }

theorem run_createWorkspace (name : PyStr) (hValid : w.db.Valid) (hNew : NewWorkspace c w.db)
    (hUser : w.db.HasUser user.id) :
    (createWorkspace c user name).run w = match freeSlug c w.db name with
      | none => .error slugUnavailable w
      | some slug => workspaceOutcome c w user slug name.text? := by
  rw [createWorkspace, Handler.run_bind, run_generateUniqueSlug]
  cases hSlug : freeSlug c w.db name with
  | none => rfl
  | some slug =>
    dsimp only
    cases hText : name.text? with
    | none => rfl
    | some text =>
      rw [Handler.orRaise_some_bind, Handler.run_exec_bind, run_flush_bind, workspaceOutcome]
      by_cases hFits : (foundedTenant c text slug).Fits
      · obtain ⟨hTenants, hMembers⟩ := hValid.withWorkspace hNew hUser (freeSlug_some hSlug).2 hFits
        rw [if_pos hFits]
        refine (if_pos hTenants).trans ?_
        rw [Handler.run_exec_bind, run_flush_bind]
        refine (if_pos hMembers).trans ?_
        change (bootstrapFreeSubscription c.draws.tenantId c.draws.stripeCustomerId >>= fun _ =>
          pure (foundedTenant c text slug, founder c user)).run
            { w with db := w.db.withWorkspace c user text slug } = _
        have hSame : (w.db.withWorkspace c user text slug).freePlan = w.db.freePlan := rfl
        rw [bootstrapFreeSubscription, bind_assoc, Handler.run_query_bind, hSame]
        cases hPlan : w.db.freePlan with
        | none => rfl
        | some plan =>
          rw [Handler.orRaise_some_bind, bind_assoc, Handler.run_exec_bind, run_flush_bind]
          exact if_pos (Db.Valid.withSubscription hMembers hNew hValid (freePlan_mem hPlan).1)
      · rw [if_neg hFits]
        refine if_neg fun hTenants => hFits ?_
        exact hTenants.tenantText _ (List.mem_append_right _ (List.mem_singleton_self _))

theorem workspaceOutcome_ok {tenant : Tenant} {membership : TenantMembership}
    (h : workspaceOutcome c w user slug name.text? = .ok (tenant, membership) w') :
    ∃ text plan, name.text? = some text ∧ (foundedTenant c text slug).Fits ∧
      w.db.freePlan = some plan ∧ tenant = foundedTenant c text slug ∧ membership = founder c user ∧
      w' = { w with db := (w.db.withWorkspace c user text slug).withSubscription c plan } := by
  unfold workspaceOutcome at h
  split at h
  · cases h
  · rename_i text hText
    split at h
    · rename_i hFits
      split at h
      · cases h
      · rename_i plan hPlan
        cases h
        exact ⟨text, plan, hText, hFits, hPlan, rfl, rfl, rfl⟩
    · cases h

/-! ### The header -/

/-- The guard asks for the user and the token, which a workspace leaves as they are. -/
theorem requireVerified_of_same (w' : World) {token : Bearer} {m : World}
    (h : (requireVerified c token).run w = .ok user m) (hUsers : w'.db.users = w.db.users)
    (hCache : w'.cache = w.cache) : ∃ m', (requireVerified c token).run w' = .ok user m' := by
  obtain ⟨u, m₁, hCurrent, hRest⟩ := Handler.run_bind_ok.mp h
  simp only [Handler.run_ensure_bind_ok, Handler.run_pure_ok] at hRest
  obtain ⟨hVerified, rfl, -⟩ := hRest
  obtain ⟨p, hp, hExp, hAud, hBlack, hUser, hActive, hReset, -⟩ := getCurrentUser_ok.mp hCurrent
  have hAgain := getCurrentUser_ok.mpr ⟨p, hp, hExp, hAud, hCache ▸ hBlack,
    (show w'.db.user p.sub = some u by rwa [Db.user, hUsers]), hActive, hReset, rfl⟩
  exact ⟨_, Handler.run_bind_ok.mpr ⟨u, _, hAgain,
    Handler.run_ensure_bind_ok.mpr ⟨hVerified, rfl⟩⟩⟩

/-- What the header makes of the tenants is what the member is let into. -/
theorem run_getTenantContext {token : Bearer} {header : String} {tenant : Tenant}
    {membership : TenantMembership} {m : World}
    (hGuard : (requireVerified c token).run w = .ok user m)
    (hDeleted : tenant.isDeleted = false) (hSuspended : tenant.isSuspended = false)
    (hMember : w.db.membership user.id tenant.id = some membership)
    (hBlocked : membership.isBlocked = false) :
    (getTenantContext c token (some header)).run w = .ok (tenant, membership) m ↔
      resolveTenant c header w.db = some tenant := by
  have hDb := (requireVerified_ok hGuard).1
  rw [getTenantContext, Handler.run_bind, hGuard]
  simp only [Handler.orRaise_some_bind, Handler.run_query_bind, Handler.run_orRaise_bind_ok,
    Handler.run_ensure_bind_ok, Handler.run_pure_ok, hDb]
  constructor
  · rintro ⟨found, hFound, -, -, _, -, -, hEq, -⟩
    exact hFound.trans (congrArg some (Prod.mk.inj hEq).1)
  · intro hFound
    exact ⟨tenant, hFound, hDeleted, hSuspended, membership, hMember, hBlocked, rfl, trivial⟩

/-- Where the slug leads in the database with the workspace. -/
theorem resolveTenant_founded (user : User) (text : String) (plan : Plan) (hNew : NewWorkspace c db)
    (hFree : ∀ t ∈ db.tenants, t.slug ≠ slug) :
    resolveTenant c slug ((db.withWorkspace c user text slug).withSubscription c plan) =
        some (foundedTenant c text slug) ↔
      c.lib.parseUuid slug = none ∨ c.lib.parseUuid slug = some c.draws.tenantId := by
  have hTenants : ((db.withWorkspace c user text slug).withSubscription c plan).tenants =
      db.tenants ++ [foundedTenant c text slug] := rfl
  unfold resolveTenant
  cases hParse : c.lib.parseUuid slug with
  | none =>
    refine iff_of_true ?_ (.inl rfl)
    have hOld : db.tenants.find? (fun t => t.slug = slug) = none :=
      List.find?_eq_none.mpr fun t ht => by simpa using hFree t ht
    simp [Db.tenantBySlug, hTenants, List.find?_append, hOld, foundedTenant]
  | some id =>
    simp only [reduceCtorEq, false_or, Option.some.injEq]
    constructor
    · intro hFound
      have hId : (foundedTenant c text slug).id = id := by simpa using List.find?_some hFound
      exact hId.symm
    · rintro rfl
      have hOld : db.tenants.find? (fun t => t.id = c.draws.tenantId) = none :=
        List.find?_eq_none.mpr fun t ht => by simpa using fun hSame => hNew.tenant ⟨t, ht, hSame⟩
      simp [Db.tenant, hTenants, List.find?_append, hOld, foundedTenant]

/-- The owner is its member. -/
theorem membership_founded {plan : Plan} (hValid : db.Valid) (hNew : NewWorkspace c db)
    {ownerId : Uuid} (hOwner : ownerId = user.id) :
    ((db.withWorkspace c user text slug).withSubscription c plan).membership ownerId
      (foundedTenant c text slug).id = some (founder c user) := by
  have hMembers : ((db.withWorkspace c user text slug).withSubscription c plan).memberships =
      db.memberships ++ [founder c user] := rfl
  have hOld : db.memberships.find? (fun x => x.userId = user.id ∧
      x.tenantId = (foundedTenant c text slug).id) = none := by
    refine List.find?_eq_none.mpr fun x hx => ?_
    simp only [decide_eq_true_eq, not_and]
    intro _ hTenant
    have hId : x.tenantId = c.draws.tenantId := hTenant
    exact hNew.tenant (hId ▸ hValid.membershipTenant x hx)
  rw [Db.membership, hMembers, List.find?_append, hOwner,
    show List.find? _ db.memberships = none from hOld, Option.none_or]
  simp [foundedTenant, founder]

/-! ### The contract -/

/-- A workspace is refused exactly when all its slugs are taken, and else it is made with a new slug
by which its owner gets to it. -/
def SlugContract (c : Ctx) (w : World) (user : User) (name : PyStr) : Prop :=
  ((∃ m, (createWorkspace c user name).run w = .error slugUnavailable m) ↔ w.db.AllTaken c name) ∧
  (¬w.db.AllTaken c name → ∃ tenant membership w',
    (createWorkspace c user name).run w = .ok (tenant, membership) w' ∧
      (∀ t ∈ w.db.tenants, t.slug ≠ tenant.slug) ∧ tenant.slug.length ≤ 100 ∧
      ∀ (c' : Ctx) token owner m, c'.lib = c.lib →
        (requireVerified c' token).run w' = .ok owner m → owner.id = user.id →
          (getTenantContext c' token (some tenant.slug)).run w' = .ok (tenant, membership) m)

section Contract

variable {token : Bearer} {m : World} (hValid : w.db.Valid) (hNew : NewWorkspace c w.db)
  (hGuard : (requireVerified c token).run w = .ok user m)
include hValid hNew hGuard

/-- A free slug asks for a name that is stored and for a plan, and has not to read as the UUID of
something else. -/
theorem SlugContract.requires (h : SlugContract c w user name)
    (hSlug : freeSlug c w.db name = some slug) :
    (∃ text ∈ name.text?, Varchar 255 text) ∧ w.db.freePlan.isSome ∧
      (c.lib.parseUuid slug = none ∨ c.lib.parseUuid slug = some c.draws.tenantId) := by
  obtain ⟨-, hRow, -⟩ := requireVerified_ok hGuard
  have hRun := run_createWorkspace name hValid hNew ⟨user, Db.user_mem hRow, rfl⟩
  have hNot : ¬w.db.AllTaken c name := fun hTaken => by
    rw [freeSlug_none.mpr hTaken] at hSlug
    cases hSlug
  obtain ⟨tenant, membership, w', hOk, -, -, hHeader⟩ := h.2 hNot
  rw [hSlug] at hRun
  obtain ⟨text, plan, hText, hFits, hPlan, rfl, rfl, rfl⟩ :=
    workspaceOutcome_ok (hRun.symm.trans hOk)
  obtain ⟨m', hAgain⟩ := requireVerified_of_same
    ⟨(w.db.withWorkspace c user text slug).withSubscription c plan, w.cache⟩ hGuard rfl rfl
  refine ⟨⟨text, hText, hFits.1⟩, Option.isSome_of_eq_some hPlan, ?_⟩
  refine (resolveTenant_founded user text plan hNew (freeSlug_some hSlug).2).mp ?_
  exact (run_getTenantContext hAgain rfl rfl (membership_founded hValid hNew rfl) rfl).mp
    (hHeader c token user m' rfl hAgain rfl)

/-- The contract holds exactly when all slugs are taken, or the name is a text that its column takes,
there is a plan to start on, and the first free slug does not read as the UUID of something else. -/
theorem slug_contract_iff (hSlugify : ∀ name, IsSlug (c.lib.slugify name)) :
    SlugContract c w user name ↔ w.db.AllTaken c name ∨
      (∃ text ∈ name.text?, Varchar 255 text) ∧ w.db.freePlan.isSome ∧
        ∀ slug ∈ freeSlug c w.db name,
          c.lib.parseUuid slug = none ∨ c.lib.parseUuid slug = some c.draws.tenantId := by
  obtain ⟨-, hRow, -⟩ := requireVerified_ok hGuard
  have hRun := run_createWorkspace name hValid hNew ⟨user, Db.user_mem hRow, rfl⟩
  cases hSlug : freeSlug c w.db name with
  | none =>
    have hTaken := freeSlug_none.mp hSlug
    rw [hSlug] at hRun
    exact iff_of_true ⟨iff_of_true ⟨w, hRun⟩ hTaken, fun hNot => absurd hTaken hNot⟩ (.inl hTaken)
  | some slug =>
    have hNot : ¬w.db.AllTaken c name := fun hTaken => by
      rw [freeSlug_none.mpr hTaken] at hSlug
      cases hSlug
    simp only [hNot, false_or, Option.mem_some_iff, forall_eq']
    refine ⟨fun h => h.requires hValid hNew hGuard hSlug, ?_⟩
    rintro ⟨⟨text, hText, hWidth⟩, hPlan, hParse⟩
    obtain ⟨plan, hPlan⟩ := Option.isSome_iff_exists.mp hPlan
    obtain ⟨hCandidate, hFree⟩ := freeSlug_some hSlug
    have hSlugFits := slugCandidates_fit (baseSlug_isSlug name hSlugify) hCandidate
    have hFits : (foundedTenant c text slug).Fits := ⟨hWidth, hSlugFits, fun _ hNone => by cases hNone⟩
    have hOutcome : workspaceOutcome c w user slug name.text? =
        .ok (foundedTenant c text slug, founder c user)
          { w with db := (w.db.withWorkspace c user text slug).withSubscription c plan } := by
      rw [hText, workspaceOutcome, if_pos hFits, hPlan]
    rw [hSlug] at hRun
    have hRun := hRun.trans hOutcome
    refine ⟨iff_of_false ?_ hNot, fun _ => ⟨_, _, _, hRun, hFree, hSlugFits.1, ?_⟩⟩
    · rintro ⟨_, hError⟩
      cases hRun.symm.trans hError
    · intro c' token' owner m' hLib hAgain hOwner
      refine (run_getTenantContext hAgain rfl rfl
        (membership_founded hValid hNew hOwner) rfl).mpr ?_
      have hSame : resolveTenant c' = resolveTenant c := by
        funext header db
        rw [resolveTenant, resolveTenant, hLib]
      rw [hSame]
      exact (resolveTenant_founded user text plan hNew hFree).mpr hParse

end Contract

/-! ### A name of 32 hexadecimal digits -/

def hexDigits : List Char := "0123456789abcdef".toList

/-- `uuid.UUID` of a slug: 32 hexadecimal digits among the dashes. -/
def hexUuid (text : String) : Option Uuid :=
  let digits := text.toList.filter (· ≠ '-')
  if digits.length = 32 ∧ digits.all (· ∈ hexDigits) then
    some ⟨digits.foldl (fun n digit => 16 * n + hexDigits.idxOf digit) 0⟩
  else none

/-- `slugify` of a name in lower case without blanks. -/
def cutSlug (name : PyStr) : String :=
  .ofList (((name.text?.getD "").toList.filter
    (· ∈ "abcdefghijklmnopqrstuvwxyz0123456789-".toList)).take 80)

def hexContext : Ctx :=
  ⟨⟨{}, { sampleLib with parseUuid := hexUuid, slugify := cutSlug }⟩, seconds 20, sampleDraws 1⟩

theorem hexContext_new : NewWorkspace hexContext signedIn.world.db :=
  ⟨by decide, by decide⟩

theorem hexContext_guard :
    (requireVerified hexContext (.signed signedInToken)).run signedIn.world =
      .ok sampleUser ((requireVerified hexContext (.signed signedInToken)).final signedIn.world) := by
  rfl

/-- The workspace is made, and its slug names a tenant that is not there. -/
theorem slug_contract_broken :
    ¬SlugContract hexContext signedIn.world sampleUser "deadbeefdeadbeefdeadbeefdeadbeef" := by
  intro h
  have hSlug : freeSlug hexContext signedIn.world.db "deadbeefdeadbeefdeadbeefdeadbeef" =
      some "deadbeefdeadbeefdeadbeefdeadbeef" := by decide
  obtain ⟨-, -, hParse⟩ := h.requires (by decide) hexContext_new hexContext_guard hSlug
  revert hParse
  decide

theorem slug_contract_iff_team :
    SlugContract hexContext signedIn.world sampleUser "team" ↔
      signedIn.world.db.AllTaken hexContext "team" ∨
        (∃ text ∈ PyStr.text? "team", Varchar 255 text) ∧ signedIn.world.db.freePlan.isSome ∧
          ∀ slug ∈ freeSlug hexContext signedIn.world.db "team",
            hexContext.lib.parseUuid slug = none ∨
              hexContext.lib.parseUuid slug = some hexContext.draws.tenantId :=
  slug_contract_iff (by decide) hexContext_new hexContext_guard fun name => by
    refine ⟨?_, fun ch hCh => ?_⟩
    · change (String.ofList (List.take 80 _)).length ≤ 80
      rw [String.length_ofList]
      exact List.length_take_le 80 _
    · have hTaken := List.mem_of_mem_take (String.toList_ofList ▸ hCh)
      exact of_decide_eq_true (List.mem_filter.mp hTaken).2

end WxcodeAdm
