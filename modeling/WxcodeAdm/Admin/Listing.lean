import WxcodeAdm.Lib.Joins
import WxcodeAdm.Lib.Paging
import WxcodeAdm.Schema

/-! `list_tenants` and `search_users` of `admin/service.py`: a count and a page of the rows that pass
the filters, the newest first. -/

namespace WxcodeAdm

open Lib

/-- A row with the `created_at` of `TimestampMixin`. -/
structure Created (α : Type) where
  row : α
  createdAt : Nat
  deriving DecidableEq, Repr

/-- A filter of a query string, which is off when it is empty. -/
def filterText (text : Option String) : Option String := text.filter (· ≠ "")

/-! ### `list_tenants` -/

/-- The conditions for a `status`; one that is unknown asks for nothing. -/
def statusFilter (status : Option String) (tenant : Tenant) : Bool :=
  if status = some "suspended" then tenant.isSuspended
  else if status = some "deleted" then tenant.isDeleted
  else if status = some "active" then !tenant.isSuspended && !tenant.isDeleted
  else true

/-- `Plan.slug == plan_slug`, if a plan is asked for; the slug of no plan equals nothing. -/
def planFilter (planSlug : Option String) (plan : Option Plan) : Bool :=
  match filterText planSlug with
  | none => true
  | some slug => plan.any fun p => p.slug = slug

/-- The tenants with their subscriptions and the plans of these. -/
def joinPlans (db : Db) (tenants : List (Created Tenant)) :
    List ((Created Tenant × Option TenantSubscription) × Option Plan) :=
  leftJoin (fun t p => t.2.any fun s => p.id = s.planId)
    (leftJoin (fun t s => s.tenantId = t.row.id) tenants db.subscriptions) db.plans

/-- The count query, which joins only when a plan is asked for. -/
def countTenants (db : Db) (tenants : List (Created Tenant)) (planSlug status : Option String) :
    Nat :=
  match filterText planSlug with
  | none => tenants.countP fun t => statusFilter status t.row
  | some _ => (joinPlans db tenants).countP fun t =>
    statusFilter status t.1.1.row && planFilter planSlug t.2

/-- A row of the main query. -/
structure TenantRow where
  tenant : Created Tenant
  memberCount : Nat
  planName : Option String
  planSlug : Option String
  deriving DecidableEq, Repr

def memberCount (db : Db) (tenantId : Uuid) : Nat :=
  db.memberships.countP fun m => m.tenantId = tenantId

/-- The rows of the main query, before it orders them. -/
def tenantRows (db : Db) (tenants : List (Created Tenant)) (planSlug status : Option String) :
    List TenantRow :=
  ((joinPlans db tenants).filter fun t =>
    statusFilter status t.1.1.row && planFilter planSlug t.2).map fun t =>
      { tenant := t.1.1
        memberCount := memberCount db t.1.1.row.id
        planName := t.2.map fun p => p.name
        planSlug := t.2.map fun p => p.slug }

structure TenantListItem where
  id : Uuid
  name : String
  slug : String
  isSuspended : Bool
  isDeleted : Bool
  planName : Option String
  planSlug : Option String
  memberCount : Nat
  createdAt : Nat
  deriving DecidableEq, Repr

def TenantRow.item (r : TenantRow) : TenantListItem where
  id := r.tenant.row.id
  name := r.tenant.row.name
  slug := r.tenant.row.slug
  isSuspended := r.tenant.row.isSuspended
  isDeleted := r.tenant.row.isDeleted
  planName := r.planName
  planSlug := r.planSlug
  memberCount := r.memberCount
  createdAt := r.tenant.createdAt

/-- `orderBy` is how the database carries out `ORDER BY tenants.created_at DESC`. -/
def listTenants (orderBy : List TenantRow → List TenantRow) (db : Db)
    (tenants : List (Created Tenant)) (planSlug status : Option String) (limit offset : Nat) :
    List TenantListItem × Nat :=
  ((page limit offset (orderBy (tenantRows db tenants planSlug status))).map TenantRow.item,
    countTenants db tenants planSlug status)

/-! ### `search_users` -/

/-- `email ILIKE '%q%' OR display_name ILIKE '%q%'`, by the `ILIKE` of the database; a missing name
is like nothing. -/
def searchFilter (ilike : String → String → Bool) (q : Option String) (user : User) : Bool :=
  match filterText q with
  | none => true
  | some q =>
    let pattern := "%" ++ q ++ "%"
    ilike user.email pattern || user.displayName.any fun name => ilike name pattern

/-- The users with their memberships. -/
def joinMemberships (db : Db) (users : List (Created User)) :
    List (Created User × TenantMembership) :=
  innerJoin (fun u m => m.userId = u.row.id) users db.memberships

def countUsers (ilike : String → String → Bool) (db : Db) (users : List (Created User))
    (q : Option String) (tenantId : Option Uuid) : Nat :=
  match tenantId with
  | none => users.countP fun u => searchFilter ilike q u.row
  | some tenantId => (joinMemberships db users).countP fun u =>
    searchFilter ilike q u.1.row && decide (u.2.tenantId = tenantId)

/-- The rows of the main query, before it orders them. -/
def userRows (ilike : String → String → Bool) (db : Db) (users : List (Created User))
    (q : Option String) (tenantId : Option Uuid) : List (Created User) :=
  match tenantId with
  | none => users.filter fun u => searchFilter ilike q u.row
  | some tenantId => ((joinMemberships db users).filter fun u =>
    searchFilter ilike q u.1.row && decide (u.2.tenantId = tenantId)).map Prod.fst

structure UserListItem where
  id : Uuid
  email : String
  displayName : Option String
  emailVerified : Bool
  isActive : Bool
  mfaEnabled : Bool
  createdAt : Nat
  deriving DecidableEq, Repr

def userItem (u : Created User) : UserListItem where
  id := u.row.id
  email := u.row.email
  displayName := u.row.displayName
  emailVerified := u.row.emailVerified
  isActive := u.row.isActive
  mfaEnabled := u.row.mfaEnabled
  createdAt := u.createdAt

/-- `orderBy` is how the database carries out `ORDER BY users.created_at DESC`. -/
def searchUsers (orderBy : List (Created User) → List (Created User))
    (ilike : String → String → Bool) (db : Db) (users : List (Created User)) (q : Option String)
    (tenantId : Option Uuid) (limit offset : Nat) : List UserListItem × Nat :=
  ((page limit offset (orderBy (userRows ilike db users q tenantId))).map userItem,
    countUsers ilike db users q tenantId)

/-! ### The matches -/

/-- The tenant has the status, and its subscription is to the plan, as far as they are asked for. -/
def Db.TenantMatches (db : Db) (planSlug status : Option String) (tenant : Tenant) : Prop :=
  statusFilter status tenant = true ∧ ∀ slug ∈ filterText planSlug, ∃ s ∈ db.subscriptions,
    s.tenantId = tenant.id ∧ ∃ p ∈ db.plans, p.id = s.planId ∧ p.slug = slug

instance (db : Db) (planSlug status : Option String) (tenant : Tenant) :
    Decidable (db.TenantMatches planSlug status tenant) :=
  inferInstanceAs (Decidable (_ ∧ ∀ _ ∈ _, ∃ _ ∈ _, _ ∧ ∃ _ ∈ _, _))

/-- The user is like the search text, and a member of the tenant, as far as they are given. -/
def Db.UserMatches (db : Db) (ilike : String → String → Bool) (q : Option String)
    (tenantId : Option Uuid) (user : User) : Prop :=
  searchFilter ilike q user = true ∧
    ∀ id ∈ tenantId, ∃ m ∈ db.memberships, m.userId = user.id ∧ m.tenantId = id

instance (db : Db) (ilike : String → String → Bool) (q : Option String) (tenantId : Option Uuid)
    (user : User) : Decidable (db.UserMatches ilike q tenantId user) :=
  inferInstanceAs (Decidable (_ ∧ ∀ _ ∈ _, ∃ _ ∈ _, _))

variable {db : Db} {tenants : List (Created Tenant)} {users : List (Created User)}
  {planSlug status q : Option String} {tenantId : Option Uuid} {ilike : String → String → Bool}

/-- No tenant has two subscriptions, and none of these two plans. -/
theorem joinPlans_eq (hValid : db.Valid) : joinPlans db tenants = tenants.map fun t =>
    ((t, db.subscriptionOf t.row.id), (db.subscriptionOf t.row.id).bind fun s => db.plan s.planId) := by
  have hSubscriptions : leftJoin (fun (t : Created Tenant) s => decide (s.tenantId = t.row.id))
      tenants db.subscriptions = tenants.map fun t => (t, db.subscriptionOf t.row.id) :=
    leftJoin_eq_map fun t _ => .of_key hValid.subscriptionTenantId fun s _ hs =>
      of_decide_eq_true hs
  rw [joinPlans, hSubscriptions, leftJoin_eq_map, List.map_map]
  · refine List.map_congr_left fun t _ => ?_
    dsimp only [Function.comp_apply]
    cases db.subscriptionOf t.row.id with
    | none => simp
    | some s => rfl
  · rintro ⟨t, found⟩ -
    cases found with
    | none => exact .none fun _ _ => rfl
    | some s => exact .of_key hValid.planId fun p _ hp => of_decide_eq_true hp

/-- The plan that the join finds is one that is asked for. -/
theorem planFilter_iff (hValid : db.Valid) {tenant : Tenant} :
    planFilter planSlug ((db.subscriptionOf tenant.id).bind fun s => db.plan s.planId) = true ↔
      ∀ slug ∈ filterText planSlug, ∃ s ∈ db.subscriptions,
        s.tenantId = tenant.id ∧ ∃ p ∈ db.plans, p.id = s.planId ∧ p.slug = slug := by
  unfold planFilter
  cases filterText planSlug with
  | none => simp
  | some slug =>
    simp only [Option.mem_some_iff, forall_eq', Option.any_eq_true, Option.bind_eq_some_iff,
      decide_eq_true_eq]
    constructor
    · rintro ⟨p, ⟨s, hs, hp⟩, hSlug⟩
      exact ⟨s, List.mem_of_find?_eq_some hs, by simpa using List.find?_some hs, p,
        List.mem_of_find?_eq_some hp, by simpa using List.find?_some hp, hSlug⟩
    · rintro ⟨s, hs, hTenant, p, hp, hPlan, hSlug⟩
      exact ⟨p, ⟨s, hTenant ▸ hValid.subscriptionOf_of_mem hs, hPlan ▸ hValid.plan_of_mem hp⟩,
        hSlug⟩

/-- The main query finds the matches, each once. -/
theorem tenantRows_tenants (hValid : db.Valid) :
    (tenantRows db tenants planSlug status).map (fun r => r.tenant) =
      tenants.filter fun t => db.TenantMatches planSlug status t.row := by
  rw [tenantRows, joinPlans_eq hValid, List.filter_map, List.map_map, List.map_map]
  refine (List.map_congr_left fun t _ => rfl).trans ((List.map_id _).trans ?_)
  refine List.filter_congr fun t _ => ?_
  rw [Bool.eq_iff_iff, decide_eq_true_iff]
  simp only [Function.comp_apply, Bool.and_eq_true, planFilter_iff hValid, Db.TenantMatches]

/-- The count query counts the rows of the main query. -/
theorem countTenants_eq (hValid : db.Valid) : countTenants db tenants planSlug status =
    (tenantRows db tenants planSlug status).length := by
  have hRows : (tenantRows db tenants planSlug status).length = (joinPlans db tenants).countP
      fun t => statusFilter status t.1.1.row && planFilter planSlug t.2 := by
    rw [tenantRows, List.length_map, List.countP_eq_length_filter]
  rw [hRows, countTenants]
  cases hPlan : filterText planSlug with
  | some slug => rfl
  | none =>
    rw [joinPlans_eq hValid, List.countP_map]
    refine List.countP_congr fun t _ => ?_
    simp [planFilter, hPlan]

theorem userRows_eq (hValid : db.Valid) : userRows ilike db users q tenantId =
    users.filter fun u => db.UserMatches ilike q tenantId u.row := by
  cases tenantId with
  | none =>
    refine List.filter_congr fun u _ => ?_
    simp [Db.UserMatches]
  | some id =>
    rw [userRows, joinMemberships,
      filter_innerJoin (fun u : Created User => searchFilter ilike q u.row)
        fun m : TenantMembership => decide (m.tenantId = id),
      innerJoin_fst fun u _ => .of_key (c := (u.row.id, id)) hValid.membershipUserTenant
        fun m _ hm => ?_, List.filter_filter]
    · refine List.filter_congr fun u _ => ?_
      rw [Bool.eq_iff_iff, decide_eq_true_iff]
      simp only [Bool.and_eq_true, List.find?_isSome, decide_eq_true_eq, Db.UserMatches,
        Option.mem_some_iff, forall_eq', and_comm]
    · simpa [and_comm] using hm

theorem countUsers_eq : countUsers ilike db users q tenantId =
    (userRows ilike db users q tenantId).length := by
  cases tenantId with
  | none => exact List.countP_eq_length_filter
  | some id => rw [countUsers, userRows, List.length_map, List.countP_eq_length_filter]

end WxcodeAdm
