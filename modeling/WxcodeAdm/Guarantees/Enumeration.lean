import Mathlib.Data.Nat.Basic
import WxcodeAdm.Admin.Listing
import WxcodeAdm.Billing.Facts
import WxcodeAdm.Moves

/-! What the pages of `list_tenants` and `search_users` hold.  Each page by itself is what its count
promises.  The order of the rows is only by `created_at`, so that two queries can order the rows of
one instant differently, and a walk through the pages can meet one of them twice, and another never. -/

namespace WxcodeAdm

open Lib

variable {ρ ι : Type} {key : ρ → Nat} {id : ι → Uuid} {matching : List Uuid} {limit : Nat}

/-- The pages of a listing enumerate the matches, whatever the orders of rows with one key: each page
holds as many of them as the count leaves for it, and all pages together hold each once. -/
structure PagesExactly (key : ρ → Nat) (id : ι → Uuid) (matching : List Uuid) (limit : Nat)
    (list : (List ρ → List ρ) → Nat → List ι × Nat) : Prop where
  total : ∀ orderBy offset, OrdersBy key orderBy → (list orderBy offset).2 = matching.length
  length : ∀ orderBy offset, OrdersBy key orderBy →
    (list orderBy offset).1.length = min limit ((list orderBy offset).2 - offset)
  distinct : ∀ orderBy offset, OrdersBy key orderBy → ((list orderBy offset).1.map id).Nodup
  sound : ∀ orderBy offset, OrdersBy key orderBy →
    ∀ item ∈ (list orderBy offset).1, id item ∈ matching
  walk : ∀ (orders : Nat → List ρ → List ρ) (n : Nat), (∀ k, OrdersBy key (orders k)) →
    matching.length ≤ n * limit →
      ((List.range n).flatMap fun k => (list (orders k) (k * limit)).1.map id).Perm matching

/-- A listing that counts its rows and returns a page of them. -/
theorem pagesExactly_iff {list : (List ρ → List ρ) → Nat → List ι × Nat} (rows : List ρ)
    (item : ρ → ι) (hNodup : matching.Nodup)
    (hList : ∀ orderBy offset, list orderBy offset =
      ((page limit offset (orderBy rows)).map item, rows.length))
    (hIds : rows.map (fun r => id (item r)) = matching) :
    PagesExactly key id matching limit list ↔ ∀ r ∈ rows, OnOnePage key rows limit r := by
  have hTotal : rows.length = matching.length := by rw [← hIds, List.length_map]
  have hWalk (orders : Nat → List ρ → List ρ) (n : Nat) :
      ((List.range n).flatMap fun k => (list (orders k) (k * limit)).1.map id) =
        (walk limit n orders rows).map fun r => id (item r) := by
    simp only [hList, walk, List.map_flatMap, List.map_map, Function.comp_def]
  constructor
  · intro h
    refine onOnePage_of_walk fun orders hOrders n hEnd => ?_
    have hPerm := h.walk orders n hOrders (hTotal ▸ hEnd)
    rw [hWalk] at hPerm
    exact (hPerm.nodup_iff.mpr hNodup).of_map _
  · intro hFit
    have hRows : rows.Nodup := (hIds ▸ hNodup).of_map _
    refine ⟨fun orderBy offset _ => ?_, fun orderBy offset hOrder => ?_,
      fun orderBy offset hOrder => ?_, fun orderBy offset hOrder => ?_, fun orders n hOrders hEnd => ?_⟩
    · rw [hList, hTotal]
    · rw [hList, List.length_map, length_page, (hOrder rows).perm.length_eq]
    · have hIdsNodup : ((orderBy rows).map fun r => id (item r)).Nodup :=
        ((hOrder rows).perm.map _).nodup_iff.mpr (hIds ▸ hNodup)
      rw [hList, List.map_map]
      exact hIdsNodup.sublist ((page_sublist _ _ _).map _)
    · rw [hList]
      rintro _ hItem
      obtain ⟨r, hr, rfl⟩ := List.mem_map.mp hItem
      exact hIds ▸ List.mem_map_of_mem ((hOrder rows).perm.mem_iff.mp ((page_sublist _ _ _).subset hr))
    · rw [hWalk, ← hIds]
      exact (walk_perm hRows hFit hOrders (hTotal ▸ hEnd)).map _

/-! ### The listings -/

variable {db : Db} {tenants : List (Created Tenant)} {users : List (Created User)}
  {planSlug status q : Option String} {tenantId : Option Uuid} {ilike : String → String → Bool}

/-- The tenants that `list_tenants` should list. -/
def matchingTenants (db : Db) (tenants : List (Created Tenant)) (planSlug status : Option String) :
    List (Created Tenant) :=
  tenants.filter fun t => db.TenantMatches planSlug status t.row

/-- The users that `search_users` should list. -/
def matchingUsers (ilike : String → String → Bool) (db : Db) (users : List (Created User))
    (q : Option String) (tenantId : Option Uuid) : List (Created User) :=
  users.filter fun u => db.UserMatches ilike q tenantId u.row

/-- Rows of one instant all stand on one page. -/
def TiesFit {α : Type} (rows : List (Created α)) (limit : Nat) : Prop :=
  ∀ x ∈ rows, OnOnePage (fun y => y.createdAt) rows limit x

instance {α : Type} (rows : List (Created α)) (limit : Nat) : Decidable (TiesFit rows limit) :=
  inferInstanceAs (Decidable (∀ x ∈ rows, OnOnePage (fun y => y.createdAt) rows limit x))

theorem tenants_pagesExactly_iff (hValid : db.Valid)
    (hTenants : tenants.map (fun t => t.row) = db.tenants) :
    PagesExactly (fun r => r.tenant.createdAt) (fun i => i.id)
        ((matchingTenants db tenants planSlug status).map fun t => t.row.id) limit
        (fun orderBy offset => listTenants orderBy db tenants planSlug status limit offset) ↔
      TiesFit (matchingTenants db tenants planSlug status) limit := by
  have hRows : (tenantRows db tenants planSlug status).map (fun r => r.tenant) =
      matchingTenants db tenants planSlug status := tenantRows_tenants hValid
  have hUnique : (tenants.map fun t => t.row.id).Nodup := by
    have hIds := hValid.tenantId
    rwa [← hTenants, List.map_map] at hIds
  have hNodup : ((matchingTenants db tenants planSlug status).map fun t => t.row.id).Nodup :=
    hUnique.sublist (List.filter_sublist.map _)
  refine (pagesExactly_iff (tenantRows db tenants planSlug status) TenantRow.item hNodup ?_ ?_).trans
    ?_
  · exact fun orderBy offset => by rw [listTenants, countTenants_eq hValid]
  · rw [← hRows, List.map_map]
    rfl
  · rw [TiesFit, ← hRows, List.forall_mem_map]
    simp only [OnOnePage, before, upTo, List.countP_map, Function.comp_def]

theorem users_pagesExactly_iff (hValid : db.Valid)
    (hUsers : users.map (fun u => u.row) = db.users) :
    PagesExactly (fun u => u.createdAt) (fun i => i.id)
        ((matchingUsers ilike db users q tenantId).map fun u => u.row.id) limit
        (fun orderBy offset => searchUsers orderBy ilike db users q tenantId limit offset) ↔
      TiesFit (matchingUsers ilike db users q tenantId) limit := by
  have hUnique : (users.map fun u => u.row.id).Nodup := by
    have hIds := hValid.userId
    rwa [← hUsers, List.map_map] at hIds
  have hNodup : ((matchingUsers ilike db users q tenantId).map fun u => u.row.id).Nodup :=
    hUnique.sublist (List.filter_sublist.map _)
  refine pagesExactly_iff (matchingUsers ilike db users q tenantId) userItem hNodup ?_ rfl
  exact fun orderBy offset => by
    rw [searchUsers, countUsers_eq, userRows_eq hValid, matchingUsers]

/-- The pages of both listings enumerate the matches exactly when the rows of one instant fit on one
page. -/
theorem listings_page_exactly_iff (hValid : db.Valid)
    (hTenants : tenants.map (fun t => t.row) = db.tenants)
    (hUsers : users.map (fun u => u.row) = db.users) (limit : Nat)
    (planSlug status q : Option String) (tenantId : Option Uuid)
    (ilike : String → String → Bool) :
    (PagesExactly (fun r => r.tenant.createdAt) (fun i => i.id)
        ((matchingTenants db tenants planSlug status).map fun t => t.row.id) limit
        (fun orderBy offset => listTenants orderBy db tenants planSlug status limit offset) ↔
      TiesFit (matchingTenants db tenants planSlug status) limit) ∧
    (PagesExactly (fun u => u.createdAt) (fun i => i.id)
        ((matchingUsers ilike db users q tenantId).map fun u => u.row.id) limit
        (fun orderBy offset => searchUsers orderBy ilike db users q tenantId limit offset) ↔
      TiesFit (matchingUsers ilike db users q tenantId) limit) :=
  ⟨tenants_pagesExactly_iff hValid hTenants, users_pagesExactly_iff hValid hUsers⟩

/-! ### Two users of one instant -/

def twinDb : Db where
  users := [sampleUser, bob]
  tenants := [billingTenant]

/-- The law for two users who were created one after the other. -/
theorem listings_page_exactly_apart :
    PagesExactly (fun r => r.tenant.createdAt) (fun i => i.id)
        ((matchingTenants twinDb [⟨billingTenant, 7⟩] none (some "active")).map fun t => t.row.id) 1
        (fun orderBy offset =>
          listTenants orderBy twinDb [⟨billingTenant, 7⟩] none (some "active") 1 offset) ∧
      PagesExactly (fun u => u.createdAt) (fun i => i.id)
        ((matchingUsers (fun _ _ => true) twinDb [⟨sampleUser, 5⟩, ⟨bob, 6⟩] (some "e") none).map
          fun u => u.row.id) 1
        (fun orderBy offset => searchUsers orderBy (fun _ _ => true) twinDb
          [⟨sampleUser, 5⟩, ⟨bob, 6⟩] (some "e") none 1 offset) :=
  have hTenants : [(⟨billingTenant, 7⟩ : Created Tenant)].map (fun t => t.row) = twinDb.tenants := rfl
  have hUsers : [(⟨sampleUser, 5⟩ : Created User), ⟨bob, 6⟩].map (fun u => u.row) = twinDb.users := rfl
  have hIff := listings_page_exactly_iff (by decide) hTenants hUsers 1 none (some "active")
    (some "e") none fun _ _ => true
  ⟨hIff.1.mpr (by decide), hIff.2.mpr (by decide)⟩

/-- Two users of one instant, one on each page. -/
theorem pages_repeat_user :
    ¬∀ (db : Db) (users : List (Created User)), db.Valid → users.map (fun u => u.row) = db.users →
      ∀ (limit : Nat) (q : Option String) (tenantId : Option Uuid) (ilike : String → String → Bool),
        0 < limit →
        PagesExactly (fun u => u.createdAt) (fun i => i.id)
          ((matchingUsers ilike db users q tenantId).map fun u => u.row.id) limit
          (fun orderBy offset => searchUsers orderBy ilike db users q tenantId limit offset) := by
  intro hClaim
  have hPages := hClaim twinDb [⟨sampleUser, 5⟩, ⟨bob, 5⟩] (by decide) rfl 1 none none
    (fun _ _ => true) (by decide)
  exact absurd ((users_pagesExactly_iff (by decide) rfl).mp hPages) (by decide)

end WxcodeAdm
