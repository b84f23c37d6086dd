import WxcodeAdm.Footprint

/-! The password hashes of the users over a run.  A request sets the hash of one user, or of none, or
makes a user without one. -/

namespace WxcodeAdm

open Lib

/-- The password hash of a user who is there. -/
def Db.passwordHashOf (db : Db) (id : Uuid) : Option (Option String) :=
  (db.user id).map fun u => u.passwordHash

variable {cfg : Config} {c : Ctx} {s s' : Sys} {e : Event} {w w' : World}

theorem passwordHashOf_credentials (db : Db) (id : Uuid) :
    db.passwordHashOf id = (db.credentials.find? fun x => x.1 = id).map fun x => x.2.2 := by
  rw [Db.passwordHashOf, Db.user, Db.credentials, List.find?_map, Option.map_map]
  rfl

theorem passwordHashOf_congr {db db' : Db} (h : db'.credentials = db.credentials) :
    db'.passwordHashOf = db.passwordHashOf := by
  funext id
  rw [passwordHashOf_credentials, passwordHashOf_credentials, h]

/-- The hash that a request sets when it commits, and the user whose hash it is. -/
def Event.setsHash (cfg : Config) (db : Db) (e : Event) : Option (Uuid × String) :=
  match e.outcome, e.request with
  | .ok _, .signup _ password => some (e.draws.userId, hashPassword (e.ctx cfg) password)
  | .ok _, .resetPassword token password =>
    ((resetTokenEmail token).toOption.bind db.userByEmail).map fun u =>
      (u.id, hashPassword (e.ctx cfg) password)
  | .ok _, .changePassword (.signed p) _ password => some (p.sub, hashPassword (e.ctx cfg) password)
  | _, _ => none

/-! ### One write -/

/-- The hashes are the ones before but for the user's, which is the new one. -/
structure Db.Rehashed (id : Uuid) (hash : String) (db db' : Db) : Prop where
  self : db'.passwordHashOf id = some (some hash)
  others : ∀ other, other ≠ id → db'.passwordHashOf other = db.passwordHashOf other

theorem passwordHashOf_updateUser {db : Db} {id : Uuid} {f : User → User}
    (hId : ∀ u, (f u).id = u.id) (i : Uuid) :
    (db.updateUser id f).passwordHashOf i =
      (db.user i).map fun u => if u.id = id then (f u).passwordHash else u.passwordHash := by
  rw [Db.passwordHashOf, Db.user_updateUser hId, Option.map_map]
  congr 1
  funext u
  simp only [Function.comp]
  split <;> rfl

theorem Db.Rehashed.of_users {db db' m : Db} {id : Uuid} {hash : String}
    (h : db.Rehashed id hash m) (hUsers : db'.users = m.users) : db.Rehashed id hash db' := by
  have hSame : db'.passwordHashOf = m.passwordHashOf :=
    passwordHashOf_congr (by rw [Db.credentials, hUsers, Db.credentials])
  exact ⟨by rw [hSame, h.self], fun other hOther => by rw [hSame, h.others other hOther]⟩

theorem Db.Rehashed.updateUser {db : Db} {id : Uuid} {f : User → User} {hash : String}
    (hId : ∀ u, (f u).id = u.id) (hHash : ∀ u, (f u).passwordHash = some hash)
    (hUser : db.HasUser id) : db.Rehashed id hash (db.updateUser id f) where
  self := by
    obtain ⟨u, hu, rfl⟩ := hUser
    obtain ⟨v, hFound⟩ : ∃ v, db.user u.id = some v :=
      Option.isSome_iff_exists.mp (List.find?_isSome.mpr ⟨u, hu, by simp⟩)
    rw [passwordHashOf_updateUser hId, hFound, Option.map_some, if_pos (Db.user_id hFound), hHash]
  others := by
    intro other hOther
    rw [passwordHashOf_updateUser hId, Db.passwordHashOf]
    refine Option.map_congr fun u hu => ?_
    rw [if_neg (by rwa [Db.user_id hu])]

theorem passwordHashOf_addUser {db : Db} {u : User} (id : Uuid) :
    ({ db with users := db.users ++ [u] } : Db).passwordHashOf id =
      (db.passwordHashOf id).or (if u.id = id then some u.passwordHash else none) := by
  simp only [Db.passwordHashOf, Db.user, List.find?_append, List.find?_singleton, Option.map_or]
  congr 1
  split <;> simp_all

theorem passwordHashOf_none {db : Db} {id : Uuid} (h : ¬db.HasUser id) :
    db.passwordHashOf id = none := by
  rw [Db.passwordHashOf, Option.map_eq_none_iff, Db.user, List.find?_eq_none]
  intro u hu hId
  exact h ⟨u, hu, by simpa using hId⟩

theorem Db.Rehashed.addUser {db : Db} {u : User} {hash : String} (hNew : ¬db.HasUser u.id)
    (hHash : u.passwordHash = some hash) :
    db.Rehashed u.id hash { db with users := db.users ++ [u] } where
  self := by
    rw [passwordHashOf_addUser, passwordHashOf_none hNew, Option.none_or, if_pos rfl, hHash]
  others := by
    intro other hOther
    rw [passwordHashOf_addUser, if_neg (Ne.symm hOther), Option.or_none]

theorem signup_ok {email password : String} {user : User}
    (h : (signup c email password).run w = .ok user w') :
    user.id = c.draws.userId ∧ user.passwordHash = some (hashPassword c password) ∧
      ¬w.db.HasUser user.id ∧ w'.db = { w.db with users := w.db.users ++ [user] } := by
  simp only [signup, createVerificationCode, enqueueJob, bind_assoc, pure_bind,
    Handler.run_query_bind, Handler.run_ensure_bind_ok, Handler.run_exec_bind, run_flush_bind_ok,
    Handler.run_store_bind, Handler.run_pure_ok] at h
  obtain ⟨-, hValid, rfl, rfl⟩ := h
  refine ⟨rfl, rfl, ?_, rfl⟩
  rintro ⟨u, hu, hId⟩
  have hNodup := hValid.userId
  simp only [List.map_append, List.map_cons, List.map_nil, List.nodup_append] at hNodup
  exact hNodup.2.2 u.id (List.mem_map.mpr ⟨u, hu, rfl⟩) _ (List.mem_singleton.mpr rfl) hId

theorem changePassword_ok {user : User} {current new : String} {jti : Option Uuid}
    (h : (changePassword c user current new jti).run w = .ok () w') :
    w'.db.users = (w.db.updateUser user.id fun u => { u with
      passwordHash := some (hashPassword c new) }).users := by
  simp only [changePassword, Handler.run_ensure_bind_ok, Handler.run_ofExcept_bind_ok,
    Handler.run_exec_bind] at h
  obtain ⟨-, _, -, -, hRevoke⟩ := h
  obtain ⟨_, hRevoke⟩ := Handler.run_discard_ok.mp hRevoke
  exact (revokeOtherSessions_touches _ _ .users (by simp)).of_ok hRevoke

/-! ### Requests that set no hash -/

/-- Nobody's hash changes, and whoever comes in has none. -/
def KeepsHashes (s s' : World) : Prop :=
  ∀ id, s'.db.passwordHashOf id = s.db.passwordHashOf id ∨
    s.db.passwordHashOf id = none ∧ s'.db.passwordHashOf id = some none

namespace KeepsHashes

theorem refl (s : World) : KeepsHashes s s := fun _ => .inl rfl

theorem trans {s m s' : World} (h : KeepsHashes s m) (h' : KeepsHashes m s') : KeepsHashes s s' := by
  intro id
  rcases h' id with hSame | ⟨hNone, hNew⟩
  · rw [hSame]
    exact h id
  · rcases h id with hBefore | ⟨-, hSome⟩
    · exact .inr ⟨hBefore ▸ hNone, hNew⟩
    · rw [hNone] at hSome
      cases hSome

instance : Std.Refl KeepsHashes := ⟨refl⟩

instance : IsTrans World KeepsHashes := ⟨fun _ _ _ => trans⟩

theorem updateUser {id : Uuid} {f : User → User} (hId : ∀ u, (f u).id = u.id)
    (hHash : ∀ u, (f u).passwordHash = u.passwordHash) :
    Handler.Within KeepsHashes (.exec fun db => db.updateUser id f : App Unit) :=
  .exec fun s i => .inl <| by
    rw [passwordHashOf_updateUser hId, Db.passwordHashOf]
    congr 1
    funext u
    split
    · exact hHash u
    · rfl

theorem addUser {u : User} (hHash : u.passwordHash = none) :
    Handler.Within KeepsHashes
      (.exec fun db => { db with users := db.users ++ [u] } : App Unit) :=
  .exec fun s i => by
    rw [passwordHashOf_addUser, hHash]
    cases s.db.passwordHashOf i with
    | some hash => exact .inl rfl
    | none =>
      rw [Option.none_or]
      split
      · exact .inr ⟨rfl, rfl⟩
      · exact .inl rfl

end KeepsHashes

theorem Touches.keepsHashes {α : Type} {parts : List Part} {h : App α} (ht : Touches parts h)
    (hParts : Part.credentials ∉ parts) : Handler.Within KeepsHashes h := fun s i =>
  .inl (by rw [passwordHashOf_congr (ht .credentials hParts s)])

theorem updateProfile_keepsHashes (user : User) (data : UpdateProfileRequest) :
    Handler.Within KeepsHashes (updateProfile c user data) :=
  .bind (.updateUser (fun _ => rfl) fun _ => rfl) fun _ => by
    cases data.email with
    | none => exact .pure _
    | some _ =>
      exact .ite (.pure _) <| .bind (.query _) fun _ => .bind (.ensure _ _) fun _ =>
        .bind (.updateUser (fun _ => rfl) fun _ => rfl) fun _ =>
        .bind ((createVerificationCode_touches _).keepsHashes (by simp)) fun _ =>
        (touches_enqueueJob _).keepsHashes (by simp)

theorem resolveOauthAccount_keepsHashes (provider email puid : String) (ua ip : Option String) :
    Handler.Within KeepsHashes (resolveOauthAccount c provider email puid ua ip) :=
  .bind (.query _) fun account => by
    cases account with
    | some account => exact (oauthLogin_touches account ua ip).keepsHashes (by simp)
    | none =>
      refine .bind (.query _) fun user => ?_
      cases user with
      | some _ =>
        exact .ite (.bind (touches_oauthLink.keepsHashes (by simp)) fun _ => .pure _) (.throw _)
      | none =>
        exact .bind (.addUser rfl) fun _ => .bind (touches_flush.keepsHashes (by simp)) fun _ =>
          .bind ((addOAuthAccount_touches _).keepsHashes (by simp)) fun _ =>
          .bind ((createVerificationCode_touches _).keepsHashes (by simp)) fun _ =>
          .bind ((touches_enqueueJob _).keepsHashes (by simp)) fun _ => .bind (.query _) fun _ =>
          .bind ((issueTokens_touches _ _ _).keepsHashes (by simp)) fun _ => .pure _

/-! ### Steps -/

/-- A request that sets a hash sets it for one user. -/
theorem Step.rehashed (h : Step cfg s e s') {id : Uuid} {hash : String}
    (hSets : e.setsHash cfg s.world.db = some (id, hash)) :
    s.world.db.Rehashed id hash s'.world.db := by
  cases hOutcome : e.outcome with
  | error => simp [Event.setsHash, hOutcome] at hSets
  | ok response =>
    have hRun := (h.committed hOutcome).1
    cases hRequest : e.request with
    | signup email password =>
      rw [hRequest] at hRun
      obtain ⟨user, m, hSignup, hRun⟩ := Handler.run_bind_ok.mp hRun
      obtain ⟨-, rfl⟩ := Handler.run_pure_ok.mp hRun
      obtain ⟨hId, hHash, hNew, hDb⟩ := signup_ok hSignup
      simp only [Event.setsHash, hOutcome, hRequest, Option.some.injEq, Prod.mk.injEq] at hSets
      obtain ⟨rfl, rfl⟩ := hSets
      rw [hDb, ← show user.id = e.draws.userId from hId]
      exact .addUser hNew hHash
    | resetPassword token password =>
      rw [hRequest] at hRun
      obtain ⟨⟨⟩, m, hReset, hRun⟩ := Handler.run_bind_ok.mp hRun
      obtain ⟨-, rfl⟩ := Handler.run_pure_ok.mp hRun
      obtain ⟨email, user, _, hEmail, hUser, -, hWorld⟩ := resetPassword_ok hReset
      simp only [Event.setsHash, hOutcome, hRequest, hEmail, Except.toOption, Option.bind_some,
        hUser, Option.map_some, Option.some.injEq, Prod.mk.injEq] at hSets
      obtain ⟨rfl, rfl⟩ := hSets
      have hHas : s.world.db.HasUser user.id := ⟨user, List.mem_of_find?_eq_some hUser, rfl⟩
      have hUsers : s'.world.db.users = (s.world.db.updateUser user.id fun u => { u with
          passwordHash := some (hashPassword (e.ctx cfg) password)
          passwordResetRequired := false }).users := by rw [hWorld]; rfl
      refine .of_users (.updateUser ?_ ?_ hHas) hUsers <;> exact fun _ => rfl
    | changePassword token current password =>
      rw [hRequest] at hRun
      obtain ⟨user, m, hSignedIn, hRun⟩ := Handler.run_bind_ok.mp hRun
      obtain ⟨p, rfl, hUser, hRun, hDb, -⟩ := run_signedIn hSignedIn hRun
      obtain ⟨⟨⟩, m', hChange, hRun⟩ := Handler.run_bind_ok.mp hRun
      obtain ⟨-, rfl⟩ := Handler.run_pure_ok.mp hRun
      simp only [Event.setsHash, hOutcome, hRequest, Option.some.injEq, Prod.mk.injEq] at hSets
      obtain ⟨rfl, rfl⟩ := hSets
      have hUsers := changePassword_ok hChange
      rw [hDb, Db.user_id hUser] at hUsers
      have hHas : s.world.db.HasUser p.sub := ⟨user, Db.user_mem hUser, Db.user_id hUser⟩
      refine .of_users (.updateUser ?_ ?_ hHas) hUsers <;> exact fun _ => rfl
    | _ => simp [Event.setsHash, hOutcome, hRequest] at hSets

theorem handle_keepsHashes {r : Request} (hSignup : ∀ email password, r ≠ .signup email password)
    (hReset : ∀ token password, r ≠ .resetPassword token password)
    (hChange : ∀ token current new, r ≠ .changePassword token current new) :
    Handler.Within KeepsHashes (handle c r) := by
  by_cases hQuiet : Part.credentials ∉ r.parts
  · exact (handle_touches r).keepsHashes hQuiet
  · cases r with
    | signup email password => exact absurd rfl (hSignup email password)
    | resetPassword token password => exact absurd rfl (hReset token password)
    | changePassword token current new => exact absurd rfl (hChange token current new)
    | oauthCallback =>
      exact .bind (.ensure _ _) fun _ =>
        .bind (resolveOauthAccount_keepsHashes _ _ _ _ _) fun _ => .pure _
    | patchMe =>
      exact .bind ((requireVerified_touches _).keepsHashes (by simp)) fun _ =>
        .bind (.ensure _ _) fun _ => .bind (updateProfile_keepsHashes _ _) fun _ => .pure _
    | _ => simp [Request.parts] at hQuiet

/-- A request that sets no hash keeps everyone's. -/
theorem Step.keepsHashes (h : Step cfg s e s') (hNone : e.setsHash cfg s.world.db = none) :
    KeepsHashes s.world s'.world := by
  cases hOutcome : e.outcome with
  | error =>
    intro id
    rw [h.rolledBack hOutcome]
    exact .inl rfl
  | ok response =>
    have hRun := (h.committed hOutcome).1
    refine (handle_keepsHashes ?_ ?_ ?_).of_ok hRun
    · intro email password hRequest
      simp [Event.setsHash, hOutcome, hRequest] at hNone
    · intro token password hRequest
      rw [hRequest] at hRun
      obtain ⟨⟨⟩, m, hReset, -⟩ := Handler.run_bind_ok.mp hRun
      obtain ⟨email, user, _, hEmail, hUser, -⟩ := resetPassword_ok hReset
      simp [Event.setsHash, hOutcome, hRequest, hEmail, Except.toOption, hUser] at hNone
    · intro token current new hRequest
      rw [hRequest] at hRun
      obtain ⟨user, m, hSignedIn, hRun⟩ := Handler.run_bind_ok.mp hRun
      obtain ⟨p, rfl, -⟩ := run_signedIn hSignedIn hRun
      simp [Event.setsHash, hOutcome, hRequest] at hNone

/-- Who has a hash keeps having one. -/
theorem Step.hasHash (h : Step cfg s e s') {id : Uuid} {hash : String}
    (hHash : s.world.db.passwordHashOf id = some (some hash)) :
    ∃ later, s'.world.db.passwordHashOf id = some (some later) := by
  cases hSets : e.setsHash cfg s.world.db with
  | none =>
    rcases h.keepsHashes hSets id with hSame | ⟨hNone, -⟩
    · exact ⟨hash, hSame.trans hHash⟩
    · rw [hNone] at hHash
      cases hHash
  | some set =>
    obtain ⟨other, new⟩ := set
    have hRehashed := h.rehashed hSets
    by_cases hSelf : id = other
    · exact ⟨new, hSelf ▸ hRehashed.self⟩
    · exact ⟨hash, (hRehashed.others id hSelf).trans hHash⟩

end WxcodeAdm
