import WxcodeAdm.Common.UuidText
import WxcodeAdm.Lib.Calendar
import WxcodeAdm.Lib.Expiring
import WxcodeAdm.Lib.Joins
import WxcodeAdm.Lib.Paging

/-! `list_sessions` of `users/service.py`, and the write of `get_current_user` that it reads: the
sessions of a user, the one active last first. -/

namespace WxcodeAdm

open Lib

/-- A row of `user_sessions`, with its datetimes as the database driver returns them. -/
structure SessionRecord where
  id : Uuid
  refreshTokenId : Uuid
  userId : Uuid
  accessTokenJti : Uuid
  info : SessionMeta
  lastActiveAt : Option DateTime
  createdAt : DateTime
  deriving DecidableEq

/-! ### `auth:session:last_active:{jti}` -/

/-- The keys of Redis, which nothing but `touch` writes. -/
structure LastActive where
  store : Expiring Uuid String
  rendered : ∀ jti text deadline, store.entry jti = some (text, deadline) →
    ∃ d : DateTime, text = d.isoformat

namespace LastActive

def empty : LastActive := ⟨.empty, fun _ _ _ h => by cases h⟩

/-- `setex` of `datetime.now(timezone.utc).isoformat()` in `get_current_user`. -/
def touch (m : LastActive) (now : Nat) (jti : Uuid) (time : DateTime) (ttl : Nat) :
    LastActive where
  store := m.store.set now jti time.isoformat ttl
  rendered := by
    intro jti' text deadline h
    simp only [Expiring.set, Function.update_apply] at h
    split at h
    · cases h
      exact ⟨time, rfl⟩
    · exact m.rendered jti' text deadline h

def get (m : LastActive) (now : Nat) (jti : Uuid) : Option String := m.store.get now jti

theorem get_rendered {m : LastActive} {now : Nat} {jti : Uuid} {text : String}
    (h : m.get now jti = some text) : ∃ d : DateTime, text = d.isoformat := by
  obtain ⟨deadline, hEntry⟩ := Expiring.entry_of_get h
  exact m.rendered jti text deadline hEntry

end LastActive

/-! ### `list_sessions` -/

structure SessionInfo where
  id : String
  deviceType : Option String
  browserName : Option String
  browserVersion : Option String
  ipAddress : Option String
  city : Option String
  lastActiveAt : Option String
  isCurrent : Bool
  createdAt : String
  deriving DecidableEq, Repr

/-- `select(UserSession).join(RefreshToken).where(..)` -/
def activeSessions (tokens : List RefreshToken) (sessions : List SessionRecord) (userId : Uuid) :
    List SessionRecord :=
  ((innerJoin (fun s r => r.id = s.refreshTokenId) sessions tokens).map Prod.fst).filter
    fun s => s.userId = userId

/-- The value of Redis, and that of the database if there is none. -/
def lastActiveText (redis : Uuid → Option String) (s : SessionRecord) : Option String :=
  match redis s.accessTokenJti with
  | some text => some text
  | none => s.lastActiveAt.map DateTime.isoformat

def sessionInfo (redis : Uuid → Option String) (currentJti : Uuid) (s : SessionRecord) :
    SessionInfo where
  id := s.id.text
  deviceType := s.info.deviceType
  browserName := s.info.browserName
  browserVersion := s.info.browserVersion
  ipAddress := s.info.ipAddress
  city := s.info.city
  lastActiveAt := lastActiveText redis s
  isCurrent := s.accessTokenJti = currentJti
  createdAt := s.createdAt.isoformat

/-- `s["last_active_at"] or ""` -/
def SessionInfo.sortKey (s : SessionInfo) : String := s.lastActiveAt.getD ""

/-- The sort is stable, as Python's is. -/
def listSessions (redis : Uuid → Option String) (tokens : List RefreshToken)
    (sessions : List SessionRecord) (userId currentJti : Uuid) : List SessionInfo :=
  ((activeSessions tokens sessions userId).map (sessionInfo redis currentJti)).mergeSort
    fun a b => decide (b.sortKey ≤ a.sortKey)

end WxcodeAdm
