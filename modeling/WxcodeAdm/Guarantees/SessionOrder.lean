import WxcodeAdm.Users.SessionList

/-! The sessions are listed by the time of their last use, although they are sorted by its text. -/

namespace WxcodeAdm

open Lib

/-- When a session was last active: at the datetime whose text Redis has for its token, or at that
of its row if Redis has none. -/
def ActiveAt (lastActive : LastActive) (now : Nat) (s : SessionRecord) (time : Option DateTime) :
    Prop :=
  match lastActive.get now s.accessTokenJti with
  | some text => time.map DateTime.isoformat = some text
  | none => time = s.lastActiveAt

/-- The first time is no earlier than the second, which may be absent. -/
def NoEarlier (a b : Option DateTime) : Prop := ∀ e ∈ b, ∃ d ∈ a, e.instant ≤ d.instant

/-- What the list shows of a session that was last active at a time. -/
def shownSession (currentJti : Uuid) (s : SessionRecord) (time : Option DateTime) : SessionInfo where
  id := s.id.text
  deviceType := s.info.deviceType
  browserName := s.info.browserName
  browserVersion := s.info.browserVersion
  ipAddress := s.info.ipAddress
  city := s.info.city
  lastActiveAt := time.map DateTime.isoformat
  isCurrent := s.accessTokenJti = currentJti
  createdAt := s.createdAt.isoformat

/-- The list shows the given sessions, each with its own time, the later before the earlier and
those without a time at the end. -/
def ListedByTime (lastActive : LastActive) (now : Nat) (sessions : List SessionRecord)
    (currentJti : Uuid) (listed : List SessionInfo) : Prop :=
  ∃ rows : List (SessionRecord × Option DateTime),
    (rows.map Prod.fst).Perm sessions ∧ (∀ row ∈ rows, ActiveAt lastActive now row.1 row.2) ∧
    rows.Pairwise (fun a b => NoEarlier a.2 b.2) ∧
    listed = rows.map fun row => shownSession currentJti row.1 row.2

section Times

variable {lastActive : LastActive} {now : Nat} {tokens : List RefreshToken}
  {sessions : List SessionRecord} {userId currentJti : Uuid} {s : SessionRecord}
  {time : Option DateTime}

theorem exists_activeAt (lastActive : LastActive) (now : Nat) (s : SessionRecord) :
    ∃ time, ActiveAt lastActive now s time := by
  unfold ActiveAt
  cases hRedis : lastActive.get now s.accessTokenJti with
  | none => exact ⟨s.lastActiveAt, rfl⟩
  | some text =>
    obtain ⟨d, rfl⟩ := LastActive.get_rendered hRedis
    exact ⟨some d, rfl⟩

theorem ActiveAt.text (h : ActiveAt lastActive now s time) :
    lastActiveText (lastActive.get now) s = time.map DateTime.isoformat := by
  unfold ActiveAt at h
  unfold lastActiveText
  cases hRedis : lastActive.get now s.accessTokenJti with
  | none =>
    simp only [hRedis] at h ⊢
    rw [h]
  | some text =>
    simp only [hRedis] at h ⊢
    rw [h]

theorem ActiveAt.info (h : ActiveAt lastActive now s time) :
    sessionInfo (lastActive.get now) currentJti s = shownSession currentJti s time := by
  rw [sessionInfo, h.text, shownSession]

theorem noEarlier_of_sortKey_le {a b : SessionRecord} {ta tb : Option DateTime}
    (h : (shownSession currentJti b tb).sortKey ≤ (shownSession currentJti a ta).sortKey) :
    NoEarlier ta tb := by
  rintro e rfl
  cases ta with
  | none => exact absurd e.isoformat_pos (not_lt_of_ge h)
  | some d => exact ⟨d, rfl, (DateTime.isoformat_le_iff e d).mp h⟩

/-- A session is active while it has its refresh token. -/
theorem activeSessions_eq (hTokens : (tokens.map RefreshToken.id).Nodup) :
    activeSessions tokens sessions userId = sessions.filter fun s =>
      s.userId = userId ∧ ∃ r ∈ tokens, r.id = s.refreshTokenId := by
  have hOne (s : SessionRecord) (_ : s ∈ sessions) :
      AtMostOne (fun r : RefreshToken => decide (r.id = s.refreshTokenId)) tokens :=
    .of_key hTokens fun _ _ hSame => of_decide_eq_true hSame
  rw [activeSessions, innerJoin_fst hOne, List.filter_filter]
  refine List.filter_congr fun s _ => ?_
  have hFound : (tokens.find? fun r => decide (r.id = s.refreshTokenId)).isSome =
      decide (∃ r ∈ tokens, r.id = s.refreshTokenId) := by
    rw [Bool.eq_iff_iff, List.find?_isSome]
    simp
  rw [hFound, Bool.decide_and]

end Times

/-- The sessions of the user that have a refresh token are listed by time. -/
theorem sessions_listed_by_time (lastActive : LastActive) (now : Nat) (tokens : List RefreshToken)
    (sessions : List SessionRecord) (userId currentJti : Uuid)
    (hTokens : (tokens.map RefreshToken.id).Nodup) :
    ListedByTime lastActive now
      (sessions.filter fun s => s.userId = userId ∧ ∃ r ∈ tokens, r.id = s.refreshTokenId)
      currentJti (listSessions (lastActive.get now) tokens sessions userId currentJti) := by
  choose time hTime using exists_activeAt lastActive now
  have hInfo : sessionInfo (lastActive.get now) currentJti =
      fun s => shownSession currentJti s (time s) := funext fun s => (hTime s).info
  let key (s : SessionRecord) : String := (shownSession currentJti s (time s)).sortKey
  let ordered := (activeSessions tokens sessions userId).mergeSort fun a b => decide (key b ≤ key a)
  have hOrdered : OrderedBy key (activeSessions tokens sessions userId) ordered :=
    ordersBy_mergeSort key _
  refine ⟨ordered.map fun s => (s, time s), ?_, ?_, ?_, ?_⟩
  · rw [List.map_map, ← activeSessions_eq hTokens]
    simpa [Function.comp_def] using hOrdered.perm
  · intro row hRow
    obtain ⟨s, -, rfl⟩ := List.mem_map.mp hRow
    exact hTime s
  · exact List.pairwise_map.mpr (hOrdered.sorted.imp fun hLe => noEarlier_of_sortKey_le hLe)
  · rw [listSessions, hInfo, List.map_map]
    exact (List.map_mergeSort (r := fun a b => decide (key b ≤ key a)) (f := fun s =>
      shownSession currentJti s (time s)) fun _ _ _ _ => rfl).symm

/-- A session whose time the database has with a fraction, and one whose time Redis has without. -/
theorem sessions_listed_by_time_mixed :
    let noon : DateTime := ⟨2026, 1, 1, 12, 0, 0, 0, by decide, by decide, by decide, by decide,
      by decide, by decide, by decide⟩
    let later : DateTime := { noon with microsecond := 500000, microsecondRange := by decide }
    let token (id : Nat) : RefreshToken := ⟨⟨id⟩, "", ⟨1⟩, 0⟩
    let record (id : Nat) (time : Option DateTime) : SessionRecord :=
      ⟨⟨id⟩, ⟨id⟩, ⟨1⟩, ⟨id⟩, {}, time, noon⟩
    let lastActive := LastActive.empty.touch 0 ⟨2⟩ noon 3600
    ListedByTime lastActive 0 [record 2 none, record 3 (some later), record 4 none] ⟨2⟩
      (listSessions (lastActive.get 0) [token 2, token 3, token 4]
        [record 2 none, record 3 (some later), record 4 none, record 5 none] ⟨1⟩ ⟨2⟩) := by
  intro noon later token record lastActive
  exact sessions_listed_by_time lastActive 0 [token 2, token 3, token 4]
    [record 2 none, record 3 (some later), record 4 none, record 5 none] ⟨1⟩ ⟨2⟩ (by decide)

end WxcodeAdm
