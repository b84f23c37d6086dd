import WxcodeAdm.Frontend.Responses

/-! What a call makes of a response on its second try, after a silent refresh, against what it makes of
it on the first. -/

namespace WxcodeAdm.Frontend.Http

open Lib

variable {σ : Type} {api : Api σ} {first pair final : Response} {endpoint : String} {s after : σ}

/-- The response arrives after a refresh, or under the tokens that this leaves, and either way the
result and the tokens are the same. -/
def SameOnRetry (client : String → Bool → Program σ Result) (endpoint : String)
    (first pair final : Response) (s after : σ) : Prop :=
  (client endpoint false).play [some first, some pair, some final] s =
    (client endpoint false).play [some final] after

/-- A refresh that succeeds on this answer. -/
def Api.Refreshes (api : Api σ) (pair : Response) (s after : σ) : Prop :=
  api.refreshTokens.play [some pair] s = some (true, after, [])

/-! ### The two paths -/

theorem call_first (hFinal : final.status ≠ 401) :
    (api.call endpoint false).play [some final] s = some (api.finish final, s, []) := by
  change (if final.status = 401 ∧ false = false then
      api.refreshTokens >>= api.afterRefresh endpoint (truthy (api.accessToken s)) final
    else pure (api.finish final)).play [] s = _
  rw [if_neg fun h => hFinal h.1]
  rfl

/-- What the second try leaves. -/
def Api.retried (api : Api σ) (final : Response) (after : σ) : Result × σ :=
  if isOk final.status then (readJson final, after) else (throwApiError final, api.giveUp after)

theorem call_retry (hFirst : first.status = 401) (hRefresh : api.Refreshes pair s after) :
    (api.call endpoint false).play [some first, some pair, some final] s =
      some ((api.retried final after).1, (api.retried final after).2, []) := by
  change (if first.status = 401 ∧ false = false then
      api.refreshTokens >>= api.afterRefresh endpoint (truthy (api.accessToken s)) first
    else pure (api.finish first)).play [some pair, some final] s = _
  rw [if_pos ⟨hFirst, rfl⟩, Async.play_bind, ← List.singleton_append,
    Async.play_append hRefresh [some final]]
  change (api.finishRetry (some final)).play [] after = _
  rw [Api.finishRetry, Api.retried]
  split <;> rfl

theorem readJson_ne : readJson final ≠ .ok none := by
  unfold readJson
  cases final.json <;> simp

/-- The two paths agree on what is read as JSON in both, and on errors that leave the tokens alone. -/
theorem Api.sameOnRetry_iff (hFirst : first.status = 401) (hFinal : final.status ≠ 401)
    (hRefresh : api.Refreshes pair s after) :
    SameOnRetry api.call endpoint first pair final s after ↔
      if isOk final.status then api.isEmpty final.status = false ∧ final.isJson = true
      else api.giveUp after = after := by
  rw [SameOnRetry, call_retry hFirst hRefresh, call_first hFinal, retried, finish]
  split
  · cases hEmpty : api.isEmpty final.status <;> cases hJson : final.isJson <;> simp [readJson_ne]
  · simp

/-! ### The two clients -/

theorem apiClient_eq : apiClient = userApi.call := rfl

theorem adminApiClient_eq : adminApiClient = adminApi.call := rfl

/-- A refresh that succeeds stores a pair. -/
theorem refreshes_tokens (h : api.Refreshes pair s after) :
    ∃ access refresh, after = api.setTokens access refresh s := by
  unfold Api.Refreshes Api.refreshTokens at h
  rw [Async.play_bind] at h
  simp only [Async.get, Async.play, Option.bind_some] at h
  split at h
  · cases h
  · rw [Async.play_bind] at h
    simp only [Async.ask, Async.play, Option.bind_some] at h
    split at h
    · split at h
      · rename_i access refresh hPair
        cases h
        exact ⟨access, refresh, rfl⟩
      · cases h
    · cases h

/-- `apiClient` hides a refresh exactly from those calls that end with JSON, and `adminApiClient`
exactly from those that end with an error or with JSON under a status other than 204. -/
theorem silent_refresh_iff (endpoint : String) (pair : Response) (hFirst : first.status = 401)
    (hFinal : final.status ≠ 401) :
    (∀ s after : TokenStore, userApi.Refreshes pair s after →
      (SameOnRetry apiClient endpoint first pair final s after ↔
        isOk final.status = true ∧ final.isJson = true)) ∧
    ∀ s after : AdminTokenStore, adminApi.Refreshes pair s after →
      (SameOnRetry adminApiClient endpoint first pair final s after ↔
        (isOk final.status = true → final.status ≠ 204 ∧ final.isJson = true)) := by
  refine ⟨fun s after hRefresh => ?_, fun s after hRefresh => ?_⟩
  · have hKept : userApi.giveUp after ≠ after := by
      obtain ⟨access, refresh, rfl⟩ := refreshes_tokens hRefresh
      exact fun hSame => by cases congrArg TokenStore.accessToken hSame
    rw [apiClient_eq, Api.sameOnRetry_iff hFirst hFinal hRefresh]
    split
    · rename_i hOk
      exact ⟨fun h => ⟨hOk, h.2⟩, fun h => ⟨rfl, h.2⟩⟩
    · rename_i hError
      exact iff_of_false hKept fun h => hError h.1
  · rw [adminApiClient_eq, Api.sameOnRetry_iff hFirst hFinal hRefresh]
    split
    · rename_i hOk
      simp [adminApi, hOk]
    · rename_i hError
      exact iff_of_true rfl fun hOk => absurd hOk hError

/-! ### Responses after a refresh -/

def unauthorized : Response := ⟨401, "Unauthorized", some "application/json", some (.object [])⟩

def newPair : Response :=
  ⟨200, "OK", some "application/json",
    some (.object [("access_token", .string "new"), ("refresh_token", .string "next")])⟩

theorem newPair_refreshes :
    userApi.Refreshes newPair ⟨some "old", some "last"⟩ ⟨some "new", some "next"⟩ ∧
      adminApi.Refreshes newPair ⟨some "old", some "last", none, none⟩
        ⟨some "new", some "next", some "next", none⟩ :=
  ⟨rfl, rfl⟩

def profile : Response := ⟨200, "OK", some "application/json", some (.object [])⟩

/-- The law for a response with JSON. -/
theorem silent_refresh_profile :
    SameOnRetry apiClient "/users/me" unauthorized newPair profile ⟨some "old", some "last"⟩
        ⟨some "new", some "next"⟩ ∧
      SameOnRetry adminApiClient "/users/me" unauthorized newPair profile
        ⟨some "old", some "last", none, none⟩ ⟨some "new", some "next", some "next", none⟩ := by
  have hFirst : unauthorized.status = 401 := rfl
  have hFinal : profile.status ≠ 401 := by decide
  obtain ⟨hUser, hAdmin⟩ := silent_refresh_iff "/users/me" newPair hFirst hFinal
  exact ⟨(hUser _ _ newPair_refreshes.1).mpr (by decide),
    (hAdmin _ _ newPair_refreshes.2).mpr (by decide)⟩

/-- No caller can tell whether a refresh came before its response. -/
def Invisible (api : Api σ) (client : String → Bool → Program σ Result) : Prop :=
  ∀ (endpoint : String) (first pair final : Response) (s after : σ), first.status = 401 →
    final.status ≠ 401 → api.Refreshes pair s after →
    SameOnRetry client endpoint first pair final s after

def conflict : Response := ⟨409, "Conflict", some "application/json", some (.object [])⟩

def noContent : Response := ⟨204, "No Content", none, none⟩

/-- A conflict on the second try costs a user the tokens; an administrator who deletes a plan on it is
shown an error. -/
theorem retry_differs : ¬Invisible userApi apiClient ∧ ¬Invisible adminApi adminApiClient := by
  refine ⟨fun h => ?_, fun h => ?_⟩
  · have hSame := h "/tenants/current/invitations" unauthorized newPair conflict _ _ rfl (by decide)
      newPair_refreshes.1
    rw [apiClient_eq, Api.sameOnRetry_iff rfl (by decide) newPair_refreshes.1] at hSame
    exact absurd hSame (by decide)
  · have hSame := h "/admin/billing/plans/7" unauthorized newPair noContent _ _ rfl (by decide)
      newPair_refreshes.2
    rw [adminApiClient_eq, Api.sameOnRetry_iff rfl (by decide) newPair_refreshes.2] at hSame
    exact absurd hSame (by decide)

end WxcodeAdm.Frontend.Http
