import WxcodeAdm.Auth.Account
import WxcodeAdm.Lib.Commands
import WxcodeAdm.Lib.Interleaving
import WxcodeAdm.System

/-! Guesses at a verification code.  `verify_otp_code` reads the code, and counts or deletes with
commands of their own; `create_verification_code` stores the code and resets the counter with two.
Calls are followed here from command to command, each at the time at which it reaches Redis.  Where
wrong submissions overlap, or a new code is stored within one, the counter misses comparisons or
counts those with another code. -/

namespace WxcodeAdm

open Lib

/-! ### The commands of a call -/

/-- A call by the command that it sends next. -/
inductive OtpCall where
  | create (code : String)
  | resetAttempts (code : String)
  | startCooldown (code : String)
  | created (code : String)
  | verify (submitted : String)
  | deleteUsed
  | countWrong
  | deleteLocked
  | verified (valid : Bool)

namespace OtpCall

variable (userId : Uuid)

def next (now : Nat) (r : Redis) : OtpCall → Option (Redis × OtpCall)
  | create code =>
    some ({ r with otp := r.otp.set now userId code (seconds 600) }, resetAttempts code)
  | resetAttempts code =>
    some ({ r with otpAttempts := r.otpAttempts.set now userId 0 (seconds 600) },
      startCooldown code)
  | startCooldown code =>
    some ({ r with otpCooldown := r.otpCooldown.set now userId () (seconds 60) }, created code)
  | verify submitted =>
    match r.otp.get now userId with
    | none => some (r, verified false)
    | some stored => some (r, if submitted = stored then deleteUsed else countWrong)
  | deleteUsed =>
    some ({ r with otp := r.otp.del userId, otpAttempts := r.otpAttempts.del userId },
      verified true)
  | countWrong =>
    some ({ r with otpAttempts := r.otpAttempts.modify now userId 0 (· + 1) },
      if 3 ≤ (r.otpAttempts.get now userId).getD 0 + 1 then deleteLocked else verified false)
  | deleteLocked =>
    some ({ r with otp := r.otp.del userId, otpAttempts := r.otpAttempts.del userId },
      verified false)
  | created _ | verified _ => none

/-- What is left of the call, as the service functions have it. -/
def rest (c : Ctx) : OtpCall → App OtpCall
  | create code => do
    let code ← createVerificationCode { c with draws := { c.draws with otp := code } } userId
    return created code
  | resetAttempts code => do
    .store fun r => { r with otpAttempts := r.otpAttempts.set c.now userId 0 (seconds 600) }
    .store fun r => { r with otpCooldown := r.otpCooldown.set c.now userId () (seconds 60) }
    return created code
  | startCooldown code => do
    .store fun r => { r with otpCooldown := r.otpCooldown.set c.now userId () (seconds 60) }
    return created code
  | verify submitted => do
    let valid ← verifyOtpCode c userId submitted
    return verified valid
  | deleteUsed => do
    deleteOtp userId
    return verified true
  | countWrong => do
    let attempts ← countAttempt c userId
    if 3 ≤ attempts then
      deleteOtp userId
      return verified false
    else return verified false
  | deleteLocked => do
    deleteOtp userId
    return verified false
  | created code => return created code
  | verified valid => return verified valid

variable {userId} {c : Ctx} {w : World} {r : Redis} {call call' : OtpCall}

/-- Each command is the next statement of the service function, at the time of the command. -/
theorem next_statement (h : call.next userId c.now w.cache = some (r, call')) :
    (Thread.running id (call.rest userId c)).step Db.Valid .integrityError w =
      some ({ w with cache := r }, .running id (call'.rest userId c)) := by
  cases call with
  | create | resetAttempts | startCooldown | deleteUsed | deleteLocked => cases h; rfl
  | created | verified => cases h
  | countWrong =>
    obtain ⟨rfl, rfl⟩ := Prod.mk.inj (Option.some.inj h)
    rw [apply_ite (rest userId c)]
    rfl
  | verify submitted =>
    rw [rest, verifyOtpCode, bind_assoc, Thread.step_lookup_bind]
    unfold next at h
    cases hStored : w.cache.otp.get c.now userId with
    | none =>
      rw [hStored] at h
      cases h
      rfl
    | some stored =>
      rw [hStored] at h
      obtain ⟨rfl, rfl⟩ := Prod.mk.inj (Option.some.inj h)
      by_cases hSame : submitted = stored
      · rw [if_pos hSame, rest]
        simp only [hSame, if_true]
        rfl
      · rw [if_neg hSame, rest]
        simp only [hSame, if_false, bind_assoc]
        have hBranch (attempts : Nat) : ((if 3 ≤ attempts then do
            deleteOtp userId
            return false else return false : App Bool) >>= fun valid => pure (verified valid)) =
            if 3 ≤ attempts then do
              deleteOtp userId
              return verified false
            else return verified false := by
          split <;> rfl
        simp only [hBranch]

/-- The call stores its code next. -/
def isCreate : OtpCall → Bool
  | create _ => true
  | _ => false

/-- The call has yet to reset the counter for the code that it stored. -/
def isHalfStored : OtpCall → Bool
  | resetAttempts _ => true
  | _ => false

/-- The call has compared a wrong submission, and has yet to count it or to delete the code. -/
def isPending : OtpCall → Bool
  | countWrong | deleteLocked => true
  | _ => false

/-- The call has sent no command yet. -/
def AtStart (call : OtpCall) : Prop :=
  (∃ code, call = create code) ∨ ∃ submitted, call = verify submitted

end OtpCall

/-! ### What was compared with what -/

section Calls

variable {ι : Type} [DecidableEq ι]

/-- The calls for one user, on one Redis. -/
abbrev OtpCalls (ι : Type) : Type := Calls ι Redis OtpCall

/-- The call whose code was stored last, how many wrong submissions were compared with the code of
each call, and whose code each call was compared with. -/
structure OtpHistory (ι : Type) where
  code : Option ι := none
  wrong : ι → Nat := fun _ => 0
  comparedWith : ι → Option ι := fun _ => none

variable (userId : Uuid)

/-- The command is the GET of a wrong submission that finds a code. -/
def comparesWrong (step : OtpCalls ι × (ι × Nat)) : Bool :=
  match step.1.call step.2.1 with
  | .verify submitted => (step.1.store.otp.get step.2.2 userId).any fun stored => submitted ≠ stored
  | _ => false

def OtpHistory.after (h : OtpHistory ι) (step : OtpCalls ι × (ι × Nat)) : OtpHistory ι :=
  match step.1.call step.2.1 with
  | .create _ => { h with code := some step.2.1 }
  | .verify _ =>
    if comparesWrong userId step then
      { h with
        wrong := fun k => if h.code = some k then h.wrong k + 1 else h.wrong k
        comparedWith := Function.update h.comparedWith step.2.1 h.code }
    else h
  | _ => h

def otpHistory (steps : List (OtpCalls ι × (ι × Nat))) : OtpHistory ι :=
  steps.foldl (OtpHistory.after userId) {}

/-- A wrong submission is not counted, and deletes nothing, while another code is stored than the
one that it was compared with. -/
def SparesOthers (past : List (OtpCalls ι × (ι × Nat))) (step : OtpCalls ι × (ι × Nat)) : Prop :=
  (step.1.call step.2.1).isPending = true → step.1.store.otp.has step.2.2 userId = true →
    ∀ k, (otpHistory userId past).code = some k →
      (otpHistory userId past).comparedWith step.2.1 = some k

/-- A wrong submission is compared, and a code is stored, when no other wrong submission is pending;
and the former when no code is half stored. -/
def GuessesInTurn (step : OtpCalls ι × (ι × Nat)) : Prop :=
  (comparesWrong userId step = true → ∀ j, (step.1.call j).isPending = false ∧
    (step.1.call j).isHalfStored = false) ∧
  ((step.1.call step.2.1).isCreate = true → ∀ j, (step.1.call j).isPending = false)

variable {userId} {h : OtpHistory ι} {m m' : OtpCalls ι} {e : ι × Nat}
  {past steps : List (OtpCalls ι × (ι × Nat))} {step : OtpCalls ι × (ι × Nat)}

theorem otpHistory_snoc :
    otpHistory userId (past ++ [step]) = (otpHistory userId past).after userId step := by
  simp [otpHistory]

/-- Calls in turn, one at most with a wrong submission on its way, and none while a code is half
stored. -/
structure CallsInTurn (h : OtpHistory ι) (m : OtpCalls ι) : Prop where
  unstored : ∀ j code, m.call j = .create code → h.wrong j = 0 ∧ h.code ≠ some j
  alone : ∀ i j, (m.call i).isPending = true → (m.call j).isPending = true → i = j
  compared : ∀ i, (m.call i).isPending = true → h.comparedWith i = h.code
  halfStored : ∀ i j, (m.call j).isHalfStored = true → (m.call i).isPending = false
  fresh : ∀ j k, (m.call j).isHalfStored = true → h.code = some k → h.wrong k = 0

/-- The counter has the comparisons with the code that is stored, the one on its way apart. -/
structure GuessesCounted (userId : Uuid) (h : OtpHistory ι) (m : OtpCalls ι) : Prop
    extends CallsInTurn h m where
  bounded : ∀ k, h.wrong k ≤ 3
  expires : ∀ k, h.code = some k → ∀ t, m.store.otp.has t userId = true →
    t < m.now + seconds 600
  counted : ∀ k, h.code = some k → (∀ j, (m.call j).isHalfStored = false) →
    ∀ t, m.now ≤ t → m.store.otp.has t userId = true →
      ∃ n, m.store.otpAttempts.get t userId = some n ∧
        ((∀ i, (m.call i).isPending = false) → n = h.wrong k ∧ n < 3) ∧
        ∀ i, m.call i = .countWrong → n + 1 = h.wrong k

variable {i : ι} {now : Nat} {store : Redis} {next : OtpCall} {code : String}

/-- A call that does not come to compare a wrong submission or to store a code. -/
theorem CallsInTurn.after (hi : CallsInTurn h m) (hCreate : ∀ code, next ≠ .create code)
    (hPending : next.isPending = true → (m.call i).isPending = true)
    (hHalf : next.isHalfStored = true → (m.call i).isHalfStored = true) :
    CallsInTurn h (m.after i now store next) := by
  have hPendingBefore {j : ι} : ((m.after i now store next).call j).isPending = true →
      (m.call j).isPending = true :=
    Calls.of_after (P := fun c : OtpCall => c.isPending = true) hPending
  have hHalfBefore {j : ι} : ((m.after i now store next).call j).isHalfStored = true →
      (m.call j).isHalfStored = true :=
    Calls.of_after (P := fun c : OtpCall => c.isHalfStored = true) hHalf
  constructor
  · intro j code hj
    have hBefore := Calls.of_after (P := fun c : OtpCall => c = .create code)
      (fun hNext => absurd hNext (hCreate code)) hj
    exact hi.unstored j code hBefore
  · exact fun j j' hj hj' => hi.alone j j' (hPendingBefore hj) (hPendingBefore hj')
  · exact fun j hj => hi.compared j (hPendingBefore hj)
  · intro j j' hj'
    have hNot := hi.halfStored j j' (hHalfBefore hj')
    refine Bool.eq_false_iff.mpr fun hj => ?_
    rw [hPendingBefore hj] at hNot
    cases hNot
  · exact fun j k hj => hi.fresh j k (hHalfBefore hj)

namespace GuessesCounted

/-- A command that leaves the code and the counter. -/
theorem quiet (hi : GuessesCounted userId h m) (hNow : m.now ≤ now) (hOtp : store.otp = m.store.otp)
    (hAttempts : store.otpAttempts = m.store.otpAttempts) (hCall : (m.call i).isPending = false)
    (hHalf : (m.call i).isHalfStored = false) (hCreate : ∀ code, next ≠ .create code)
    (hPending : next.isPending = false) (hHalf' : next.isHalfStored = false) :
    GuessesCounted userId h (m.after i now store next) where
  toCallsInTurn := hi.toCallsInTurn.after hCreate (by simp [hPending]) (by simp [hHalf'])
  bounded := hi.bounded
  expires := fun k hk t ht => by
    have hBefore := hi.expires k hk t (hOtp ▸ ht)
    rw [Calls.after_now]
    omega
  counted := fun k hk hAll t ht hHas => by
    have hAllBefore (j : ι) : (m.call j).isHalfStored = false := by
      have hj := hAll j
      by_cases hSame : j = i
      · rw [hSame, hHalf]
      · rwa [Calls.after_call_other hSame] at hj
    obtain ⟨n, hn, hRest, hCount⟩ :=
      hi.counted k hk hAllBefore t (Nat.le_trans hNow ht) (hOtp ▸ hHas)
    refine ⟨n, by rw [Calls.after_store, hAttempts, hn], fun hNone => hRest fun j => ?_,
      fun j hj => hCount j ?_⟩
    · have hj := hNone j
      by_cases hSame : j = i
      · rw [hSame, hCall]
      · rwa [Calls.after_call_other hSame] at hj
    · refine Calls.of_after (P := fun c : OtpCall => c = .countWrong) (fun hNext => ?_) hj
      rw [hNext] at hPending
      cases hPending

/-- The SET of a code. -/
theorem stored (hi : GuessesCounted userId h m) (hCall : m.call i = .create code)
    (hNone : ∀ j, (m.call j).isPending = false) :
    GuessesCounted userId { h with code := some i } (m.after i now
      { m.store with otp := m.store.otp.set now userId code (seconds 600) }
      (.resetAttempts code)) := by
  have hNoneAfter (j : ι) {store : Redis} :
      ((m.after i now store (.resetAttempts code)).call j).isPending = false := by
    by_cases hj : j = i
    · rw [hj, Calls.after_call_same]
      rfl
    · rw [Calls.after_call_other hj, hNone j]
  refine ⟨⟨fun j code' hj => ?_, fun j _ hj => ?_, fun j hj => ?_, fun j _ _ => hNoneAfter j,
    fun _ k _ hk => ?_⟩, hi.bounded, fun k _ t ht => ?_, fun k _ hAll => ?_⟩
  · have hBefore := Calls.of_after (P := fun c : OtpCall => c = .create code') (by simp) hj
    refine ⟨(hi.unstored j code' hBefore).1, fun hSame => ?_⟩
    rw [← Option.some.inj hSame, Calls.after_call_same] at hj
    cases hj
  · rw [hNoneAfter j] at hj
    cases hj
  · rw [hNoneAfter j] at hj
    cases hj
  · rw [← Option.some.inj hk]
    exact (hi.unstored i code hCall).1
  · simpa [Expiring.has_set_same] using ht
  · have hNot := hAll i
    rw [Calls.after_call_same] at hNot
    cases hNot

/-- The SET of the counter to 0. -/
theorem reset (hi : GuessesCounted userId h m) (hNow : m.now ≤ now)
    (hCall : m.call i = .resetAttempts code) :
    GuessesCounted userId h (m.after i now
      { m.store with otpAttempts := m.store.otpAttempts.set now userId 0 (seconds 600) }
      (.startCooldown code)) where
  toCallsInTurn := hi.toCallsInTurn.after (by simp) (by simp [OtpCall.isPending])
    (by simp [OtpCall.isHalfStored])
  bounded := hi.bounded
  expires := fun k hk t ht => by
    have hBefore := hi.expires k hk t ht
    rw [Calls.after_now]
    omega
  counted := fun k hk _ t ht hHas => by
    have hHalf : (m.call i).isHalfStored = true := by rw [hCall]; rfl
    have hExpires := hi.expires k hk t hHas
    refine ⟨0, ?_, fun _ => ⟨(hi.fresh i k hHalf hk).symm, by decide⟩, fun j hj => ?_⟩
    · rw [Calls.after_store, Expiring.get_set_same, if_pos (by omega)]
    · have hBefore := Calls.of_after (P := fun c : OtpCall => c = .countWrong) (by simp) hj
      have hNot := hi.halfStored j i hHalf
      rw [hBefore] at hNot
      cases hNot

/-- The GET of a wrong submission. -/
theorem missed (hi : GuessesCounted userId h m) (hNow : m.now ≤ now)
    (hStored : m.store.otp.has now userId = true)
    (hTurn : ∀ j, (m.call j).isPending = false ∧ (m.call j).isHalfStored = false) :
    GuessesCounted userId
      { h with
        wrong := fun k => if h.code = some k then h.wrong k + 1 else h.wrong k
        comparedWith := Function.update h.comparedWith i h.code }
      (m.after i now m.store .countWrong) := by
  have hCount {k : ι} (hk : h.code = some k) {t : Nat} (ht : m.now ≤ t)
      (hHas : m.store.otp.has t userId = true) :
      m.store.otpAttempts.get t userId = some (h.wrong k) ∧ h.wrong k < 3 := by
    obtain ⟨n, hn, hRest, -⟩ := hi.counted k hk (fun j => (hTurn j).2) t ht hHas
    obtain ⟨rfl, hBound⟩ := hRest fun j => (hTurn j).1
    exact ⟨hn, hBound⟩
  have hOnly {j : ι} (hj : ((m.after i now m.store .countWrong).call j).isPending = true) :
      j = i := by
    by_contra hne
    rw [Calls.after_call_other hne, (hTurn j).1] at hj
    cases hj
  refine ⟨⟨fun j code hj => ?_, fun j j' hj hj' => (hOnly hj).trans (hOnly hj').symm,
    fun j hj => ?_, fun j j' hj' => ?_, fun j k hj => ?_⟩, fun k => ?_, fun k hk t ht => ?_,
    fun k hk _ t ht hHas => ?_⟩
  · have hBefore := Calls.of_after (P := fun c : OtpCall => c = .create code) (by simp) hj
    obtain ⟨hZero, hNot⟩ := hi.unstored j code hBefore
    exact ⟨(if_neg hNot).trans hZero, hNot⟩
  · rw [hOnly hj]
    exact Function.update_self ..
  · have hBefore := Calls.of_after (P := fun c : OtpCall => c.isHalfStored = true)
      (by simp [OtpCall.isHalfStored]) hj'
    rw [(hTurn j').2] at hBefore
    cases hBefore
  · have hBefore := Calls.of_after (P := fun c : OtpCall => c.isHalfStored = true)
      (by simp [OtpCall.isHalfStored]) hj
    rw [(hTurn j).2] at hBefore
    cases hBefore
  · have hOld := hi.bounded k
    dsimp only
    split
    · have hBound := (hCount ‹_› hNow hStored).2
      omega
    · exact hOld
  · have hBefore := hi.expires k hk t ht
    rw [Calls.after_now]
    omega
  · refine ⟨h.wrong k, (hCount hk (Nat.le_trans hNow ht) hHas).1, fun hNone => ?_, fun _ _ => ?_⟩
    · have hNot := hNone i
      rw [Calls.after_call_same] at hNot
      cases hNot
    · exact (if_pos hk).symm

/-- The DEL of both keys. -/
theorem deleted (hi : GuessesCounted userId h m) {valid : Bool} :
    GuessesCounted userId h (m.after i now
      { m.store with
        otp := m.store.otp.del userId
        otpAttempts := m.store.otpAttempts.del userId } (.verified valid)) where
  toCallsInTurn := hi.toCallsInTurn.after (by simp) (by simp [OtpCall.isPending])
    (by simp [OtpCall.isHalfStored])
  bounded := hi.bounded
  expires := fun k _ t ht => by
    rw [Calls.after_store, Expiring.has, Expiring.get_del_same] at ht
    cases ht
  counted := fun k _ _ t _ hHas => by
    rw [Calls.after_store, Expiring.has, Expiring.get_del_same] at hHas
    cases hHas

/-- The INCR of a wrong submission. -/
theorem incremented (hi : GuessesCounted userId h m) (hNow : m.now ≤ now)
    (hCall : m.call i = .countWrong) :
    GuessesCounted userId h (m.after i now
      { m.store with otpAttempts := m.store.otpAttempts.modify now userId 0 (· + 1) }
      (if 3 ≤ (m.store.otpAttempts.get now userId).getD 0 + 1 then .deleteLocked
        else .verified false)) := by
  have hPending : (m.call i).isPending = true := by rw [hCall]; rfl
  refine ⟨hi.toCallsInTurn.after ?_ (fun _ => hPending) ?_, hi.bounded, fun k hk t ht => ?_,
    fun k hk hAll t ht hHas => ?_⟩
  · intro code
    split <;> simp
  · split <;> simp [OtpCall.isHalfStored]
  · have hBefore := hi.expires k hk t ht
    rw [Calls.after_now]
    omega
  · have hFull (j : ι) : (m.call j).isHalfStored = false := by
      refine Bool.eq_false_iff.mpr fun hj => ?_
      rw [hi.halfStored i j hj] at hPending
      cases hPending
    have hHasNow : m.store.otp.has now userId = true := Expiring.has_antitone hHas ht
    obtain ⟨n, hn, -, hCount⟩ := hi.counted k hk hFull now hNow hHasNow
    obtain ⟨n', hn', -, hCount'⟩ := hi.counted k hk hFull t (Nat.le_trans hNow ht) hHas
    have hTotal := hCount i hCall
    have hTotal' := hCount' i hCall
    refine ⟨n' + 1, ?_, fun hNone => ⟨hTotal', ?_⟩, fun j hj => ?_⟩
    · rw [Calls.after_store, Expiring.get_modify_live hn, hn', Option.map_some]
    · have hNot := hNone i
      rw [Calls.after_call_same, hn, Option.getD_some] at hNot
      split at hNot
      · cases hNot
      · omega
    · have hBefore : m.call j = .countWrong := by
        refine Calls.of_after (P := fun c : OtpCall => c = .countWrong) (fun hNext => ?_) hj
        split at hNext <;> cases hNext
      have hSame := hi.alone j i (by rw [hBefore]; rfl) hPending
      rw [hSame, Calls.after_call_same] at hj
      split at hj <;> cases hj

/-- Every command of calls in turn keeps the count. -/
theorem command (hi : GuessesCounted userId h m) (hTurn : GuessesInTurn userId (m, e))
    (hStep : m.Step (OtpCall.next userId) e m') :
    GuessesCounted userId (h.after userId (m, e)) m' := by
  obtain ⟨hNow, store, call, hNext, rfl⟩ := Calls.step_some hStep
  obtain ⟨i, now⟩ := e
  unfold OtpHistory.after
  dsimp only at hNow hNext ⊢
  cases hCall : m.call i with
  | create code =>
    rw [hCall] at hNext
    cases hNext
    exact hi.stored hCall (hTurn.2 (by rw [hCall]; rfl))
  | resetAttempts code =>
    rw [hCall] at hNext
    cases hNext
    exact hi.reset hNow hCall
  | startCooldown code =>
    rw [hCall] at hNext
    cases hNext
    exact hi.quiet hNow rfl rfl (by rw [hCall]; rfl) (by rw [hCall]; rfl) (by simp) rfl rfl
  | verify submitted =>
    rw [hCall] at hNext
    have hCallPending : (m.call i).isPending = false := by rw [hCall]; rfl
    have hCallHalf : (m.call i).isHalfStored = false := by rw [hCall]; rfl
    have hCompares : comparesWrong userId (m, i, now) =
        (m.store.otp.get now userId).any fun stored => submitted ≠ stored := by
      simp only [comparesWrong, hCall]
    dsimp only
    cases hStored : m.store.otp.get now userId with
    | none =>
      rw [OtpCall.next, hStored] at hNext
      cases hNext
      rw [if_neg (by simp [hCompares, hStored])]
      exact hi.quiet hNow rfl rfl hCallPending hCallHalf (by simp) rfl rfl
    | some stored =>
      rw [OtpCall.next, hStored] at hNext
      obtain ⟨rfl, rfl⟩ := Prod.mk.inj (Option.some.inj hNext)
      by_cases hSame : submitted = stored
      · rw [if_neg (by simp [hCompares, hStored, hSame]), if_pos hSame]
        exact hi.quiet hNow rfl rfl hCallPending hCallHalf (by simp) rfl rfl
      · have hWrong : comparesWrong userId (m, i, now) = true := by
          simp [hCompares, hStored, hSame]
        rw [if_pos hWrong, if_neg hSame]
        exact hi.missed hNow (by rw [Expiring.has, hStored]; rfl) (hTurn.1 hWrong)
  | deleteUsed | deleteLocked =>
    rw [hCall] at hNext
    cases hNext
    exact hi.deleted
  | countWrong =>
    rw [hCall] at hNext
    cases hNext
    exact hi.incremented hNow hCall
  | created | verified =>
    rw [hCall] at hNext
    cases hNext

end GuessesCounted

/-- Before the first command. -/
theorem guessesCounted_start (hStart : ∀ i, (m.call i).AtStart) :
    GuessesCounted userId (otpHistory userId []) m := by
  have hPending (i : ι) : (m.call i).isPending = false := by
    rcases hStart i with ⟨code, h⟩ | ⟨submitted, h⟩ <;> rw [h] <;> rfl
  have hHalf (i : ι) : (m.call i).isHalfStored = false := by
    rcases hStart i with ⟨code, h⟩ | ⟨submitted, h⟩ <;> rw [h] <;> rfl
  refine ⟨⟨fun _ _ _ => ⟨rfl, nofun⟩, fun i _ hi => ?_, fun i hi => ?_, fun i _ _ => hPending i,
    fun _ _ _ => nofun⟩, fun _ => Nat.zero_le 3, fun _ => nofun, fun _ => nofun⟩
  · rw [hPending i] at hi
    cases hi
  · rw [hPending i] at hi
    cases hi

/-- Any number of calls for one user, in any order of their commands in which a wrong submission is
compared while no other is pending and no code is half stored, and a code is stored while none is
pending: at most three wrong submissions are compared with the code of any call, and none is
counted, or deletes a code, while another code than its own is stored. -/
theorem otp_guesses_bounded (hStart : ∀ i, (m.call i).AtStart)
    (hRun : Run (Calls.Step (OtpCall.next userId)) m steps m')
    (hTurn : ∀ step ∈ steps, GuessesInTurn userId step) :
    (∀ k, (otpHistory userId steps).wrong k ≤ 3) ∧ AtEach (SparesOthers userId) steps := by
  suffices hInv : GuessesCounted userId (otpHistory userId steps) m' ∧
      AtEach (SparesOthers userId) steps from ⟨hInv.1.bounded, hInv.2⟩
  induction hRun with
  | nil => exact ⟨guessesCounted_start hStart, atEach_nil⟩
  | @snoc steps m₁ m₂ e hRun hStep ih =>
    obtain ⟨hInv, hSpares⟩ := ih fun step hs => hTurn step (List.mem_append_left _ hs)
    rw [otpHistory_snoc, atEach_snoc]
    refine ⟨hInv.command (hTurn (m₁, e) (by simp)) hStep, hSpares, fun hPending _ k hk => ?_⟩
    rw [hInv.compared e.1 hPending, hk]

end Calls

/-! ### Guesses side by side and one after the other -/

def guessedUser : Uuid := ⟨1⟩

/-- A sign-up, and four guesses. -/
def guesses : OtpCalls (Fin 5) :=
  ⟨{}, 0, fun i => if i = 0 then .create "482913" else .verify "000000"⟩

/-- A sign-up, a guess, and a change of the address that sends another code. -/
def renewal : OtpCalls (Fin 3) :=
  ⟨{}, 0, fun i => if i = 0 then .create "482913" else if i = 1 then .verify "000000"
    else .create "771204"⟩

/-- The commands of these calls, a second apart. -/
def eachSecond {ι : Type} (calls : List ι) : List (ι × Nat) :=
  calls.zipIdx.map fun call => (call.1, seconds call.2)

def guessesAtOnce : List (OtpCalls (Fin 5) × (Fin 5 × Nat)) × OtpCalls (Fin 5) :=
  guesses.trace (OtpCall.next guessedUser) (eachSecond [0, 0, 0, 1, 2, 3, 4])

def guessesInTurn : List (OtpCalls (Fin 5) × (Fin 5 × Nat)) × OtpCalls (Fin 5) :=
  guesses.trace (OtpCall.next guessedUser) (eachSecond [0, 0, 0, 1, 1, 2, 2, 3, 3, 3, 4])

def renewalWithin : List (OtpCalls (Fin 3) × (Fin 3 × Nat)) × OtpCalls (Fin 3) :=
  renewal.trace (OtpCall.next guessedUser) (eachSecond [0, 0, 0, 1, 2, 2, 2, 1])

theorem guesses_start (i : Fin 5) : (guesses.call i).AtStart := by
  by_cases hi : i = 0
  · exact .inl ⟨_, if_pos hi⟩
  · exact .inr ⟨_, if_neg hi⟩

theorem renewal_start (i : Fin 3) : (renewal.call i).AtStart := by
  match i with
  | 0 => exact .inl ⟨_, rfl⟩
  | 1 => exact .inr ⟨_, rfl⟩
  | 2 => exact .inl ⟨_, rfl⟩

/-- Four guesses that all read the code before the first is counted are compared with it; and a
guess that was compared with an older code counts against the newer one. -/
theorem otp_guesses_unbounded :
    (¬∀ (ι : Type) (_ : DecidableEq ι) (userId : Uuid) (m m' : OtpCalls ι)
        (steps : List (OtpCalls ι × (ι × Nat))), (∀ i, (m.call i).AtStart) →
        Run (Calls.Step (OtpCall.next userId)) m steps m' →
        ∀ k, (otpHistory userId steps).wrong k ≤ 3) ∧
      ¬∀ (ι : Type) (_ : DecidableEq ι) (userId : Uuid) (m m' : OtpCalls ι)
        (steps : List (OtpCalls ι × (ι × Nat))), (∀ i, (m.call i).AtStart) →
        Run (Calls.Step (OtpCall.next userId)) m steps m' →
        AtEach (SparesOthers userId) steps := by
  constructor
  · intro hClaim
    have hBound : (otpHistory guessedUser guessesAtOnce.1).wrong 0 ≤ 3 :=
      hClaim (Fin 5) _ guessedUser guesses _ _ guesses_start (Calls.run_trace _ guesses) 0
    have hFour : (otpHistory guessedUser guessesAtOnce.1).wrong 0 = 4 := by decide
    omega
  · intro hClaim
    have hSpares : AtEach (SparesOthers guessedUser) renewalWithin.1 :=
      hClaim (Fin 3) _ guessedUser renewal _ _ renewal_start (Calls.run_trace _ renewal)
    have hOther := atEach_iff.mp hSpares ⟨7, by decide⟩ (by decide) (by decide) 2 (by decide)
    exact absurd hOther (by decide)

/-- The law at three guesses one after the other, and a fourth that finds no code. -/
theorem otp_guesses_bounded_inTurn :
    (∀ k, (otpHistory guessedUser guessesInTurn.1).wrong k ≤ 3) ∧
      AtEach (SparesOthers guessedUser) guessesInTurn.1 :=
  otp_guesses_bounded guesses_start (Calls.run_trace _ guesses)
    (by unfold GuessesInTurn; decide)

end WxcodeAdm
