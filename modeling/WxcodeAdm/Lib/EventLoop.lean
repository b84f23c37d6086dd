import Mathlib.Logic.Function.Basic
import WxcodeAdm.Lib.Run

/-! Tasks of one thread.  They share variables, and each runs until it awaits something outside;
then another one whose request has been answered goes on.  `Follows` gives the points at which a
program can wait, so that an invariant can speak of these. -/

namespace WxcodeAdm.Lib

/-- A program that reads and writes shared variables (`read`, `write`) and hands a request out to
wait for its answer (`await`). -/
inductive Async (σ κ β α : Type) : Type where
  | ret (a : α)
  | read (k : σ → Async σ κ β α)
  | write (f : σ → σ) (k : Async σ κ β α)
  | await (q : κ) (k : β → Async σ κ β α)

namespace Async

variable {σ κ β α γ π : Type}

def bind : Async σ κ β α → (α → Async σ κ β γ) → Async σ κ β γ
  | ret a, next => next a
  | read k, next => read fun s => (k s).bind next
  | write f k, next => write f (k.bind next)
  | await q k, next => await q fun b => (k b).bind next

instance : Monad (Async σ κ β) where
  pure := ret
  bind := bind

def get (f : σ → α) : Async σ κ β α := read fun s => ret (f s)

def modify (f : σ → σ) : Async σ κ β Unit := write f (ret ())

def ask (q : κ) : Async σ κ β β := await q ret

/-- Runs a program up to its next request, or to its end. -/
def settle : Async σ κ β α → σ → σ × Async σ κ β α
  | ret a, s => (s, ret a)
  | read k, s => (k s).settle s
  | write f k, s => k.settle (f s)
  | await q k, s => (s, await q k)

def request : Async σ κ β α → Option κ
  | await q _ => some q
  | _ => none

def isDone : Async σ κ β α → Bool
  | ret _ => true
  | _ => false

def answered (b : β) : Async σ κ β α → Async σ κ β α
  | await _ k => k b
  | p => p

/-- Runs a program that is alone with its variables on answers that arrive in order.  Answers that it
does not wait for are left. -/
def play : Async σ κ β α → List β → σ → Option (α × σ × List β)
  | ret a, answers, s => some (a, s, answers)
  | read k, answers, s => (k s).play answers s
  | write f k, answers, s => k.play answers (f s)
  | await _ k, b :: answers, s => (k b).play answers s
  | await _ _, [], _ => none

theorem play_bind (p : Async σ κ β α) (next : α → Async σ κ β γ) (answers : List β) (s : σ) :
    (p >>= next).play answers s = (p.play answers s).bind fun r => (next r.1).play r.2.2 r.2.1 := by
  change (p.bind next).play answers s = _
  induction p generalizing answers s with
  | ret a => rfl
  | read k ih => exact ih s answers s
  | write f k ih => exact ih answers (f s)
  | await q k ih =>
    cases answers with
    | nil => rfl
    | cons b answers => exact ih b answers s

theorem play_append {p : Async σ κ β α} {answers left : List β} {s s' : σ} {a : α}
    (h : p.play answers s = some (a, s', left)) (more : List β) :
    p.play (answers ++ more) s = some (a, s', left ++ more) := by
  induction p generalizing answers s with
  | ret a =>
    cases h
    rfl
  | read k ih => exact ih s h
  | write f k ih => exact ih h
  | await q k ih =>
    cases answers with
    | nil => cases h
    | cons b answers => exact ih b h

/-- `program` gives what is left of a program at each of its points, and `next` the point and the
variables that an answer leads to. -/
def Follows (program : π → Async σ κ β α) (next : π → β → σ → σ × π) : Prop :=
  ∀ p b s, ((program p).answered b).settle s = ((next p b s).1, program (next p b s).2)

end Async

/-- Tasks with their variables, the server that they talk to, and the answers that have arrived. -/
structure EventLoop (ι σ ω κ β α : Type) where
  shared : σ
  server : ω
  task : ι → Async σ κ β α
  inbox : ι → Option β

namespace EventLoop

variable {ι σ ω κ β α π : Type}

inductive Event (ι β : Type) where
  | answer (i : ι) (b : β)
  | resume (i : ι)

variable [DecidableEq ι]

/-- Task `i` goes on with its answer. -/
def resumed (l : EventLoop ι σ ω κ β α) (i : ι) : Option (EventLoop ι σ ω κ β α) :=
  match (l.task i).request, l.inbox i with
  | some _, some b =>
    let settled := ((l.task i).answered b).settle l.shared
    some { l with
      shared := settled.1
      task := Function.update l.task i settled.2
      inbox := Function.update l.inbox i none }
  | _, _ => none

/-- The server answers an open request, or a task goes on. -/
inductive Step (answers : ω → κ → β → ω → Prop) (l : EventLoop ι σ ω κ β α) :
    Event ι β → EventLoop ι σ ω κ β α → Prop
  | answer {i : ι} {b : β} {q : κ} {server : ω} (hRequest : (l.task i).request = some q)
      (hOpen : l.inbox i = none) (hAnswer : answers l.server q b server) :
      Step answers l (.answer i b) { l with server, inbox := Function.update l.inbox i (some b) }
  | resume {i : ι} {l' : EventLoop ι σ ω κ β α} (h : l.resumed i = some l') :
      Step answers l (.resume i) l'

variable {l l' : EventLoop ι σ ω κ β α} {i : ι}

theorem resumed_some : l.resumed i = some l' ↔ ∃ q b, (l.task i).request = some q ∧
    l.inbox i = some b ∧ l' = { l with
      shared := (((l.task i).answered b).settle l.shared).1
      task := Function.update l.task i (((l.task i).answered b).settle l.shared).2
      inbox := Function.update l.inbox i none } := by
  unfold resumed
  cases hRequest : (l.task i).request with
  | none => simp
  | some q =>
    cases hInbox : l.inbox i with
    | none => simp
    | some b => simp [eq_comm]

/-- Every task is at its point. -/
def Tracks (program : ι → π → Async σ κ β α) (points : ι → π) (l : EventLoop ι σ ω κ β α) : Prop :=
  ∀ i, l.task i = program i (points i)

/-- A task that goes on moves to the next point. -/
theorem Tracks.resumed {program : ι → π → Async σ κ β α} {next : ι → π → β → σ → σ × π}
    {points : ι → π} (h : Tracks program points l)
    (hFollows : ∀ i, Async.Follows (program i) (next i)) (hResumed : l.resumed i = some l') :
    ∃ b, l.inbox i = some b ∧ l'.shared = (next i (points i) b l.shared).1 ∧
      l'.server = l.server ∧ l'.inbox = Function.update l.inbox i none ∧
      Tracks program (Function.update points i (next i (points i) b l.shared).2) l' := by
  obtain ⟨q, b, -, hInbox, rfl⟩ := resumed_some.mp hResumed
  have hNext := hFollows i (points i) b l.shared
  rw [← h i] at hNext
  refine ⟨b, hInbox, by rw [hNext], rfl, rfl, fun j => ?_⟩
  by_cases hj : j = i
  · subst hj
    simp [hNext]
  · simp [hj, h j]

end EventLoop

end WxcodeAdm.Lib
