import Subspace.Client.Session
set_option autoImplicit false

/-!
# Client: the poll descriptor of a publisher

`Client::GetPollFd(Publisher*)` keeps its `pollfd` in a function-static
variable, set once to `{fd = -1, events = POLLIN}`.  A reliable publisher
overwrites it with its own poll fd and returns it; an unreliable one returns it
as it is.  The static is shared by every call in the process, so the model
passes it in and out of each call (`getPollFd`), and `pollStatic` is its value
after a history of calls.

What an unreliable publisher gets is the fd of the last reliable publisher
queried before it, and `{-1, POLLIN}` only when there was none
(`getPollFd_after`); two histories that differ only in one earlier call give
it different results (`getPollFd_unreliable_depends_on_history`).
`Client::GetPollFd(Subscriber*)` builds its `pollfd` afresh and keeps nothing;
it is left out.
-/

namespace Subspace

/-- `struct pollfd` as `GetPollFd` fills it: the descriptor and the requested
events (`revents` is never read). -/
structure PollFd where
  fd : Int
  events : Int
  deriving DecidableEq, Repr

/-- `POLLIN`. -/
def pollIn : Int := 1

/-- What `GetPollFd` reads of a publisher: `IsReliable()` and the descriptor of
its `GetPollFd()`. -/
structure PublisherPoll where
  reliable : Bool
  pollFd : Int
  deriving DecidableEq, Repr

/-- The function-static `fd` of `GetPollFd(Publisher*)` before its first call. -/
def initialPollFd : PollFd := ⟨-1, pollIn⟩

/-- `Client::GetPollFd(Publisher*)`, with its function-static `fd` passed in:
the static after the call, and the result. -/
def getPollFd (static : PollFd) (publisher : PublisherPoll) : PollFd × PollFd :=
  if !publisher.reliable then (static, static)
  else
    let fd : PollFd := ⟨publisher.pollFd, pollIn⟩
    (fd, fd)

/-- The static after a history of calls, oldest first. -/
def pollStatic (history : List PublisherPoll) : PollFd :=
  history.foldl (fun static p => (getPollFd static p).1) initialPollFd

/-- The poll fd of the last reliable publisher of a history, if any. -/
def lastReliableFd (history : List PublisherPoll) : Option Int :=
  ((history.filter (·.reliable)).getLast?).map (·.pollFd)

/-! ## One call -/

@[simp] theorem getPollFd_snd (static : PollFd) (p : PublisherPoll) :
    (getPollFd static p).2 = (getPollFd static p).1 := by
  unfold getPollFd; split <;> rfl

theorem getPollFd_fst (static : PollFd) (p : PublisherPoll) :
    (getPollFd static p).1 = if p.reliable then ⟨p.pollFd, pollIn⟩ else static := by
  cases h : p.reliable <;> simp [getPollFd, h]

/-! ## Any history of calls -/

/-- A later reliable publisher takes the place of every earlier one. -/
theorem lastReliableFd_cons (p : PublisherPoll) (rest : List PublisherPoll) :
    lastReliableFd (p :: rest) =
      (lastReliableFd rest).or (if p.reliable then some p.pollFd else none) := by
  unfold lastReliableFd
  cases h : p.reliable <;> cases hl : (rest.filter (·.reliable)).getLast? <;>
    simp [List.filter_cons, h, hl, List.getLast?_cons]

/-- From any static, a history leaves the fd of its last reliable publisher,
and the static as it was when it has none. -/
theorem foldl_getPollFd (history : List PublisherPoll) (static : PollFd) :
    history.foldl (fun static p => (getPollFd static p).1) static =
      match lastReliableFd history with
      | none => static
      | some fd => ⟨fd, pollIn⟩ := by
  induction history generalizing static with
  | nil => rfl
  | cons p rest ih =>
    rw [List.foldl_cons, ih, getPollFd_fst, lastReliableFd_cons]
    cases lastReliableFd rest <;> cases p.reliable <;> rfl

/-- What `GetPollFd(p)` returns after any history of earlier calls: `p`'s fd
when `p` is reliable; otherwise the fd of the last reliable publisher queried
before, and -1 only when there was none. -/
theorem getPollFd_after (history : List PublisherPoll) (p : PublisherPoll) :
    (getPollFd (pollStatic history) p).2 =
      if p.reliable then ⟨p.pollFd, pollIn⟩ else ⟨(lastReliableFd history).getD (-1), pollIn⟩ := by
  rw [getPollFd_snd, getPollFd_fst, pollStatic, foldl_getPollFd]
  cases lastReliableFd history <;> rfl

/-- For every unreliable publisher and every reliable one with poll fd `fd`:
in a fresh process `GetPollFd` of the unreliable publisher returns
`{-1, POLLIN}`, and after one call on the reliable publisher it returns
`{fd, POLLIN}`. -/
theorem getPollFd_unreliable_depends_on_history (pollFd fd : Int) :
    (getPollFd (pollStatic []) ⟨false, pollFd⟩).2 = ⟨-1, pollIn⟩ ∧
      (getPollFd (pollStatic [⟨true, fd⟩]) ⟨false, pollFd⟩).2 = ⟨fd, pollIn⟩ := by
  simp only [getPollFd_after, lastReliableFd_cons, Bool.false_eq_true, if_false, if_true]
  exact ⟨rfl, rfl⟩

end Subspace
