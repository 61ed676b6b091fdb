/-
**The refresh worker.**

A worker refreshes an index in the background. Clients put messages into its queue: to refresh, with or
without waiting for the outcome, or to stop. The worker takes a message, then takes all that are in the
queue by then, refreshes once for all of them and replies to those who wait. A stop among them ends the
worker behind that refresh, and so does an empty queue that no client is left to fill.

* `Worker.step`: the smallest step of a worker;
* `Worker.settle`: a worker's steps up to the point where it waits for the next message.
-/

namespace ArtifactIndex

/-- What a client asks of a worker. -/
inductive Message where
  /-- To refresh; a client that waits is named. -/
  | refresh (waiter : Option Nat)
  | stop
deriving Repr, DecidableEq

/-- What a worker is doing. -/
inductive Phase (Result : Type) where
  /-- Waiting for a message. -/
  | idle
  /-- Taking the messages that are in the queue. -/
  | gathering (waiters : List Nat)
  /-- About to refresh, and then perhaps to stop. -/
  | refreshing (waiters : List Nat) (stopping : Bool)
  /-- Telling the outcome to those who wait. -/
  | replying (result : Result) (waiters : List Nat) (stopping : Bool)
  | stopped
deriving Repr, DecidableEq

/-- A worker on some state that it refreshes. -/
structure Worker (State Result : Type) where
  state : State
  /-- The messages not taken yet, the oldest first. -/
  queue : List Message
  phase : Phase Result
  /-- The replies given, the oldest first. -/
  replies : List (Nat × Result)
  /-- The number of refreshes made. -/
  refreshes : Nat
  /-- No client is left who could put a message into the queue. -/
  abandoned : Bool

namespace Worker

variable {State Result : Type}

/-- A worker that waits for its first message. -/
def start (state : State) : Worker State Result :=
  { state, queue := [], phase := .idle, replies := [], refreshes := 0, abandoned := false }

/-- The worker with a further message in its queue. -/
def enqueue (worker : Worker State Result) (message : Message) : Worker State Result :=
  { worker with queue := worker.queue ++ [message] }

/-- The worker behind its next step. One that waits for a message which can still come, or has stopped,
stays as it is. -/
def step (refresh : State → State × Result) (worker : Worker State Result) : Worker State Result :=
  match worker.phase with
  | .idle =>
    match worker.queue with
    | [] => if worker.abandoned then { worker with phase := .stopped } else worker
    | .refresh waiter :: rest => { worker with queue := rest, phase := .gathering waiter.toList }
    | .stop :: rest => { worker with queue := rest, phase := .stopped }
  | .gathering waiters =>
    match worker.queue with
    | [] => { worker with phase := .refreshing waiters worker.abandoned }
    | .refresh waiter :: rest =>
      { worker with queue := rest, phase := .gathering (waiters ++ waiter.toList) }
    | .stop :: rest => { worker with queue := rest, phase := .refreshing waiters true }
  | .refreshing waiters stopping =>
    let (state, result) := refresh worker.state
    { worker with
      state, phase := .replying result waiters stopping, refreshes := worker.refreshes + 1 }
  | .replying result (waiter :: rest) stopping =>
    { worker with
      phase := .replying result rest stopping, replies := worker.replies ++ [(waiter, result)] }
  | .replying _ [] stopping => { worker with phase := if stopping then .stopped else .idle }
  | .stopped => worker

/-- The worker behind a number of steps. -/
def steps (refresh : State → State × Result) : Nat → Worker State Result → Worker State Result
  | 0, worker => worker
  | count + 1, worker => steps refresh count (worker.step refresh)

/-- An idle worker behind all the steps for the messages in its queue: at most a step to take each
message, one to reply to it, and three more for each refresh. -/
def settle (refresh : State → State × Result) (worker : Worker State Result) : Worker State Result :=
  worker.steps refresh (5 * worker.queue.length + 5)

/-- The reply to a client. -/
def replyTo? (worker : Worker State Result) (waiter : Nat) : Option Result :=
  worker.replies.lookup waiter

end Worker

end ArtifactIndex
