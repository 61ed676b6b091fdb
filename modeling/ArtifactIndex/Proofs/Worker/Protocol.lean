/-
**What the clients of a worker can rely on.**

Clients put messages into a worker's queue between any two of its steps, what it refreshes changes under
its hands, and at some point no client may be left. The worker folds all requests it finds into one
refresh, so that it is not clear that each client is answered, answered once, and answered by a refresh
that knows of its request.

* `Books.step`: one step of the worker keeps the books on what was taken, answered and refreshed;
* `Current.step`: one step answers only with refreshes that began behind the requests they answer;
* `follows_protocol`: what this comes to for every interleaving of clients and worker.

A reply is matched with its request by its place: the requests of those who wait are answered in the
order in which they were sent.
-/

import ArtifactIndex.Worker
import Mathlib.Data.List.Infix

namespace ArtifactIndex

namespace Message

/-- The client that waits for the outcome. -/
def waiter? : Message → Option Nat
  | .refresh waiter => waiter
  | .stop => none

/-- The message asks for a refresh. -/
def isRefresh : Message → Bool
  | .refresh _ => true
  | .stop => false

end Message

/-- The clients that wait for a reply, in the order of their messages. -/
def waitersOf (messages : List Message) : List Nat := messages.filterMap Message.waiter?

@[simp]
theorem waitersOf_append (left right : List Message) :
    waitersOf (left ++ right) = waitersOf left ++ waitersOf right := List.filterMap_append

@[simp]
theorem waitersOf_refresh (waiter : Option Nat) : waitersOf [.refresh waiter] = waiter.toList := by
  cases waiter with
  | none => rfl
  | some waiter => rfl

@[simp]
theorem waitersOf_stop : waitersOf [.stop] = [] := rfl

namespace Phase

variable {Result : Type}

/-- The clients whose messages were taken and who have no reply yet. -/
def waiters : Phase Result → List Nat
  | .idle => []
  | .gathering waiters => waiters
  | .refreshing waiters _ => waiters
  | .replying _ waiters _ => waiters
  | .stopped => []

/-- No further message will be taken. -/
def isEnding : Phase Result → Bool
  | .refreshing _ stopping => stopping
  | .replying _ _ stopping => stopping
  | .stopped => true
  | _ => false

/-- The refreshes that messages already taken still ask for. -/
def due : Phase Result → Nat
  | .gathering _ => 1
  | .refreshing _ _ => 1
  | _ => 0

end Phase

namespace Worker

variable {State Result : Type} {refresh : State → State × Result} {worker : Worker State Result}

/-! ### Interleavings -/

/-- What can happen next. -/
inductive Action (State : Type) where
  /-- A client puts a message into the queue. -/
  | send (message : Message)
  /-- The last client goes away. -/
  | leave
  /-- What the worker refreshes changes from outside. -/
  | change (state : State)
  /-- The worker makes a step. -/
  | work

/-- The worker behind an action. -/
def perform (refresh : State → State × Result) (worker : Worker State Result) :
    Action State → Worker State Result
  | .send message => if worker.abandoned then worker else worker.enqueue message
  | .leave => { worker with abandoned := true }
  | .change state => { worker with state }
  | .work => worker.step refresh

/-- A new worker behind a row of actions. -/
def run (refresh : State → State × Result) (state : State) (actions : List (Action State)) :
    Worker State Result :=
  actions.foldl (perform refresh) (start state)

/-- The messages that an action puts into the queue of a worker. -/
def Action.messages (action : Action State) (worker : Worker State Result) : List Message :=
  match action with
  | .send message => if worker.abandoned then [] else [message]
  | .leave => []
  | .change _ => []
  | .work => []

/-- The messages that a row of actions puts into the queue; behind the last client there are none. -/
def sent : List (Action State) → List Message
  | [] => []
  | .send message :: rest => message :: sent rest
  | .leave :: _ => []
  | .change _ :: rest => sent rest
  | .work :: rest => sent rest

@[simp]
theorem step_abandoned : (worker.step refresh).abandoned = worker.abandoned := by
  fun_cases step refresh worker <;> rfl

theorem perform_abandoned (left : worker.abandoned = true) (action : Action State) :
    (worker.perform refresh action).abandoned = true := by
  cases action with
  | send message => rw [perform, if_pos left, left]
  | leave => rfl
  | change state => exact left
  | work => rw [perform, step_abandoned, left]

theorem foldl_perform_abandoned (left : worker.abandoned = true) (actions : List (Action State)) :
    (actions.foldl (perform refresh) worker).abandoned = true := by
  induction actions generalizing worker with
  | nil => exact left
  | cons action rest ih => exact ih (perform_abandoned left action)

theorem run_concat (state : State) (actions : List (Action State)) (action : Action State) :
    run refresh state (actions ++ [action]) = (run refresh state actions).perform refresh action := by
  rw [run, List.foldl_append]
  rfl

/-- What is sent by one more action. -/
theorem sent_foldl_concat (attended : worker.abandoned = false) (actions : List (Action State))
    (action : Action State) :
    sent (actions ++ [action]) =
      sent actions ++ action.messages (actions.foldl (perform refresh) worker) := by
  induction actions generalizing worker with
  | nil => cases action <;> simp [sent, Action.messages, attended]
  | cons first rest ih =>
    cases first with
    | send message =>
      have attendedToo : (worker.perform refresh (.send message)).abandoned = false := by
        rw [perform, if_neg (by simp [attended])]
        exact attended
      rw [List.cons_append, sent, sent, ih attendedToo, List.cons_append]
      rfl
    | leave =>
      have gone : (rest.foldl (perform refresh) { worker with abandoned := true }).abandoned = true :=
        foldl_perform_abandoned rfl rest
      have nothing : action.messages
          (rest.foldl (perform refresh) { worker with abandoned := true }) = [] := by
        cases action with
        | send message => exact if_pos gone
        | _ => rfl
      rw [List.cons_append, sent, sent, List.nil_append]
      exact nothing.symm
    | change state => exact ih attended
    | work => exact ih (by rw [perform, step_abandoned, attended])

theorem sent_concat (refresh : State → State × Result) (state : State)
    (actions : List (Action State)) (action : Action State) :
    sent (actions ++ [action]) = sent actions ++ action.messages (run refresh state actions) :=
  sent_foldl_concat rfl actions action

/-! ### Books -/

/-- **The books of a worker**: what of the messages sent was taken, and what became of it. -/
structure Books (messages : List Message) (worker : Worker State Result) (taken : List Message) :
    Prop where
  /-- Messages are taken in the order in which they were sent. -/
  sent_eq : messages = taken ++ worker.queue
  /-- Those who wait have a reply or are still remembered, in the order of their messages. -/
  waiters_eq : waitersOf taken = worker.replies.map Prod.fst ++ worker.phase.waiters
  /-- Nothing is taken behind a stop. -/
  running : worker.phase.isEnding = false → .stop ∉ taken
  /-- The worker ends at its first stop, or when nothing is left to take and no one to send. -/
  ending : worker.phase.isEnding = true →
    (∃ earlier, taken = earlier ++ [.stop] ∧ .stop ∉ earlier) ∨
      (.stop ∉ taken ∧ worker.queue = [] ∧ worker.abandoned = true)
  /-- Each refresh has a message that asked for it. -/
  refreshes_le : worker.refreshes + worker.phase.due ≤ taken.countP Message.isRefresh

namespace Books

variable {messages taken rest : List Message} {waiter : Option Nat} {phase next : Phase Result}

theorem start (state : State) : Books [] (Worker.start state : Worker State Result) [] where
  sent_eq := rfl
  waiters_eq := rfl
  running := by simp
  ending := by simp [Worker.start, Phase.isEnding]
  refreshes_le := Nat.le_refl _

theorem enqueue (books : Books messages worker taken) (attended : worker.abandoned = false)
    (message : Message) : Books (messages ++ [message]) (worker.enqueue message) taken where
  sent_eq := by
    rw [books.sent_eq, List.append_assoc]
    rfl
  waiters_eq := books.waiters_eq
  running := books.running
  ending := by
    intro isEnding
    rcases books.ending isEnding with atStop | ⟨-, -, gone⟩
    · exact .inl atStop
    · rw [attended] at gone
      cases gone
  refreshes_le := books.refreshes_le

/-- A request is taken by a worker that has taken no stop. -/
theorem gather (books : Books messages worker taken) (isPhase : worker.phase = phase)
    (goesOn : phase.isEnding = false) (isNext : worker.queue = .refresh waiter :: rest) :
    Books messages { worker with queue := rest, phase := .gathering (phase.waiters ++ waiter.toList) }
      (taken ++ [.refresh waiter]) where
  sent_eq := by
    rw [books.sent_eq, isNext, List.append_assoc]
    rfl
  waiters_eq := by
    rw [waitersOf_append, waitersOf_refresh, books.waiters_eq, isPhase, List.append_assoc]
    rfl
  running := fun _ => by simpa using books.running (isPhase ▸ goesOn)
  ending := nofun
  refreshes_le := by
    have := books.refreshes_le
    simp only [Phase.due, List.countP_append, List.countP_singleton, Message.isRefresh, if_true]
    omega

/-- A stop is taken, and the worker turns to its end. -/
theorem meetStop (books : Books messages worker taken) (isPhase : worker.phase = phase)
    (goesOn : phase.isEnding = false) (isNext : worker.queue = .stop :: rest)
    (ends : next.isEnding = true) (sameWaiters : next.waiters = phase.waiters)
    (sameDue : next.due = phase.due) :
    Books messages { worker with queue := rest, phase := next } (taken ++ [.stop]) where
  sent_eq := by
    rw [books.sent_eq, isNext, List.append_assoc]
    rfl
  waiters_eq := by
    rw [waitersOf_append, waitersOf_stop, List.append_nil, books.waiters_eq, isPhase, sameWaiters]
  running := by simp [ends]
  ending := fun _ => .inl ⟨taken, rfl, books.running (isPhase ▸ goesOn)⟩
  refreshes_le := by
    have := books.refreshes_le
    rw [isPhase] at this
    simp only [sameDue, List.countP_append]
    omega

/-- The queue is empty; the worker turns to its end when no one is left to fill it. -/
theorem findEmpty (books : Books messages worker taken) (isPhase : worker.phase = phase)
    (goesOn : phase.isEnding = false) (isEmpty : worker.queue = [])
    (ends : next.isEnding = worker.abandoned) (sameWaiters : next.waiters = phase.waiters)
    (sameDue : next.due = phase.due) : Books messages { worker with phase := next } taken where
  sent_eq := books.sent_eq
  waiters_eq := by rw [books.waiters_eq, isPhase, sameWaiters]
  running := fun _ => books.running (isPhase ▸ goesOn)
  ending := fun isEnding =>
    .inr ⟨books.running (isPhase ▸ goesOn), isEmpty, ends.symm.trans isEnding⟩
  refreshes_le := by
    rw [sameDue, ← isPhase]
    exact books.refreshes_le

/-- **One step** keeps the books. -/
theorem step (books : Books messages worker taken) (refresh : State → State × Result) :
    ∃ taken, Books messages (worker.step refresh) taken := by
  obtain ⟨sent, waiting, running, ending, counted⟩ := id books
  fun_cases Worker.step refresh worker with
  | case1 isIdle isEmpty gone =>
    exact ⟨taken, books.findEmpty isIdle rfl isEmpty gone.symm rfl rfl⟩
  | case2 => exact ⟨taken, books⟩
  | case3 isIdle waiter rest isNext => exact ⟨_, books.gather isIdle rfl isNext⟩
  | case4 isIdle rest isNext => exact ⟨_, books.meetStop isIdle rfl isNext rfl rfl rfl⟩
  | case5 waiters isGathering isEmpty =>
    exact ⟨taken, books.findEmpty isGathering rfl isEmpty rfl rfl rfl⟩
  | case6 waiters isGathering waiter rest isNext => exact ⟨_, books.gather isGathering rfl isNext⟩
  | case7 waiters isGathering rest isNext => exact ⟨_, books.meetStop isGathering rfl isNext rfl rfl rfl⟩
  | case8 waiters stopping isRefreshing state result =>
    rw [isRefreshing] at waiting running ending counted
    exact ⟨taken, sent, waiting, running, ending, counted⟩
  | case9 result waiter rest stopping isReplying =>
    rw [isReplying] at waiting running ending counted
    refine ⟨taken, sent, ?_, running, ending, counted⟩
    rw [waiting, List.map_append, List.append_assoc]
    rfl
  | case10 result stopping isReplying =>
    rw [isReplying] at waiting running ending counted
    cases stopping with
    | false => exact ⟨taken, sent, waiting, running, ending, counted⟩
    | true => exact ⟨taken, sent, waiting, running, ending, counted⟩
  | case11 => exact ⟨taken, books⟩

/-- **One action** keeps the books on what has been sent by then. -/
theorem perform (books : Books messages worker taken) (refresh : State → State × Result)
    (action : Action State) :
    ∃ taken, Books (messages ++ action.messages worker) (worker.perform refresh action) taken := by
  cases action with
  | send message =>
    cases attended : worker.abandoned with
    | false =>
      have isSent : (Action.send message).messages worker = [message] := if_neg (by simp [attended])
      have isQueued : worker.perform refresh (.send message) = worker.enqueue message :=
        if_neg (by simp [attended])
      rw [isSent, isQueued]
      exact ⟨taken, books.enqueue attended message⟩
    | true =>
      have isLost : (Action.send message).messages worker = [] := if_pos attended
      have isSame : worker.perform refresh (.send message) = worker := if_pos attended
      rw [isLost, isSame, List.append_nil]
      exact ⟨taken, books⟩
  | leave =>
    rw [Action.messages, List.append_nil]
    refine ⟨taken, books.sent_eq, books.waiters_eq, books.running, fun isEnding => ?_,
      books.refreshes_le⟩
    exact (books.ending isEnding).imp_right fun ⟨free, isEmpty, _⟩ => ⟨free, isEmpty, rfl⟩
  | change state =>
    rw [Action.messages, List.append_nil]
    exact ⟨taken, books.sent_eq, books.waiters_eq, books.running, books.ending, books.refreshes_le⟩
  | work =>
    rw [Action.messages, List.append_nil]
    exact books.step refresh

/-- **A whole run** keeps them. By induction on the actions, the last one first. -/
theorem run (refresh : State → State × Result) (state : State) (actions : List (Action State)) :
    ∃ taken, Books (sent actions) (Worker.run refresh state actions) taken := by
  induction actions using List.reverseRecOn with
  | nil => exact ⟨[], .start state⟩
  | append_singleton earlier action ih =>
    obtain ⟨taken, books⟩ := ih
    rw [sent_concat refresh state, run_concat]
    exact books.perform refresh action

end Books

/-! ### Replies -/

/-- **The outcome of a refresh that knows of the clients**: the worker began it when the requests of all
of them had been sent. -/
def RefreshedFor (refresh : State → State × Result) (state : State) (actions : List (Action State))
    (clients : List Nat) (result : Result) : Prop :=
  ∃ before behind waiters stopping, actions = before ++ .work :: behind ∧
    (run refresh state before).phase = .refreshing waiters stopping ∧
    (refresh (run refresh state before).state).2 = result ∧ clients <+: waitersOf (sent before)

/-- **Replies are current**, those that are given and those that are about to be. -/
structure Current (refresh : State → State × Result) (state : State) (actions : List (Action State))
    (worker : Worker State Result) : Prop where
  told : ∀ earlier client result later, worker.replies = earlier ++ (client, result) :: later →
    RefreshedFor refresh state actions (earlier.map Prod.fst ++ [client]) result
  telling : ∀ result waiters stopping, worker.phase = .replying result waiters stopping →
    RefreshedFor refresh state actions (worker.replies.map Prod.fst ++ waiters) result

section Replies

variable {state : State} {actions : List (Action State)} {clients : List Nat} {result : Result}

theorem RefreshedFor.concat (refreshed : RefreshedFor refresh state actions clients result)
    (action : Action State) : RefreshedFor refresh state (actions ++ [action]) clients result := by
  obtain ⟨before, behind, waiters, stopping, rfl, isRefreshing, isResult, known⟩ := refreshed
  exact ⟨before, behind ++ [action], waiters, stopping, by simp, isRefreshing, isResult, known⟩

namespace Current

/-- Nothing is said by an action that leaves the replies alone and begins no further ones. -/
theorem silent (current : Current refresh state actions worker) {next : Worker State Result}
    (action : Action State) (sameReplies : next.replies = worker.replies)
    (samePhase : ∀ result waiters stopping, next.phase = .replying result waiters stopping →
      worker.phase = .replying result waiters stopping) :
    Current refresh state (actions ++ [action]) next where
  told := by
    intro earlier client result later shape
    exact (current.told earlier client result later (sameReplies ▸ shape)).concat action
  telling := by
    intro result waiters stopping isReplying
    rw [sameReplies]
    exact (current.telling result waiters stopping (samePhase _ _ _ isReplying)).concat action

/-- **One step** of the worker. A refresh begins when all those who wait for it have asked, and what they
are told is its outcome. -/
theorem step {taken : List Message} (books : Books (sent actions) worker taken)
    (isRun : run refresh state actions = worker) (current : Current refresh state actions worker) :
    Current refresh state (actions ++ [.work]) (worker.step refresh) := by
  fun_cases Worker.step refresh worker with
  | case8 waiters stopping isRefreshing next result outcome =>
    have waiting := books.waiters_eq
    rw [isRefreshing] at waiting
    refine ⟨fun earlier client result later shape => ?_, fun _ _ _ isReplying => ?_⟩
    · exact (current.told earlier client result later shape).concat .work
    · cases isReplying
      refine ⟨actions, [], waiters, stopping, rfl, isRun ▸ isRefreshing, by rw [isRun, outcome], ?_⟩
      rw [books.sent_eq, waitersOf_append, waiting]
      exact List.prefix_append _ _
  | case9 result waiter rest stopping isReplying =>
    have refreshed := (current.telling result _ stopping isReplying).concat .work
    refine ⟨fun earlier client outcome later shape => ?_, fun _ _ _ isReplying => ?_⟩
    · -- Either the new reply is meant, or one of those given before.
      rcases List.eq_nil_or_concat later with rfl | ⟨inner, last, rfl⟩
      · obtain ⟨rfl, same⟩ := List.append_inj' shape rfl
        cases same
        obtain ⟨before, behind, waiters, stopping, isRow, isRefreshing, isResult, known⟩ := refreshed
        refine ⟨before, behind, waiters, stopping, isRow, isRefreshing, isResult, .trans ?_ known⟩
        exact ⟨rest, by simp⟩
      · rw [List.concat_eq_append, ← List.cons_append, ← List.append_assoc] at shape
        obtain ⟨earlierShape, -⟩ := List.append_inj' shape rfl
        exact (current.told earlier client outcome inner earlierShape).concat .work
    · cases isReplying
      simpa using refreshed
  | case10 result stopping isReplying =>
    refine current.silent .work rfl fun _ _ _ next => ?_
    cases stopping <;> cases next
  | case2 => exact current.silent .work rfl fun _ _ _ same => same
  | case11 => exact current.silent .work rfl fun _ _ _ same => same
  | _ => exact current.silent .work rfl nofun

/-- **A whole run** tells current outcomes only. -/
theorem run (refresh : State → State × Result) (state : State) (actions : List (Action State)) :
    Current refresh state actions (Worker.run refresh state actions) := by
  induction actions using List.reverseRecOn with
  | nil =>
    refine ⟨fun earlier client result later shape => ?_, nofun⟩
    cases (List.append_eq_nil_iff.mp shape.symm).2
  | append_singleton earlier action ih =>
    rw [run_concat]
    cases action with
    | send message =>
      rw [perform]
      split
      · exact ih.silent _ rfl fun _ _ _ same => same
      · exact ih.silent _ rfl fun _ _ _ same => same
    | leave => exact ih.silent _ rfl fun _ _ _ same => same
    | change next => exact ih.silent _ rfl fun _ _ _ same => same
    | work =>
      obtain ⟨taken, books⟩ := Books.run refresh state earlier
      exact step books rfl ih

end Current

end Replies

/-! ### The protocol -/

/-- **What clients can rely on** behind a row of actions. -/
structure Protocol (refresh : State → State × Result) (state : State) (actions : List (Action State)) :
    Prop where
  /-- The requests of those who wait are answered in turn. -/
  inTurn : (run refresh state actions).replies.map Prod.fst <+: waitersOf (sent actions)
  /-- No client has more replies than requests. -/
  atMostOnce : ∀ client, ((run refresh state actions).replies.map Prod.fst).count client ≤
    (waitersOf (sent actions)).count client
  /-- A reply is the outcome of a refresh that began behind the request it answers. -/
  current : ∀ earlier client result later,
    (run refresh state actions).replies = earlier ++ (client, result) :: later →
      RefreshedFor refresh state actions (earlier.map Prod.fst ++ [client]) result
  /-- A worker that has ended has answered all requests before the first stop, or all requests when it
  ended because no client was left. -/
  complete : (run refresh state actions).phase = .stopped →
    ∃ earlier later, sent actions = earlier ++ later ∧ .stop ∉ earlier ∧
      (run refresh state actions).replies.map Prod.fst = waitersOf earlier ∧
      (later.head? = some .stop ∨ later = [] ∧ (run refresh state actions).abandoned = true)
  /-- There are no more refreshes than requests taken from the queue. -/
  economical : ∃ received, sent actions = received ++ (run refresh state actions).queue ∧
    (run refresh state actions).refreshes ≤ received.countP Message.isRefresh

/-- **The protocol of the worker.** Whatever clients send and in whatever order they and the worker take
their turns, those who wait are answered in turn, at most once for each request, and with the outcome of
a refresh that began behind it; a stop is met only behind all replies to earlier requests; and no refresh
is made without a request. -/
theorem follows_protocol (refresh : State → State × Result) (state : State)
    (actions : List (Action State)) : Protocol refresh state actions := by
  obtain ⟨taken, books⟩ := Books.run refresh state actions
  have inTurn : (run refresh state actions).replies.map Prod.fst <+: waitersOf (sent actions) := by
    rw [books.sent_eq, waitersOf_append, books.waiters_eq, List.append_assoc]
    exact List.prefix_append _ _
  refine ⟨inTurn, fun client => inTurn.sublist.count_le client, (Current.run refresh state actions).told,
    fun hasStopped => ?_, taken, books.sent_eq, Nat.le_trans (Nat.le_add_right _ _) books.refreshes_le⟩
  have answered := books.waiters_eq
  rw [hasStopped, Phase.waiters, List.append_nil] at answered
  rcases books.ending (by rw [hasStopped]; rfl) with ⟨earlier, rfl, free⟩ | ⟨free, isEmpty, gone⟩
  · refine ⟨earlier, .stop :: (run refresh state actions).queue, ?_, free, ?_, .inl rfl⟩
    · rw [books.sent_eq, List.append_assoc]
      rfl
    · rw [← answered, waitersOf_append, waitersOf_stop, List.append_nil]
  · refine ⟨taken, [], ?_, free, answered.symm, .inr ⟨rfl, gone⟩⟩
    rw [books.sent_eq, isEmpty]

/-- Two requests are answered by one refresh, and a third one that comes behind it by another; a request
behind the stop stays unanswered. -/
example :
    let actions : List (Action Nat) := [.send (.refresh (some 1)), .work, .send (.refresh (some 2)), .work,
      .work, .work, .send (.refresh (some 3)), .send .stop, .send (.refresh (some 4))] ++
      List.replicate 9 .work
    let worker := run (fun count => (count + 1, count)) 0 actions
    worker.replies = [(1, 0), (2, 0), (3, 1)] ∧ worker.phase = .stopped ∧ worker.refreshes = 2 := by
  decide

end Worker

end ArtifactIndex
