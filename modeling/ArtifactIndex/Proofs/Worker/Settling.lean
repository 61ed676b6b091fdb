/-
**A worker that is left alone.**

A worker at rest that finds requests in its queue goes once through all its phases when nothing else
happens in between: it takes every request, refreshes once, replies to those who wait in their order, and
is at rest again.

* `steps_gathering`, `steps_replying`: the two phases that take a step for each message or client;
* `settle_of_requests`: the whole way.
-/

import ArtifactIndex.Proofs.Worker.Protocol

namespace ArtifactIndex

namespace Worker

variable {State Result : Type} {refresh : State → State × Result} {worker : Worker State Result}

theorem steps_add (first second : Nat) (worker : Worker State Result) :
    worker.steps refresh (first + second) = (worker.steps refresh first).steps refresh second := by
  induction first generalizing worker with
  | zero => rw [Nat.zero_add, steps]
  | succ first ih => rw [Nat.succ_add, steps, steps, ih]

/-- A worker at rest stays at rest while its queue is empty. -/
theorem steps_resting (isIdle : worker.phase = .idle) (isEmpty : worker.queue = [])
    (attended : worker.abandoned = false) (count : Nat) : worker.steps refresh count = worker := by
  have rests : worker.step refresh = worker := by
    unfold step
    simp only [isIdle, isEmpty, attended, Bool.false_eq_true, if_false]
  induction count with
  | zero => rfl
  | succ count ih => rw [steps, rests, ih]

/-- **Requests are taken** one after another, up to the end of the queue. -/
theorem steps_gathering {waiters : List Nat} {messages : List Message}
    (requests : ∀ message ∈ messages, message.isRefresh = true) (isGathering : worker.phase = .gathering waiters)
    (inQueue : worker.queue = messages) :
    worker.steps refresh messages.length =
      { worker with queue := [], phase := .gathering (waiters ++ waitersOf messages) } := by
  induction messages generalizing worker waiters with
  | nil =>
    obtain ⟨state, queue, phase, replies, refreshes, abandoned⟩ := worker
    cases isGathering
    cases inQueue
    show _ = Worker.mk state [] (.gathering (waiters ++ [])) replies refreshes abandoned
    rw [List.append_nil]
    rfl
  | cons message rest ih =>
    obtain ⟨isRequest, further⟩ := List.forall_mem_cons.mp requests
    cases message with
    | stop => cases isRequest
    | refresh waiter =>
      have taken : worker.step refresh =
          { worker with queue := rest, phase := .gathering (waiters ++ waiter.toList) } := by
        unfold step
        simp only [isGathering, inQueue]
      have split : waitersOf (.refresh waiter :: rest) = waiter.toList ++ waitersOf rest := by
        rw [← List.singleton_append, waitersOf_append, waitersOf_refresh]
      rw [List.length_cons, steps, taken, ih further rfl rfl, split, List.append_assoc]

/-- **Replies are given** one after another. -/
theorem steps_replying {result : Result} {waiters : List Nat} {stopping : Bool}
    (isReplying : worker.phase = .replying result waiters stopping) :
    worker.steps refresh waiters.length =
      { worker with
        phase := .replying result [] stopping, replies := worker.replies ++ waiters.map (·, result) } := by
  induction waiters generalizing worker with
  | nil =>
    obtain ⟨state, queue, phase, replies, refreshes, abandoned⟩ := worker
    cases isReplying
    show _ = Worker.mk state queue (.replying result [] stopping) (replies ++ []) refreshes abandoned
    rw [List.append_nil]
    rfl
  | cons waiter rest ih =>
    have told : worker.step refresh =
        { worker with
          phase := .replying result rest stopping, replies := worker.replies ++ [(waiter, result)] } := by
      unfold step
      simp only [isReplying]
    rw [List.length_cons, steps, told, ih rfl, List.append_assoc, List.map_cons]
    rfl

/-- **From rest to rest.** All requests in the queue are covered by one refresh, and everyone who waits is
told its outcome. -/
theorem settle_of_requests (isIdle : worker.phase = .idle) (attended : worker.abandoned = false)
    (requests : ∀ message ∈ worker.queue, message.isRefresh = true) (some_request : worker.queue ≠ []) :
    worker.settle refresh =
      { worker with
        state := (refresh worker.state).1
        queue := []
        replies := worker.replies ++ (waitersOf worker.queue).map (·, (refresh worker.state).2)
        refreshes := worker.refreshes + 1 } := by
  obtain ⟨state, queue, phase, replies, refreshes, abandoned⟩ := worker
  cases isIdle
  cases attended
  obtain ⟨message, rest, rfl⟩ := List.exists_cons_of_ne_nil some_request
  obtain ⟨isRequest, further⟩ := List.forall_mem_cons.mp requests
  cases message with
  | stop => cases isRequest
  | refresh waiter =>
    have split : waitersOf (.refresh waiter :: rest) = waiter.toList ++ waitersOf rest := by
      rw [← List.singleton_append, waitersOf_append, waitersOf_refresh]
    have few : (waitersOf (.refresh waiter :: rest)).length ≤ rest.length + 1 := List.length_filterMap_le ..
    -- A step for the first request, one for each further one, three around the refresh, one for each
    -- reply, and the others at rest.
    obtain ⟨idle, enough⟩ : ∃ idle, 5 * (rest.length + 1) + 5 =
        1 + rest.length + 2 + (waitersOf (.refresh waiter :: rest)).length + 1 + idle :=
      ⟨_, (Nat.add_sub_cancel' (by omega)).symm⟩
    have opened : steps refresh 1
          ⟨state, .refresh waiter :: rest, .idle, replies, refreshes, false⟩ =
        ⟨state, rest, .gathering waiter.toList, replies, refreshes, false⟩ := rfl
    have gathered : steps refresh rest.length
          ⟨state, rest, .gathering waiter.toList, replies, refreshes, false⟩ =
        ⟨state, [], .gathering (waitersOf (.refresh waiter :: rest)), replies, refreshes, false⟩ := by
      rw [split]
      exact steps_gathering further rfl rfl
    have refreshed : steps refresh 2
          ⟨state, [], .gathering (waitersOf (.refresh waiter :: rest)), replies, refreshes, false⟩ =
        ⟨(refresh state).1, [], .replying (refresh state).2 (waitersOf (.refresh waiter :: rest)) false, replies,
          refreshes + 1, false⟩ := rfl
    rw [settle, List.length_cons, enough, steps_add, steps_add, steps_add, steps_add, steps_add, opened, gathered,
      refreshed, steps_replying rfl]
    exact steps_resting rfl rfl rfl idle

end Worker

end ArtifactIndex
