import TemporalSdk.Answers
import TemporalSdk.FailedResponse

/-! Which calls of `Handle` get to the completed response, and on which runner. -/
namespace TemporalSdk
namespace TaskHandler

variable {σ : Type} (h : TaskHandler σ) (remote : Remote) (s : HandlerState σ)
  (task : WorkflowTask)

/-- The call drives `r` to its next suspension, by a replay that matches history or by a
continuation, and goes on to process messages and queries on it. -/
inductive Progresses : Runner σ → Prop
  | replayed {fn : WorkflowFn σ} {events : History}
      (hfn : h.workflows task.workflowType = some fn)
      (hpage : assembleHistory remote.stub h.ns task.workflowId task.runId remote.pageFuel
        task.page = some (.ok events))
      (hquery : task.query = none) (hfull : isFullHistory events = true)
      (hdeadlock : (h.replayed fn task events).deadlocked = false)
      (hhung : (h.replayed fn task events).hung = false)
      (hescaped : (h.replayed fn task events).escaped = false)
      (hcheck : (h.replayed fn task events).checkDeterminism = none) :
      Progresses (h.replayed fn task events)
  | continued {fn : WorkflowFn σ} {events : History} {addr : Nat} {r : Runner σ}
      (hfn : h.workflows task.workflowType = some fn)
      (hpage : assembleHistory remote.stub h.ns task.workflowId task.runId remote.pageFuel
        task.page = some (.ok events))
      (hquery : task.query = none) (hpart : isFullHistory events = false)
      (hfit : Fits s task events addr r)
      (hdeadlock : (r.applyAndResume h.fuel events).deadlocked = false) :
      Progresses (r.applyAndResume h.fuel events)

variable {h remote s task}

theorem handle_eq_route {fn : WorkflowFn σ} {events : History}
    (hfn : h.workflows task.workflowType = some fn)
    (hpage : assembleHistory remote.stub h.ns task.workflowId task.runId remote.pageFuel
      task.page = some (.ok events)) :
    h.handle remote s task = h.route remote s fn task events := by
  simp only [handle, hfn, hpage]

/-- A call that progresses ends in the completed response of its runner. -/
theorem Progresses.handle_eq {r : Runner σ} (hr : h.Progresses remote s task r) :
    ∃ s' addr, h.handle remote s task = h.complete remote s' task addr r := by
  cases hr with
  | replayed hfn hpage hquery hfull hdeadlock hhung hescaped hcheck =>
    rw [handle_eq_route hfn hpage, h.route_full hfull hquery, replayTask_eq, hdeadlock, hhung,
      hescaped, hcheck]
    exact ⟨_, _, rfl⟩
  | continued hfn hpage hquery hpart hfit hdeadlock =>
    rw [handle_eq_route hfn hpage, h.route_continuation hpart hquery hfit, continueTask, hdeadlock]
    exact ⟨_, _, rfl⟩

theorem Progresses.query {r : Runner σ} (hr : h.Progresses remote s task r) :
    task.query = none := by
  cases hr <;> assumption

/-- The callbacks that answer the messages and the queries of the task on `r` come back. -/
def SettlesTask (h : TaskHandler σ) (r : Runner σ) (task : WorkflowTask) : Prop :=
  r.SettlesMessages h.fuel h.identity task.messages ∧
    (r.processMessages h.fuel h.identity task.messages).1.SettlesQueries h.fuel task.queries

theorem complete_sent_iff {s' : HandlerState σ} {addr : Nat} {r : Runner σ} :
    (∃ req, (h.complete remote s' task addr r).sent = [.workflowTaskCompleted req]) ↔
      h.SettlesTask r task := by
  unfold SettlesTask complete
  rw [Runner.settlesMessages_iff, Runner.settlesQueries_iff]
  generalize r.processMessages h.fuel h.identity task.messages = x
  obtain ⟨r₁, messages, exit⟩ := x
  cases exit with
  | some exit => simp
  | none =>
    dsimp only
    generalize r₁.answerQueries h.fuel task.queries = y
    obtain ⟨r₂, e⟩ := y
    cases e with
    | error exit => simp
    | ok results =>
      dsimp only
      split <;> simp

/-- A call that progresses sends the completed response exactly if its callbacks come back. -/
theorem Progresses.sent_iff {r : Runner σ} (hr : h.Progresses remote s task r) :
    (∃ req, (h.handle remote s task).sent = [.workflowTaskCompleted req]) ↔
      h.SettlesTask r task := by
  obtain ⟨s', addr, hhandle⟩ := hr.handle_eq
  rw [hhandle]
  exact complete_sent_iff

section Completed

variable {req : TaskCompleted}

theorem respond_not_completed {s' : HandlerState σ} {resp : Response}
    (hresp : ∀ req, resp ≠ .workflowTaskCompleted req) :
    .workflowTaskCompleted req ∉ (respond remote s' resp).sent := by
  rw [(respond_sent remote s' resp).1, List.mem_singleton]
  exact fun he => hresp req he.symm

theorem route_query_not_completed {fn : WorkflowFn σ} {events : History} {q : WorkflowQuery}
    (hq : task.query = some q) :
    .workflowTaskCompleted req ∉ (h.route remote s fn task events).sent := by
  obtain ⟨s', -, ⟨exit, he⟩ | ⟨addr, he⟩ | he | ⟨r, he⟩⟩ := h.route_query hq <;> rw [he]
  · exact List.not_mem_nil
  · exact h.answerDirectQuery_not_completed req
  · exact h.answerDirectQuery_not_completed req
  · exact h.answerDirectQuery_not_completed req

/-- Every completed response is that of a call that progresses, unless a replay is rejected under
the policy that fails the workflow. -/
theorem progresses_of_completed
    (hsent : .workflowTaskCompleted req ∈ (h.handle remote s task).sent) :
    (∃ r, h.Progresses remote s task r) ∨ h.RejectedReplay remote task := by
  cases hfn : h.workflows task.workflowType with
  | none =>
    simp only [handle, hfn] at hsent
    exact absurd hsent (respond_not_completed (by simp))
  | some fn =>
    cases hpage : assembleHistory remote.stub h.ns task.workflowId task.runId remote.pageFuel
        task.page with
    | none => simp [handle, hfn, hpage] at hsent
    | some page =>
      cases page with
      | error e => simp [handle, hfn, hpage] at hsent
      | ok events =>
        rw [handle_eq_route hfn hpage] at hsent
        cases hquery : task.query with
        | some q => exact absurd hsent (route_query_not_completed hquery)
        | none =>
          cases hf : isFullHistory events with
          | true =>
            rw [h.route_full hf hquery, replayTask_eq] at hsent
            split_ifs at hsent with hdeadlock hhung hescaped
            · exact absurd hsent (respond_not_completed (by simp))
            · cases hsent
            · cases hsent
            · cases hcheck : (h.replayed fn task events).checkDeterminism with
              | some mismatch =>
                right
                exact ⟨fn, events, hfn, hpage, hf, by rw [hcheck]; exact Option.some_ne_none _⟩
              | none =>
                left
                exact ⟨_, .replayed hfn hpage hquery hf (by simpa using hdeadlock)
                  (by simpa using hhung) (by simpa using hescaped) hcheck⟩
          | false =>
            by_cases hfit : ∃ addr r, Fits s task events addr r
            · obtain ⟨addr, r, hfit⟩ := hfit
              rw [h.route_continuation hf hquery hfit, continueTask] at hsent
              cases hdeadlock : (r.applyAndResume h.fuel events).deadlocked with
              | true =>
                rw [hdeadlock] at hsent
                exact absurd hsent (respond_not_completed (by simp))
              | false =>
                left
                exact ⟨_, .continued hfn hpage hquery hf hfit hdeadlock⟩
            · rw [h.route_reset hf hquery fun addr r hx => hfit ⟨addr, r, hx⟩] at hsent
              exact absurd hsent (respond_not_completed (by simp))

/-- What the completed response of a runner is made of. -/
theorem complete_sent {s' : HandlerState σ} {addr : Nat} {r : Runner σ}
    (hsent : .workflowTaskCompleted req ∈ (h.complete remote s' task addr r).sent) :
    ∃ r₁ messages r₂ queryResults,
      r.processMessages h.fuel h.identity task.messages = (r₁, messages, none) ∧
      r₁.answerQueries h.fuel task.queries = (r₂, .ok queryResults) ∧
      req.commands = r.commands ++ r₁.terminalCommand.toList ∧ req.messages = messages ∧
      req.queryResults = queryResults := by
  unfold complete at hsent
  split at hsent
  · cases hsent
  · next r₁ messages hmessages =>
    split at hsent
    · cases hsent
    · next r₂ queryResults hqueries =>
      refine ⟨r₁, messages, r₂, queryResults, hmessages, hqueries, ?_⟩
      dsimp only at hsent
      split at hsent <;>
        · simp only [List.mem_singleton, Response.workflowTaskCompleted.injEq] at hsent
          rw [hsent]
          exact ⟨rfl, rfl, rfl⟩

theorem Progresses.completed_eq {r : Runner σ} (hr : h.Progresses remote s task r)
    (hsent : .workflowTaskCompleted req ∈ (h.handle remote s task).sent) :
    ∃ r₁ messages r₂ queryResults,
      r.processMessages h.fuel h.identity task.messages = (r₁, messages, none) ∧
      r₁.answerQueries h.fuel task.queries = (r₂, .ok queryResults) ∧
      req.commands = r.commands ++ r₁.terminalCommand.toList ∧ req.messages = messages ∧
      req.queryResults = queryResults := by
  obtain ⟨s', addr, hhandle⟩ := hr.handle_eq
  rw [hhandle] at hsent
  exact complete_sent hsent

end Completed

end TaskHandler
end TemporalSdk
