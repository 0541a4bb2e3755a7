import TemporalSdk.MarkedCalls

/-! Side effects and local activities, replayed: a call gets back the outcome it had, as long as
every call before it has left a marker. -/
namespace TemporalSdk
open StateTransition (Reaches)

variable {σ : Type} {fuel : Nat} {info : WorkflowInfo} {world : World σ} {fn : WorkflowFn σ}
  {evicted : Nat → Bool} {batches : List History} {last : History} {r : Runner σ}

/-- The function of a `SideEffect` call that is not on record does not throw. -/
def Runner.SideEffectReturns (r : Runner σ) : Prop :=
  r.program r.trace = .sideEffect → r.scan.sideEffects[r.sideEffectSeq]? = none →
    ∃ v, r.world.sideEffectFn r.sideEffectSeq = .ok v

/-- Whatever else a body does, its side effects replay by their ordinals when none of the functions
throws, whatever the functions would do now; a body that replays otherwise replays as a whole. -/
theorem Runner.sideEffects_replay (h : Recording fuel info world fn evicted batches last r)
    (hret : Runner.Throughout fuel info world fn Runner.SideEffectReturns evicted 0 [] none batches)
    (sideEffectFn : Nat → Except String Value) (isReplaying : Bool) :
    sideEffectCalls.Replays info { world with sideEffectFn } fn isReplaying
        (batches ++ [last]).flatten r ∧
      (Runner.Throughout fuel info world fn Runner.Repeats evicted 0 [] none batches →
        Runner.UndisturbedAll fuel info world fn evicted 0 [] none (batches ++ [last]) →
        (scanHistory (batches ++ [last]).flatten).sideEffects.length = r.sideEffectSeq ∧
          ∃ q, Reaches Runner.step (Runner.fresh info { world with sideEffectFn } fn isReplaying
            (batches ++ [last]).flatten) q ∧ Recalls r q) := by
  have hreturns : Runner.Throughout fuel info world fn sideEffectCalls.Returns evicted 0 [] none
      batches := hret.imp fun q hq hcall hrec => hq (Op.call?_sideEffect hcall) hrec
  have hsame : world.SameCode { world with sideEffectFn } := ⟨rfl, rfl, rfl⟩
  exact ⟨sideEffectCalls.replays h hreturns hsame.converter isReplaying, fun hop hund =>
    sideEffectCalls.recalls (fun _ => rfl) h hop hund hsame rfl isReplaying⟩

section Dice

/-- A body that rolls, rests and rolls again. -/
def rollTwice : WorkflowFn Unit where
  init := ()
  body _ answers :=
    match answers with
    | [] => .sideEffect
    | [_] => .startTimer 1000000000
    | [_, _] => .get 0
    | [_, _, _] => .sideEffect
    | _ => .finish (.returned [])

def rollTwiceTasks : List History :=
  [[⟨1, .workflowExecutionStarted "RollTwice" [] []⟩, ⟨2, .other⟩, ⟨3, .other⟩],
    [⟨4, .other⟩, ⟨5, rolled 0 (.int 6)⟩, ⟨6, .timerStarted "t0"⟩, ⟨7, .timerFired "t0"⟩,
      ⟨8, .other⟩, ⟨9, .other⟩]]

def rollTwiceEnd : History :=
  [⟨10, .other⟩, ⟨11, rolled 1 (.int 6)⟩, ⟨12, .workflowExecutionCompleted []⟩]

theorem rollTwice_replays :
    ∃ r, (Runner.tasks 10 {} (dice fun _ => .ok (.int 6)) rollTwice (fun _ => false)
        rollTwiceTasks).getLast? = some r ∧
      sideEffectCalls.Replays {} (dice fun _ => .error "rolled again") rollTwice true
        (rollTwiceTasks ++ [rollTwiceEnd]).flatten r ∧
      (scanHistory (rollTwiceTasks ++ [rollTwiceEnd]).flatten).sideEffects.length =
        r.sideEffectSeq ∧
      ∃ q, Reaches Runner.step (Runner.fresh {} (dice fun _ => .error "rolled again") rollTwice
        true (rollTwiceTasks ++ [rollTwiceEnd]).flatten) q ∧ Recalls r q := by
  have hreports : (Runner.tasks 10 {} (dice fun _ => .ok (.int 6)) rollTwice (fun _ => false)
      rollTwiceTasks).map Runner.report =
      [([rolled 0 (.int 6), .timerStarted "t0"], none, false),
        ([rolled 1 (.int 6)], some (.completeWorkflowExecution []), false)] := by decide +kernel
  obtain ⟨r, hr⟩ : ∃ r, (Runner.tasks 10 {} (dice fun _ => .ok (.int 6)) rollTwice
      (fun _ => false) rollTwiceTasks).getLast? = some r := ⟨_, rfl⟩
  have hserved : Served (rollTwiceTasks ++ [rollTwiceEnd]).flatten :=
    ⟨by decide +kernel, by decide +kernel, by decide +kernel, by decide +kernel⟩
  have hrec : Recording 10 {} (dice fun _ => .ok (.int 6)) rollTwice (fun _ => false)
      rollTwiceTasks rollTwiceEnd r :=
    .of_reports DataConverter.tagged_roundTrips hserved (by decide +kernel) (by decide +kernel)
      hreports (by decide +kernel) (by decide +kernel) (by decide +kernel) (by decide +kernel) hr
  obtain ⟨hreplays, hrecalls⟩ := Runner.sideEffects_replay hrec
    (.of_body (fun q hq _ _ => ⟨.int 6, by rw [hq.1]; rfl⟩) (by decide +kernel)
      (fun q hq => absurd hq (Option.not_mem_none q)))
    (fun _ => .error "rolled again") true
  exact ⟨r, hr, hreplays, hrecalls (.of_holds (by decide +kernel))
    (.of_waiting (.of_holds (by decide +kernel)))⟩

/-- A body that rolls until it has a value, and rests. -/
def rollAgain : WorkflowFn Unit where
  init := ()
  body _ answers :=
    match answers with
    | [] => .sideEffect
    | [_] => .sideEffect
    | [_, _] => .startTimer 1000000000
    | [_, _, _] => .get 0
    | _ => .finish (.returned [])

def dropFirst : Nat → Except String Value
  | 0 => .error "dropped"
  | _ + 1 => .ok (.int 6)

def rollAgainTask : History :=
  [⟨1, .workflowExecutionStarted "RollAgain" [] []⟩, ⟨2, .other⟩, ⟨3, .other⟩]

def rollAgainEnd : History := [⟨4, .other⟩, ⟨5, rolled 1 (.int 6)⟩, ⟨6, .timerStarted "t0"⟩]

/-- The call that threw is given the value of the next on replay, which then rolls once more. -/
theorem droppedRoll_shifts :
    ∃ r q, Recording 10 {} (dice dropFirst) rollAgain (fun _ => false) [rollAgainTask]
        rollAgainEnd r ∧
      Reaches Runner.step (Runner.fresh {} (dice dropFirst) rollAgain true
        ([rollAgainTask] ++ [rollAgainEnd]).flatten) q ∧
      sideEffectCalls.answers r = [.stdException "dropped", .value (.int 6)] ∧
      sideEffectCalls.answers q = [.value (.int 6), .value (.int 6)] ∧
      q.commands.map Command.event = [rolled 1 (.int 6)] ∧
      q.checkDeterminism = some ("[TMPRL1100] nondeterministic workflow: at command #1 history " ++
        "recorded StartTimer/t0 but replay produced RecordMarker/SideEffect") := by
  have hreports : (Runner.tasks 10 {} (dice dropFirst) rollAgain (fun _ => false)
      [rollAgainTask]).map Runner.report =
      [([rolled 1 (.int 6), .timerStarted "t0"], none, false)] := by decide +kernel
  have hserved : Served ([rollAgainTask] ++ [rollAgainEnd]).flatten :=
    ⟨by decide +kernel, by decide +kernel, by decide +kernel, by decide +kernel⟩
  have hlive : (Runner.tasks 10 {} (dice dropFirst) rollAgain (fun _ => false)
      [rollAgainTask]).getLast?.map sideEffectCalls.answers =
      some [.stdException "dropped", .value (.int 6)] := by decide +kernel
  have hreplay : (Parking.runFor Runner.step 10 (Runner.fresh {} (dice dropFirst) rollAgain true
      ([rollAgainTask] ++ [rollAgainEnd]).flatten)).map (fun q => (sideEffectCalls.answers q,
        q.commands.map Command.event, q.checkDeterminism)) =
      some ([.value (.int 6), .value (.int 6)], [rolled 1 (.int 6)],
        some ("[TMPRL1100] nondeterministic workflow: at command #1 history " ++
          "recorded StartTimer/t0 but replay produced RecordMarker/SideEffect")) := by
    decide +kernel
  obtain ⟨r, hr, hans⟩ := Option.map_eq_some_iff.mp hlive
  obtain ⟨q, hq, hrest⟩ := Option.map_eq_some_iff.mp hreplay
  simp only [Prod.mk.injEq] at hrest
  exact ⟨r, q, .of_reports DataConverter.tagged_roundTrips hserved (by decide +kernel)
    (by decide +kernel) hreports (by decide +kernel) (by decide +kernel) (by decide +kernel)
    (by decide +kernel) hr, (StateTransition.mem_eval.mp (Parking.runFor_mem_eval hq)).1, hans,
    hrest⟩

end Dice

/-- A local activity that is not on record is registered with the worker. -/
def Runner.LocalActivityRegistered (r : Runner σ) : Prop :=
  ∀ type input options, r.program r.trace = .executeLocalActivity type input options →
    r.scan.localActivities[r.localActivitySeq]? = none →
    ∃ fn, r.world.localActivityResolver.bind (· type) = some fn

/-- Whatever else a body does, its local activities replay by their ordinals, results and failures,
when all of them are registered; on replay none is run. -/
theorem Runner.localActivities_replay (h : Recording fuel info world fn evicted batches last r)
    (hreg : Runner.Throughout fuel info world fn Runner.LocalActivityRegistered evicted 0 [] none
      batches)
    (localActivityResolver : Option (String → Option ActivityFn)) (isReplaying : Bool) :
    localActivityCalls.Replays info { world with localActivityResolver } fn isReplaying
        (batches ++ [last]).flatten r ∧
      (Runner.Throughout fuel info world fn Runner.Repeats evicted 0 [] none batches →
        Runner.UndisturbedAll fuel info world fn evicted 0 [] none (batches ++ [last]) →
        (scanHistory (batches ++ [last]).flatten).localActivities.length = r.localActivitySeq ∧
          ∃ q, Reaches Runner.step (Runner.fresh info { world with localActivityResolver } fn
            isReplaying (batches ++ [last]).flatten) q ∧ Recalls r q) := by
  have hreturns : Runner.Throughout fuel info world fn localActivityCalls.Returns evicted 0 [] none
      batches :=
    hreg.imp fun q hq _ hrec type input options hop => hq type input options hop hrec
  have hsame : world.SameCode { world with localActivityResolver } := ⟨rfl, rfl, rfl⟩
  exact ⟨localActivityCalls.replays h hreturns hsame.converter isReplaying, fun hop hund =>
    localActivityCalls.recalls (fun _ => rfl) h hop hund hsame rfl isReplaying⟩

section Quotes

/-- A worker that knows one local activity, which is sold out at its second call. -/
def shop (localActivityResolver : Option (String → Option ActivityFn)) : World Unit :=
  { World.plain .tagged with localActivityResolver }

/-- A body that asks for a quote, rests and asks once more. -/
def quoteTwice : WorkflowFn Unit where
  init := ()
  body _ answers :=
    match answers with
    | [] => .executeLocalActivity "Quote" [] {}
    | [_] => .startTimer 1000000000
    | [_, _] => .get 0
    | [_, _, _] => .executeLocalActivity "Quote" [] {}
    | _ => .finish (.returned [])

def quoteTwiceTasks : List History :=
  [[⟨1, .workflowExecutionStarted "QuoteTwice" [] []⟩, ⟨2, .other⟩, ⟨3, .other⟩],
    [⟨4, .other⟩, ⟨5, quoted (.ok [{ data := [7] }])⟩, ⟨6, .timerStarted "t0"⟩,
      ⟨7, .timerFired "t0"⟩, ⟨8, .other⟩, ⟨9, .other⟩]]

def quoteTwiceEnd : History :=
  [⟨10, .other⟩, ⟨11, quoted (.error ("SoldOut", "sold out"))⟩,
    ⟨12, .workflowExecutionCompleted []⟩]

theorem quoteTwice_replays :
    ∃ r, (Runner.tasks 10 {} (shop (some sells)) quoteTwice (fun n => n == 1)
        quoteTwiceTasks).getLast? = some r ∧
      localActivityCalls.Replays {} (shop none) quoteTwice true
        (quoteTwiceTasks ++ [quoteTwiceEnd]).flatten r ∧
      (scanHistory (quoteTwiceTasks ++ [quoteTwiceEnd]).flatten).localActivities.length =
        r.localActivitySeq ∧
      ∃ q, Reaches Runner.step (Runner.fresh {} (shop none) quoteTwice true
        (quoteTwiceTasks ++ [quoteTwiceEnd]).flatten) q ∧ Recalls r q := by
  have hreports : (Runner.tasks 10 {} (shop (some sells)) quoteTwice (fun n => n == 1)
      quoteTwiceTasks).map Runner.report =
      [([quoted (.ok [{ data := [7] }]), .timerStarted "t0"], none, false),
        ([quoted (.error ("SoldOut", "sold out"))], some (.completeWorkflowExecution []),
          false)] := by
    decide +kernel
  obtain ⟨r, hr⟩ : ∃ r, (Runner.tasks 10 {} (shop (some sells)) quoteTwice (fun n => n == 1)
      quoteTwiceTasks).getLast? = some r := ⟨_, rfl⟩
  have hserved : Served (quoteTwiceTasks ++ [quoteTwiceEnd]).flatten :=
    ⟨by decide +kernel, by decide +kernel, by decide +kernel, by decide +kernel⟩
  have hrec : Recording 10 {} (shop (some sells)) quoteTwice (fun n => n == 1) quoteTwiceTasks
      quoteTwiceEnd r :=
    .of_reports DataConverter.tagged_roundTrips hserved (by decide +kernel) (by decide +kernel)
      hreports (by decide +kernel) (by decide +kernel) (by decide +kernel) (by decide +kernel) hr
  have hrepeats : Runner.Throughout 10 {} (shop (some sells)) quoteTwice Runner.Repeats
      (fun n => n == 1) 0 [] none quoteTwiceTasks := .of_holds (by decide +kernel)
  obtain ⟨hreplays, hrecalls⟩ := Runner.localActivities_replay hrec
    (hrepeats.imp fun q hq type input options hop _ => by
      have hasks := hq.asks
      rw [hop] at hasks
      exact hasks)
    none true
  exact ⟨r, hr, hreplays, hrecalls hrepeats (.of_waiting (.of_holds (by decide +kernel)))⟩

/-- A body that asks the wrong counter first. -/
def askAround : WorkflowFn Unit where
  init := ()
  body _ answers :=
    match answers with
    | [] => .executeLocalActivity "Refund" [] {}
    | [_] => .executeLocalActivity "Quote" [] {}
    | [_, _] => .startTimer 1000000000
    | [_, _, _] => .get 0
    | _ => .finish (.returned [])

def askAroundTask : History :=
  [⟨1, .workflowExecutionStarted "AskAround" [] []⟩, ⟨2, .other⟩, ⟨3, .other⟩]

def askAroundEnd : History :=
  [⟨4, .other⟩, ⟨5, quoted (.error ("SoldOut", "sold out"))⟩, ⟨6, .timerStarted "t0"⟩]

/-- The call of an unregistered activity leaves no marker: on replay it gets the outcome of the
next call, which then runs its activity again. -/
theorem unregistered_shifts :
    ∃ r q, Recording 10 {} (shop (some sells)) askAround (fun _ => false) [askAroundTask]
        askAroundEnd r ∧
      Reaches Runner.step (Runner.fresh {} (shop (some sells)) askAround true
        ([askAroundTask] ++ [askAroundEnd]).flatten) q ∧
      localActivityCalls.answers r = [.applicationError "no activity registered for type: Refund"
        "NotRegisteredError", .applicationError "sold out" "SoldOut"] ∧
      localActivityCalls.answers q = [.applicationError "sold out" "SoldOut",
        .applicationError "sold out" "SoldOut"] ∧
      q.commands.map Command.event = [quoted (.error ("SoldOut", "sold out"))] ∧
      q.checkDeterminism = some ("[TMPRL1100] nondeterministic workflow: at command #1 history " ++
        "recorded StartTimer/t0 but replay produced RecordMarker/LocalActivity") := by
  have hreports : (Runner.tasks 10 {} (shop (some sells)) askAround (fun _ => false)
      [askAroundTask]).map Runner.report =
      [([quoted (.error ("SoldOut", "sold out")), .timerStarted "t0"], none, false)] := by
    decide +kernel
  have hserved : Served ([askAroundTask] ++ [askAroundEnd]).flatten :=
    ⟨by decide +kernel, by decide +kernel, by decide +kernel, by decide +kernel⟩
  have hlive : (Runner.tasks 10 {} (shop (some sells)) askAround (fun _ => false)
      [askAroundTask]).getLast?.map localActivityCalls.answers =
      some [.applicationError "no activity registered for type: Refund" "NotRegisteredError",
        .applicationError "sold out" "SoldOut"] := by decide +kernel
  have hreplay : (Parking.runFor Runner.step 10 (Runner.fresh {} (shop (some sells)) askAround true
      ([askAroundTask] ++ [askAroundEnd]).flatten)).map (fun q => (localActivityCalls.answers q,
        q.commands.map Command.event, q.checkDeterminism)) =
      some ([.applicationError "sold out" "SoldOut", .applicationError "sold out" "SoldOut"],
        [quoted (.error ("SoldOut", "sold out"))],
        some ("[TMPRL1100] nondeterministic workflow: at command #1 history " ++
          "recorded StartTimer/t0 but replay produced RecordMarker/LocalActivity")) := by
    decide +kernel
  obtain ⟨r, hr, hans⟩ := Option.map_eq_some_iff.mp hlive
  obtain ⟨q, hq, hrest⟩ := Option.map_eq_some_iff.mp hreplay
  simp only [Prod.mk.injEq] at hrest
  exact ⟨r, q, .of_reports DataConverter.tagged_roundTrips hserved (by decide +kernel)
    (by decide +kernel) hreports (by decide +kernel) (by decide +kernel) (by decide +kernel)
    (by decide +kernel) hr, (StateTransition.mem_eval.mp (Parking.runFor_mem_eval hq)).1, hans,
    hrest⟩

end Quotes
end TemporalSdk
