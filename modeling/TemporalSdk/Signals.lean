import TemporalSdk.Identity
import TemporalSdk.Delivery

/-! Signals from history to the code that receives them. They reach a runner in three ways, from
the scan, from the timeline that follows the first update, and with the events of a sticky
continuation, and they leave it through one cursor for each name. -/
namespace TemporalSdk

variable {σ : Type}

/-- The input of a signal of this name. -/
def HistoryEvent.signal? (name : String) (e : HistoryEvent) : Option Payloads :=
  match e.attributes with
  | .workflowExecutionSignaled n input => if n = name then some input else none
  | _ => none

/-- The inputs of the signals of one name, in the order of history. -/
def signalsOf (name : String) (h : History) : List Payloads := h.filterMap (·.signal? name)

/-- The events of a timeline. -/
def timelineEvents (steps : List ReplayStep) : History :=
  steps.filterMap fun
    | .event ev => some ev
    | .update _ _ => none

@[simp] theorem signalsOf_append (name : String) (h h' : History) :
    signalsOf name (h ++ h') = signalsOf name h ++ signalsOf name h' :=
  List.filterMap_append

theorem signalsOf_cons (name : String) (e : HistoryEvent) (h : History) :
    signalsOf name (e :: h) = (e.signal? name).toList ++ signalsOf name h := by
  cases hs : e.signal? name <;> simp [signalsOf, hs]

/-- The signals of one name that are in the buffer. -/
def Prescan.buffered (ps : Prescan) (name : String) : List Payloads := (ps.signals name).getD []

/-- The signal branch is the same in both switches. -/
theorem buffered_modify (m : PartialMap String (List Payloads)) (n name : String)
    (input : Payloads) : ((m.modify n [] (· ++ [input])) name).getD [] =
      (m name).getD [] ++ (if n = name then some input else none).toList := by
  by_cases h : n = name
  · subst h
    simp
  · rw [PartialMap.modify_of_ne _ (Ne.symm h)]
    simp [h]

namespace Prescan

variable (ps : Prescan)

theorem onActivity_signals (sid : Nat) (f : OpOutcome → OpOutcome) :
    (ps.onActivity sid f).signals = ps.signals := by
  unfold onActivity
  split <;> rfl

theorem onNexus_signals (sid : Nat) (f : OpOutcome → OpOutcome) :
    (ps.onNexus sid f).signals = ps.signals := by
  unfold onNexus
  split <;> rfl

theorem onActivity_timeline (sid : Nat) (f : OpOutcome → OpOutcome) :
    (ps.onActivity sid f).postUpdateTimeline = ps.postUpdateTimeline := by
  unfold onActivity
  split <;> rfl

theorem onNexus_timeline (sid : Nat) (f : OpOutcome → OpOutcome) :
    (ps.onNexus sid f).postUpdateTimeline = ps.postUpdateTimeline := by
  unfold onNexus
  split <;> rfl

theorem scanMarker_signals (name : String) (details : List (String × Payloads)) :
    (ps.scanMarker name details).signals = ps.signals := by
  unfold scanMarker
  repeat' split
  all_goals rfl

theorem scanMarker_timeline (name : String) (details : List (String × Payloads)) :
    (ps.scanMarker name details).postUpdateTimeline = ps.postUpdateTimeline := by
  unfold scanMarker
  repeat' split
  all_goals rfl

theorem scanEvent_buffered (ev : HistoryEvent) (name : String) :
    (ps.scanEvent ev).buffered name = ps.buffered name ++ (ev.signal? name).toList := by
  obtain ⟨eid, a⟩ := ev
  cases a with
  | workflowExecutionSignaled n input => exact buffered_modify ps.signals n name input
  | markerRecorded n details =>
    simp [scanEvent, buffered, scanMarker_signals, pushCommand, HistoryEvent.signal?]
  | _ =>
    simp [scanEvent, buffered, onActivity_signals, onNexus_signals, onChild, onTimer, pushCommand,
      HistoryEvent.signal?]

/-- Only an accepted update is put on the timeline by the switch itself. -/
theorem scanEvent_timeline (ev : HistoryEvent) :
    timelineEvents (ps.scanEvent ev).postUpdateTimeline = timelineEvents ps.postUpdateTimeline ∧
      (ev.attributes.isUpdateAccepted = false →
        (ps.scanEvent ev).postUpdateTimeline = ps.postUpdateTimeline) := by
  obtain ⟨eid, a⟩ := ev
  cases a with
  | workflowExecutionUpdateAccepted n args => exact ⟨by simp [scanEvent, timelineEvents], nofun⟩
  | markerRecorded n details =>
    have h : (ps.scanEvent ⟨eid, .markerRecorded n details⟩).postUpdateTimeline =
        ps.postUpdateTimeline := scanMarker_timeline _ _ _
    exact ⟨by rw [h], fun _ => h⟩
  | _ =>
    refine ⟨?_, fun _ => ?_⟩ <;>
      simp [scanEvent, onActivity_timeline, onNexus_timeline, onChild, onTimer, pushCommand]

end Prescan

/-- The scan loses no signal: what is not in the buffer is on the timeline, and comes later. -/
theorem scanStep_signals {s : Prescan × Bool} (hs : s.2 = false → s.1.postUpdateTimeline = [])
    (ev : HistoryEvent) (name : String) :
    (scanStep s ev).1.buffered name ++
        signalsOf name (timelineEvents (scanStep s ev).1.postUpdateTimeline) =
      (s.1.buffered name ++ signalsOf name (timelineEvents s.1.postUpdateTimeline)) ++
        (ev.signal? name).toList := by
  unfold scanStep
  dsimp only
  split_ifs with hd
  · have hevents : timelineEvents (s.1.postUpdateTimeline ++ [.event ev]) =
        timelineEvents s.1.postUpdateTimeline ++ [ev] := by simp [timelineEvents]
    rw [hevents, signalsOf_append, ← List.append_assoc, signalsOf_cons]
    simp [Prescan.buffered, signalsOf]
  · rw [Prescan.scanEvent_buffered, (Prescan.scanEvent_timeline _ ev).1]
    -- A signal that goes to the buffer finds no event on the timeline before it.
    by_cases hseen : s.2 = true
    · have hnone : ev.signal? name = none := by
        cases hattr : ev.attributes <;>
          simp_all [isDeferredOnReplay, HistoryEvent.signal?]
      simp [hnone, Prescan.buffered]
    · have hempty := hs (by simpa using hseen)
      simp [hempty, timelineEvents, signalsOf, Prescan.buffered]

theorem scanStep_timeline {s : Prescan × Bool} (hs : s.2 = false → s.1.postUpdateTimeline = [])
    (ev : HistoryEvent) :
    (scanStep s ev).2 = false → (scanStep s ev).1.postUpdateTimeline = [] := by
  unfold scanStep
  dsimp only
  intro h
  split_ifs at h ⊢ with hd
  · simp_all
  · simp only [Bool.or_eq_false_iff] at h
    rw [(Prescan.scanEvent_timeline _ ev).2 h.2]
    exact hs h.1

/-- Every signal of history is in the buffer or on the timeline, in order. -/
theorem scanHistory_signals (h : History) (name : String) :
    (scanHistory h).buffered name ++
      signalsOf name (timelineEvents (scanHistory h).postUpdateTimeline) = signalsOf name h := by
  have hgen : ∀ (h : History) (s : Prescan × Bool), (s.2 = false → s.1.postUpdateTimeline = []) →
      (h.foldl scanStep s).1.buffered name ++
          signalsOf name (timelineEvents (h.foldl scanStep s).1.postUpdateTimeline) =
        (s.1.buffered name ++ signalsOf name (timelineEvents s.1.postUpdateTimeline)) ++
          signalsOf name h := by
    intro h
    induction h with
    | nil => intro s _; simp [signalsOf]
    | cons ev h ih =>
      intro s hs
      rw [List.foldl_cons, ih _ (scanStep_timeline hs ev), scanStep_signals hs ev name,
        signalsOf_cons, List.append_assoc]
  rw [scanHistory, hgen h ({}, false) fun _ => rfl]
  simp [Prescan.buffered, timelineEvents, signalsOf]

/-- The element after a prefix makes the prefix longer. -/
theorem prefix_concat {α : Type} {l l' : List α} {a : α} (h : l <+: l')
    (ha : l'[l.length]? = some a) : l ++ [a] <+: l' := by
  obtain ⟨t, rfl⟩ := h
  rw [List.getElem?_append_right le_rfl, Nat.sub_self] at ha
  cases t with
  | nil => cases ha
  | cons b t =>
    cases ha
    exact ⟨t, by simp⟩

/-- The signal an operation consumes the next of, if there is one. -/
def Op.consumes : Op σ → Option String
  | .receive name | .receiveAsync name => some name
  | _ => none

/-- The input that `Receive` or `ReceiveAsync` has given. -/
def Op.heard? (name : String) (op : Op σ) : Resp σ → Option Payloads
  | .received p => if op.consumes = some name then some p else none
  | _ => none

/-- What `f` keeps of each operation of a body and its answer, in order. -/
def Program.log {α : Type} (p : Program σ) (f : Op σ → Resp σ → Option α)
    (answers : List (Resp σ)) : List α :=
  (List.range answers.length).filterMap fun i => answers[i]?.bind (f (p (answers.take i)))

theorem Program.log_concat {α : Type} (p : Program σ) (f : Op σ → Resp σ → Option α)
    (answers : List (Resp σ)) (resp : Resp σ) :
    p.log f (answers ++ [resp]) = p.log f answers ++ (f (p answers) resp).toList := by
  have hlast : [answers.length].filterMap (fun i =>
      (answers ++ [resp])[i]?.bind (f (p ((answers ++ [resp]).take i)))) =
        (f (p answers) resp).toList := by
    rw [List.filterMap_cons, List.take_left, List.getElem?_concat_length]
    cases hf : f (p answers) resp <;> simp [hf]
  have hinit : (List.range answers.length).filterMap (fun i =>
      (answers ++ [resp])[i]?.bind (f (p ((answers ++ [resp]).take i)))) = p.log f answers := by
    apply List.filterMap_congr
    intro i hi
    have hlt := List.mem_range.mp hi
    rw [List.take_append_of_le_length hlt.le, List.getElem?_append_left hlt]
  rw [log, List.length_append, List.length_singleton, List.range_succ, List.filterMap_append,
    hinit, hlast]

namespace Runner

def buffered (r : Runner σ) (name : String) : List Payloads := r.scan.buffered name

def cursor (r : Runner σ) (name : String) : Nat := (r.signalCursor name).getD 0

theorem tryConsumeSignal_eq (r : Runner σ) (name : String) :
    r.tryConsumeSignal name = (r.buffered name)[r.cursor name]?.map fun p =>
      ({ r with signalCursor := r.signalCursor.insert name (r.cursor name + 1) }, p) := by
  unfold tryConsumeSignal buffered Prescan.buffered cursor
  cases r.scan.signals name with
  | none => rfl
  | some ps =>
    dsimp only [Option.getD_some]
    cases ps[(r.signalCursor name).getD 0]? <;> rfl

/-- `HasSignal` foretells `TryConsumeSignal`. -/
theorem hasSignal_eq (r : Runner σ) (name : String) :
    r.hasSignal name = (r.tryConsumeSignal name).isSome := by
  rw [tryConsumeSignal_eq, Option.isSome_map]
  unfold hasSignal buffered Prescan.buffered cursor
  cases r.scan.signals name with
  | none => rfl
  | some ps =>
    dsimp only [Option.getD_some]
    rw [Bool.eq_iff_iff, decide_eq_true_iff, Option.isSome_iff_ne_none, Ne,
      List.getElem?_eq_none_iff, Nat.not_le]

/-- The input a `TryConsumeSignal` for this name gives back in the course of an operation. -/
def consumedBy (name : String) (x : Runner σ × Op σ) : List Payloads :=
  if x.2.consumes = some name then ((x.1.tryConsumeSignal name).map Prod.snd).toList else []

/-- All inputs that the successful calls for this name gave back, in order. -/
def consumed (name : String) (asks : List (Runner σ × Op σ)) : List Payloads :=
  asks.flatMap (consumedBy name)

/-- The inputs that the body has been given for this name, in order, read off its answers. -/
def heard (r : Runner σ) (name : String) : List Payloads :=
  r.program.log (Op.heard? name) r.trace

@[simp] theorem consumed_append (name : String) (asks more : List (Runner σ × Op σ)) :
    consumed name (asks ++ more) = consumed name asks ++ consumed name more :=
  List.flatMap_append

theorem heard_of_frame {r r' : Runner σ} (h : Frame r r') (name : String) :
    r'.heard name = r.heard name := by
  rw [heard, heard, program, program, h.world, h.workflowFn, h.input, h.trace]

/-- What an operation consumes is what it answers. -/
theorem consumedBy_of_answers {r r' : Runner σ} {op : Op σ} {resp : Resp σ}
    (hx : r.exec op = some (r', resp)) (name : String) :
    consumedBy name (r, op) = (op.heard? name resp).toList := by
  by_cases hop : op.consumes = some name
  · cases op with
    | receive n =>
      cases hop
      obtain ⟨⟨q, p⟩, hq, he⟩ := Option.map_eq_some_iff.mp hx
      cases he
      simp [consumedBy, Op.heard?, Op.consumes, hq]
    | receiveAsync n =>
      cases hop
      simp only [Runner.exec] at hx
      split at hx <;> next hq =>
        cases hx
        simp [consumedBy, Op.heard?, Op.consumes, hq]
    | _ => cases hop
  · cases resp <;> simp [consumedBy, Op.heard?, hop]

/-- An operation that waits has nothing to consume. -/
theorem consumedBy_of_waits {r : Runner σ} {op : Op σ} (hx : r.exec op = none) (name : String) :
    consumedBy name (r, op) = [] := by
  unfold consumedBy
  split_ifs with hop
  · cases op with
    | receive n =>
      cases hop
      rw [Option.map_eq_none_iff.mp hx]
      rfl
    | receiveAsync n =>
      simp only [Runner.exec] at hx
      split at hx <;> cases hx
    | _ => cases hop
  · rfl

/-- The cursors of a runner after these operations. -/
structure Took (asks : List (Runner σ × Op σ)) (r : Runner σ) : Prop where
  cursor : ∀ name, r.cursor name = (consumed name asks).length
  buffered : ∀ name, consumed name asks <+: r.buffered name

section Operations

variable (r : Runner σ)

theorem openOperation_signalCursor (op : FutureOp) (id : String) (o : Option OpOutcome)
    (c : Command) : (r.openOperation op id o c).signalCursor = r.signalCursor := by
  unfold openOperation
  split <;> rfl

theorem startTimer_signalCursor (duration : Int) :
    (r.startTimer duration).signalCursor = r.signalCursor := by
  unfold startTimer
  dsimp only
  split <;> rfl

theorem requestCancelExternal_signalCursor (id : String) (childOnly : Bool) :
    (r.requestCancelExternal id childOnly).signalCursor = r.signalCursor := by
  unfold requestCancelExternal
  dsimp only
  split <;> rfl

theorem cancel_signalCursor (addr : Nat) : (r.cancel addr).signalCursor = r.signalCursor := by
  unfold cancel
  dsimp only
  split
  · rfl
  · split
    · split <;> rfl
    · split
      · rfl
      · split <;> rfl
    · exact r.requestCancelExternal_signalCursor _ _
    · rfl
    · rfl

theorem sideEffect_signalCursor : r.sideEffect.1.signalCursor = r.signalCursor := by
  unfold sideEffect
  dsimp only
  split
  · split <;> rfl
  · split <;> rfl

theorem getVersion_signalCursor (changeId : String) (lo hi : Int) :
    (r.getVersion changeId lo hi).1.signalCursor = r.signalCursor := by
  unfold getVersion
  split
  · dsimp only
    split <;> rfl
  · split <;> rfl

theorem mutableSideEffect_signalCursor (id : String) (equals : Value → Value → Bool) :
    (r.mutableSideEffect id equals).1.signalCursor = r.signalCursor := by
  unfold mutableSideEffect
  dsimp only
  repeat' split
  all_goals rfl

theorem executeLocalActivity_signalCursor (type : String) (input : Payloads)
    (options : LocalActivityOptions) :
    (r.executeLocalActivity type input options).1.signalCursor = r.signalCursor := by
  unfold executeLocalActivity
  dsimp only
  repeat' split
  all_goals rfl

/-- Nothing but a receive moves a cursor. -/
theorem exec_signalCursor {op : Op σ} (hop : op.consumes = none) {r' : Runner σ} {resp : Resp σ}
    (h : r.exec op = some (r', resp)) : r'.signalCursor = r.signalCursor := by
  cases op with
  | scheduleActivity type input options => cases h; exact openOperation_signalCursor _ _ _ _ _
  | startTimer duration => cases h; exact r.startTimer_signalCursor _
  | startChildWorkflow type input options => cases h; exact openOperation_signalCursor _ _ _ _ _
  | scheduleNexusOperation e s o i close => cases h; exact openOperation_signalCursor _ _ _ _ _
  | cancel addr => cases h; exact r.cancel_signalCursor _
  | cancelExternalWorkflow id => cases h; exact r.requestCancelExternal_signalCursor _ _
  | signalExternalWorkflow id name input =>
    cases h
    unfold signalExternalWorkflow
    split <;> rfl
  | upsertSearchAttributes attributes =>
    cases h
    unfold upsertSearchAttributes
    split <;> rfl
  | get addr =>
    simp only [exec, Option.ite_none_right_eq_some, Option.some.injEq, Prod.mk.injEq] at h
    rw [h.2.1]
  | receive name => cases hop
  | receiveAsync name => cases hop
  | select cases hasDefault =>
    simp only [exec] at h
    split at h
    · cases h; rfl
    · split at h
      · cases h; rfl
      · cases h
  | awaitCancellation =>
    cases h
    unfold awaitCancellation
    split <;> rfl
  | sideEffect =>
    have := r.sideEffect_signalCursor
    rwa [Option.some.inj h] at this
  | mutableSideEffect id equals =>
    have := r.mutableSideEffect_signalCursor id equals
    rwa [Option.some.inj h] at this
  | getVersion changeId lo hi =>
    have := r.getVersion_signalCursor changeId lo hi
    rwa [Option.some.inj h] at this
  | executeLocalActivity type input options =>
    have := r.executeLocalActivity_signalCursor type input options
    rwa [Option.some.inj h] at this
  | finish outcome => cases h
  | _ => cases h; rfl

end Operations

namespace Took

variable {asks : List (Runner σ × Op σ)} {r r' : Runner σ}

theorem of_eq (h : Took asks r) (hscan : r'.scan = r.scan)
    (hcursor : r'.signalCursor = r.signalCursor) : Took asks r' where
  cursor name := by
    rw [Runner.cursor, hcursor]
    exact h.cursor name
  buffered name := by
    rw [Runner.buffered, hscan]
    exact h.buffered name

/-- An operation that gives no signal back. -/
theorem idle (h : Took asks r) {op : Op σ} (hidle : ∀ name, consumedBy name (r, op) = []) :
    Took (asks ++ [(r, op)]) r := by
  have hsame (name : String) : consumed name (asks ++ [(r, op)]) = consumed name asks := by
    simp [consumed, hidle name]
  exact ⟨fun name => by rw [hsame, h.cursor], fun name => by rw [hsame]; exact h.buffered name⟩

/-- A call of `TryConsumeSignal` that succeeds gives back the next signal of its name. -/
theorem consume (h : Took asks r) {op : Op σ} {name : String} (hop : op.consumes = some name)
    {p : Payloads} (hp : r.tryConsumeSignal name = some (r', p)) :
    Took (asks ++ [(r, op)]) r' := by
  have hnew (n : String) : consumed n (asks ++ [(r, op)]) =
      consumed n asks ++ if name = n then [p] else [] := by
    have hby : consumedBy n (r, op) = if name = n then [p] else [] := by
      unfold consumedBy
      simp only [hop, Option.some.injEq]
      split_ifs with hn
      · rw [← hn, hp]
        rfl
      · rfl
    simp [consumed, hby]
  rw [tryConsumeSignal_eq] at hp
  obtain ⟨q, hq, he⟩ := Option.map_eq_some_iff.mp hp
  cases he
  refine ⟨fun n => ?_, fun n => ?_⟩
  · rw [hnew]
    by_cases hn : name = n
    · subst hn
      simp [Runner.cursor, ← h.cursor]
    · simp [Runner.cursor, hn, ← h.cursor, PartialMap.insert_of_ne _ (Ne.symm hn)]
  · rw [hnew]
    have hold := h.buffered n
    by_cases hn : name = n
    · subst hn
      rw [h.cursor] at hq
      rw [if_pos rfl]
      exact prefix_concat hold hq
    · rw [if_neg hn, List.append_nil]
      exact hold

/-- One operation that answers. -/
theorem exec (h : Took asks r) {op : Op σ} {resp : Resp σ} (hx : r.exec op = some (r', resp)) :
    Took (asks ++ [(r, op)]) r' := by
  have hscan := (r.exec_frame hx).scan
  cases hop : op.consumes with
  | none =>
    refine (h.idle fun name => ?_).of_eq hscan (r.exec_signalCursor hop hx)
    simp [consumedBy, hop]
  | some name =>
    cases op with
    | receive n =>
      cases hop
      obtain ⟨⟨q, p⟩, hq, he⟩ := Option.map_eq_some_iff.mp hx
      cases he
      exact h.consume rfl hq
    | receiveAsync n =>
      cases hop
      simp only [Runner.exec] at hx
      split at hx
      · next hq =>
        cases hx
        exact h.consume rfl hq
      · next hq =>
        cases hx
        refine h.idle fun n' => ?_
        unfold consumedBy
        split_ifs with hn
        · cases hn
          rw [hq]
          rfl
        · rfl
    | _ => cases hop

/-- One operation that waits. -/
theorem waits (h : Took asks r) {op : Op σ} (hx : r.exec op = none) :
    Took (asks ++ [(r, op)]) r :=
  h.idle (consumedBy_of_waits hx)

end Took

/-- The runner after the operations of `bodyAsks`. -/
def bodyEnd : Nat → Runner σ → Runner σ
  | 0, r => r.step.getD r
  | fuel + 1, r => (r.step.map (bodyEnd fuel)).getD r

/-- The runner after the operations of `handlerAsks`. -/
def handlerEnd (handler : Program σ) : Nat → Runner σ → List (Resp σ) → Runner σ
  | 0, r, _ => r
  | fuel + 1, r, answers =>
    if ((handler answers).outcome?).isSome then r
    else ((r.exec (handler answers)).map fun x =>
      handlerEnd handler fuel x.1 (answers ++ [x.2])).getD r

theorem bodyEnd_of_runFor {fuel : Nat} {r r' : Runner σ}
    (h : Parking.runFor step fuel r = some r') : bodyEnd fuel r = r' := by
  induction fuel generalizing r with
  | zero =>
    simp only [Parking.runFor, Option.isNone_iff_eq_none, Option.ite_none_right_eq_some,
      Option.some.injEq] at h
    rw [bodyEnd, h.1, ← h.2]
    rfl
  | succ fuel ih =>
    simp only [Parking.runFor] at h
    cases hs : r.step with
    | none =>
      simp only [hs, Option.some.injEq] at h
      rw [bodyEnd, hs, ← h]
      rfl
    | some q =>
      simp only [hs] at h
      simp [bodyEnd, hs, ih h]

theorem handlerEnd_of_runHandler {handler : Program σ} {fuel : Nat} {r r' : Runner σ}
    {answers : List (Resp σ)} {o : Outcome} (h : runHandler handler fuel r answers = some (r', o)) :
    handlerEnd handler fuel r answers = r' := by
  induction fuel generalizing r answers with
  | zero => cases h
  | succ fuel ih =>
    unfold runHandler at h
    split at h
    · next ho =>
      cases h
      simp [handlerEnd, ho]
    · next ho =>
      split at h
      · next hx => simp [handlerEnd, ho, hx, ih h]
      · cases h

theorem bodyEnd_scan (fuel : Nat) (r : Runner σ) : (bodyEnd fuel r).scan = r.scan := by
  induction fuel generalizing r with
  | zero =>
    cases hs : r.step with
    | none => simp [bodyEnd, hs]
    | some q => simpa [bodyEnd, hs] using step_scan hs
  | succ fuel ih =>
    cases hs : r.step with
    | none => simp [bodyEnd, hs]
    | some q => simpa [bodyEnd, hs, ih] using step_scan hs

theorem handlerEnd_frame (handler : Program σ) (fuel : Nat) (r : Runner σ)
    (answers : List (Resp σ)) : Frame r (handlerEnd handler fuel r answers) := by
  induction fuel generalizing r answers with
  | zero => exact Frame.rfl r
  | succ fuel ih =>
    unfold handlerEnd
    split_ifs
    · exact Frame.rfl r
    · cases hx : r.exec (handler answers) with
      | none => exact Frame.rfl r
      | some x => exact (r.exec_frame hx).trans (ih x.1 _)

namespace Took

variable {asks : List (Runner σ × Op σ)} {r r' : Runner σ}

/-- One step of the body. -/
theorem step (h : Took asks r) : Took (asks ++ r.asked?.toList.map (r, ·)) (r.step.getD r) := by
  cases ha : r.asked? with
  | some op =>
    rw [step_of_asked? ha]
    cases hx : r.exec op with
    | none => exact h.waits hx
    | some x => exact (h.exec hx).of_eq rfl rfl
  | none =>
    have hsame : Took (asks ++ []) r := by rwa [List.append_nil]
    cases hs : r.step with
    | none => exact hsame
    | some q =>
      refine hsame.of_eq (step_scan hs) ?_
      unfold Runner.step at hs
      split at hs
      · cases hs
      · next hd =>
        split at hs
        · next o ho =>
          cases hs
          cases o <;> rfl
        · next ho => simp [asked?, hd, ho] at ha

/-- A resumption of the body, as far as it gets. -/
theorem bodyEnd (h : Took asks r) (fuel : Nat) :
    Took (asks ++ bodyAsks fuel r) (r.bodyEnd fuel) := by
  induction fuel generalizing asks r with
  | zero => exact h.step
  | succ fuel ih =>
    have hnow := h.step
    unfold bodyAsks Runner.bodyEnd
    rw [← List.append_assoc]
    cases hs : r.step with
    | none =>
      rw [hs] at hnow
      simpa using hnow
    | some q =>
      rw [hs] at hnow
      exact ih hnow

/-- A run of a handler, as far as it gets. -/
theorem handlerEnd (h : Took asks r) (handler : Program σ) (fuel : Nat)
    (answers : List (Resp σ)) :
    Took (asks ++ handlerAsks handler fuel r answers) (handlerEnd handler fuel r answers) := by
  induction fuel generalizing asks r answers with
  | zero => simpa [handlerAsks, Runner.handlerEnd] using h
  | succ fuel ih =>
    unfold handlerAsks Runner.handlerEnd
    split_ifs
    · simpa using h
    · cases hx : r.exec (handler answers) with
      | none => exact h.waits hx
      | some x =>
        have hrest := ih (h.exec hx) (answers ++ [x.2])
        rwa [List.append_assoc, List.singleton_append] at hrest

end Took

/-- A step of the body hears what it consumes. -/
theorem heard_step (r : Runner σ) (name : String) : (r.step.getD r).heard name =
    r.heard name ++ consumed name (r.asked?.toList.map (r, ·)) := by
  cases ha : r.asked? with
  | some op =>
    rw [step_of_asked? ha]
    cases hx : r.exec op with
    | none => simp [consumed, consumedBy_of_waits hx]
    | some x =>
      have hop : r.program r.trace = op := by
        unfold asked? at ha
        split at ha
        · cases ha
        · exact Option.some.inj ha
      have hframe := r.exec_frame hx
      have hprogram : x.1.program = r.program := by
        rw [program, program, hframe.world, hframe.workflowFn, hframe.input]
      change x.1.program.log (Op.heard? name) (r.trace ++ [x.2]) = _
      rw [Program.log_concat, hprogram, hop, ← consumedBy_of_answers hx name]
      simp [heard, consumed]
  | none =>
    rw [Option.toList_none, List.map_nil, consumed, List.flatMap_nil, List.append_nil]
    cases hs : r.step with
    | none => rfl
    | some q =>
      unfold Runner.step at hs
      split at hs
      · cases hs
      · next hd =>
        split at hs
        · next o ho =>
          cases hs
          cases o <;> rfl
        · next ho => simp [asked?, hd, ho] at ha

theorem heard_bodyEnd (fuel : Nat) (r : Runner σ) (name : String) :
    (bodyEnd fuel r).heard name = r.heard name ++ consumed name (bodyAsks fuel r) := by
  induction fuel generalizing r with
  | zero => exact heard_step r name
  | succ fuel ih =>
    have hnow := heard_step r name
    unfold bodyAsks bodyEnd
    rw [consumed_append, ← List.append_assoc, ← hnow]
    cases r.step with
    | none => simp [consumed]
    | some q => exact ih q

/-- A body that is not back in time has heard nothing that counts. -/
theorem heard_resumeCoroutine (fuel : Nat) (r : Runner σ) (name : String) :
    ((r.resumeCoroutine fuel).heard name).Sublist
      (r.heard name ++ consumed name (bodyAsks fuel r)) := by
  unfold resumeCoroutine
  split
  · next hrun => rw [← heard_bodyEnd, bodyEnd_of_runFor hrun]
  · exact List.sublist_append_left _ _

theorem applyEventToState_heard (r : Runner σ) (ev : HistoryEvent) (name : String) :
    (r.applyEventToState ev).heard name = r.heard name := by
  obtain ⟨scan, futures, h⟩ := r.applyEventToState_touches ev
  rw [h]
  rfl

theorem applyEventToState_signalCursor (r : Runner σ) (ev : HistoryEvent) :
    (r.applyEventToState ev).signalCursor = r.signalCursor := by
  obtain ⟨scan, futures, h⟩ := r.applyEventToState_touches ev
  rw [h]

theorem buffered_of_signals_eq {r r' : Runner σ} (h : r'.scan.signals = r.scan.signals)
    (name : String) : r'.buffered name = r.buffered name ++ [] := by
  rw [List.append_nil, buffered, buffered, Prescan.buffered, Prescan.buffered, h]

theorem applyEventToState_buffered (r : Runner σ) (ev : HistoryEvent) (name : String) :
    (r.applyEventToState ev).buffered name = r.buffered name ++ (ev.signal? name).toList := by
  obtain ⟨eid, a⟩ := ev
  cases a with
  | workflowExecutionSignaled n input => exact buffered_modify r.scan.signals n name input
  | workflowExecutionCancelRequested =>
    have hs := foldl_setFuture_scan r.cancelFutures
      { r with scan := { r.scan with cancelRequested := true } }
    exact buffered_of_signals_eq (congrArg Prescan.signals hs) name
  | _ => first
    | exact buffered_of_signals_eq rfl name
    | exact buffered_of_signals_eq (congrArg Prescan.signals (resolveFuture_scan r _ _)) name
    | exact buffered_of_signals_eq (Prescan.onActivity_signals _ _ _) name

theorem halted_of_flags {r r' : Runner σ} (hs : r'.started = r.started) (hd : r'.done = r.done)
    (hl : r'.deadlocked = r.deadlocked) (hh : r'.hung = r.hung) (he : r'.escaped = r.escaped) :
    r'.halted = r.halted := by
  rw [halted, halted, hs, hd, hl, hh, he]

theorem applyEventToState_halted (r : Runner σ) (ev : HistoryEvent) :
    (r.applyEventToState ev).halted = r.halted := by
  obtain ⟨scan, futures, h⟩ := r.applyEventToState_touches ev
  rw [h]
  rfl

/-- A runner in the middle of a replay. Every signal of `S` is in its buffer or still to come, what
has been consumed comes first, and what the body was given is part of it. -/
structure Delivering (S : String → List Payloads) (rest : History)
    (asks : List (Runner σ × Op σ)) (r : Runner σ) : Prop where
  consumed : ∀ name, consumed name asks <+: S name
  heard : ∀ name, (r.heard name).Sublist (Runner.consumed name asks)
  buffered : ∀ name, r.buffered name <+: S name
  took : r.deadlocked = false → r.hung = false → Took asks r
  rest : r.halted = false → ∀ name, r.buffered name ++ signalsOf name rest = S name

/-- A runner that has been given a continuation and not been resumed yet. -/
def received (r : Runner σ) (history : History) : Runner σ :=
  { r with commands := [], producedCommands := [] }.applyEvents history

namespace Delivering

variable {S : String → List Payloads} {rest : History} {asks : List (Runner σ × Op σ)}
  {r : Runner σ}

theorem not_halted (hr : r.halted = false) : r.deadlocked = false ∧ r.hung = false := by
  simp only [halted, Bool.or_eq_false_iff] at hr
  exact ⟨hr.1.1.2, hr.1.2⟩

/-- The body is resumed. -/
theorem resume (h : Delivering S rest asks r) (hr : r.halted = false) (fuel : Nat) :
    Delivering S rest (asks ++ bodyAsks fuel r) (r.resumeCoroutine fuel) := by
  obtain ⟨hlive, hup⟩ := not_halted hr
  have htook := (h.took hlive hup).bodyEnd fuel
  have hscan : (r.resumeCoroutine fuel).scan = r.scan := resumeCoroutine_scan fuel r
  have hbuffered (name : String) : (r.resumeCoroutine fuel).buffered name = r.buffered name := by
    rw [Runner.buffered, hscan]
    rfl
  refine ⟨fun name => ?_, fun name => ?_, fun name => ?_, fun hd _ => ?_, fun _ name => ?_⟩
  · have hin := htook.buffered name
    rw [Runner.buffered, bodyEnd_scan] at hin
    exact hin.trans (h.buffered name)
  · rw [consumed_append]
    exact (heard_resumeCoroutine fuel r name).trans ((h.heard name).append_right _)
  · rw [hbuffered]
    exact h.buffered name
  · unfold resumeCoroutine at hd ⊢
    split at hd
    · next hrun =>
      rw [bodyEnd_of_runFor hrun] at htook
      simpa [hrun] using htook
    · cases hd
  · rw [hbuffered]
    exact h.rest hr name

/-- An event is applied. -/
theorem event {ev : HistoryEvent} (h : Delivering S (ev :: rest) asks r) (hr : r.halted = false) :
    Delivering S rest asks (r.applyEventToState ev) := by
  obtain ⟨hlive, hup⟩ := not_halted hr
  have htook := h.took hlive hup
  have hall (name : String) :
      (r.applyEventToState ev).buffered name ++ signalsOf name rest = S name := by
    rw [applyEventToState_buffered, List.append_assoc, ← signalsOf_cons]
    exact h.rest hr name
  have hheard (name : String) :
      ((r.applyEventToState ev).heard name).Sublist (Runner.consumed name asks) := by
    rw [applyEventToState_heard]
    exact h.heard name
  refine ⟨h.consumed, hheard, fun name => ⟨_, hall name⟩, fun _ _ => ?_, fun _ => hall⟩
  refine ⟨fun name => ?_, fun name => ?_⟩
  · rw [Runner.cursor, applyEventToState_signalCursor]
    exact htook.cursor name
  · rw [applyEventToState_buffered]
    exact (htook.buffered name).trans (List.prefix_append _ _)

/-- A handler is run on the calling thread. -/
theorem handler (h : Delivering S rest asks r) (hlive : r.deadlocked = false)
    (hup : r.hung = false) (handler : Program σ) (fuel : Nat) :
    Delivering S rest (asks ++ handlerAsks handler fuel r []) (handlerEnd handler fuel r []) := by
  have hframe := handlerEnd_frame handler fuel r []
  have htook := (h.took hlive hup).handlerEnd handler fuel []
  have hbuffered (name : String) :
      (handlerEnd handler fuel r []).buffered name = r.buffered name := by
    rw [Runner.buffered, hframe.scan]
    rfl
  refine ⟨fun name => ?_, fun name => ?_, fun name => ?_, fun _ _ => htook, fun hh name => ?_⟩
  · have hin := htook.buffered name
    rw [hbuffered] at hin
    exact hin.trans (h.buffered name)
  · rw [heard_of_frame hframe, consumed_append]
    exact (h.heard name).trans (List.sublist_append_left _ _)
  · rw [hbuffered]
    exact h.buffered name
  · rw [hbuffered]
    refine h.rest ?_ name
    rwa [halted_of_flags hframe.started hframe.done hframe.deadlocked hframe.hung
      hframe.escaped] at hh

/-- The handler of an accepted update is run again. -/
theorem update (h : Delivering S rest asks r) (hr : r.halted = false) (fuel : Nat) (name : String)
    (args : Payloads) : Delivering S rest (asks ++ r.updateAsks fuel name args)
      (r.reapplyUpdate fuel name args) := by
  unfold updateAsks reapplyUpdate
  cases hu : r.updateHandlers name with
  | none => simpa using h
  | some p =>
    obtain ⟨hlive, hup⟩ := not_halted hr
    have hran := h.handler hlive hup (p args) fuel
    dsimp only [Option.map_some, Option.getD_some]
    cases hrun : runHandler (p args) fuel r [] with
    | none =>
      -- The thread is stuck in the handler, and nothing more is asked of this runner.
      refine ⟨hran.consumed, fun name => ?_, h.buffered, fun _ hh => (nomatch hh), fun hh => ?_⟩
      · rw [consumed_append]
        exact (h.heard name).trans (List.sublist_append_left _ _)
      simp [halted] at hh
    | some x =>
      rw [handlerEnd_of_runHandler hrun] at hran
      dsimp only
      split_ifs
      · refine ⟨hran.consumed, hran.heard, hran.buffered,
          fun hd hh => (hran.took hd hh).of_eq rfl rfl, fun hh => ?_⟩
        simp [halted] at hh
      · exact hran

/-- What a runner that has halted would still be given does not matter. -/
theorem of_halted (h : Delivering S rest asks r) (hr : r.halted = true) (rest' : History) :
    Delivering S rest' asks r :=
  ⟨h.consumed, h.heard, h.buffered, h.took, fun hh => absurd (hr.symm.trans hh) nofun⟩

theorem beforeResume {s : ReplayStep} {steps : List ReplayStep}
    (h : Delivering S (timelineEvents (s :: steps)) asks r) (hr : r.halted = false) (fuel : Nat) :
    Delivering S (timelineEvents steps)
      (asks ++ match s with
        | .update name args => r.updateAsks fuel name args
        | .event _ => []) (r.beforeResume fuel s) := by
  cases s with
  | event ev =>
    dsimp only
    rw [List.append_nil]
    exact h.event hr
  | update name args => exact h.update hr fuel name args

/-- One step of the timeline. -/
theorem reapplyStep {s : ReplayStep} {steps : List ReplayStep}
    (h : Delivering S (timelineEvents (s :: steps)) asks r) (fuel : Nat) :
    Delivering S (timelineEvents steps) (asks ++ if r.halted then [] else r.stepAsks fuel s)
      (reapplyStep fuel r s) := by
  rw [reapplyStep_eq]
  by_cases hr : r.halted = true
  · simp only [if_pos hr, List.append_nil]
    exact h.of_halted hr _
  · have hnow := h.beforeResume (Bool.eq_false_iff.mpr hr) fuel
    simp only [if_neg hr]
    unfold stepAsks
    rw [← List.append_assoc]
    by_cases hb : (r.beforeResume fuel s).halted = true
    · simp only [if_pos hb, List.append_nil]
      exact hnow
    · simp only [if_neg hb]
      exact hnow.resume (Bool.eq_false_iff.mpr hb) fuel

/-- The whole timeline. -/
theorem timeline {steps : List ReplayStep} (h : Delivering S (timelineEvents steps) asks r)
    (fuel : Nat) : Delivering S [] (asks ++ timelineAsks fuel r steps)
      (steps.foldl (Runner.reapplyStep fuel) r) := by
  induction steps generalizing asks r with
  | nil => simpa [timelineAsks, timelineEvents] using h
  | cons s steps ih =>
    rw [List.foldl_cons, timelineAsks, ← List.append_assoc]
    exact ih (h.reapplyStep fuel)

/-- A replay from scratch. -/
theorem run (info : WorkflowInfo) (isReplaying : Bool) (world : World σ) (fn : WorkflowFn σ)
    (h : History) (fuel : Nat) :
    Delivering (signalsOf · h) [] ((replay info isReplaying world fn h).runAsks fuel)
      ((replay info isReplaying world fn h).run fuel) := by
  have hstart : Delivering (signalsOf · h)
      (timelineEvents (scanHistory h).postUpdateTimeline) []
      { replay info isReplaying world fn h with
        commands := [], producedCommands := [], started := true } :=
    ⟨fun _ => List.nil_prefix, fun _ => List.nil_sublist _,
      fun name => ⟨_, scanHistory_signals h name⟩,
      fun _ _ => ⟨fun _ => rfl, fun _ => List.nil_prefix⟩, fun _ => scanHistory_signals h⟩
  have hfirst := hstart.resume rfl fuel
  have hscan : ((replay info isReplaying world fn h).firstResume fuel).scan = scanHistory h :=
    resumeCoroutine_scan fuel _
  have hrest := hfirst.timeline fuel
  unfold runAsks
  rw [hscan]
  change Delivering _ _ _
    (((replay info isReplaying world fn h).firstResume fuel).scan.postUpdateTimeline.foldl
      (Runner.reapplyStep fuel) ((replay info isReplaying world fn h).firstResume fuel))
  rw [hscan]
  exact hrest

/-- New events are applied, one after the other. -/
theorem applyEvents {evs : History} (h : Delivering S evs asks r) (hr : r.halted = false)
    (hnew : ∀ e ∈ evs, r.lastEventId < e.eventId) (hup : evs.Pairwise (·.eventId < ·.eventId)) :
    Delivering S [] asks (r.applyEvents evs) ∧ (r.applyEvents evs).halted = false := by
  induction evs generalizing r with
  | nil => exact ⟨h, hr⟩
  | cons e evs ih =>
    rw [r.applyEvents_cons_new (hnew e List.mem_cons_self)]
    have hnext := h.event hr
    have hone : Delivering S evs asks (r.applyOne e) :=
      ⟨hnext.consumed, hnext.heard, hnext.buffered,
        fun hd hh => ⟨(hnext.took hd hh).cursor, (hnext.took hd hh).buffered⟩, hnext.rest⟩
    obtain ⟨hlater, hup'⟩ := List.pairwise_cons.mp hup
    exact ih hone ((r.applyEventToState_halted e).trans hr) hlater hup'

/-- A continuation of a cached runner. Events that come a second time are not applied. -/
theorem applyAndResume (h : Delivering S [] asks r) (hr : r.halted = false) {old evs : History}
    (hold : ∀ e ∈ old, e.eventId ≤ r.lastEventId) (hnew : ∀ e ∈ evs, r.lastEventId < e.eventId)
    (hup : evs.Pairwise (·.eventId < ·.eventId)) (fuel : Nat) :
    Delivering (fun name => S name ++ signalsOf name evs) []
      (asks ++ bodyAsks fuel (r.received (old ++ evs))) (r.applyAndResume fuel (old ++ evs)) := by
  have hskip : r.received (old ++ evs) =
      { r with commands := [], producedCommands := [] }.applyEvents evs := by
    have hstale := applyEvents_of_stale { r with commands := [], producedCommands := [] } hold
    unfold received
    rw [Runner.applyEvents, List.foldl_append]
    exact congrArg (Runner.applyEvents · evs) hstale
  obtain ⟨hlive, hidle⟩ := not_halted hr
  have htook := h.took hlive hidle
  have hbuffered (name : String) : r.buffered name = S name := by
    have := h.rest hr name
    rwa [signalsOf, List.filterMap_nil, List.append_nil] at this
  -- The signals that were delivered before come first.
  have hstart : Delivering (fun name => S name ++ signalsOf name evs) evs asks
      { r with commands := [], producedCommands := [] } :=
    ⟨fun name => (h.consumed name).trans (List.prefix_append _ _), h.heard,
      fun name => (h.buffered name).trans (List.prefix_append _ _),
      fun _ _ => htook.of_eq rfl rfl,
      fun _ name => congrArg (· ++ signalsOf name evs) (hbuffered name)⟩
  obtain ⟨hall, hready⟩ := hstart.applyEvents hr hnew hup
  rw [← hskip] at hall hready
  have hstarted : (r.received (old ++ evs)).started = true := by
    simp only [halted, Bool.or_eq_false_iff, Bool.not_eq_false'] at hready
    exact hready.1.1.1.1
  have hresume : r.applyAndResume fuel (old ++ evs) =
      (r.received (old ++ evs)).resumeCoroutine fuel := if_pos hstarted
  rw [hresume]
  exact hall.resume hready fuel

end Delivering

/-- The runners of one execution, each with the history it has been given and with everything that
was asked of it. An evicted runner is followed by another replay, of the history then. -/
inductive Life (world : World σ) (fn : WorkflowFn σ) :
    History → List (Runner σ × Op σ) → Runner σ → Prop
  | replayed (info : WorkflowInfo) (isReplaying : Bool) (h : History) (fuel : Nat) :
    Life world fn h ((replay info isReplaying world fn h).runAsks fuel)
      ((replay info isReplaying world fn h).run fuel)
  | continued {h : History} {asks : List (Runner σ × Op σ)} {r : Runner σ}
    (life : Life world fn h asks r) (live : r.halted = false) {old evs : History}
    (consumed : ∀ e ∈ old, e.eventId ≤ r.lastEventId)
    (new : ∀ e ∈ evs, r.lastEventId < e.eventId) (increasing : evs.Pairwise (·.eventId < ·.eventId))
    (fuel : Nat) :
    Life world fn (h ++ evs) (asks ++ bodyAsks fuel (r.received (old ++ evs)))
      (r.applyAndResume fuel (old ++ evs))
  | handled {h : History} {asks : List (Runner σ × Op σ)} {r : Runner σ}
    (life : Life world fn h asks r) (live : r.deadlocked = false) (idle : r.hung = false)
    (handler : Program σ) (fuel : Nat) :
    Life world fn h (asks ++ handlerAsks handler fuel r []) (handlerEnd handler fuel r [])

theorem Life.delivering {world : World σ} {fn : WorkflowFn σ} {h : History}
    {asks : List (Runner σ × Op σ)} {r : Runner σ} (life : Life world fn h asks r) :
    Delivering (signalsOf · h) [] asks r := by
  induction life with
  | replayed info isReplaying h fuel => exact .run info isReplaying world fn h fuel
  | continued _ live consumed new increasing fuel ih =>
    simp only [signalsOf_append]
    exact ih.applyAndResume live consumed new increasing fuel
  | handled _ live idle handler fuel ih => exact ih.handler live idle handler fuel

/-- Signals are delivered once, in order and under their own name. What the successful calls gave
back for a name are the first signals of that name in history; what the body was answered with is
among them, in order; as long as the body goes on, the next call gives back the next one, if history
has one; and `HasSignal` foretells it. -/
theorem signals_exactly_once {world : World σ} {fn : WorkflowFn σ} {h : History}
    {asks : List (Runner σ × Op σ)} {r : Runner σ} (life : Life world fn h asks r)
    (name : String) :
    (∀ (k : Nat) (input : Payloads), (consumed name asks)[k]? = some input →
      (signalsOf name h)[k]? = some input) ∧
    (r.heard name).Sublist (consumed name asks) ∧
    (r.halted = false → (r.tryConsumeSignal name).map Prod.snd =
      (signalsOf name h)[(consumed name asks).length]?) ∧
    ∀ q : Runner σ, q.hasSignal name = (q.tryConsumeSignal name).isSome := by
  have hd := life.delivering
  refine ⟨fun k input hk => ?_, hd.heard name, fun hr => ?_, fun q => q.hasSignal_eq name⟩
  · obtain ⟨rest, hrest⟩ := hd.consumed name
    rw [← hrest, List.getElem?_append_left (List.getElem?_eq_some_iff.mp hk).1, hk]
  · obtain ⟨hlive, hidle⟩ := Delivering.not_halted hr
    have hall := hd.rest hr name
    rw [signalsOf, List.filterMap_nil, List.append_nil] at hall
    rw [tryConsumeSignal_eq, Option.map_map, (hd.took hlive hidle).cursor, ← hall]
    exact Option.map_id_apply

/-- A body that receives nudges for ever. -/
def nudged : WorkflowFn Unit := ⟨(), fun _ _ => .receive "nudge"⟩

/-- One nudge before the first task and one after it, with another signal between them. -/
def nudgedFirst : History :=
  [⟨1, .workflowExecutionStarted "Nudged" [] []⟩, ⟨2, .workflowExecutionSignaled "nudge" []⟩,
    ⟨3, .other⟩, ⟨4, .other⟩]

def nudgedAgain : History :=
  [⟨5, .workflowExecutionSignaled "other" []⟩,
    ⟨6, .workflowExecutionSignaled "nudge" [{ data := [1] }]⟩, ⟨7, .other⟩]

def nudgedOnce : Runner Unit := replay {} false (.plain .tagged) nudged nudgedFirst

theorem nudges_exactly_once :
    ∃ asks r, Life (.plain .tagged) nudged (nudgedFirst ++ nudgedAgain) asks r ∧
      consumed "nudge" asks = [[], [{ data := [1] }]] ∧ r.halted = false ∧
      (r.tryConsumeSignal "nudge").map Prod.snd =
        (signalsOf "nudge" (nudgedFirst ++ nudgedAgain))[2]? := by
  have hfirst : Life (.plain .tagged) nudged nudgedFirst (nudgedOnce.runAsks 3)
      (nudgedOnce.run 3) := .replayed {} false nudgedFirst 3
  have hagain : Life (.plain .tagged) nudged (nudgedFirst ++ nudgedAgain)
      (nudgedOnce.runAsks 3 ++ bodyAsks 3 ((nudgedOnce.run 3).received ([] ++ nudgedAgain)))
      ((nudgedOnce.run 3).applyAndResume 3 ([] ++ nudgedAgain)) :=
    hfirst.continued (by decide +kernel) (List.forall_mem_nil _) (by decide +kernel)
      (by decide +kernel) 3
  have hasks : consumed "nudge" (nudgedOnce.runAsks 3 ++
      bodyAsks 3 ((nudgedOnce.run 3).received ([] ++ nudgedAgain))) = [[], [{ data := [1] }]] := by
    decide +kernel
  have hlive : ((nudgedOnce.run 3).applyAndResume 3 ([] ++ nudgedAgain)).halted = false := by
    decide +kernel
  have hnext := (signals_exactly_once hagain "nudge").2.2.1 hlive
  rw [hasks] at hnext
  exact ⟨_, _, hagain, hasks, hlive, hnext⟩

end Runner
end TemporalSdk
