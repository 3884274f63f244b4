import ShardQuery.Engine.TaskGroup
import ShardQuery.Proofs.Outcome
/-!
Map tasks in every order of steps. Main statement: a call that its caller sees through to the end comes to what its
tasks answer, joined in node order, and no order of their steps makes a difference.
-/

set_option autoImplicit false

namespace ShardQuery

namespace Cancellation

variable (c : Cancellation) (token other : CancelToken)

theorem cancelled_later (cancelled : c.isCancelled token = true) : (c.cancel other).isCancelled token = true := by
  obtain ⟨flag, among, raised⟩ := List.any_eq_true.mp cancelled
  rw [cancel]
  split
  · exact List.any_eq_true.mpr ⟨flag, among, List.contains_iff_mem.mpr
      (List.mem_cons_of_mem _ (List.contains_iff_mem.mp raised))⟩
  · exact cancelled

theorem cancel_cancels (flagged : token.flags ≠ []) : (c.cancel token).isCancelled token = true := by
  rw [cancel, List.getLast?_eq_some_getLast flagged]
  exact List.any_eq_true.mpr ⟨_, List.getLast_mem flagged, List.contains_iff_mem.mpr List.mem_cons_self⟩

-- A child is cancelled on its own.
theorem cancel_child {flag : Nat} (own : token.flags = other.flags ++ [flag]) (fresh : flag ∉ other.flags) :
    (c.cancel token).isCancelled other = c.isCancelled other := by
  have last : token.flags.getLast? = some flag := by rw [own, List.getLast?_concat]
  rw [cancel, last, isCancelled, isCancelled, Bool.eq_iff_iff, List.any_eq_true, List.any_eq_true]
  refine exists_congr fun asked => and_congr_right fun among => ?_
  rw [List.contains_iff_mem, List.contains_iff_mem, List.mem_cons, or_iff_right]
  rintro rfl
  exact fresh among

end Cancellation

namespace MapReduce

-- What a caller is told of the responses of its nodes, in their order.
inductive Tells : List Response → Response → Prop
  | rows (parts : List (List Row)) : Tells (parts.map .ok) (.ok parts.flatten)
  | failure (before after : List Response) (e : EngineError) (first : ∀ e', .error e' ∈ before → e' = .cancelled)
      (own : e ≠ .cancelled) : Tells (before ++ .error e :: after) (.error e)
  | cancelled (responses : List Response) (only : ∀ e, .error e ∈ responses → e = .cancelled)
      (some : .error .cancelled ∈ responses) : Tells responses (.error .cancelled)

theorem reduce_tells (responses : List Response) : Tells responses (reduce responses) := by
  rw [reduce]
  cases found : firstFailure? responses with
  | some e =>
      obtain ⟨before, response, after, rfl, chosen, quiet⟩ := List.findSome?_eq_some_iff.mp found
      split at chosen
      · cases chosen
      · rename_i e' other
        cases chosen
        refine .failure before after e (fun e' among => ?_) fun same => other (same ▸ rfl)
        have nothing := quiet _ among
        cases e' <;> first | rfl | cases nothing
      · cases chosen
  | none =>
      have only : ∀ e, .error e ∈ responses → e = .cancelled := by
        intro e among
        have nothing := List.findSome?_eq_none_iff.mp found _ among
        cases e <;> first | rfl | cases nothing
      dsimp only
      split
      · rename_i some
        obtain ⟨response, among, was⟩ := List.any_eq_true.mp some
        refine .cancelled responses only ?_
        cases response with
        | ok rows => cases was
        | error e => exact only e among ▸ among
      · rename_i none
        have given : ∀ response ∈ responses, (.ok (rowsOf response) : Response) = response := by
          intro response among
          cases response with
          | ok rows => rfl
          | error e =>
              obtain rfl := only e among
              exact absurd (List.any_eq_true.mpr ⟨_, among, rfl⟩) none
        have whole : (responses.map rowsOf).map .ok = responses := by
          rw [List.map_map]
          exact (List.map_congr_left given).trans (List.map_id _)
        have told := Tells.rows (responses.map rowsOf)
        rwa [whole, ← List.flatMap_def] at told

end MapReduce

namespace MapTask

-- What a task answers to a caller who sees the run through to its end.
def answer (node : NodeId) : MapTask → Response
  | .finish ending => ending.response node
  | .await (some ending) => ending.response node
  | .await none | .cancelCaller => .error .cancelled

def leavesCaller : MapTask → Bool
  | .cancelCaller => false
  | _ => true

end MapTask

namespace TaskGroup

variable {group : TaskGroup} {tasks : List (NodeId × MapTask)}

-- A group whose tasks have yet to take their first turn. The caller may have been cancelled, and his time may be up.
structure Called (tasks : List (NodeId × MapTask)) (group : TaskGroup) : Prop where
  members : group.members = tasks.map fun task => ⟨task.1, task.2, none⟩
  flagged : group.caller.flags ≠ []
  child : ∃ flag, group.own.flags = group.caller.flags ++ [flag] ∧ flag ∉ group.caller.flags

-- What a call comes to along the given events, unless a task is not done yet.
def comesTo (group : TaskGroup) (events : List Event) : Option Response :=
  match group.check group.caller with
  | .error e => some (.error e)
  | .ok () => if (group.after events).finished then some (group.after events).outcome else none

def Live (group : TaskGroup) : Prop := group.check group.caller = .ok ()

-- What no event takes back.
structure Onward (earlier later : TaskGroup) : Prop where
  caller : later.caller = earlier.caller
  own : later.own = earlier.own
  deadline : later.deadline? = earlier.deadline?
  clock : earlier.clock ≤ later.clock
  cancelled : ∀ token, earlier.cancellation.isCancelled token = true → later.cancellation.isCancelled token = true

theorem onward_refl (group : TaskGroup) : group.Onward group := ⟨rfl, rfl, rfl, Nat.le_refl _, fun _ => id⟩

theorem Onward.trans {a b c : TaskGroup} (first : a.Onward b) (second : b.Onward c) : a.Onward c :=
  ⟨second.caller.trans first.caller, second.own.trans first.own, second.deadline.trans first.deadline,
    Nat.le_trans first.clock second.clock, fun token cancelled => second.cancelled token (first.cancelled token cancelled)⟩

theorem check_ok_iff (group : TaskGroup) (token : CancelToken) : group.check token = .ok () ↔
    group.cancellation.isCancelled token = false ∧ ∀ deadline ∈ group.deadline?, group.clock < deadline := by
  rw [check]
  cases group.cancellation.isCancelled token with
  | true => simp
  | false =>
      cases group.deadline? with
      | none => simp
      | some deadline => simp

theorem Onward.live {earlier later : TaskGroup} (onward : earlier.Onward later) (live : later.Live) : earlier.Live := by
  rw [Live, check_ok_iff, onward.caller, onward.deadline] at live
  refine (check_ok_iff _ _).mpr ⟨?_, fun deadline due => Nat.lt_of_le_of_lt onward.clock (live.2 deadline due)⟩
  cases cancelled : earlier.cancellation.isCancelled earlier.caller with
  | false => rfl
  | true => exact absurd (onward.cancelled _ cancelled) (Bool.eq_false_iff.mp live.1)

-- Who asks while the caller may go on is at most told that the group was cancelled.
theorem reason_of_live {token : CancelToken} {reason : EngineError} (live : group.Live)
    (stopped : group.check token = .error reason) : reason = .cancelled := by
  obtain ⟨-, intime⟩ := (check_ok_iff _ _).mp live
  cases cancelled : group.cancellation.isCancelled token with
  | true =>
      rw [check, cancelled] at stopped
      cases stopped
      rfl
  | false =>
      rw [(check_ok_iff group token).mpr ⟨cancelled, intime⟩] at stopped
      cases stopped

theorem cancel_onward (group : TaskGroup) (token : CancelToken) : group.Onward (group.cancel token) :=
  ⟨rfl, rfl, rfl, Nat.le_refl _, fun asked => group.cancellation.cancelled_later asked token⟩

theorem replace_onward (group : TaskGroup) (i : Nat) (member : Member) : group.Onward (group.replace i member) :=
  ⟨rfl, rfl, rfl, Nat.le_refl _, fun _ => id⟩

section Respond

variable (group : TaskGroup) (i : Nat) (member : Member) (response : Response)

theorem respond_cases : let replaced := group.replace i { member with response? := some response }
    group.respond i member response = replaced ∨ group.respond i member response = replaced.cancel replaced.own := by
  unfold respond
  dsimp only
  split
  · exact .inl rfl
  · exact .inr rfl
  · exact .inl rfl

theorem respond_onward : group.Onward (group.respond i member response) := by
  have replaced := group.replace_onward i { member with response? := some response }
  rcases group.respond_cases i member response with same | same
  · rw [same]
    exact replaced
  · rw [same]
    exact replaced.trans (cancel_onward _ _)

theorem respond_members : (group.respond i member response).members =
    group.members.set i { member with response? := some response } := by
  rcases group.respond_cases i member response with same | same <;> rw [same] <;> rfl

end Respond

-- What a turn can do: nothing, let a member respond, or cancel the caller.
theorem turn_cases (group : TaskGroup) (i : Nat) : group.turn i = group ∨
    ∃ node task, group.members[i]? = some ⟨node, task, none⟩ ∧
      ((∃ response, group.turn i = group.respond i ⟨node, task, none⟩ response ∧
          (group.Live → response = task.answer node) ∧ task.leavesCaller = true) ∨
        task = .cancelCaller ∧ group.turn i = (group.cancel group.caller).replace i ⟨node, .await none, none⟩) := by
  rw [turn]
  split
  · rename_i node task held
    cases task with
    | finish ending => exact .inr ⟨node, _, held, .inl ⟨_, rfl, fun _ => rfl, rfl⟩⟩
    | cancelCaller => exact .inr ⟨node, _, held, .inr ⟨rfl, rfl⟩⟩
    | await ending? =>
        dsimp only
        split
        · exact .inl rfl
        · exact .inr ⟨node, _, held, .inl ⟨_, rfl, fun _ => rfl, rfl⟩⟩
        · rename_i reason stopped
          refine .inr ⟨node, _, held, .inl ⟨_, rfl, fun live => ?_, rfl⟩⟩
          rw [reason_of_live live stopped]
          rfl
  · exact .inl rfl

theorem turn_onward (group : TaskGroup) (i : Nat) : group.Onward (group.turn i) := by
  rcases group.turn_cases i with same | ⟨node, task, -, ⟨response, same, -⟩ | ⟨-, same⟩⟩ <;> rw [same]
  · exact onward_refl group
  · exact group.respond_onward i _ response
  · exact (group.cancel_onward _).trans (replace_onward _ _ _)

theorem handle_onward (group : TaskGroup) (event : Event) : group.Onward (group.handle event) := by
  cases event with
  | turn i => exact group.turn_onward i
  | callerCancels => exact group.cancel_onward _
  | timePasses ms => exact ⟨rfl, rfl, rfl, Nat.le_add_right _ _, fun _ => id⟩

theorem after_onward (group : TaskGroup) (events : List Event) : group.Onward (group.after events) := by
  induction events generalizing group with
  | nil => exact onward_refl group
  | cons event events ih => exact (group.handle_onward event).trans (ih (group.handle event))

-- While the caller may go on, a member has its task yet before it or has answered it.
def Keeps (live : Prop) (task : NodeId × MapTask) (member : Member) : Prop :=
  live → member.node = task.1 ∧ member.task = task.2 ∧
    ∀ response, member.response? = some response → response = task.2.answer task.1

structure Playing (tasks : List (NodeId × MapTask)) (group : TaskGroup) : Prop where
  flagged : group.caller.flags ≠ []
  each : List.Forall₂ (Keeps group.Live) tasks group.members

theorem Called.playing (called : group.Called tasks) : group.Playing tasks := by
  refine ⟨called.flagged, ?_⟩
  rw [called.members]
  clear called
  induction tasks with
  | nil => exact .nil
  | cons task tasks ih => exact .cons (fun _ => ⟨rfl, rfl, nofun⟩) ih

theorem Onward.keeps {earlier later : TaskGroup} {members : List Member} (onward : earlier.Onward later)
    (each : List.Forall₂ (Keeps earlier.Live) tasks members) : List.Forall₂ (Keeps later.Live) tasks members :=
  each.imp fun _ _ keeps live => keeps (onward.live live)

theorem turn_playing (playing : group.Playing tasks) (i : Nat) : (group.turn i).Playing tasks := by
  have onward := group.turn_onward i
  refine ⟨onward.caller ▸ playing.flagged, ?_⟩
  have each := onward.keeps playing.each
  rcases group.turn_cases i with same | ⟨node, task, held, ⟨response, same, answers, -⟩ | ⟨rfl, same⟩⟩
  · rw [same] at each ⊢
    exact each
  · have members : (group.turn i).members = group.members.set i ⟨node, task, some response⟩ := by
      rw [same, respond_members]
    obtain ⟨assigned, own, keeps⟩ := forall₂_at playing.each.flip i _ held
    rw [members]
    refine (forall₂_set each.flip i own ?_).flip
    intro live
    obtain ⟨there, todo, -⟩ := keeps (onward.live live)
    refine ⟨there, todo, fun other known => ?_⟩
    cases known
    rw [answers (onward.live live), ← there, ← todo]
  · have ended : ¬ (group.turn i).Live := by
      intro live
      have cancelled := group.cancellation.cancel_cancels group.caller playing.flagged
      rw [same, Live, check_ok_iff] at live
      exact absurd cancelled (Bool.eq_false_iff.mp live.1)
    have counted : tasks.length = (group.turn i).members.length := by
      rw [same, playing.each.length_eq]
      exact List.length_set.symm
    exact List.forall₂_iff_get.mpr ⟨counted, fun i _ _ live => absurd live ended⟩

theorem handle_playing (playing : group.Playing tasks) (event : Event) : (group.handle event).Playing tasks := by
  have onward := group.handle_onward event
  cases event with
  | turn i => exact turn_playing playing i
  | callerCancels => exact ⟨playing.flagged, onward.keeps playing.each⟩
  | timePasses ms => exact ⟨playing.flagged, onward.keeps playing.each⟩

theorem after_playing (playing : group.Playing tasks) (events : List Event) : (group.after events).Playing tasks := by
  induction events generalizing group with
  | nil => exact playing
  | cons event events ih => exact ih (handle_playing playing event)

theorem answers_of_finished (playing : group.Playing tasks) (live : group.Live) (finished : group.finished = true) :
    group.members.filterMap (·.response?) = tasks.map fun task => task.2.answer task.1 := by
  obtain ⟨-, each⟩ := playing
  rw [TaskGroup.finished] at finished
  generalize group.members = members at each finished
  induction each with
  | nil => rfl
  | @cons task member tasks members keeps _ ih =>
      rw [List.all_cons, Bool.and_eq_true] at finished
      obtain ⟨response, known⟩ := Option.isSome_iff_exists.mp finished.1
      rw [List.filterMap_cons, known, ih finished.2, (keeps live).2.2 response known]
      rfl

-- Tasks that leave the caller alone, and a group that can be cancelled without him.
structure Discreet (group : TaskGroup) : Prop where
  flagged : group.caller.flags ≠ []
  child : ∃ flag, group.own.flags = group.caller.flags ++ [flag] ∧ flag ∉ group.caller.flags
  each : ∀ member ∈ group.members, member.task.leavesCaller = true

def callerCancelled (group : TaskGroup) : Bool := group.cancellation.isCancelled group.caller

theorem Called.discreet (called : group.Called tasks) (leave : ∀ task ∈ tasks, task.2.leavesCaller = true) :
    group.Discreet := by
  refine ⟨called.flagged, called.child, ?_⟩
  rw [called.members]
  intro member among
  obtain ⟨task, assigned, rfl⟩ := List.mem_map.mp among
  exact leave task assigned

theorem respond_discreet (discreet : group.Discreet) {i : Nat} {node : NodeId} {task : MapTask} (response : Response)
    (leaves : task.leavesCaller = true) : (group.respond i ⟨node, task, none⟩ response).Discreet ∧
      (group.respond i ⟨node, task, none⟩ response).callerCancelled = group.callerCancelled := by
  have onward := group.respond_onward i ⟨node, task, none⟩ response
  have members := group.respond_members i ⟨node, task, none⟩ response
  refine ⟨⟨onward.caller ▸ discreet.flagged, ?_, ?_⟩, ?_⟩
  · rw [onward.own, onward.caller]
    exact discreet.child
  · rw [members]
    intro member among
    rcases List.mem_or_eq_of_mem_set among with before | rfl
    · exact discreet.each member before
    · exact leaves
  · obtain ⟨flag, own, fresh⟩ := discreet.child
    rcases group.respond_cases i ⟨node, task, none⟩ response with same | same <;> rw [same]
    · rfl
    · exact group.cancellation.cancel_child group.own group.caller own fresh

theorem turn_discreet (discreet : group.Discreet) (i : Nat) :
    (group.turn i).Discreet ∧ (group.turn i).callerCancelled = group.callerCancelled := by
  rcases group.turn_cases i with same | ⟨node, task, held, ⟨response, same, -, leaves⟩ | ⟨rfl, -⟩⟩
  · rw [same]
    exact ⟨discreet, rfl⟩
  · rw [same]
    exact respond_discreet discreet response leaves
  · exact nomatch discreet.each _ (List.mem_of_getElem? held)

theorem handle_discreet (discreet : group.Discreet) (event : Event) : (group.handle event).Discreet ∧
    ((group.handle event).callerCancelled = true ↔ group.callerCancelled = true ∨ event = .callerCancels) := by
  cases event with
  | turn i =>
      obtain ⟨still, same⟩ := turn_discreet discreet i
      refine ⟨still, ?_⟩
      rw [handle, same]
      exact ⟨.inl, fun either => either.resolve_right nofun⟩
  | callerCancels =>
      have cancelled : (group.handle .callerCancels).callerCancelled = true :=
        group.cancellation.cancel_cancels group.caller discreet.flagged
      exact ⟨⟨discreet.flagged, discreet.child, discreet.each⟩, fun _ => .inr rfl, fun _ => cancelled⟩
  | timePasses ms =>
      exact ⟨⟨discreet.flagged, discreet.child, discreet.each⟩, .inl, fun either => either.resolve_right nofun⟩

-- Nobody but the caller cancels the caller.
theorem after_discreet (discreet : group.Discreet) (events : List Event) :
    (group.after events).callerCancelled = true ↔ group.callerCancelled = true ∨ .callerCancels ∈ events := by
  induction events generalizing group with
  | nil => exact ⟨.inl, fun either => either.resolve_right nofun⟩
  | cons event events ih =>
      obtain ⟨still, cancelled⟩ := handle_discreet discreet event
      rw [List.mem_cons, ← or_assoc, @eq_comm _ Event.callerCancels, ← cancelled]
      exact ih still

theorem opening_called (deadline? : Option Nat) (tasks : List (NodeId × MapTask)) :
    (opening deadline? tasks).Called tasks := ⟨rfl, List.cons_ne_nil _ _, 1, rfl, (by decide : 1 ∉ [0])⟩

theorem check_cancelled {token : CancelToken} (cancelled : group.cancellation.isCancelled token = true) :
    group.check token = .error .cancelled := by
  rw [check, cancelled]
  rfl

theorem comes_to_live {events : List Event} {response : Response} (live : group.Live)
    (came : group.comesTo events = some response) :
    (group.after events).finished = true ∧ (group.after events).outcome = response := by
  rw [comesTo, live] at came
  dsimp only at came
  split at came
  · rename_i finished
    exact ⟨finished, Option.some.inj came⟩
  · cases came

theorem comes_to_answers {events : List Event} {response : Response} (called : group.Called tasks)
    (came : group.comesTo events = some response) :
    -- The caller sees the run through to its end.
    ((group.after events).Live →
      (group.after events).members.filterMap (·.response?) = (tasks.map fun task => task.2.answer task.1) ∧
      MapReduce.Tells (tasks.map fun task => task.2.answer task.1) response ∧
      ∀ others response', group.comesTo others = some response' → (group.after others).Live → response' = response) ∧
    -- The caller is cancelled, before the run or in it.
    (group.callerCancelled = true → response = .error .cancelled) ∧
    (group.Live → (group.after events).callerCancelled = true → response = .error .cancelled) ∧
    ((∀ task ∈ tasks, task.2.leavesCaller = true) →
      ((group.after events).callerCancelled = true ↔ group.callerCancelled = true ∨ .callerCancels ∈ events)) := by
  have answered : ∀ events response, group.comesTo events = some response → (group.after events).Live →
      (group.after events).members.filterMap (·.response?) = (tasks.map fun task => task.2.answer task.1) ∧
        response = MapReduce.reduce (tasks.map fun task => task.2.answer task.1) := by
    intro events response came live
    obtain ⟨finished, rfl⟩ := comes_to_live ((group.after_onward events).live live) came
    have answers := answers_of_finished (after_playing called.playing events) live finished
    refine ⟨answers, ?_⟩
    rw [outcome, live, answers]
    rfl
  refine ⟨fun live => ?_, fun cancelled => ?_, fun begun cancelled => ?_,
    fun leave => after_discreet (called.discreet leave) events⟩
  · obtain ⟨answers, joined⟩ := answered events response came live
    refine ⟨answers, joined ▸ MapReduce.reduce_tells _, fun others response' came' live' => ?_⟩
    rw [(answered others response' came' live').2, joined]
  · rw [comesTo, check_cancelled cancelled] at came
    exact (Option.some.inj came).symm
  · obtain ⟨-, rfl⟩ := comes_to_live begun came
    rw [outcome, check_cancelled cancelled]
    rfl

section Lost

-- One task waits, one has a row, one breaks off and one fails.
def lostTasks : List (NodeId × MapTask) :=
  [(⟨0⟩, .await none), (⟨1⟩, .finish (.rows [⟨[.id 1]⟩])), (⟨2⟩, .finish (.brokeOff (some "lost node"))),
    (⟨3⟩, .finish (.failed (.execution "boom")))]

theorem lost_node_told : let group := opening (some 1000) lostTasks
    group.comesTo [.turn 3, .turn 1, .timePasses 5, .turn 0, .turn 2] =
      some (.error (.nodeFailure "node2" "lost node")) ∧
    (∀ others response, group.comesTo others = some response → (group.after others).Live →
      response = .error (.nodeFailure "node2" "lost node")) ∧
    (group.after [.turn 3, .turn 1, .timePasses 5, .turn 0, .turn 2]).callerCancelled = false := by
  have came : (opening (some 1000) lostTasks).comesTo [.turn 3, .turn 1, .timePasses 5, .turn 0, .turn 2] =
      some (.error (.nodeFailure "node2" "lost node")) := by decide +kernel
  obtain ⟨seen, -, -, alone⟩ := comes_to_answers (opening_called (some 1000) lostTasks) came
  obtain ⟨-, -, same⟩ := seen rfl
  refine ⟨came, same, Bool.eq_false_iff.mpr fun cancelled => ?_⟩
  rcases (alone (by decide)).mp cancelled with before | among
  · cases before
  · simp only [List.mem_cons, List.not_mem_nil, reduceCtorEq, or_false] at among

end Lost

-- The run in which the members take turns is one of these.
theorem run_comes_to (group : TaskGroup) : ∃ events, group.run = group.comesTo events := by
  have then_after : ∀ a b, (group.after a).after b = group.after (a ++ b) := fun a b => List.foldl_append.symm
  have rounds : ∃ events, group.round.round = group.after events := ⟨_, then_after _ _⟩
  obtain ⟨events, played⟩ := rounds
  rw [run]
  cases checked : group.check group.caller with
  | error e => exact ⟨[], by rw [comesTo, checked]⟩
  | ok _ =>
      by_cases finished : group.round.round.finished = true
      · refine ⟨events, ?_⟩
        rw [comesTo, checked, ← played]
        simp only [finished, if_true]
      · have outlasted : ∃ longer, (group.after events).outlast.round = group.after longer :=
          ⟨_, (congrArg round (then_after events _)).trans (then_after _ _)⟩
        obtain ⟨longer, waited⟩ := outlasted
        rw [← played] at waited
        refine ⟨longer, ?_⟩
        rw [comesTo, checked, ← waited]
        simp only [finished, if_false, Bool.false_eq_true]

end TaskGroup

end ShardQuery
