import ShardQuery.Proofs.Stepwise
import ShardQuery.Proofs.Transaction.Promotion
import ShardQuery.Transaction.Desk
/-!
The desk that clients come to. Main statements: whatever they ask, each has a number of its own and the transactions
are orderly; and a shared transaction that is started is active at once, and leaves no trace once it is finished.
-/

set_option autoImplicit false

namespace ShardQuery

namespace Transactions

-- No transaction has used up its time.
def Timely (txns : Transactions) (now : Nat) : Prop := ∀ id txn, txns.find? id = some txn → txn.expired now = false

variable {txns : Transactions} {now : Nat}

theorem reap_timely {entered : List TransactionId} (orderly : txns.Orderly entered) : (txns.reap now).Timely now := by
  intro id txn found
  have reaped := reap_orderly txns entered orderly now
  have live : txn ∈ (txns.reap now).live := (mem_live _ entered reaped txn).mpr (reaped.keyed id txn found ▸ found)
  rw [live_reap txns entered orderly, List.mem_filter, Bool.not_eq_true'] at live
  exact live.2

theorem reap_of_timely (timely : txns.Timely now) : txns.reap now = txns := by
  have none : txns.byId.items.filter (·.expired now) = [] := by
    rw [List.filter_eq_nil_iff]
    intro txn listed
    obtain ⟨id, found⟩ := (SortedMap.mem_items _ txn).mp listed
    rw [timely id txn found]
    exact Bool.false_ne_true
  rw [reap, expiredIds, none]
  rfl

theorem insert_timely (timely : txns.Timely now) {txn : Transaction} (lasts : txn.expired now = false) :
    (txns.insert txn).Timely now := by
  intro id other found
  rw [find_insert] at found
  split at found
  · exact Option.some.inj found ▸ lasts
  · exact timely id other found

theorem promote_timely (timely : txns.Timely now) : txns.promote.Timely now := by
  intro id txn found
  rw [promote] at found
  split at found
  · rename_i oldest _
    rw [find_activate] at found
    split at found
    · obtain ⟨waiting, held, rfl⟩ := Option.map_eq_some_iff.mp found
      exact timely oldest waiting held
    · exact timely id txn found
  · exact timely id txn found

-- A transaction that begins has time left, whatever its limit.
theorem begun_lasts (id : TransactionId) (active exclusive : Bool) (timeout : Nat) :
    (⟨id, active, exclusive, timeout, now⟩ : Transaction).expired now = false := by
  rw [Transaction.expired, Transaction.deadline?]
  split
  · rename_i deadline limited
    split at limited
    · cases limited
    · rename_i some
      rw [← Option.some.inj limited, decide_eq_false_iff_not]
      change ¬ timeout = 0 at some
      change ¬ now + timeout ≤ now
      omega
  · rfl

-- A shared transaction is active from its start, so that nothing is promoted.
theorem start_shared (txns : Transactions) (now : Nat) (id : TransactionId) (timeout : Nat) :
    (∃ e, txns.start now now id timeout false = (.error e, txns.reap now)) ∨
    ((txns.reap now).find? id = none ∧ txns.start now now id timeout false =
      (.ok ⟨id, true, false, timeout, now⟩, (txns.reap now).insert ⟨id, true, false, timeout, now⟩)) := by
  unfold start
  by_cases held : (txns.reap now).byId.contains id = true
  · exact .inl ⟨_, if_pos held⟩
  · rw [if_neg held]
    split
    · exact .inl ⟨_, rfl⟩
    · have entered := (find_insert (txns.reap now) id ⟨id, true, false, timeout, now⟩).trans (if_pos rfl)
      have busy := listed_active _ id _ entered rfl
      refine .inr ⟨Option.not_isSome_iff_eq_none.mp held, ?_⟩
      simp only [Bool.not_false, promote_busy _ busy, entered]

-- The same ids are live.
def SameLive (a b : Transactions) : Prop := ∀ id, a.byId.contains id = b.byId.contains id

theorem promote_live (txns : Transactions) : txns.promote.SameLive txns := find_promote_some txns

theorem remove_inserted_live {txn : Transaction} (new : txns.find? txn.id = none) :
    ((txns.insert txn).remove txn.id).SameLive txns := by
  intro id
  change ((txns.insert txn).remove txn.id |>.find? id).isSome = (txns.find? id).isSome
  rw [find_remove, find_insert]
  by_cases own : id = txn.id
  · rw [if_pos own, own, new]
  · rw [if_neg own, if_neg own]

end Transactions

namespace TransactionDesk

open Transactions

-- Every client has a number below the next one, and the transactions are as their starts left them.
structure Sound (desk : TransactionDesk) : Prop where
  waiting : ∀ waiter ∈ desk.waiting, waiter.client < desk.client
  answered : ∀ answer ∈ desk.answers, answer.1 < desk.client
  orderly : ∃ entered, desk.txns.Orderly entered

theorem opening_sound (fresh : UInt64) : (opening fresh).Sound := ⟨nofun, nofun, [], empty_orderly⟩

-- What becomes of the desk while nobody comes to it: those who waited still do, or were told something.
structure Serves (before after : TransactionDesk) : Prop where
  client : after.client = before.client
  waiting : ∀ waiter ∈ after.waiting, waiter ∈ before.waiting
  told : ∀ answer ∈ after.answers, answer ∈ before.answers ∨ ∃ waiter ∈ before.waiting, waiter.client = answer.1
  orderly : ∀ entered, before.txns.Orderly entered → after.txns.Orderly entered

theorem serves_refl (desk : TransactionDesk) : desk.Serves desk :=
  ⟨rfl, fun _ => id, fun _ => .inl, fun _ => id⟩

theorem serves_trans {a b c : TransactionDesk} (first : a.Serves b) (second : b.Serves c) : a.Serves c where
  client := second.client.trans first.client
  waiting waiter member := first.waiting waiter (second.waiting waiter member)
  told answer member := by
    rcases second.told answer member with before | ⟨waiter, waited, own⟩
    · exact first.told answer before
    · exact .inr ⟨waiter, first.waiting waiter waited, own⟩
  orderly entered orderly := second.orderly entered (first.orderly entered orderly)

theorem serves_sound {before after : TransactionDesk} (serves : before.Serves after) (sound : before.Sound) :
    after.Sound := by
  obtain ⟨entered, orderly⟩ := sound.orderly
  refine ⟨?_, ?_, entered, serves.orderly entered orderly⟩
  · intro waiter member
    rw [serves.client]
    exact sound.waiting waiter (serves.waiting waiter member)
  · intro answer member
    rw [serves.client]
    rcases serves.told answer member with before | ⟨waiter, waited, own⟩
    · exact sound.answered answer before
    · exact own ▸ sound.waiting waiter waited

variable {desk : TransactionDesk}

section Served

variable {before : TransactionDesk} (serves : before.Serves desk)

include serves

-- The clock goes on and transactions come and go, as long as they stay orderly.
theorem serves_kept (clock : Nat) (txns : Transactions)
    (kept : ∀ entered, desk.txns.Orderly entered → txns.Orderly entered) : before.Serves { desk with clock, txns } :=
  ⟨serves.client, serves.waiting, serves.told, fun entered orderly => kept entered (serves.orderly entered orderly)⟩

-- A client that waited is told something and goes.
theorem serves_told (waiter : Waiter) (waited : waiter ∈ before.waiting) (answer : Outcome Transaction) :
    before.Serves { desk with
      waiting := desk.waiting.filter (· != waiter), answers := desk.answers ++ [(waiter.client, answer)] } := by
  refine ⟨serves.client, fun other member => serves.waiting other (List.mem_filter.mp member).1, fun given member => ?_,
    serves.orderly⟩
  rcases List.mem_append.mp member with old | new
  · exact serves.told given old
  · rw [List.mem_singleton.mp new]
    exact .inr ⟨waiter, waited, rfl⟩

end Served

theorem settled_orderly (txns : Transactions) (now : Nat) (entered : List TransactionId)
    (orderly : txns.Orderly entered) : (txns.reap now).promote.Orderly entered :=
  promote_orderly _ _ (reap_orderly _ _ orderly now)

theorem look_settles (txns : Transactions) (now : Nat) (id : TransactionId) :
    (txns.look now id).2 = (txns.reap now).promote := by
  rw [Transactions.look]
  split
  · rfl
  · rfl

-- A waiting client goes on waiting, or is told something and goes.
theorem look_again_cases (desk : TransactionDesk) (waiter : Waiter) :
    let settled := { desk with txns := (desk.txns.reap desk.clock).promote }
    desk.lookAgain waiter = settled ∨
    ∃ answer, desk.lookAgain waiter = { settled with
      waiting := desk.waiting.filter (· != waiter), answers := desk.answers ++ [(waiter.client, answer)] } := by
  have settles := look_settles desk.txns desk.clock waiter.id
  rw [lookAgain]
  rcases looked : desk.txns.look desk.clock waiter.id with ⟨answer?, txns⟩
  rw [← settles, looked]
  cases answer? with
  | none => exact .inl rfl
  | some answer => exact .inr ⟨answer, rfl⟩

theorem look_again_serves {before : TransactionDesk} (serves : before.Serves desk) (waiter : Waiter)
    (waited : waiter ∈ before.waiting) : before.Serves (desk.lookAgain waiter) := by
  have settles := serves_kept serves desk.clock _ (settled_orderly desk.txns desk.clock)
  rcases look_again_cases desk waiter with same | ⟨answer, told⟩
  · exact same ▸ settles
  · exact told ▸ serves_told settles waiter waited answer

-- All who waited look, even those that an earlier look of theirs sent away.
theorem announce_serves (desk : TransactionDesk) : desk.Serves desk.announce := by
  have onward (waiters : List Waiter) (waited : ∀ waiter ∈ waiters, waiter ∈ desk.waiting) (between : TransactionDesk)
      (serves : desk.Serves between) : desk.Serves (waiters.foldl lookAgain between) := by
    induction waiters generalizing between with
    | nil => exact serves
    | cons waiter waiters ih =>
        obtain ⟨first, rest⟩ := List.forall_mem_cons.mp waited
        exact ih rest _ (look_again_serves serves waiter first)
  exact onward desk.waiting (fun _ => id) desk (serves_refl desk)

theorem give_up_serves (desk : TransactionDesk) (waiter : Waiter) (waits : waiter ∈ desk.waiting) :
    desk.Serves (desk.giveUp waiter) := by
  have later := serves_kept (serves_refl desk) (max desk.clock waiter.patience) desk.txns fun _ => id
  have looked := look_again_serves later waiter waits
  rw [giveUp]
  dsimp only
  split
  · refine serves_trans ?_ (announce_serves _)
    split
    · exact serves_told looked waiter waits _
    · exact looked
  · split
    · exact serves_told looked waiter waits _
    · exact looked

theorem next_waits {waiter : Waiter} (next : desk.nextToGiveUp? = some waiter) : waiter ∈ desk.waiting := by
  have among (others : List Waiter) (first : Waiter) :
      others.foldl (fun a b => if b.patience < a.patience then b else a) first ∈ first :: others := by
    induction others generalizing first with
    | nil => exact List.mem_cons_self
    | cons other others ih =>
        rw [List.foldl_cons]
        rcases List.mem_cons.mp (ih (if other.patience < first.patience then other else first)) with here | later
        · rw [here]
          split
          · exact List.mem_cons_of_mem _ List.mem_cons_self
          · exact List.mem_cons_self
        · exact List.mem_cons_of_mem _ (List.mem_cons_of_mem _ later)
  rw [nextToGiveUp?] at next
  split at next
  · cases next
  · rename_i first rest waiting
    rw [waiting, ← Option.some.inj next]
    exact among rest first

theorem give_up_while_serves (continues : TransactionDesk → Waiter → Bool) (bound : Nat) (desk : TransactionDesk) :
    desk.Serves (giveUpWhile continues bound desk) := by
  induction bound generalizing desk with
  | zero => exact serves_refl desk
  | succ bound ih =>
      rw [giveUpWhile]
      split
      · exact serves_refl desk
      · rename_i waiter next
        split
        · exact serves_trans (give_up_serves desk waiter (next_waits next)) (ih _)
        · exact serves_refl desk

theorem pass_serves (desk : TransactionDesk) (ms : Nat) : desk.Serves (desk.pass ms) := by
  have waited := give_up_while_serves (fun _ waiter => waiter.patience ≤ desk.clock + ms) desk.waiting.length desk
  exact serves_kept waited _ _ fun _ => id

-- What a call does to a sound desk leaves it sound, whatever comes of the call.
def StaysSound (a b : TransactionDesk) : Prop := a.Sound → b.Sound

section Calls

variable {α : Type}

theorem sound_trans (a b c : TransactionDesk) (first : a.StaysSound b) (second : b.StaysSound c) : a.StaysSound c :=
  second ∘ first

theorem serving_sound (serve : TransactionDesk → TransactionDesk) (serves : ∀ desk, Serves desk (serve desk)) :
    (modify serve : Step TransactionDesk Unit).Within StaysSound :=
  fun desk sound => serves_sound (serves desk) sound

-- What a call leaves may go by the desk as it was.
theorem get_within {R : TransactionDesk → TransactionDesk → Prop} {next : TransactionDesk → Step TransactionDesk α}
    (each : ∀ desk, R desk ((next desk).perform desk).2) : (MonadState.get >>= next).Within R := by
  intro desk
  rw [Step.perform_bind]
  exact each desk

theorem issue_sound (id : Option TransactionId) : (issue id).Within StaysSound := by
  intro desk sound
  cases id with
  | some id => exact sound
  | none => exact ⟨sound.waiting, sound.answered, sound.orderly⟩

theorem start_orderly (txns : Transactions) (now : Nat) (id : TransactionId) (timeout : Nat) (exclusive : Bool)
    (orderly : ∃ entered, txns.Orderly entered) :
    ∃ entered, (txns.start now now id timeout exclusive).2.Orderly entered := by
  obtain ⟨entered, orderly⟩ := orderly
  exact ⟨_, TransactionHistory.step_orderly ⟨txns, entered⟩ (.start now now id timeout exclusive) orderly⟩

-- A new client has the next number, whether it is told something or waits.
theorem enter_sound (id : TransactionId) (timeout : Nat) (exclusive : Bool) (patience : Nat) :
    (enter id timeout exclusive patience).Within StaysSound := by
  refine get_within fun desk sound => ?_
  have started := start_orderly desk.txns desk.clock id timeout exclusive sound.orderly
  have waits (waiter : Waiter) (member : waiter ∈ desk.waiting) : waiter.client < desk.client + 1 :=
    Nat.lt_succ_of_lt (sound.waiting waiter member)
  have answered (answer : Nat × Outcome Transaction) (member : answer ∈ desk.answers) : answer.1 < desk.client + 1 :=
    Nat.lt_succ_of_lt (sound.answered answer member)
  rcases begun : desk.txns.start desk.clock desk.clock id timeout exclusive with ⟨outcome, txns⟩
  rw [begun] at started
  have told : Sound { desk with
      txns, client := desk.client + 1, answers := desk.answers ++ [(desk.client, outcome)] } := by
    refine ⟨waits, fun answer member => ?_, started⟩
    rcases List.mem_append.mp member with old | new
    · exact answered answer old
    · rw [List.mem_singleton.mp new]
      exact Nat.lt_succ_self _
  have left : Sound { desk with
      txns, client := desk.client + 1, waiting := desk.waiting ++ [⟨desk.client, id, desk.clock + patience⟩] } := by
    refine ⟨fun waiter member => ?_, answered, started⟩
    rcases List.mem_append.mp member with old | new
    · exact waits waiter old
    · rw [List.mem_singleton.mp new]
      exact Nat.lt_succ_self _
  cases outcome with
  | error e => exact told
  | ok txn =>
      change Sound (if txn.active || patience == 0 then _ else _)
      split
      · exact told
      · exact left

theorem collect_sound (client : Nat) (id : TransactionId) : (collect client id).Within StaysSound := by
  refine Step.bind_within sound_trans _ _ (serving_sound _ fun desk => give_up_while_serves _ _ desk) fun _ => ?_
  refine get_within fun desk sound => ?_
  split
  · rename_i answer _
    refine ⟨sound.waiting, fun other member => ?_, sound.orderly⟩
    exact sound.answered other (List.mem_of_mem_eraseP member)
  · exact sound

theorem finish_orderly {txns : Transactions} {entered : List TransactionId} (orderly : txns.Orderly entered) (now : Nat)
    (id : TransactionId) : (txns.finish now id).2.Orderly entered := by
  have kept := TransactionHistory.step_orderly ⟨txns, entered⟩ (.finish now id) orderly
  change (txns.finish now id).2.Orderly (entered ++ []) at kept
  rwa [List.append_nil] at kept

theorem finish_sound (id : TransactionId) : (finish id).Within StaysSound := by
  refine get_within fun desk sound => ?_
  obtain ⟨entered, orderly⟩ := sound.orderly
  have ended : Sound { desk with txns := (desk.txns.finish desk.clock id).2 } :=
    ⟨sound.waiting, sound.answered, entered, finish_orderly orderly desk.clock id⟩
  change Sound (if (desk.txns.finish desk.clock id).1.isOk then _ else _)
  split
  · exact serves_sound (announce_serves _) ended
  · exact ended

theorem join_sound (id : TransactionId) : (join id).Within StaysSound := by
  refine get_within fun desk sound => ?_
  split
  · rename_i client _
    exact collect_sound client id _ ⟨sound.waiting, sound.answered, sound.orderly⟩
  · exact sound

-- A call that only reads promotes where it can, and tells those who wait for it.
theorem settle_sound {txns : Transactions} (sound : desk.Sound) (settled : txns = (desk.txns.reap desk.clock).promote)
    (changed : Bool) (answer : Outcome α) :
    Sound (Step.perform (do set { desk with txns }; settle changed; Step.ofOutcome answer) desk).2 := by
  obtain ⟨entered, orderly⟩ := sound.orderly
  have kept : Sound { desk with txns } :=
    ⟨sound.waiting, sound.answered, entered, settled ▸ settled_orderly desk.txns desk.clock entered orderly⟩
  cases changed with
  | true => exact serves_sound (announce_serves _) kept
  | false => exact kept

theorem get_sound (id : TransactionId) : (get id).Within StaysSound := by
  refine get_within fun desk sound => ?_
  have settled : (desk.txns.get desk.clock id).2 = (desk.txns.reap desk.clock).promote := by
    rw [Transactions.get]
    split
    · rfl
    · rfl
  exact settle_sound sound settled _ _

theorem list_sound : list.Within StaysSound :=
  get_within fun _ sound => settle_sound sound rfl _ (.ok _)

end Calls

end TransactionDesk

-- What a client asks of the desk, or how long nobody does.
inductive DeskCall where
  | start (id : Option TransactionId) (timeout : Nat) (exclusive : Bool) (patience : Nat)
  | startAside (id : Option TransactionId) (timeout : Nat) (exclusive : Bool) (patience : Nat)
  | join (id : TransactionId)
  | finish (id : TransactionId)
  | get (id : TransactionId)
  | list
  | pass (ms : Nat)

namespace DeskCall

open TransactionDesk

def after (desk : TransactionDesk) : DeskCall → TransactionDesk
  | .start id timeout exclusive patience => ((TransactionDesk.start id timeout exclusive patience).perform desk).2
  | .startAside id timeout exclusive patience =>
      ((TransactionDesk.startAside id timeout exclusive patience).perform desk).2
  | .join id => ((TransactionDesk.join id).perform desk).2
  | .finish id => ((TransactionDesk.finish id).perform desk).2
  | .get id => ((TransactionDesk.get id).perform desk).2
  | .list => (TransactionDesk.list.perform desk).2
  | .pass ms => desk.pass ms

theorem after_sound (desk : TransactionDesk) (sound : desk.Sound) (call : DeskCall) : (call.after desk).Sound := by
  cases call with
  | start id timeout exclusive patience =>
      refine Step.bind_within sound_trans _ _ (issue_sound id) (fun issued => ?_) desk sound
      exact Step.bind_within sound_trans _ _ (enter_sound issued timeout exclusive patience) fun client =>
        collect_sound client issued
  | startAside id timeout exclusive patience =>
      refine Step.bind_within sound_trans _ _ (issue_sound id) (fun issued => ?_) desk sound
      refine Step.bind_within sound_trans _ _ (enter_sound issued timeout exclusive patience) fun client => ?_
      exact fun desk sound => ⟨sound.waiting, sound.answered, sound.orderly⟩
  | join id => exact join_sound id desk sound
  | finish id => exact finish_sound id desk sound
  | get id => exact get_sound id desk sound
  | list => exact list_sound desk sound
  | pass ms => exact serves_sound (pass_serves desk ms) sound

-- However the clients come and go, the desk stays sound.
theorem calls_sound (fresh : UInt64) (calls : List DeskCall) : (calls.foldl after (.opening fresh)).Sound := by
  have onward (desk : TransactionDesk) (sound : desk.Sound) : (calls.foldl after desk).Sound := by
    induction calls generalizing desk with
    | nil => exact sound
    | cons call calls ih => exact ih _ (after_sound desk sound call)
  exact onward _ (opening_sound fresh)

end DeskCall

namespace TransactionDesk

open Transactions

variable {desk : TransactionDesk}

section Shared

theorem give_up_while_idle {continues : TransactionDesk → Waiter → Bool} (bound : Nat)
    (idle : ∀ waiter, continues desk waiter = false) : giveUpWhile continues bound desk = desk := by
  cases bound with
  | zero => rfl
  | succ bound =>
      rw [giveUpWhile]
      split
      · rfl
      · rename_i waiter _
        rw [idle waiter, if_neg Bool.false_ne_true]

-- A client that is answered at once takes its answer away, and nobody gives up meanwhile.
theorem collect_answer (desk : TransactionDesk) {client : Nat}
    (waiting : ∀ waiter ∈ desk.waiting, waiter.client < client)
    (answered : ∀ answer ∈ desk.answers, answer.1 < client) (answer : Outcome Transaction) (id : TransactionId) :
    (collect client id).perform { desk with answers := desk.answers ++ [(client, answer)] } = (answer, desk) := by
  have others : desk.answers.find? (·.1 == client) = none := by
    rw [List.find?_eq_none]
    exact fun answer member => by simpa using Nat.ne_of_lt (answered answer member)
  have idle : desk.waiting.any (·.client == client) = false := by
    rw [List.any_eq_false]
    exact fun waiter member => by simpa using Nat.ne_of_lt (waiting waiter member)
  have own : (desk.answers ++ [(client, answer)]).find? (·.1 == client) = some (client, answer) := by
    rw [List.find?_append, others]
    simp
  have left : (desk.answers ++ [(client, answer)]).eraseP (·.1 == client) = desk.answers := by
    rw [List.eraseP_append_right _ fun other member => by simpa using Nat.ne_of_lt (answered other member)]
    simp
  rw [collect, Step.perform_bind, Step.perform_modify]
  dsimp only
  rw [give_up_while_idle _ fun _ => idle, Step.perform_bind, Step.perform_get]
  simp only [own, left]
  rfl

-- What is live when a client was told, and nothing more is due.
theorem look_again_live (timely : desk.txns.Timely desk.clock) (waiter : Waiter) :
    (desk.lookAgain waiter).clock = desk.clock ∧ (desk.lookAgain waiter).txns = desk.txns.promote := by
  have settled := reap_of_timely timely
  rcases look_again_cases desk waiter with same | ⟨answer, told⟩
  · rw [same, settled]
    exact ⟨rfl, rfl⟩
  · rw [told, settled]
    exact ⟨rfl, rfl⟩

theorem announce_live (timely : desk.txns.Timely desk.clock) : desk.announce.txns.SameLive desk.txns := by
  have onward (waiters : List Waiter) (between : TransactionDesk) (timely : between.txns.Timely between.clock) :
      (waiters.foldl lookAgain between).txns.SameLive between.txns := by
    induction waiters generalizing between with
    | nil => exact fun _ => rfl
    | cons waiter waiters ih =>
        obtain ⟨clock, txns⟩ := look_again_live timely waiter
        intro id
        rw [List.foldl_cons, ih _ (by rw [clock, txns]; exact promote_timely timely) id, txns]
        exact promote_live between.txns id
  exact onward desk.waiting desk timely

-- A desk that is left with the transactions of another that have time left.
structure Rests (before after : TransactionDesk) : Prop where
  sound : after.Sound
  live : after.txns.SameLive (before.txns.reap before.clock)

-- A transaction that was begun ends with all that came of it.
theorem finish_inserted (desk : TransactionDesk) {txn : Transaction} {kept : Transactions}
    (timely : kept.Timely desk.clock) (new : kept.find? txn.id = none) (lasts : txn.expired desk.clock = false)
    (begun : desk.txns = kept.insert txn) :
    ∃ after, (finish txn.id).perform desk = (.ok txn, after) ∧ after.txns.SameLive kept := by
  have found : (kept.insert txn).find? txn.id = some txn := (find_insert kept txn.id txn).trans (if_pos rfl)
  have ended : desk.txns.finish desk.clock txn.id = (.ok txn, ((kept.insert txn).remove txn.id).promote) := by
    rw [begun, Transactions.finish, reap_of_timely (insert_timely timely lasts)]
    simp only [found]
  have rest : ((kept.insert txn).remove txn.id).Timely desk.clock := by
    intro id other held
    rw [find_remove, find_insert] at held
    split at held
    · cases held
    · exact timely id other held
  refine ⟨announce { desk with txns := ((kept.insert txn).remove txn.id).promote }, ?_, fun id => ?_⟩
  · rw [finish, Step.perform_bind, Step.perform_get]
    simp only [ended]
    rfl
  · rw [announce_live (promote_timely rest) id]
    exact (promote_live _ id).trans (remove_inserted_live new id)

-- A client whose transaction is active at once, or refused, does not wait.
theorem start_at_once (sound : desk.Sound) {timeout : Nat} (patience : Nat) {exclusive : Bool}
    {outcome : Outcome Transaction} {txns : Transactions}
    (started : desk.txns.start desk.clock desk.clock ⟨desk.fresh⟩ timeout exclusive = (outcome, txns))
    (active : ∀ txn, outcome = .ok txn → txn.active = true) :
    (start none timeout exclusive patience).perform desk =
      (outcome, { desk with txns, fresh := desk.fresh + 1, client := desk.client + 1 }) := by
  have issued : (issue none).perform desk = (.ok ⟨desk.fresh⟩, { desk with fresh := desk.fresh + 1 }) := rfl
  have entered : (enter ⟨desk.fresh⟩ timeout exclusive patience).perform { desk with fresh := desk.fresh + 1 } =
      (.ok desk.client, { desk with
        txns, fresh := desk.fresh + 1, client := desk.client + 1
        answers := desk.answers ++ [(desk.client, outcome)] }) := by
    rw [enter, Step.perform_bind, Step.perform_get]
    simp only [started]
    cases outcome with
    | error e => rfl
    | ok txn =>
        dsimp only
        rw [active txn rfl, Bool.true_or, if_pos rfl]
        rfl
  rw [start, Step.perform_bind_ok issued, Step.perform_bind_ok entered]
  exact collect_answer { desk with txns, fresh := desk.fresh + 1, client := desk.client + 1 } sound.waiting
    sound.answered outcome _

-- A shared transaction is refused, or it begins, and then it leaves no trace once it is finished.
theorem start_ends (sound : desk.Sound) (timeout patience : Nat) :
    ∃ outcome begun, (start none timeout false patience).perform desk = (outcome, begun) ∧ begun.clock = desk.clock ∧
      match outcome with
      | .error _ => desk.Rests begun
      | .ok txn => ∃ after, (finish txn.id).perform begun = (.ok txn, after) ∧ desk.Rests after := by
  obtain ⟨entered, orderly⟩ := sound.orderly
  have kept := DeskCall.after_sound desk sound (.start none timeout false patience)
  rw [DeskCall.after] at kept
  rcases Transactions.start_shared desk.txns desk.clock ⟨desk.fresh⟩ timeout with ⟨e, refused⟩ | ⟨new, begun⟩
  · have told := start_at_once sound patience refused nofun
    rw [told] at kept
    exact ⟨_, _, told, rfl, kept, fun _ => rfl⟩
  · have told := start_at_once sound patience begun fun txn own => by rw [← Except.ok.inj own]
    rw [told] at kept
    obtain ⟨after, finished, live⟩ := finish_inserted { desk with
        txns := (desk.txns.reap desk.clock).insert ⟨⟨desk.fresh⟩, true, false, timeout, desk.clock⟩
        fresh := desk.fresh + 1, client := desk.client + 1 }
      (reap_timely orderly) new (begun_lasts ⟨desk.fresh⟩ true false timeout) rfl
    refine ⟨_, _, told, rfl, after, finished, ?_, live⟩
    have sound := finish_sound ⟨desk.fresh⟩ _ kept
    rwa [finished] at sound

end Shared

end TransactionDesk

end ShardQuery
