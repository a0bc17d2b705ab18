import TensorDispatch.Proofs.Credit
import TensorDispatch.Proofs.Pending
import TensorDispatch.Proofs.Queue.Frames
import TensorDispatch.Proofs.Queue.Profiles
import TensorDispatch.Proofs.Queue.Submission

/-!
# The order of submissions

Where tasks wait in an ordered store, the order in which a batch of them was submitted leaves no
trace.

* `Throttle.submit_comm`, `Queue.submit_comm` — two tasks of distinct ranks may be submitted in
  either order, also where one or both of them are refused;
* `Queue.Sorts` — a task waits in an ordered store. No action changes which tasks do
  (`Session.sorts_after`);
* `Session.content_afterSubmissions` — a batch of distinct ranks leaves the same session in any
  order;
* `submission_order_irrelevant` — no later call can tell the orders apart.
-/

namespace TensorDispatch

/-! ### Throttles -/

namespace Throttle

variable {now : Int} {t u : Task} {w : Throttle}

/-- Whether a gradient is accepted depends on nothing that a submission changes. -/
theorem accepts_congr {w' : Throttle} (h : w.plan = w'.plan) (now : Int) (t : Task) :
    w.Accepts now t ↔ w'.Accepts now t := by
  simp only [plan, Prod.mk.injEq] at h
  obtain ⟨hlengths, -, hhead⟩ := h
  simp only [Accepts, isHead, hlengths, hhead]

@[simp] theorem plan_waiting (t : Task) (w : Throttle) : (w.waiting t).plan = w.plan := rfl

@[simp] theorem plan_heard (now : Int) (t : Task) (w : Throttle) :
    (w.heard now t).plan = w.plan := by
  unfold heard
  split
  · rw [state_restart]
    rfl
  · rfl

theorem plan_state_submit (now : Int) (t : Task) (w : Throttle) :
    (w.submit now t).state.plan = w.plan := by
  by_cases h : w.Accepts now t
  · simp [submit_of_accepts h]
  · simp [submit_of_not_accepts h]

theorem heard_waiting (now : Int) (t u : Task) (w : Throttle) :
    (w.waiting t).heard now u = (w.heard now u).waiting t := by
  have hhead : (w.waiting t).isHead u.name = w.isHead u.name := rfl
  unfold heard
  rw [hhead]
  split
  · simp only [state_restart, waiting]
  · rfl

/-- Two heads restart the timeline at the same instant. -/
theorem heard_comm (now : Int) (t u : Task) (w : Throttle) :
    (w.heard now t).heard now u = (w.heard now u).heard now t := by
  have hhead : ∀ t' u' : Task, (w.heard now t').isHead u'.name = w.isHead u'.name := by
    intro t' u'
    have hplan := w.plan_heard now t'
    simp only [plan, Prod.mk.injEq] at hplan
    simp only [isHead, hplan.2.2]
  unfold heard at hhead ⊢
  rw [hhead, hhead]
  split
  · split <;> rfl
  · split <;> rfl

theorem waiting_comm (hordered : w.pending.ordered = true) (h : t.rank ≠ u.rank) :
    (w.waiting t).waiting u = (w.waiting u).waiting t := by
  simp only [waiting, Pending.insert_comm hordered h]

theorem result_submit_submit (now : Int) (t u : Task) (w : Throttle) :
    ((w.submit now t).state.submit now u).result = (w.submit now u).result := by
  have haccepts := accepts_congr (w.plan_state_submit now t) now u
  by_cases h : w.Accepts now u
  · rw [submit_of_accepts h, submit_of_accepts (haccepts.mpr h)]
    rfl
  · rw [submit_of_not_accepts h, submit_of_not_accepts (mt haccepts.mp h)]
    rfl

/-- Two gradients of distinct ranks may be submitted in either order. -/
theorem submit_comm (hordered : w.pending.ordered = true) (h : t.rank ≠ u.rank) (now : Int) :
    ((w.submit now t).state.submit now u).state = ((w.submit now u).state.submit now t).state := by
  have ht := accepts_congr (w.plan_state_submit now u) now t
  have hu := accepts_congr (w.plan_state_submit now t) now u
  by_cases hta : w.Accepts now t
  · by_cases hua : w.Accepts now u
    · rw [submit_of_accepts (hu.mpr hua), submit_of_accepts (ht.mpr hta), submit_of_accepts hta,
        submit_of_accepts hua]
      simp only [Outcome.state_answered, heard_waiting]
      rw [heard_comm, waiting_comm (by simpa using hordered) h]
    · rw [submit_of_not_accepts (mt hu.mp hua), submit_of_accepts (ht.mpr hta),
        submit_of_accepts hta, submit_of_not_accepts hua]
      simp only [Outcome.state_answered, Outcome.state_refused, heard_waiting]
      rw [heard_comm]
  · by_cases hua : w.Accepts now u
    · rw [submit_of_accepts (hu.mpr hua), submit_of_not_accepts (mt ht.mp hta),
        submit_of_not_accepts hta, submit_of_accepts hua]
      simp only [Outcome.state_answered, Outcome.state_refused, heard_waiting]
      rw [heard_comm]
    · rw [submit_of_not_accepts (mt hu.mp hua), submit_of_not_accepts (mt ht.mp hta),
        submit_of_not_accepts hta, submit_of_not_accepts hua]
      exact heard_comm now t u w

end Throttle

/-! ### Queues -/

/-- The store of a policy that keeps gradients. -/
def Policy.pending? : Policy → Option Pending
  | plain => none
  | replay r => some r.pending
  | throttle w => some w.pending

namespace Queue

/-- The store in which a task waits. -/
def storeOf (t : Task) (q : Queue) : Pending :=
  if t.isGradient then q.policy.pending?.getD q.scanned else q.scanned

/-- The task waits in an ordered store. -/
def Sorts (q : Queue) (t : Task) : Prop := (q.storeOf t).ordered = true

variable {q : Queue} {t u : Task}

/-- Whether a task is placed does not depend on what was placed before. -/
theorem result_place_place (now : Int) (t u : Task) (q : Queue) :
    ((q.place now t).state.place now u).result = (q.place now u).result := by
  cases hu : u.isGradient with
  | false => simp [place, hu]
  | true =>
    cases ht : t.isGradient with
    | false => cases hpolicy : q.policy <;> simp [place, hu, ht, hpolicy]
    | true =>
      cases hpolicy : q.policy with
      | plain => simp [place, hu, ht, hpolicy]
      | replay r => simp [place, hu, ht, hpolicy]
      | throttle w => simp [place, hu, ht, hpolicy, Throttle.result_submit_submit]

/-- A task that waits in an ordered store may be placed before or after one of another rank: they
share the store, or do not meet. -/
theorem place_comm (ht : q.Sorts t) (h : t.rank ≠ u.rank) (now : Int) :
    ((q.place now t).state.place now u).state = ((q.place now u).state.place now t).state := by
  cases hpolicy : q.policy with
  | plain =>
    have hordered : q.scanned.ordered = true := by
      simpa [Sorts, storeOf, hpolicy, Policy.pending?] using ht
    simp [place, hpolicy, Pending.insert_comm hordered h]
  | replay r =>
    cases htg : t.isGradient with
    | false =>
      have hordered : q.scanned.ordered = true := by simpa [Sorts, storeOf, htg] using ht
      cases hug : u.isGradient <;> simp [place, htg, hug, hpolicy, Pending.insert_comm hordered h]
    | true =>
      have hordered : r.pending.ordered = true := by
        simpa [Sorts, storeOf, htg, hpolicy, Policy.pending?] using ht
      cases hug : u.isGradient <;>
        simp [place, htg, hug, hpolicy, Replay.submit, Pending.insert_comm hordered h]
  | throttle w =>
    cases htg : t.isGradient with
    | false =>
      have hordered : q.scanned.ordered = true := by simpa [Sorts, storeOf, htg] using ht
      cases hug : u.isGradient <;> simp [place, htg, hug, hpolicy, Pending.insert_comm hordered h]
    | true =>
      have hordered : w.pending.ordered = true := by
        simpa [Sorts, storeOf, htg, hpolicy, Policy.pending?] using ht
      cases hug : u.isGradient <;>
        simp [place, htg, hug, hpolicy, Throttle.submit_comm hordered h]

/-- What two submissions leave: whether the first task was placed does not matter to the second. -/
private theorem state_submit_submit (ht : t.name ≠ "") (hu : u.name ≠ "") (now : Int) :
    ((q.submit now t).state.submit now u).state =
      { ((q.place now t).state.place now u).state with
        stats :=
          let first :=
            if (q.place now t).IsAnswered then
              q.stats.countSubmitted.notePending (q.pendingSize + 1)
            else q.stats.countSubmitted
          if (q.place now u).IsAnswered then
            first.countSubmitted.notePending
              (q.pendingSize + (if (q.place now t).IsAnswered then 1 else 0) + 1)
          else first.countSubmitted } := by
  have hanswered : ((q.place now t).state.place now u).IsAnswered ↔ (q.place now u).IsAnswered := by
    simp only [Outcome.IsAnswered, result_place_place]
  have hsize : ∀ stats, pendingSize { (q.place now t).state with stats } =
      q.pendingSize + if (q.place now t).IsAnswered then 1 else 0 := fun _ =>
    q.pendingSize_place now t
  rw [state_submit_of_named ht, state_submit_of_named hu, place_recounted, hsize]
  simp only [Outcome.isAnswered_within, hanswered, Outcome.state_within]

/-- A task that waits in an ordered store may be submitted before or after one of another rank. -/
theorem submit_comm (ht : q.Sorts t) (h : t.rank ≠ u.rank) (now : Int) :
    ((q.submit now t).state.submit now u).state = ((q.submit now u).state.submit now t).state := by
  by_cases htn : t.name = ""
  · rw [submit_of_unnamed htn, submit_of_unnamed htn]
    rfl
  by_cases hun : u.name = ""
  · rw [submit_of_unnamed hun, submit_of_unnamed hun]
    rfl
  rw [state_submit_submit htn hun, state_submit_submit hun htn, place_comm ht h]
  by_cases hta : (q.place now t).IsAnswered <;> by_cases hua : (q.place now u).IsAnswered <;>
    simp [hta, hua, Stats.countSubmitted, Stats.notePending]

end Queue

/-! ### Which stores are ordered -/

theorem Replay.Refill.ordered {r r' : Replay} {group : Option (List Task)}
    (h : Refill r group r') : r'.pending.ordered = r.pending.ordered := by
  cases h <;> rfl

theorem Replay.ordered_poll (admits : Task → Bool) (r : Replay) (stats : Stats) :
    (r.poll admits stats).2.1.pending.ordered = r.pending.ordered := by
  rw [poll_eq, pending_releaseStaged, r.rolled.refill.ordered, pending_rolled]

theorem Throttle.ordered_poll (admits : Task → Bool) (now : Int) (w : Throttle) (stats : Stats) :
    (w.poll admits now stats).state.1.pending.ordered = w.pending.ordered := by
  have hroll := w.pending_roll
  unfold poll
  split
  · rfl
  · split
    · split
      all_goals
        rename_i hresult
        rw [hresult] at hroll
        exact congrArg Pending.ordered hroll
    · simp only [releaseFirst]
      split
      · rfl
      · split <;> rfl

/-- Whether the gradients of a policy wait in an ordered store. -/
def Policy.sorts? (p : Policy) : Option Bool := p.pending?.map Pending.ordered

theorem Policy.sorts?_eq_none_iff {p : Policy} : p.sorts? = none ↔ p = .plain := by
  cases p <;> simp [sorts?, pending?]

namespace Queue

theorem sorts_iff {q : Queue} {t : Task} :
    q.Sorts t ↔
      (if t.isGradient then q.policy.sorts?.getD q.scanned.ordered else q.scanned.ordered) =
        true := by
  unfold Sorts storeOf Policy.sorts?
  split
  · cases q.policy.pending? <;> rfl
  · rfl

theorem sorts?_place (now : Int) (t : Task) (q : Queue) :
    (q.place now t).state.policy.sorts? = q.policy.sorts? := by
  simp only [place]
  split
  · cases hpolicy : q.policy with
    | plain => simp
    | replay r => rfl
    | throttle w =>
      by_cases haccepts : w.Accepts now t
      · simp [Throttle.submit_of_accepts haccepts, Policy.sorts?, Policy.pending?,
          Throttle.waiting, Pending.insert]
      · simp [Throttle.submit_of_not_accepts haccepts, Policy.sorts?, Policy.pending?]
  · rfl

theorem sorts?_submit (now : Int) (t : Task) (q : Queue) :
    (q.submit now t).state.policy.sorts? = q.policy.sorts? := by
  by_cases hname : t.name = ""
  · simp [submit, hname]
  · rw [state_submit_of_named hname]
    exact q.sorts?_place now t

theorem sorts?_choose (readiness : Readiness) (now : Int) (q : Queue) :
    (q.choose readiness now).state.policy.sorts? = q.policy.sorts? := by
  have hgradient : (q.chooseGradient readiness now).state.policy.sorts? = q.policy.sorts? := by
    unfold chooseGradient
    split
    · rfl
    · rename_i r hpolicy
      rw [hpolicy]
      exact congrArg some (r.ordered_poll _ _)
    · rename_i w hpolicy
      rw [hpolicy]
      exact congrArg some (w.ordered_poll _ _ _)
  unfold choose
  rcases hchoose : q.chooseGradient readiness now with ⟨f | _ | t, q'⟩
  · rwa [hchoose] at hgradient
  · rw [hchoose] at hgradient
    obtain ⟨scanned, hscanned⟩ := (q'.chooseScanned_spec readiness).1
    rw [← hgradient, Outcome.state_answered, hscanned]
  · rwa [hchoose] at hgradient

/-- Reported work leaves the gradients that wait alone. -/
@[simp] theorem pending?_finish (len : Nat) (q : Queue) :
    (q.finish len).state.policy.pending? = q.policy.pending? := by
  simp only [finish]
  split
  · rename_i r hpolicy
    split
    · split
      · rw [hpolicy]
        rfl
      · rfl
    · rw [policy_returnCredit]
  · rw [policy_returnCredit]

theorem sorts?_finish (len : Nat) (q : Queue) :
    (q.finish len).state.policy.sorts? = q.policy.sorts? := by
  rw [Policy.sorts?, pending?_finish, Policy.sorts?]

end Queue

/-- No action changes in which stores gradients are ordered. -/
theorem Moment.sorts?_after (m : Moment) :
    m.after.queue.policy.sorts? = m.before.queue.policy.sorts? := by
  obtain ⟨s, a⟩ := m
  cases a with
  | submit t => exact s.queue.sorts?_submit s.now t
  | dispatch =>
    have hchosen := s.queue.sorts?_choose s.readiness s.now
    rw [after, outcome_dispatch]
    rcases s.dispatch_cases with
      ⟨f, q, hchoose, hdispatch⟩ | ⟨q, hchoose, hdispatch⟩ |
        ⟨t, q, credit, s', hchoose, -, -, hdispatch, hq⟩
    · rw [hchoose] at hchosen
      rwa [hdispatch]
    · rw [hchoose] at hchosen
      rwa [hdispatch]
    · rw [hchoose] at hchosen
      rw [hdispatch, Outcome.state_answered, hq]
      exact hchosen
  | dispatchKey key =>
    rw [after, outcome_dispatchKey]
    rcases s.dispatchKey_cases key with
      ⟨f, scanned, -, hdispatch⟩ | hdispatch | ⟨t, scanned, s', hdispatch, -, -, -, hq⟩
    · rw [hdispatch]
      rfl
    · rw [hdispatch]
      rfl
    · rw [hdispatch, Outcome.state_answered, hq]
  | finish len => exact s.queue.sorts?_finish len
  | change c => rw [queue_after_change]

namespace Session

variable {s : Session}

/-- No action changes which tasks wait in an ordered store. -/
theorem sorts_act (s : Session) (a : Action) (t : Task) :
    (s.act a).state.queue.Sorts t ↔ s.queue.Sorts t := by
  have hpolicy := Moment.sorts?_after ⟨s, a⟩
  have hscanned : (s.act a).state.queue.scanned.ordered = s.queue.scanned.ordered :=
    Queue.ordered_eq_of_setup (Moment.setup_after ⟨s, a⟩)
  rw [Queue.sorts_iff, Queue.sorts_iff, hscanned, show (s.act a).state.queue.policy.sorts? = _ from
    hpolicy]

theorem sorts_after (s : Session) (actions : List Action) (t : Task) :
    (s.after actions).queue.Sorts t ↔ s.queue.Sorts t :=
  history_induction (I := fun _ s' => s'.queue.Sorts t ↔ s.queue.Sorts t) .rfl
    (fun _ m hbefore => (m.before.sorts_act m.action t).trans hbefore) actions

/-! ### Batches -/

/-- Two profiles that start alike may be opened in either order. -/
theorem byName_ensure_comm (ps : Profiles) (name name' : String) (enabled : Bool) :
    ((ps.ensure name enabled).ensure name' enabled).byName =
      ((ps.ensure name' enabled).ensure name enabled).byName := by
  funext other
  simp only [Profiles.byName, Profiles.lookup_ensure]
  cases ps.lookup other with
  | none =>
    simp only [Option.none_or]
    split_ifs <;> rfl
  | some p => rfl

/-- A task that waits in an ordered store may be submitted before or after one of another rank. -/
theorem content_submit_comm {t u : Task} (ht : s.queue.Sorts t) (h : t.rank ≠ u.rank) :
    ((s.submit t).state.submit u).state.content = ((s.submit u).state.submit t).state.content := by
  have hqueue : ((s.submit t).state.submit u).state.queue =
      ((s.submit u).state.submit t).state.queue := Queue.submit_comm ht h s.now
  have hprofiles : ((s.submit t).state.submit u).state.profiles.byName =
      ((s.submit u).state.submit t).state.profiles.byName := by
    simp only [submit, Outcome.state_within]
    cases t.context with
    | none => rfl
    | some context =>
      cases u.context with
      | none => rfl
      | some context' => exact byName_ensure_comm s.profiles context context' true
  exact Prod.ext (congrArg (fun queue => { s with queue, profiles := [] }) hqueue) hprofiles

theorem content_submit_congr {s' : Session} (h : s.content = s'.content) (t : Task) :
    (s.submit t).state.content = (s'.submit t).state.content :=
  congrArg Outcome.state (submit_content h t)

/-- The session after a batch of submissions. -/
def afterSubmissions (batch : List Task) (s : Session) : Session :=
  s.after (batch.map Action.submit)

@[simp] theorem afterSubmissions_nil (s : Session) : s.afterSubmissions [] = s := rfl

@[simp] theorem afterSubmissions_cons (t : Task) (batch : List Task) (s : Session) :
    s.afterSubmissions (t :: batch) = (s.submit t).state.afterSubmissions batch := rfl

theorem content_afterSubmissions_congr {s' : Session} (h : s.content = s'.content)
    (batch : List Task) :
    (s.afterSubmissions batch).content = (s'.afterSubmissions batch).content := by
  induction batch generalizing s s' with
  | nil => exact h
  | cons t batch ih => exact ih (content_submit_congr h t)

/-- A batch of distinct ranks leaves the same session in any order. -/
theorem content_afterSubmissions {batch batch' : List Task} (hperm : batch.Perm batch')
    (hranks : batch.Pairwise fun t u => t.rank ≠ u.rank) (hsorts : ∀ t ∈ batch, s.queue.Sorts t) :
    (s.afterSubmissions batch).content = (s.afterSubmissions batch').content := by
  induction hperm generalizing s with
  | nil => rfl
  | cons t _ ih =>
    refine ih (List.pairwise_cons.mp hranks).2 fun u hu => ?_
    exact (s.sorts_act (.submit t) u).mpr (hsorts u (List.mem_cons_of_mem t hu))
  | swap t u batch =>
    have hranks : u.rank ≠ t.rank := (List.pairwise_cons.mp hranks).1 t List.mem_cons_self
    have hu : s.queue.Sorts u := hsorts u (by simp)
    exact content_afterSubmissions_congr (content_submit_comm hu hranks) batch
  | trans hfirst _ ih ih' =>
    have hranks' := hranks.perm hfirst fun h => h.symm
    exact (ih hranks hsorts).trans (ih' hranks' fun t ht => hsorts t (hfirst.mem_iff.mpr ht))

end Session

/-! ### Queues as they are created -/

namespace Queue

theorem sorts?_policyOf {strategy : Strategy} {config : QueueConfig} {policy : Policy}
    (h : policyOf strategy config = .ok policy) (hstrategy : strategy ≠ .plain) :
    policy.sorts? = some true := by
  obtain ⟨hplain, -⟩ | ⟨schedule, -, -, rfl⟩ | ⟨plan, -, -, rfl⟩ := policyOf_eq_ok_iff.mp h
  · exact absurd hplain hstrategy
  · rfl
  · rfl

/-- Credit orders the scanned tasks, and token replay and the throttle keep their gradients in an
ordered store. -/
theorem sorts_of_create {stage : Stage} {config : QueueConfig} {role : Role} {q : Queue} {t : Task}
    (h : create stage config role = .ok q)
    (hstore : config.Meters stage role ∨
      stage = .push ∧ config.strategy ≠ .plain ∧ t.isGradient = true) :
    q.Sorts t := by
  obtain ⟨-, hpolicy, hq⟩ := create_eq_ok h
  rw [sorts_iff]
  rcases hstore with hmeters | ⟨rfl, hstrategy, hgradient⟩
  · obtain ⟨hplain, hcredit⟩ := create_of_meters h hmeters
    have hmetered : (creditAt stage config role).isMetered = true := by
      rw [← show q.credit = creditAt stage config role by rw [hq], hcredit]
      rfl
    have hordered : q.scanned.ordered = true := by rw [hq, hmetered]
    simp [hplain, hordered, Policy.sorts?, Policy.pending?]
  · have hsorts := sorts?_policyOf hpolicy (by rwa [strategyAt, if_pos rfl])
    simp [hgradient, hsorts]

end Queue

/-- Where tasks wait in an ordered store, the order of their submissions does not matter: behind a
batch of distinct priorities and keys, the queue is the same, and every later list of calls is
answered alike and shown the same. -/
theorem submission_order_irrelevant {stage : Stage} {config : QueueConfig} {role : Role}
    {s : Session} (hs : Queue.create stage config role = .ok s.queue) (earlier : List Action)
    {batch batch' : List Task} (hperm : batch.Perm batch')
    (hranks : batch.Pairwise fun t u => t.rank ≠ u.rank)
    (hstore : config.Meters stage role ∨
      stage = .push ∧ config.strategy ≠ .plain ∧ ∀ t ∈ batch, t.isGradient = true) :
    let ahead := (s.after earlier).afterSubmissions batch
    let behind := (s.after earlier).afterSubmissions batch'
    ahead.queue = behind.queue ∧
      ∀ later : List Call, ahead.displays later = behind.displays later := by
  have hsorts : ∀ t ∈ batch, (s.after earlier).queue.Sorts t := by
    intro t ht
    refine (s.sorts_after earlier t).mpr (Queue.sorts_of_create hs ?_)
    exact hstore.imp_right fun ⟨hpush, hstrategy, hgradients⟩ =>
      ⟨hpush, hstrategy, hgradients t ht⟩
  have hcontent := Session.content_afterSubmissions hperm hranks hsorts
  exact ⟨congrArg (fun c => c.1.queue) hcontent, Session.displays_eq_of_content_eq hcontent⟩

/-- Partitions of two tensors, the last to go first. -/
def scattered : List Task :=
  [{ name := "conv_gradient", key := 4, priority := -1, len := 8 },
    { name := "fc_gradient", key := 3, priority := -2, len := 8, partitions := 2 },
    { name := "fc_gradient", key := 2, priority := -2, len := 8, partitions := 2 }]

/-- A tensor of the schedule has left already. -/
def underway : List Action :=
  [.submit { name := "fc_gradient", key := 1, priority := -2, len := 8 }, .dispatch]

theorem submission_order_irrelevant_scattered :
    Queue.create .push { strategy := .tokenReplay, schedule := some ⟨[-2, -1], -1, 2⟩ } {} =
        .ok Session.twoTensorReplay.queue ∧
      scattered.Perm scattered.reverse ∧ scattered ≠ scattered.reverse ∧
      (scattered.Pairwise fun t u => t.rank ≠ u.rank) ∧
      (∀ t ∈ scattered, t.isGradient = true) ∧
      ((Session.twoTensorReplay.after underway).afterSubmissions scattered).queue =
        ((Session.twoTensorReplay.after underway).afterSubmissions scattered.reverse).queue ∧
      ∀ later : List Call,
        ((Session.twoTensorReplay.after underway).afterSubmissions scattered).displays later =
          ((Session.twoTensorReplay.after underway).afterSubmissions scattered.reverse).displays
            later := by
  have hs : Queue.create .push { strategy := .tokenReplay, schedule := some ⟨[-2, -1], -1, 2⟩ } {} =
      .ok Session.twoTensorReplay.queue := Session.create_ofReplay ⟨[-2, -1], -1, 2⟩ rfl .boundary
  have hperm : scattered.Perm scattered.reverse := scattered.reverse_perm.symm
  have hranks : scattered.Pairwise fun t u => t.rank ≠ u.rank := by decide +kernel
  have hgradients : ∀ t ∈ scattered, t.isGradient = true := by decide +kernel
  exact ⟨hs, hperm, by decide +kernel, hranks, hgradients,
    submission_order_irrelevant hs underway hperm hranks (.inr ⟨rfl, by decide, hgradients⟩)⟩

end TensorDispatch
