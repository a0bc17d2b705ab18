import TensorDispatch.Proofs.Queue.Control

/-!
# Submission numbers

The tasks of a run are numbered as they are submitted, and those that wait keep their numbers.

* `Moment.OnStore` — what an action can do to a store: the task that it submits is inserted, or
  tasks leave and the others keep their order. It does so to the scanned tasks of any queue
  (`Moment.onScanned`), and to the gradients that wait with a policy (`Moment.onPending`);
* `Pending.Numbered` — the tasks of a store with the numbers of their submissions, in the order of
  the store. Along every run the stores of a queue are numbered (`Session.exists_numbered_scanned`,
  `Session.exists_numbered_pending`).
-/

namespace TensorDispatch

open scoped List

/-! ### Polls -/

/-- A refill takes a group out of the pending gradients at most. -/
theorem Replay.Refill.tasks_pending {r r' : Replay} {group : Option (List Task)}
    (h : Refill r group r') : r'.pending.tasks <+ r.pending.tasks := by
  cases h with
  | kept => exact .refl _
  | held => exact .refl _
  | moved => exact r.pending.takeGroup_sublist _

theorem Replay.tasks_pending_poll (admits : Task → Bool) (r : Replay) (stats : Stats) :
    (r.poll admits stats).2.1.pending.tasks <+ r.pending.tasks := by
  rw [poll_eq, pending_releaseStaged, ← r.pending_rolled]
  exact r.rolled.refill.tasks_pending

/-- A poll takes the first pending gradient at most. -/
theorem Throttle.tasks_pending_poll (admits : Task → Bool) (now : Int) (w : Throttle)
    (stats : Stats) : (w.poll admits now stats).state.1.pending.tasks <+ w.pending.tasks := by
  rcases w.poll_cases admits now stats with
    ⟨w', stats', hpoll, hpending, -⟩ | ⟨f, w', hpoll, hpending⟩ | ⟨t, w', hpoll, -, htasks⟩
  · rw [hpoll, Outcome.state_answered, hpending]
  · rw [hpoll, Outcome.state_refused, hpending]
  · rw [hpoll, Outcome.state_answered, htasks]
    exact List.sublist_cons_self t _

namespace Queue

variable (q : Queue)

/-! ### Operations on the scanned tasks -/

/-- A submission leaves the scanned tasks alone, or inserts the task among them. -/
theorem scanned_submit (now : Int) (t : Task) :
    (q.submit now t).state.scanned = q.scanned ∨
      (q.submit now t).IsAnswered ∧ (q.submit now t).state.scanned = q.scanned.insert t := by
  by_cases hname : t.name = ""
  · simp [submit_of_unnamed hname]
  rw [Outcome.IsAnswered, result_submit_of_named hname, ← Outcome.IsAnswered,
    state_submit_of_named hname]
  simp only [place]
  split
  · split
    · exact .inr ⟨⟨_, rfl⟩, rfl⟩
    · exact .inl rfl
    · exact .inl rfl
  · exact .inr ⟨⟨_, rfl⟩, rfl⟩

/-- A choice by key takes the task with the key at most. -/
theorem tasks_scanned_chooseKey (readiness : Readiness) (key : Nat) :
    (q.chooseKey readiness key).state.scanned.tasks <+ q.scanned.tasks := by
  unfold chooseKey
  split
  · exact .refl _
  · split
    · exact .refl _
    · split
      · exact .refl _
      · rename_i t scanned htake
        obtain ⟨-, rfl⟩ := Pending.takeFirst?_eq_some htake
        dsimp only
        split
        · exact List.eraseP_sublist
        · exact List.eraseP_sublist

/-! ### Operations on the gradients that wait -/

variable {q} {store : Pending}

/-- A submission leaves the gradients of a policy alone, or inserts the task among them. -/
theorem pending?_submit (h : q.policy.pending? = some store) (now : Int) (t : Task) :
    (q.submit now t).state.policy.pending? = some store ∨
      (q.submit now t).IsAnswered ∧
        (q.submit now t).state.policy.pending? = some (store.insert t) := by
  by_cases hname : t.name = ""
  · simp [submit_of_unnamed hname, h]
  rw [Outcome.IsAnswered, result_submit_of_named hname, ← Outcome.IsAnswered,
    state_submit_of_named hname]
  cases hgradient : t.isGradient with
  | false =>
    rw [place_control hgradient]
    exact .inl h
  | true =>
    cases hpolicy : q.policy with
    | plain => simp [hpolicy, Policy.pending?] at h
    | replay r =>
      simp only [hpolicy, Policy.pending?, Option.some.injEq] at h
      refine .inr ?_
      simp [place, hgradient, hpolicy, Policy.pending?, Replay.submit, h]
    | throttle w =>
      simp only [hpolicy, Policy.pending?, Option.some.injEq] at h
      by_cases haccepts : w.Accepts now t
      · refine .inr ?_
        simp [place, hgradient, hpolicy, Throttle.submit_of_accepts haccepts, Policy.pending?,
          Outcome.isAnswered_within, Throttle.waiting, h]
      · refine .inl ?_
        simp [place, hgradient, hpolicy, Throttle.submit_of_not_accepts haccepts,
          Policy.pending?, h]

/-- When a policy is asked for a gradient, those that keep waiting keep their order. -/
theorem pending?_chooseGradient (h : q.policy.pending? = some store) (readiness : Readiness)
    (now : Int) :
    ∃ store', (q.chooseGradient readiness now).state.policy.pending? = some store' ∧
      store'.ordered = store.ordered ∧ store'.tasks <+ store.tasks := by
  unfold chooseGradient
  cases hpolicy : q.policy with
  | plain => simp [hpolicy, Policy.pending?] at h
  | replay r =>
    simp only [hpolicy, Policy.pending?, Option.some.injEq] at h
    subst h
    exact ⟨_, rfl, r.ordered_poll _ _, r.tasks_pending_poll _ _⟩
  | throttle w =>
    simp only [hpolicy, Policy.pending?, Option.some.injEq] at h
    subst h
    exact ⟨_, rfl, w.ordered_poll _ _ _, w.tasks_pending_poll _ _ _⟩

end Queue

/-! ### Actions on a store -/

namespace Moment

/-- What an action can do to a store of waiting tasks. -/
inductive OnStore (m : Moment) (store : Pending) : Pending → Prop
  /-- The submitted task joins the others. -/
  | joined {t : Task} (hsubmitted : m.submitted? = some t) : OnStore m store (store.insert t)
  /-- Those that keep waiting keep their order. -/
  | kept {store' : Pending} (hordered : store'.ordered = store.ordered)
      (htasks : store'.tasks <+ store.tasks) : OnStore m store store'

theorem OnStore.refl (m : Moment) (store : Pending) : m.OnStore store store := .kept rfl (.refl _)

/-- No action changes whether a store is ordered. -/
theorem OnStore.ordered {m : Moment} {store store' : Pending} (h : m.OnStore store store') :
    store'.ordered = store.ordered := by
  cases h with
  | joined => rfl
  | kept hordered => exact hordered

theorem OnStore.submit {s : Session} {t : Task} (h : (s.queue.submit s.now t).IsAnswered)
    (store : Pending) : OnStore ⟨s, .submit t⟩ store (store.insert t) :=
  .joined (submitted?_of_isAnswered ((Outcome.isAnswered_map _ _).mpr h))

/-- What an action does to the scanned tasks of a queue. -/
theorem onScanned (m : Moment) : m.OnStore m.before.queue.scanned m.after.queue.scanned := by
  have hordered := Queue.ordered_eq_of_setup m.setup_after
  obtain ⟨s, a⟩ := m
  cases a with
  | submit t =>
    rw [queue_after_submit]
    rcases s.queue.scanned_submit s.now t with hscanned | ⟨hanswered, hscanned⟩
    · rw [hscanned]
      exact .refl _ _
    · rw [hscanned]
      exact .submit hanswered _
  | dispatch =>
    refine .kept hordered ?_
    rw [after, outcome_dispatch]
    rcases s.dispatch_policy_cases.2.2 with
      ⟨f, -, -, hscanned⟩ | ⟨t, -, -, hscanned⟩ | ⟨-, -, hscanned⟩
    · rw [hscanned]
    · rw [hscanned]
    · rw [hscanned]
      exact List.eraseP_sublist
  | dispatchKey key =>
    refine .kept hordered ?_
    have htasks := s.queue.tasks_scanned_chooseKey s.readiness key
    rw [after, outcome_dispatchKey, Session.dispatchKey]
    rcases hchoose : s.queue.chooseKey s.readiness key with ⟨f | _ | t, q⟩
    · rwa [hchoose] at htasks
    · rwa [hchoose] at htasks
    · rw [hchoose] at htasks
      simp only [Session.handOver, Queue.release]
      cases q.credit.acquire t.len <;> exact htasks
  | finish len =>
    obtain ⟨credit, policy, hstate, -⟩ := s.queue.finish_spec len
    rw [queue_after_finish, hstate]
    exact .refl _ _
  | change c =>
    rw [queue_after_change]
    exact .refl _ _

/-- What an action does to the gradients that wait with a policy. -/
theorem onPending {m : Moment} {store : Pending}
    (h : m.before.queue.policy.pending? = some store) :
    ∃ store', m.after.queue.policy.pending? = some store' ∧ m.OnStore store store' := by
  obtain ⟨s, a⟩ := m
  have h : s.queue.policy.pending? = some store := h
  cases a with
  | submit t =>
    rw [queue_after_submit]
    rcases Queue.pending?_submit h s.now t with hpending | ⟨hanswered, hpending⟩
    · exact ⟨store, hpending, .refl _ _⟩
    · exact ⟨store.insert t, hpending, .submit hanswered store⟩
  | dispatch =>
    obtain ⟨store', hpending, hordered, htasks⟩ :=
      Queue.pending?_chooseGradient h s.readiness s.now
    refine ⟨store', ?_, .kept hordered htasks⟩
    rw [after, outcome_dispatch, s.dispatch_policy_cases.1]
    exact hpending
  | dispatchKey key =>
    have hpolicy : s.queue.policy ≠ .plain := by
      intro hplain
      simp [hplain, Policy.pending?] at h
    obtain ⟨f, hrefused⟩ := Session.dispatchKey_of_policy_ne_plain hpolicy key
    rw [after, outcome_dispatchKey, hrefused]
    exact ⟨store, h, .refl _ _⟩
  | finish len =>
    rw [queue_after_finish, Queue.pending?_finish]
    exact ⟨store, h, .refl _ _⟩
  | change c =>
    rw [queue_after_change]
    exact ⟨store, h, .refl _ _⟩

end Moment

/-! ### Numbered stores -/

/-- The tasks of a store with the numbers of their submissions, in the order of the store. -/
structure Pending.Numbered (h : List Moment) (store : Pending) (waiting : List (Task × Nat)) :
    Prop where
  numbering : store.IsNumbering waiting
  submissions : waiting <+~ (h.filterMap Moment.submitted?).zipIdx

namespace Pending

variable {h : List Moment} {m : Moment} {store store' : Pending} {waiting : List (Task × Nat)}

theorem numbered_nil (hempty : store.tasks = []) : store.Numbered [] [] where
  numbering := ⟨hempty.symm, .nil⟩
  submissions := .refl _

/-- The numbers of all that wait are the numbers of earlier submissions. -/
theorem Numbered.snd_lt (hnumbered : store.Numbered h waiting) :
    ∀ e ∈ waiting, e.2 < (h.filterMap Moment.submitted?).length := by
  intro e he
  have hmem := hnumbered.submissions.subset he
  simpa using List.snd_lt_of_mem_zipIdx hmem

/-- One more moment keeps a store numbered. -/
theorem Numbered.act (hm : m.OnStore store store') (hnumbered : store.Numbered h waiting) :
    ∃ waiting', store'.Numbered (h ++ [m]) waiting' := by
  cases hm with
  | @joined t hsubmitted =>
    obtain ⟨waiting', hnumbering, hperm⟩ := hnumbered.numbering.insert t hnumbered.snd_lt
    refine ⟨waiting', hnumbering, ?_⟩
    rw [Moment.filterMap_concat, hsubmitted, Option.toList_some, List.zipIdx_append, Nat.zero_add]
    refine (hperm.trans (List.perm_append_singleton _ _).symm).subperm.trans ?_
    exact (List.subperm_append_right _).mpr hnumbered.submissions
  | kept hordered htasks =>
    rw [← hnumbered.numbering.tasks, List.sublist_map_iff] at htasks
    obtain ⟨waiting', hsublist, htasks⟩ := htasks
    refine ⟨waiting', ⟨htasks.symm, ?_⟩, ?_⟩
    · rw [hordered]
      exact hnumbered.numbering.sorted.sublist hsublist
    · rw [Moment.filterMap_concat, List.zipIdx_append]
      exact (hsublist.subperm.trans hnumbered.submissions).trans
        (List.sublist_append_left _ _).subperm

end Pending

/-! ### Runs -/

namespace Session

variable {s : Session}

/-- Along every run, the scanned tasks carry the numbers of their submissions. -/
theorem exists_numbered_scanned (hempty : s.queue.scanned.tasks = []) (actions : List Action) :
    ∃ waiting, (s.after actions).queue.scanned.Numbered (s.history actions) waiting :=
  history_induction (I := fun h now => ∃ waiting, now.queue.scanned.Numbered h waiting)
    ⟨[], Pending.numbered_nil hempty⟩ (fun _ m ⟨_, hbefore⟩ => hbefore.act m.onScanned) actions

/-- Along every run, the gradients that wait with a policy carry the numbers of their
submissions. -/
theorem exists_numbered_pending {store : Pending} (h : s.queue.policy.pending? = some store)
    (hempty : store.tasks = []) (actions : List Action) :
    ∃ store' waiting, (s.after actions).queue.policy.pending? = some store' ∧
      store'.ordered = store.ordered ∧ store'.Numbered (s.history actions) waiting := by
  refine history_induction (I := fun h now => ∃ store' waiting,
    now.queue.policy.pending? = some store' ∧ store'.ordered = store.ordered ∧
      store'.Numbered h waiting)
    ⟨store, [], h, rfl, Pending.numbered_nil hempty⟩ ?_ actions
  rintro h m ⟨store', waiting, hpending, hordered, hnumbered⟩
  obtain ⟨store'', hpending', hm⟩ := Moment.onPending hpending
  obtain ⟨waiting', hnumbered'⟩ := hnumbered.act hm
  exact ⟨store'', waiting', hpending', hm.ordered.trans hordered, hnumbered'⟩

end Session

end TensorDispatch
