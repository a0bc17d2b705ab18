import TensorDispatch.Proofs.Rehearsal.Tensors

/-!
# How far priorities reach

Fresh priorities are found below the lowest token, and there may be no room for them there: the
tokens of an accepted schedule may lie anywhere in the signed range, and its count of tensors
anywhere in the unsigned one.

* `Schedule.ExtendedTo` — priorities for all tensors of a schedule, those beyond the tokens fresh;
* `tensorPriorities_eq` — the three ends of the computation;
* `tensorPriorities_extend_iff` — the priorities are extended just where they fit the memory and no
  token is too low. Everywhere else the computation faults or, with a count of fresh tensors that no
  signed number holds, passes for done with the tokens alone.
-/

namespace TensorDispatch

/-- Priorities for all tensors of a schedule: first the tokens in order, then fresh ones in
descending order, so no two of those are the same. -/
def Schedule.ExtendedTo (schedule : Schedule) (priorities : List Int) : Prop :=
  ∃ fillers, priorities = schedule.tokens ++ fillers ∧
    priorities.length = schedule.totalTensors ∧ fillers.Pairwise (· > ·) ∧
    ∀ p ∈ fillers, p ∉ schedule.tokens

namespace Rehearsal

theorem signedCount_of_lt {n : Nat} (h : n < 0x8000000000000000) : signedCount n = n := by
  rw [signedCount, wrapSigned_of_isSigned ⟨by omega, by omega⟩, Int.toNat_natCast]

/-- A count in the upper half of the unsigned range counts none. -/
theorem signedCount_of_ge {n : Nat} (h : 0x8000000000000000 ≤ n) (hword : n < wordBound) :
    signedCount n = 0 := by
  have hnegative : wrapSigned n < 0 := by
    simp only [wordBound] at hword
    simp only [wrapSigned, Int.bmod, wordBound]
    omega
  exact Int.toNat_eq_zero.mpr (Int.le_of_lt hnegative)

section

variable {config : QueueConfig} {schedule : Schedule}

/-- The priorities of a schedule are refused for their number, refused for the lowest of them, or
counted down from the lowest token. -/
theorem tensorPriorities_eq (h : config.schedule = some schedule) {floor : Int}
    (hfloor : schedule.tokens.min? = some floor) (fallback : Nat) :
    tensorPriorities config fallback =
      let extra := signedCount (schedule.totalTensors - schedule.tokens.length)
      if FitsMemory priorityBytes (schedule.tokens.length + extra) then
        if IsSigned (floor - extra) then .ok (schedule.tokens ++ countDown (floor - 1) extra)
        else .error .differenceOverflow
      else .error .listTooLong := by
  simp only [tensorPriorities, h, hfloor, Option.getD_some, checkList]
  split <;> rfl

/-- Counting down from the lowest token meets no token, and goes on below all of them. -/
theorem lt_of_mem_countDown {tokens : List Int} {floor : Int} (hfloor : tokens.min? = some floor)
    {n : Nat} {p : Int} (hp : p ∈ countDown (floor - 1) n) : ∀ token ∈ tokens, p < token := by
  intro token htoken
  have hbelow := le_of_mem_countDown hp
  have habove := (List.min?_eq_some_iff.mp hfloor).2 token htoken
  omega

/-- What the lowest token has room for below it, every token has. -/
theorem isSigned_sub_iff {tokens : List Int} (hsigned : ∀ token ∈ tokens, IsSigned token)
    {floor : Int} (hfloor : tokens.min? = some floor) (n : Nat) :
    IsSigned (floor - n) ↔ ∀ token ∈ tokens, IsSigned (token - n) := by
  obtain ⟨hmem, hmin⟩ := List.min?_eq_some_iff.mp hfloor
  refine ⟨fun hfits token htoken => ?_, fun hall => hall floor hmem⟩
  obtain ⟨hlow, -⟩ := hfits
  obtain ⟨-, hhigh⟩ := hsigned token htoken
  have hle := hmin token htoken
  exact ⟨by omega, by omega⟩

/-- The four ends of the computation for an accepted schedule. -/
theorem tensorPriorities_cases (h : config.schedule = some schedule)
    (hvalid : schedule.validate = .ok ()) (hsigned : ∀ token ∈ schedule.tokens, IsSigned token)
    (hlist : FitsMemory priorityBytes schedule.tokens.length)
    (htotal : schedule.totalTensors < wordBound) (fallback : Nat) :
    let extra := schedule.totalTensors - schedule.tokens.length
    (FitsMemory priorityBytes schedule.totalTensors ∧
      (∀ token ∈ schedule.tokens, IsSigned (token - extra)) ∧
      ∃ floor, schedule.tokens.min? = some floor ∧
        tensorPriorities config fallback =
          .ok (schedule.tokens ++ countDown (floor - 1) extra)) ∨
    (FitsMemory priorityBytes schedule.totalTensors ∧
      (∃ token ∈ schedule.tokens, ¬ IsSigned (token - extra)) ∧
      tensorPriorities config fallback = .error .differenceOverflow) ∨
    (¬ FitsMemory priorityBytes schedule.totalTensors ∧
      tensorPriorities config fallback = .error .listTooLong) ∨
    ¬ FitsMemory priorityBytes schedule.totalTensors ∧ 0x8000000000000000 ≤ extra ∧
      tensorPriorities config fallback = .ok schedule.tokens := by
  intro extra
  obtain ⟨hne, hcount, -⟩ := Schedule.validate_eq_ok_iff.mp hvalid
  obtain ⟨floor, hfloor⟩ := Option.isSome_iff_exists.mp (List.isSome_min?_of_ne_nil hne)
  have heq := tensorPriorities_eq h hfloor fallback
  have hsum : schedule.tokens.length + extra = schedule.totalTensors := by omega
  dsimp only at heq
  rcases Nat.lt_or_ge extra 0x8000000000000000 with hextra | hextra
  · -- the count of fresh tensors is kept
    rw [signedCount_of_lt hextra, hsum] at heq
    have hroom := isSigned_sub_iff hsigned hfloor extra
    by_cases hfits : FitsMemory priorityBytes schedule.totalTensors
    · rw [if_pos hfits] at heq
      by_cases hlow : IsSigned (floor - extra)
      · rw [if_pos hlow] at heq
        exact .inl ⟨hfits, hroom.mp hlow, floor, hfloor, heq⟩
      · rw [if_neg hlow] at heq
        exact .inr (.inl ⟨hfits, ⟨floor, List.min?_mem hfloor, hlow⟩, heq⟩)
    · rw [if_neg hfits] at heq
      exact .inr (.inr (.inl ⟨hfits, heq⟩))
  · -- the count is lost, and the tokens alone pass both tests
    have hlost : signedCount extra = 0 := signedCount_of_ge hextra (by omega)
    have hfloorSigned : IsSigned (floor - (0 : Nat)) := by
      simpa using hsigned floor (List.min?_mem hfloor)
    rw [hlost, Nat.add_zero, if_pos hlist, if_pos hfloorSigned] at heq
    have hfits : ¬ FitsMemory priorityBytes schedule.totalTensors := by
      simp only [FitsMemory, priorityBytes, listBytes]
      omega
    exact .inr (.inr (.inr ⟨hfits, hextra, by simpa [countDown] using heq⟩))

/-- The priorities of an accepted schedule are extended to all of its tensors if and only if they
fit the memory and no token is so low that its fresh priorities leave the signed range. Priorities
that are returned start with the tokens in order, and the others descend below every token; there
are as many of them as there are tensors beyond the tokens, or none, where no signed number holds
that count. A fault says which of the two conditions failed. -/
theorem tensorPriorities_extend_iff (h : config.schedule = some schedule)
    (hvalid : schedule.validate = .ok ()) (hsigned : ∀ token ∈ schedule.tokens, IsSigned token)
    (hlist : FitsMemory priorityBytes schedule.tokens.length)
    (htotal : schedule.totalTensors < wordBound) (fallback : Nat) :
    let extra := schedule.totalTensors - schedule.tokens.length
    ((∃ priorities, tensorPriorities config fallback = .ok priorities ∧
        schedule.ExtendedTo priorities) ↔
      FitsMemory priorityBytes schedule.totalTensors ∧
        ∀ token ∈ schedule.tokens, IsSigned (token - extra)) ∧
    (∀ priorities, tensorPriorities config fallback = .ok priorities →
      ∃ fillers, priorities = schedule.tokens ++ fillers ∧ fillers.Pairwise (· > ·) ∧
        (∀ p ∈ fillers, ∀ token ∈ schedule.tokens, p < token) ∧
        (fillers.length = extra ∨ 0x8000000000000000 ≤ extra ∧ fillers = [])) ∧
    ∀ fault, tensorPriorities config fallback = .error fault →
      fault = .listTooLong ∧ ¬ FitsMemory priorityBytes schedule.totalTensors ∨
      fault = .differenceOverflow ∧ ∃ token ∈ schedule.tokens, ¬ IsSigned (token - extra) := by
  intro extra
  have hcount := (Schedule.validate_eq_ok_iff.mp hvalid).2.1
  rcases tensorPriorities_cases h hvalid hsigned hlist htotal fallback with
    ⟨hfits, hroom, floor, hfloor, hresult⟩ | ⟨hfits, ⟨token, htoken, hlow⟩, hresult⟩ |
      ⟨hfits, hresult⟩ | ⟨hfits, hextra, hresult⟩
  all_goals rw [hresult]
  · have hbelow : ∀ p ∈ countDown (floor - 1) extra, ∀ token ∈ schedule.tokens, p < token :=
      fun p => lt_of_mem_countDown hfloor
    have hextended : schedule.ExtendedTo (schedule.tokens ++ countDown (floor - 1) extra) := by
      refine ⟨_, rfl, ?_, descending_countDown _ _, fun p hp htoken => ?_⟩
      · rw [List.length_append, length_countDown]
        omega
      · exact Int.lt_irrefl p (hbelow p hp p htoken)
    refine ⟨iff_of_true ⟨_, rfl, hextended⟩ ⟨hfits, hroom⟩, ?_, by simp⟩
    rintro _ ⟨⟩
    exact ⟨_, rfl, descending_countDown _ _, hbelow, .inl (length_countDown _ _)⟩
  · refine ⟨iff_of_false (by simp) fun hboth => hlow (hboth.2 token htoken), by simp, ?_⟩
    rintro _ ⟨⟩
    exact .inr ⟨rfl, token, htoken, hlow⟩
  · refine ⟨iff_of_false (by simp) fun hboth => hfits hboth.1, by simp, ?_⟩
    rintro _ ⟨⟩
    exact .inl ⟨rfl, hfits⟩
  · refine ⟨iff_of_false ?_ fun hboth => hfits hboth.1, ?_, by simp⟩
    · rintro ⟨_, ⟨⟩, -, -, hlength, -⟩
      omega
    · rintro _ ⟨⟩
      exact ⟨[], by simp, .nil, by simp, .inr ⟨hextra, rfl⟩⟩

end

/-- Two tokens, and two tensors beyond them. -/
def twoTokens : QueueConfig := { schedule := some ⟨[-2, -1], -1, 4⟩ }

theorem tensorPriorities_extend_iff_twoTokens :
    (⟨[-2, -1], -1, 4⟩ : Schedule).validate = .ok () ∧
      tensorPriorities twoTokens 0 = .ok [-2, -1, -3, -4] ∧
      (⟨[-2, -1], -1, 4⟩ : Schedule).ExtendedTo [-2, -1, -3, -4] := by
  have hvalid : (⟨[-2, -1], -1, 4⟩ : Schedule).validate = .ok () := by decide
  have hresult : tensorPriorities twoTokens 0 = .ok [-2, -1, -3, -4] := by rfl
  have hschedule : twoTokens.schedule = some ⟨[-2, -1], -1, 4⟩ := rfl
  obtain ⟨hextends, -, -⟩ :=
    tensorPriorities_extend_iff hschedule hvalid (by decide) (by decide) (by decide) 0
  obtain ⟨priorities, hpriorities, hextended⟩ := hextends.mpr ⟨by decide, by decide⟩
  obtain rfl := Except.ok.inj (hresult.symm.trans hpriorities)
  exact ⟨hvalid, hresult, hextended⟩

/-- A schedule with the lowest of all tokens, and a tensor beyond it. -/
def lowestToken : Schedule := ⟨[-0x8000000000000000], -0x8000000000000000, 2⟩

/-- A schedule with more tensors beyond its token than a signed number counts. -/
def countlessTensors : Schedule := ⟨[0], 0, 0x8000000000000001⟩

theorem not_extendedTo_lowestToken :
    lowestToken.validate = .ok () ∧
      tensorPriorities { schedule := some lowestToken } 8 = .error .differenceOverflow ∧
      countlessTensors.validate = .ok () ∧
      tensorPriorities { schedule := some countlessTensors } 8 = .ok [0] ∧
      ¬ ∀ (config : QueueConfig) (schedule : Schedule) (fallback : Nat),
        config.schedule = some schedule → schedule.validate = .ok () →
        (∀ token ∈ schedule.tokens, IsSigned token) →
        FitsMemory priorityBytes schedule.tokens.length → schedule.totalTensors < wordBound →
        ∃ priorities, tensorPriorities config fallback = .ok priorities ∧
          schedule.ExtendedTo priorities := by
  have hlowest :
      tensorPriorities { schedule := some lowestToken } 8 = .error .differenceOverflow := by
    decide +kernel
  refine ⟨by decide, hlowest, by decide, by decide +kernel, fun hall => ?_⟩
  obtain ⟨priorities, hresult, -⟩ :=
    hall { schedule := some lowestToken } lowestToken 8 rfl (by decide) (by decide) (by decide)
      (by decide)
  rw [hlowest] at hresult
  cases hresult

end Rehearsal

end TensorDispatch
