import TensorDispatch.Fault

/-!
# Byte credit

**Credit** bounds the bytes that are dispatched and not yet reported finished. A metered
account moves bytes between its two parts, so their sum, the budget, never changes
(`Credit.budget_acquire`, `Credit.budget_giveBack`); an unmetered one accepts everything.
-/

namespace TensorDispatch

/-- The bytes of one stage that may be in flight. -/
inductive Credit
  | unmetered
  | metered (available inFlight : Nat)
  deriving DecidableEq, Repr

namespace Credit

/-- What an unmetered account shows as available: 32 GiB. -/
def shownWhenUnmetered : Nat := 32 * 1024 * 1024 * 1024

/-- An account over the whole of a budget; without a budget there is no metering. -/
def ofBudget : Option Nat → Credit
  | none => unmetered
  | some budget => metered budget 0

/-- Whether bytes are counted. -/
def isMetered : Credit → Bool
  | unmetered => false
  | metered .. => true

/-- The bytes that may still be dispatched. -/
def available : Credit → Nat
  | unmetered => shownWhenUnmetered
  | metered available _ => available

/-- The bytes dispatched and not yet reported finished. -/
def inFlight : Credit → Nat
  | unmetered => 0
  | metered _ inFlight => inFlight

/-- All bytes of the account. -/
def budget (c : Credit) : Nat := c.available + c.inFlight

/-- Whether `len` bytes may be dispatched now. -/
def admits (len : Nat) : Credit → Bool
  | unmetered => true
  | metered available _ => decide (len ≤ available)

/-- Moves `len` bytes into flight. -/
def acquire (len : Nat) : Credit → Except Fault Credit
  | unmetered => .ok unmetered
  | metered available inFlight =>
    if len ≤ available then .ok (metered (available - len) (inFlight + len))
    else .error (.creditOverdrawn len available)

/-- Takes `len` bytes out of flight. -/
def giveBack (len : Nat) : Credit → Except Fault Credit
  | unmetered => .ok unmetered
  | metered available inFlight =>
    if len ≤ inFlight then .ok (metered (available + len) (inFlight - len))
    else .error (.creditOverreturned len inFlight)

theorem budget_acquire {len : Nat} {c d : Credit} (h : c.acquire len = .ok d) :
    d.budget = c.budget := by
  cases c with
  | unmetered => cases h; rfl
  | metered a f =>
    by_cases hl : len ≤ a
    · simp only [acquire, hl, if_true, Except.ok.injEq] at h
      subst h
      simp only [budget, available, inFlight]
      omega
    · simp [acquire, hl] at h

theorem budget_giveBack {len : Nat} {c d : Credit} (h : c.giveBack len = .ok d) :
    d.budget = c.budget := by
  cases c with
  | unmetered => cases h; rfl
  | metered a f =>
    by_cases hl : len ≤ f
    · simp only [giveBack, hl, if_true, Except.ok.injEq] at h
      subst h
      simp only [budget, available, inFlight]
      omega
    · simp [giveBack, hl] at h

end Credit

end TensorDispatch
