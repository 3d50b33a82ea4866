import Mathlib.Data.List.Forall2
import Mathlib.Data.Nat.Basic

/-!
# Computations that may fail

Taking apart a sequence of fallible steps that succeeded, and checks that return nothing.  A metered
computation pays for its steps and stops where its meter is empty; if it does the same work whatever
the meter says, it has one result and one price.
-/

universe u v

namespace Except

variable {ε : Type u} {α β : Type v} {x : Except ε α}

/-- A sequence succeeds exactly when both parts do. -/
theorem bind_eq_ok {f : α → Except ε β} {y : β} :
    (x >>= f) = .ok y ↔ ∃ a, x = .ok a ∧ f a = .ok y := by
  cases x with
  | error => simp [bind, Except.bind]
  | ok => simp [bind, Except.bind]

/-- A sequence whose first part returns nothing succeeds exactly when both parts do. -/
theorem unit_bind_eq_ok {x : Except ε PUnit} {f : PUnit → Except ε β} {y : β} :
    (x >>= f) = .ok y ↔ x = .ok ⟨⟩ ∧ f ⟨⟩ = .ok y := by
  rw [bind_eq_ok]
  exact ⟨fun ⟨⟨⟩, hx, hf⟩ => ⟨hx, hf⟩, fun ⟨hx, hf⟩ => ⟨⟨⟩, hx, hf⟩⟩

/-- A sequence that begins with a check succeeds exactly when the check passes and the rest
succeeds. -/
theorem ite_throw_bind_eq_ok {c : Prop} [Decidable c] {e : ε} {f : PUnit → Except ε β} {y : β} :
    (if c then throw e >>= f else f ⟨⟩) = .ok y ↔ ¬ c ∧ f ⟨⟩ = .ok y := by
  by_cases hc : c
  · rw [if_pos hc]
    constructor
    · intro hthrow
      cases hthrow
    · intro hboth
      exact absurd hc hboth.1
  · rw [if_neg hc]
    exact ⟨fun h => ⟨hc, h⟩, fun h => h.2⟩

/-- Fails with the error exactly when the condition holds. -/
def refuseIf (c : Prop) [Decidable c] (error : ε) : Except ε Unit :=
  if c then .error error else .ok ()

/-- What is not refused passes. -/
@[simp]
theorem refuseIf_eq_ok {c : Prop} [Decidable c] {error : ε} : refuseIf c error = .ok () ↔ ¬ c := by
  unfold refuseIf
  split_ifs with hc
  · exact ⟨fun hok => (by cases hok), fun hnot => absurd hc hnot⟩
  · exact ⟨fun _ => hc, fun _ => rfl⟩

/-- A mapped result succeeds exactly when the result does. -/
theorem map_eq_ok {f : α → β} {b : β} : x.map f = .ok b ↔ ∃ a, x = .ok a ∧ f a = b := by
  cases x with
  | error => simp [Except.map]
  | ok => simp [Except.map]

/-- A success has a value. -/
theorem exists_ok (hx : x.isOk = true) : ∃ a, x = .ok a := by
  cases x with
  | error => cases hx
  | ok a => exact ⟨a, rfl⟩

end Except

namespace McLoving

/-- What may still be spent and what was spent. -/
structure Meter where
  remaining : ℕ
  spent : ℕ
  deriving DecidableEq

/-- A computation that pays from a meter: its result, if the meter was sufficient, and the meter
after it. -/
def Metered (α : Type) : Type :=
  Meter → Option α × Meter

namespace Metered

variable {α β : Type}

/-- One computation and then the next, if the first one returns. -/
def andThen (x : Metered α) (f : α → Metered β) : Metered β := fun meter =>
  match x meter with
  | (none, meter) => (none, meter)
  | (some a, meter) => f a meter

instance : Monad Metered where
  pure a := fun meter => (some a, meter)
  bind := andThen

/-- The payment for one step. -/
def charge : Metered Unit := fun meter =>
  if meter.remaining = 0 then (none, meter)
  else (some (), ⟨meter.remaining - 1, meter.spent + 1⟩)

/-- The computation with a given price and result. -/
def charged (price : ℕ) (a : α) : Metered α := fun meter =>
  if price ≤ meter.remaining then (some a, ⟨meter.remaining - price, meter.spent + price⟩)
  else (none, ⟨0, meter.spent + meter.remaining⟩)

theorem pure_eq (a : α) : (pure a : Metered α) = charged 0 a := by
  funext meter
  simp [charged, pure]

theorem charge_eq : charge = charged 1 () := by
  funext meter
  unfold charge charged
  by_cases hempty : meter.remaining = 0
  · obtain ⟨remaining, spent⟩ := meter
    dsimp only at hempty
    subst hempty
    rfl
  · rw [if_neg hempty, if_pos (Nat.one_le_iff_ne_zero.mpr hempty)]

variable {k : ℕ} {a : α} {f : α → Metered β} {x : Metered α}

/-- Prices add up. -/
theorem charged_bind {l : ℕ} {b : β} (hrest : f a = charged l b) :
    (charged k a >>= f) = charged (k + l) b := by
  funext meter
  obtain ⟨remaining, spent⟩ := meter
  change andThen (charged k a) f ⟨remaining, spent⟩ = _
  unfold andThen charged
  by_cases hfirst : k ≤ remaining
  · rw [if_pos hfirst]
    dsimp only
    rw [hrest, charged]
    dsimp only
    by_cases hsecond : l ≤ remaining - k
    · rw [if_pos hsecond, if_pos (by omega), Nat.sub_sub, Nat.add_assoc]
    · rw [if_neg hsecond, if_neg (by omega), Nat.add_assoc, Nat.add_sub_cancel' hfirst]
  · rw [if_neg hfirst, if_neg (by dsimp only; omega)]

/-- A computation with a result and a price within a bound. -/
def Costs (x : Metered α) (a : α) (bound : ℕ) : Prop :=
  ∃ price ≤ bound, x = charged price a

namespace Costs

variable {x : Metered α} {f : α → Metered β} {a : α} {b : β} {k l : ℕ}

theorem pure (a : α) : Costs (pure a) a 0 := ⟨0, le_rfl, pure_eq a⟩

theorem charge : Costs Metered.charge () 1 := ⟨1, le_rfl, charge_eq⟩

/-- The prices of a sequence add up. -/
theorem bind (hx : Costs x a k) (hf : Costs (f a) b l) : Costs (x >>= f) b (k + l) := by
  obtain ⟨price, hprice, rfl⟩ := hx
  obtain ⟨price', hprice', hrest⟩ := hf
  exact ⟨price + price', by omega, charged_bind hrest⟩

/-- What costs at most `k` costs at most more. -/
theorem mono (hx : Costs x a k) (hle : k ≤ l) : Costs x a l := by
  obtain ⟨price, hprice, hcharged⟩ := hx
  exact ⟨price, Nat.le_trans hprice hle, hcharged⟩

/-- What is returned from a result is free. -/
theorem map (hx : Costs x a k) (g : α → β) : Costs (x >>= fun a => Pure.pure (g a)) (g a) k := by
  have hreturn := pure (g a)
  exact bind (f := fun a => Pure.pure (g a)) hx hreturn

/-- The payment for a step and then the rest. -/
theorem pay {y : Metered β} (hy : Costs y b l) : Costs (Metered.charge >>= fun _ => y) b (l + 1) :=
  (charge.bind hy).mono (Nat.le_of_eq (Nat.add_comm 1 l))

/-- With a sufficient meter the result is returned. -/
theorem fst_eq (hx : Costs x a k) {meter : Meter} (hle : k ≤ meter.remaining) :
    (x meter).1 = some a := by
  obtain ⟨price, hprice, rfl⟩ := hx
  rw [charged, if_pos (Nat.le_trans hprice hle)]

/-- What is returned is the result. -/
theorem eq_of_some (hx : Costs x a k) {meter meter' : Meter} {found : α}
    (hfound : x meter = (some found, meter')) : found = a := by
  obtain ⟨price, -, rfl⟩ := hx
  unfold charged at hfound
  split_ifs at hfound with hle
  · exact (Option.some.inj (Prod.mk.inj hfound).1).symm
  · cases (Prod.mk.inj hfound).1

end Costs

/-- A sequence returns only if both parts do. -/
theorem bind_eq_some {meter meter' : Meter} {b : β}
    (hreturns : (x >>= f) meter = (some b, meter')) :
    ∃ a between, x meter = (some a, between) ∧ f a between = (some b, meter') := by
  change andThen x f meter = _ at hreturns
  unfold andThen at hreturns
  cases hx : x meter with
  | mk result between =>
    rw [hx] at hreturns
    cases result with
    | none => cases hreturns
    | some a => exact ⟨a, between, rfl, hreturns⟩

/-- A computation that does the same work whatever the meter says. -/
def Steady (x : Metered α) : Prop :=
  ∃ a price, x = charged price a

/-- What has a price is steady. -/
theorem Costs.steady (hx : Costs x a k) : Steady x := by
  obtain ⟨price, -, hcharged⟩ := hx
  exact ⟨a, price, hcharged⟩

namespace Steady

variable {x : Metered α} {meter : Meter}

/-- What is spent was there before. -/
theorem balance (hx : Steady x) (meter : Meter) :
    (x meter).2.spent + (x meter).2.remaining = meter.spent + meter.remaining := by
  obtain ⟨a, price, rfl⟩ := hx
  unfold charged
  split_ifs with hle
  · dsimp only
    omega
  · rfl

/-- A meter is not refilled. -/
theorem remaining_le (hx : Steady x) (meter : Meter) : (x meter).2.remaining ≤ meter.remaining := by
  obtain ⟨a, price, rfl⟩ := hx
  unfold charged
  split_ifs with hle
  · exact Nat.sub_le _ _
  · exact Nat.zero_le _

/-- A meter with more returns the same. -/
theorem fst_of_le (hx : Steady x) {a : α} {meter meter' larger : Meter}
    (hreturns : x meter = (some a, meter')) (hle : meter.remaining ≤ larger.remaining) :
    (x larger).1 = some a := by
  obtain ⟨result, price, rfl⟩ := hx
  unfold charged at hreturns ⊢
  split_ifs at hreturns with hprice
  · rw [if_pos (Nat.le_trans hprice hle)]
    exact (Prod.mk.inj hreturns).1
  · cases (Prod.mk.inj hreturns).1

/-- A larger budget changes neither the result nor what is spent. -/
theorem enlarge (hx : Steady x) {b b' spent : ℕ} (hle : b ≤ b') {a : α} {meter : Meter}
    (hreturns : x ⟨b, spent⟩ = (some a, meter)) :
    ∃ meter', x ⟨b', spent⟩ = (some a, meter') ∧ meter'.spent = meter.spent := by
  obtain ⟨result, price, rfl⟩ := hx
  unfold charged at hreturns
  split_ifs at hreturns with hprice
  · obtain ⟨hresult, rfl⟩ := Prod.mk.inj hreturns
    refine ⟨⟨b' - price, spent + price⟩, ?_, rfl⟩
    rw [charged, if_pos (Nat.le_trans hprice hle), hresult]
  · cases (Prod.mk.inj hreturns).1

end Steady

end Metered

end McLoving
