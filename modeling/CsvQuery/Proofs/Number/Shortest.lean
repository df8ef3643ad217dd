/-
  CsvQuery.Proofs.Number.Shortest — the shortest digits of a magnitude read back as it.

  Every place that the search accepts is accepted because a neighbour there reads back, and the last
  place is so fine that the magnitude itself lies on its grid.  So whatever digits the search ends
  with, they denote the magnitude it started from.

  Main results:
    • `Magnitude.nearest?_shortest` — the shortest decimal is nearest to its magnitude only
    • `Magnitude.whole_of_shortest` — without digits after the point the magnitude is whole
-/
import CsvQuery.Number.Shortest
import CsvQuery.Proofs.Number.Decimal

namespace CsvQuery.Magnitude

variable {x : Magnitude}

theorem nearest?_of_neighbour? {place : Int} {d : Decimal} (h : x.neighbour? place = some d) :
    d.nearest? = some x := by
  unfold neighbour? at h
  dsimp only at h
  split at h
  next hbelow =>
    split at h
    next habove =>
      rw [← Option.some.inj h]
      exact habove.1
    next =>
      rw [← Option.some.inj h]
      exact hbelow
  next =>
    split at h
    next habove =>
      rw [← Option.some.inj h]
      exact habove
    next => cases h

/-- At the place of the least unit and at all finer ones the magnitude lies on the grid. -/
theorem nearest?_scaledTo {place : Int} (h : place ≤ -1074) :
    Decimal.nearest? ⟨(x.scaledTo place).1 / (x.scaledTo place).2, place⟩ = some x := by
  obtain ⟨k, rfl⟩ : ∃ k : Nat, place = Int.negSucc k := ⟨(-place - 1).toNat, by omega⟩
  -- this power of ten is a multiple of the units of one, so the division leaves nothing over
  have hdvd : unitsPerOne ∣ 10 ^ (k + 1) := by
    have hten : 10 ^ (k + 1) = 2 ^ (k + 1) * 5 ^ (k + 1) := Nat.mul_pow 2 5 (k + 1)
    rw [hten]
    exact Nat.dvd_trans (unitsPerOne_dvd_two_pow (by omega)) (Nat.dvd_mul_right _ _)
  rw [Decimal.nearest?_eq_quotient]
  apply nearest?_of_eq_units (Nat.pow_pos (by decide))
  show x.units * 10 ^ (k + 1) / unitsPerOne * unitsPerOne = x.units * 10 ^ (k + 1)
  exact Nat.div_mul_cancel (Nat.dvd_trans hdvd (Nat.dvd_mul_left _ _))

/-- A search that goes down to the place of the least unit ends with a decimal that reads back. -/
theorem nearest?_search {steps : Nat} {place : Int} (h : place - steps ≤ -1074) :
    (shortest.search x steps place).nearest? = some x := by
  -- each step goes down one place, and the place after the last step is fine enough
  induction steps generalizing place with
  | zero => exact nearest?_scaledTo (by omega)
  | succ steps ih =>
    show ((x.neighbour? place).getD (shortest.search x steps (place - 1))).nearest? = some x
    cases hfound : x.neighbour? place with
    | some d => exact nearest?_of_neighbour? hfound
    | none => exact ih (by omega)

/-- The shortest decimal reads back as the magnitude. -/
theorem nearest?_shortest (x : Magnitude) : x.shortest.nearest? = some x :=
  nearest?_search (by omega)

/-- The shortest decimal of a magnitude other than zero has a digit other than zero. -/
theorem coefficient_shortest_pos (h : x.units ≠ 0) : 0 < x.shortest.coefficient := by
  refine Nat.pos_of_ne_zero fun hzero => h ?_
  have hnearest := nearest?_shortest x
  rw [Decimal.nearest?, if_pos hzero] at hnearest
  rw [← Option.some.inj hnearest]
  rfl

/-- A magnitude is whole if its shortest decimal has no digits after the point. -/
theorem whole_of_shortest {c k : Nat} (h : x.shortest = ⟨c, .ofNat k⟩) :
    ∃ n, x.units = n * unitsPerOne := by
  have hnearest := nearest?_shortest x
  rw [h, Decimal.nearest?_eq_quotient] at hnearest
  exact whole_of_nearest?_one hnearest

end CsvQuery.Magnitude
