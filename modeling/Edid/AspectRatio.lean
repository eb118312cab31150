import Edid.Mappers
import Mathlib.Data.Nat.GCD.Basic

/-!
# Reduced aspect ratios

`aspectRatioDenominator` divides width and height by `greatest_common_divisor` of the two and
looks the reduced ratio up in `aspectRatioEdgeCase`. Values are `Nat`: on `uint64` inputs Go's
`%` and `/` never wrap, so the model agrees with the source there.

* `greatestCommonDivisor_eq_gcd` — the source's Euclid loop computes `Nat.gcd`: one iteration
  keeps the gcd of the pair (`Nat.gcd_rec`), the loop ends at `gcd a 0 = a`;
* `edgeCaseSubstitution` — the four substitutions `8:5 → 16:10`, `5:8 → 10:16`, `7:3 → 21:9`,
  `3:7 → 9:21` as the specification words them, and `lookup_aspectRatioEdgeCase`: the source's
  table is that substitution;
* `aspectRatioDenominator_eq` — with a nonzero divisor the result is the substitution of the
  reduced ratio;
* `aspectRatioDenominator_reduced` — **for every height `h ≥ 1`** the divisor is positive (no
  panic), is the gcd, leaves a coprime pair, and the result is invariant under scaling both
  sides by any `k ≥ 1`;
* `aspectRatio_isSome` — the loop of `aspectRatio` starts at denominator 1, so the divisor it
  meets is never zero: `aspectRatio` never panics.
-/

set_option autoImplicit false

namespace Edid

/-! ## The Euclid loop -/

/-- `greatest_common_divisor` is the greatest common divisor. -/
theorem greatestCommonDivisor_eq_gcd (a b : Nat) : greatestCommonDivisor a b = Nat.gcd a b := by
  induction a, b using greatestCommonDivisor.induct with
  | case1 a => rw [greatestCommonDivisor, if_pos rfl, Nat.gcd_zero_right]
  | case2 a b hb ih =>
    rw [greatestCommonDivisor, if_neg hb, ih, Nat.gcd_comm b, ← Nat.gcd_rec, Nat.gcd_comm]

/-- Scaling both sides scales the divisor. -/
theorem greatestCommonDivisor_mul (k w h : Nat) :
    greatestCommonDivisor (k * w) (k * h) = k * greatestCommonDivisor w h := by
  simp only [greatestCommonDivisor_eq_gcd, Nat.gcd_mul_left]

/-! ## The edge cases -/

/-- The edge-case substitution as the specification lists it; any other ratio is kept. -/
def edgeCaseSubstitution (s : String) : String :=
  if s = "8:5" then "16:10" else if s = "5:8" then "10:16"
  else if s = "7:3" then "21:9" else if s = "3:7" then "9:21" else s

/-- The lookup of `aspectRatioDenominator` in `aspectRatioEdgeCase`, with the ratio itself when
it is missing, is the specification's substitution. -/
theorem lookup_aspectRatioEdgeCase (s : String) :
    (aspectRatioEdgeCase.lookup s).getD s = edgeCaseSubstitution s := by
  unfold edgeCaseSubstitution
  simp only [aspectRatioEdgeCase, List.lookup_cons, List.lookup_nil]
  split_ifs with h1 h2 h3 h4
  · subst h1; rfl
  · subst h2; rfl
  · subst h3; rfl
  · subst h4; rfl
  · simp only [beq_eq_false_iff_ne.mpr h1, beq_eq_false_iff_ne.mpr h2, beq_eq_false_iff_ne.mpr h3,
      beq_eq_false_iff_ne.mpr h4, Option.getD_none]

/-! ## The reduced ratio -/

/-- With a nonzero divisor, `aspectRatioDenominator` is the substitution of the reduced ratio. -/
theorem aspectRatioDenominator_eq {w h : Nat} (hg : 0 < greatestCommonDivisor w h) :
    aspectRatioDenominator w h = some (edgeCaseSubstitution (toString (w / greatestCommonDivisor w h)
      ++ ":" ++ toString (h / greatestCommonDivisor w h))) := by
  rw [← lookup_aspectRatioEdgeCase]
  simp only [aspectRatioDenominator, goDiv, if_neg (Nat.pos_iff_ne_zero.mp hg),
    Option.bind_eq_bind, Option.some_bind]
  split <;> rename_i hl <;> rw [hl] <;> rfl

/-- **`aspectRatioDenominator` on every height `h ≥ 1`**: the divisor is positive, so neither
division panics; it is the gcd of width and height; the reduced pair is coprime; the result is
the edge-case substitution of the reduced ratio; and scaling both sides by `k ≥ 1` does not
change it. -/
theorem aspectRatioDenominator_reduced (w h : Nat) (hh : 1 ≤ h) :
    0 < greatestCommonDivisor w h ∧ greatestCommonDivisor w h = Nat.gcd w h ∧
    Nat.Coprime (w / greatestCommonDivisor w h) (h / greatestCommonDivisor w h) ∧
    aspectRatioDenominator w h = some (edgeCaseSubstitution (toString (w / greatestCommonDivisor w h)
      ++ ":" ++ toString (h / greatestCommonDivisor w h))) ∧
    ∀ k, 1 ≤ k → aspectRatioDenominator (k * w) (k * h) = aspectRatioDenominator w h := by
  have hg : 0 < greatestCommonDivisor w h := by
    rw [greatestCommonDivisor_eq_gcd]; exact Nat.gcd_pos_of_pos_right w hh
  refine ⟨hg, greatestCommonDivisor_eq_gcd w h, ?_, aspectRatioDenominator_eq hg, fun k hk => ?_⟩
  · rw [greatestCommonDivisor_eq_gcd] at hg ⊢
    exact Nat.coprime_div_gcd_div_gcd hg
  · have hkg := greatestCommonDivisor_mul k w h
    rw [aspectRatioDenominator_eq (hkg ▸ Nat.mul_pos hk hg), aspectRatioDenominator_eq hg, hkg,
      Nat.mul_div_mul_left _ _ hk, Nat.mul_div_mul_left _ _ hk]

/-- `32:20` reduces to `8:5`, which the table turns into `16:10`. -/
theorem aspectRatioDenominator_thirtyTwo_twenty :
    aspectRatioDenominator (2 * 16) (2 * 10) = some "16:10" := by
  obtain ⟨-, hgcd, -, he, hk⟩ := aspectRatioDenominator_reduced 16 10 (by decide)
  rw [hk 2 (by decide), he, hgcd]
  simp only [Nat.reduceGcd, Nat.reduceDiv]
  decide

/-! ## The loop of `aspectRatio` -/

/-- From a denominator `n ≥ 1` the loop returns a ratio: `aspectRatioDenominator m n` has a
nonzero divisor. -/
theorem aspectRatioFrom_isSome (aspect : Float) : ∀ (k : Nat) {n : Nat}, 1 ≤ n →
    (aspectRatioFrom aspect n k).isSome
  | 0, _, _ => rfl
  | k + 1, n, hn => by
    simp only [aspectRatioFrom]
    split
    · rw [aspectRatioDenominator_eq (by
        rw [greatestCommonDivisor_eq_gcd]; exact Nat.gcd_pos_of_pos_right _ hn)]
      rfl
    · exact aspectRatioFrom_isSome aspect k (by omega)

theorem aspectRatio_isSome (aspect : Float) : (aspectRatio aspect).isSome :=
  aspectRatioFrom_isSome aspect 20 (Nat.le_refl 1)

end Edid
