/-!
# Random draws

A source of uniform draws is a generator in one of its states. Nothing but the law of a generator,
that a draw below a bound is below it, is used elsewhere, so that what holds of a patch holds
whatever its generator.

The generator in use keeps a counter. Each draw scrambles its next value, and a draw below a bound
multiplies into the range.
-/

namespace Patchbay

/-- A generator of random draws. Its states are numbered; a draw gives the next one as well. -/
structure Generator where
  /-- A number below a bound that is not zero. -/
  below : Nat → Nat → Nat × Nat
  /-- A number from zero up to but not including one. -/
  unit : Nat → Float32 × Nat
  /-- A draw below a bound is below it. -/
  below_lt : ∀ (state : Nat) {bound : Nat}, 0 < bound → (below state bound).1 < bound

/-- A source of random draws. -/
structure Random where
  generator : Generator
  /-- The number of its state. -/
  state : Nat

namespace Generator

/-- Sixty-four random bits for a value of the counter, and its next value. -/
def scramble (counter : Nat) : UInt64 × Nat :=
  let s := UInt64.ofNat counter + 0x9E3779B97F4A7C15
  let a := (s ^^^ (s >>> 30)) * 0xBF58476D1CE4E5B9
  let b := (a ^^^ (a >>> 27)) * 0x94D049BB133111EB
  (b ^^^ (b >>> 31), s.toNat)

/-- A number below the bound, which must not be zero, by the high half of a product. -/
def scrambleBelow (counter bound : Nat) : Nat × Nat :=
  let (b, counter) := scramble counter
  (b.toNat * bound / UInt64.size, counter)

theorem scrambleBelow_lt (counter : Nat) {bound : Nat} (h : 0 < bound) :
    (scrambleBelow counter bound).1 < bound := by
  have hb : (scramble counter).1.toNat < UInt64.size := (scramble counter).1.toNat_lt
  exact Nat.div_lt_of_lt_mul (Nat.mul_lt_mul_of_pos_right hb h)

/-- The generator in use; its draws between zero and one are multiples of `2^-24`. -/
def counting : Generator where
  below := scrambleBelow
  unit counter :=
    let (n, counter) := scrambleBelow counter 16777216
    (Float32.ofNat n / 16777216, counter)
  below_lt := scrambleBelow_lt

end Generator

namespace Random

/-- The source that a seed starts. -/
def ofSeed (seed : UInt64) : Random := ⟨.counting, seed.toNat⟩

/-- A number below the bound, which must not be zero, and the source after the draw. -/
def below (r : Random) (bound : Nat) : Nat × Random :=
  let (n, state) := r.generator.below r.state bound
  (n, ⟨r.generator, state⟩)

/-- A number from zero up to but not including one, and the source after the draw. -/
def unit (r : Random) : Float32 × Random :=
  let (x, state) := r.generator.unit r.state
  (x, ⟨r.generator, state⟩)

theorem below_lt (r : Random) {bound : Nat} (h : 0 < bound) : (r.below bound).1 < bound :=
  r.generator.below_lt r.state h

end Random

end Patchbay
