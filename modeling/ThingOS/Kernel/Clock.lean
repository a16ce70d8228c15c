import Mathlib

/-!
# The clock

`kernel/src/clock.rs`: the clock multiplies the ticks of the HPET since boot by its period in
femtoseconds. The product is formed in a `u64` before it is divided, so the clock can run for some
five hours, whatever the period. A build with overflow checks stops there, one without goes back to
zero.
-/

namespace ThingOS

/-- The profile of a build: `dev` has overflow checks. -/
inductive Profile where
  | dev
  | release

/-- The product of two `u64`, `none` where the program stops. -/
def Profile.mulU64 : Profile → ℕ → ℕ → Option ℕ
  | .dev, a, b => if a * b < 2 ^ 64 then some (a * b) else none
  | .release, a, b => some (a * b % 2 ^ 64)

lemma Profile.mulU64_of_lt (profile : Profile) {a b : ℕ} (h : a * b < 2 ^ 64) :
    profile.mulU64 a b = some (a * b) := by
  cases profile with
  | dev => exact if_pos h
  | release => exact congrArg some (Nat.mod_eq_of_lt h)

lemma Profile.mulU64_dev_of_le {a b : ℕ} (h : 2 ^ 64 ≤ a * b) : Profile.dev.mulU64 a b = none :=
  if_neg (Nat.not_lt.mpr h)

/-- The registers of the HPET that the clock reads or writes. -/
structure Hpet where
  capabilities : BitVec 64
  configuration : BitVec 64
  mainCounter : BitVec 64

namespace Hpet

def enable (hpet : Hpet) : Hpet := { hpet with configuration := hpet.configuration ||| 1 }

def read (hpet : Hpet) : ℕ := hpet.mainCounter.toNat

/-- The upper half of the capabilities: the length of a tick in femtoseconds. -/
def period (hpet : Hpet) : ℕ := hpet.capabilities.toNat / 2 ^ 32

/-- The exact time between two readings, in femtoseconds. -/
def femtosSince (boot now : Hpet) : ℕ := (now.read - boot.read) * boot.period

end Hpet

/-- `Clock`, without the date at which it started. -/
structure Clock where
  startTicks : ℕ
  periodFs : ℕ

namespace Clock

/-- `Clock::new`, with the HPET as it leaves it. -/
def new (hpet : Hpet) : Clock × Hpet :=
  let periodFs := ((hpet.capabilities >>> 32) &&& 0xFFFFFFFF).toNat
  let hpet := hpet.enable
  (⟨hpet.read, periodFs⟩, hpet)

/-- `saturating_sub`, which is the subtraction of natural numbers. -/
def ticksSinceBoot (clock : Clock) (hpet : Hpet) : ℕ := hpet.read - clock.startTicks

def nanosSinceBoot (profile : Profile) (clock : Clock) (hpet : Hpet) : Option ℕ :=
  (profile.mulU64 (clock.ticksSinceBoot hpet) clock.periodFs).map (· / 1000000)

variable (profile : Profile) (boot now : Hpet)

lemma new_eq : (new boot).1 = ⟨boot.read, boot.period⟩ := by
  have hlow : boot.capabilities.toNat >>> 32 < 2 ^ 32 := by
    rw [Nat.shiftRight_eq_div_pow]
    omega
  have hmask : BitVec.toNat (0xFFFFFFFF : BitVec 64) = 2 ^ 32 - 1 := rfl
  simp only [new, Hpet.enable, Hpet.read, Hpet.period, Clock.mk.injEq, true_and]
  rw [BitVec.toNat_and, BitVec.toNat_ushiftRight, hmask, Nat.and_two_pow_sub_one_eq_mod,
    Nat.mod_eq_of_lt hlow, Nat.shiftRight_eq_div_pow]

lemma nanosSinceBoot_new :
    (new boot).1.nanosSinceBoot profile now
      = (profile.mulU64 (now.read - boot.read) boot.period).map (· / 1000000) := by
  rw [new_eq, nanosSinceBoot, ticksSinceBoot]

lemma nanosSinceBoot_of_lt (h : boot.femtosSince now < 2 ^ 64) :
    (new boot).1.nanosSinceBoot profile now = some (boot.femtosSince now / 1000000) := by
  rw [nanosSinceBoot_new, profile.mulU64_of_lt h]
  rfl

lemma nanosSinceBoot_ne_of_le (h : 2 ^ 64 ≤ boot.femtosSince now) :
    (new boot).1.nanosSinceBoot profile now ≠ some (boot.femtosSince now / 1000000) := by
  rw [nanosSinceBoot_new]
  cases profile with
  | dev =>
    rw [Profile.mulU64_dev_of_le h]
    exact nofun
  | release =>
    -- a wrap takes away more than a nanosecond
    simp only [Profile.mulU64, Hpet.femtosSince, Option.map_some, ne_eq, Option.some.injEq] at h ⊢
    generalize (now.read - boot.read) * boot.period = product at h ⊢
    omega

/-- As long as the nanoseconds fit, the clock is exact for as long as the femtoseconds fit too, and
up to there it does not run backwards. -/
theorem nanosSinceBoot_exact_iff :
    (boot.femtosSince now / 1000000 < 2 ^ 64 →
      ((new boot).1.nanosSinceBoot profile now = some (boot.femtosSince now / 1000000)
        ↔ boot.femtosSince now < 2 ^ 64))
    ∧ ∀ later : Hpet, now.read ≤ later.read → boot.femtosSince later < 2 ^ 64 →
      ∃ m n, (new boot).1.nanosSinceBoot profile now = some m
        ∧ (new boot).1.nanosSinceBoot profile later = some n ∧ m ≤ n := by
  refine ⟨fun _ => ⟨fun h => ?_, nanosSinceBoot_of_lt profile boot now⟩, ?_⟩
  · by_contra hlt
    exact nanosSinceBoot_ne_of_le profile boot now (Nat.not_lt.mp hlt) h
  · intro later hlater hlt
    have hmono : boot.femtosSince now ≤ boot.femtosSince later :=
      Nat.mul_le_mul_right _ (Nat.sub_le_sub_right hlater _)
    exact ⟨_, _, nanosSinceBoot_of_lt profile boot now (hmono.trans_lt hlt),
      nanosSinceBoot_of_lt profile boot later hlt, Nat.div_le_div_right hmono⟩

def tenNanoseconds (ticks : ℕ) : Hpet :=
  ⟨BitVec.ofNat 64 (10000000 * 2 ^ 32), 0, BitVec.ofNat 64 ticks⟩

theorem nanosSinceBoot_one_second :
    (new (tenNanoseconds 5)).1.nanosSinceBoot .dev (tenNanoseconds 100000005) = some 1000000000 :=
  ((nanosSinceBoot_exact_iff .dev (tenNanoseconds 5) (tenNanoseconds 100000005)).1
    (by decide +kernel)).mpr (by decide +kernel)

/-- After some five hours a clock with overflow checks stops, and one without starts again. -/
theorem nanosSinceBoot_five_hours :
    (tenNanoseconds 0).femtosSince (tenNanoseconds 1844674407371) / 1000000 = 18446744073710
      ∧ (new (tenNanoseconds 0)).1.nanosSinceBoot .dev (tenNanoseconds 1844674407371) = none
      ∧ (new (tenNanoseconds 0)).1.nanosSinceBoot .release (tenNanoseconds 1844674407370)
        = some 18446744073700
      ∧ (new (tenNanoseconds 0)).1.nanosSinceBoot .release (tenNanoseconds 1844674407371)
        = some 0 := by
  decide +kernel

end Clock

end ThingOS
