import EventPipeline.Proofs.Config.Soundness
import EventPipeline.Proofs.Number.Rounding

/-!
# `EventPipeline.Proofs.Config.Periods`: which periods are not zero

A configuration gives its periods as numbers of seconds, and validation looks at these numbers.
The engine works with durations. Between the two a number is rounded to nanoseconds, and a number
that is too large for a duration becomes zero.

* `Duration.ofFloat_pos_iff`: which numbers of seconds give a duration that is not zero.
* `PipelineConfig.hasPeriods_iff`: in a valid configuration the numbers of nodes and heartbeats
  are positive, and so their periods are not zero exactly if the numbers are neither too small nor
  too large for that. The interval of the reports has to be positive by itself, because validation
  does not look at it (`PipelineConfig.validate_runtime`).
-/

set_option autoImplicit false

namespace EventPipeline

open Number (Binary)
open Float.Model (UnpackedFloat)

namespace Duration

/-! ### Numbers of seconds -/

/-- The numerator of the magnitude of a finite number. -/
def numerator (seconds : Float) : Nat :=
  (Binary.ofBits seconds.toBits).mantissa * 2 ^ (Binary.ofBits seconds.toBits).exponent.toNat

/-- The denominator of the magnitude of a finite number. -/
def denominator (seconds : Float) : Nat :=
  2 ^ (-(Binary.ofBits seconds.toBits).exponent).toNat

/-- The number of seconds, which is not negative, is finite, fits 64 bits, and is more than half
a nanosecond. -/
structure IsModerate (seconds : Float) : Prop where
  finite : seconds.isInf = false
  fits : numerator seconds < 2 ^ 64 * denominator seconds
  large : denominator seconds < 2 * (numerator seconds * perSecond)

theorem denominator_pos (seconds : Float) : 0 < denominator seconds :=
  Nat.two_pow_pos _

/-- A number of seconds has a duration that is not zero exactly if it is a number, is not
negative, and is neither too small nor too large. -/
theorem ofFloat_pos_iff (seconds : Float) :
    0 < (ofFloat seconds).nanos ↔
      seconds.isNaN = false ∧ ¬ seconds < 0.0 ∧ IsModerate seconds := by
  have hzero : ¬ 0 < ((none : Option Duration).getD { nanos := 0 }).nanos := Nat.lt_irrefl 0
  unfold ofFloat ofFloat?
  split
  · rename_i hbad
    refine iff_of_false hzero ?_
    rintro ⟨hnan, hsign, hmoderate⟩
    rw [hnan, hmoderate.finite, decide_eq_false hsign] at hbad
    exact Bool.false_ne_true hbad
  · rename_i hgood
    simp only [Bool.or_eq_true, decide_eq_true_eq, not_or, Bool.not_eq_true] at hgood
    obtain ⟨⟨hnan, hinf⟩, hsign⟩ := hgood
    dsimp only
    split
    · rename_i hfits
      refine (roundQuotient_pos_iff (denominator_pos seconds)).trans ?_
      exact ⟨fun hlarge => ⟨hnan, hsign, hinf, hfits, hlarge⟩, fun h => h.2.2.large⟩
    · rename_i hfits
      refine iff_of_false hzero fun h => hfits h.2.2.fits

/-- A positive number is a number, and it is not negative. -/
theorem isNaN_eq_false_of_pos {seconds : Float} (h : seconds > 0.0) :
    seconds.isNaN = false ∧ ¬ seconds < 0.0 := by
  have hzero : (0.0 : Float).toModel.unpack = .zero .positive := rfl
  have hcompare : (UnpackedFloat.zero .positive).compare seconds.toModel.unpack = some .lt := by
    rw [← hzero]
    exact beq_iff_eq.mp (of_decide_eq_true h)
  have hnan : seconds.isNaN = seconds.toModel.unpack.isNaN := rfl
  have hless : seconds < 0.0 ↔
      seconds.toModel.unpack.compare (.zero .positive) = some .lt := by
    rw [← hzero]
    exact ⟨fun h => beq_iff_eq.mp (of_decide_eq_true h),
      fun h => decide_eq_true (beq_iff_eq.mpr h)⟩
  rw [hnan, hless]
  -- what zero is less than is positive, and it is infinite or finite
  cases hx : seconds.toModel.unpack with
  | notANumber =>
    rw [hx] at hcompare
    cases hcompare
  | zero sign =>
    rw [hx] at hcompare
    cases hcompare
  | infinity sign =>
    rw [hx] at hcompare
    cases sign with
    | positive => exact ⟨rfl, nofun⟩
    | negative => cases hcompare
  | finite sign =>
    rw [hx] at hcompare
    cases sign with
    | positive => exact ⟨rfl, nofun⟩
    | negative => cases hcompare

/-- A positive number of seconds has a duration that is not zero exactly if it is neither too
small nor too large. -/
theorem ofFloat_pos_iff_of_pos {seconds : Float} (h : seconds > 0.0) :
    0 < (ofFloat seconds).nanos ↔ IsModerate seconds := by
  rw [ofFloat_pos_iff]
  obtain ⟨hnan, hsign⟩ := isNaN_eq_false_of_pos h
  exact ⟨fun h => h.2.2, fun h => ⟨hnan, hsign, h⟩⟩

end Duration

/-! ### Configurations -/

namespace PipelineConfig

variable {config : PipelineConfig}

/-- No period of the engine is zero: neither that of a worker, nor that of a heartbeat, nor that
of the reports. -/
structure HasPeriods (config : PipelineConfig) : Prop where
  polls : ∀ node ∈ config.nodes, 0 < node.2.pollWithin.nanos
  beats : ∀ heartbeat ∈ config.heartbeats, 0 < heartbeat.2.every.nanos
  reports : 0 < config.runtime.reportEvery.nanos

/-- The periods of a valid configuration are not zero exactly if none of its numbers of seconds
is too small or too large, and the interval of the reports is a number that is not negative. -/
theorem hasPeriods_iff (hvalid : config.validate = .ok ()) :
    config.HasPeriods ↔
      (∀ node ∈ config.nodes, Duration.IsModerate node.2.pollTimeout) ∧
        (∀ heartbeat ∈ config.heartbeats, Duration.IsModerate heartbeat.2.interval) ∧
          config.runtime.reportInterval.isNaN = false ∧ ¬ config.runtime.reportInterval < 0.0 ∧
            Duration.IsModerate config.runtime.reportInterval := by
  have hsound := validate_eq_ok_iff.mp hvalid
  have hpolls : (∀ node ∈ config.nodes, 0 < node.2.pollWithin.nanos) ↔
      ∀ node ∈ config.nodes, Duration.IsModerate node.2.pollTimeout :=
    forall₂_congr fun node hnode => Duration.ofFloat_pos_iff_of_pos (hsound.nodes node hnode).poll
  have hbeats : (∀ heartbeat ∈ config.heartbeats, 0 < heartbeat.2.every.nanos) ↔
      ∀ heartbeat ∈ config.heartbeats, Duration.IsModerate heartbeat.2.interval :=
    forall₂_congr fun heartbeat hmem =>
      Duration.ofFloat_pos_iff_of_pos (hsound.heartbeats heartbeat hmem)
  rw [← hpolls, ← hbeats, ← Duration.ofFloat_pos_iff]
  exact ⟨fun h => ⟨h.polls, h.beats, h.reports⟩, fun h => ⟨h.1, h.2.1, h.2.2⟩⟩

/-- Validation does not look at the options of the runtime. -/
theorem validate_runtime (config : PipelineConfig) (runtime : RuntimeOptions) :
    { config with runtime }.validate = config.validate := rfl

/-- A valid configuration in which all three periods are zero: one number is too small, one is
too large, and the last one is negative. -/
example :
    let config : PipelineConfig :=
      { nodes := [("n", { plugin := "log", pollTimeout := 1e-10 })]
        heartbeats := [("h", { plugin := "logger", interval := 1e20 })]
        runtime := { reportInterval := -1.0 } }
    config.validate = .ok () ∧ (config.nodes.map fun node => node.2.pollWithin.nanos) = [0] ∧
      (config.heartbeats.map fun heartbeat => heartbeat.2.every.nanos) = [0] ∧
        config.runtime.reportEvery.nanos = 0 := by
  exact ⟨if_pos (by decide +kernel), by decide +kernel, by decide +kernel, by decide +kernel⟩

end PipelineConfig

end EventPipeline
