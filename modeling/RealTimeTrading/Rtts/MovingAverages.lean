/-
RealTimeTrading.Rtts.MovingAverages — the moving averages of the risk
service and of the execution engine.

Go's `ema` and Rust's `ewma`, of the queue engine and of the execution
controller, are one function: zero is an average that has not started. So
they follow their recurrence exactly as long as zero stays
(`averages_follow_iff`).
-/
import RealTimeTrading.ControlPlane.Risk.Feedback
import RealTimeTrading.Data.Averages
import RealTimeTrading.Rtts.Execution.QueueEngine

namespace RealTimeTrading.Rtts

open ControlPlane Data

/-- The averages follow their recurrence exactly if each sample after a weighted mean of zero
is zero. -/
theorem averages_follow_iff {alpha : ℚ} (h1 : alpha < 1) (samples : List ℚ) :
    (Follows ema alpha samples ↔ ZeroStays alpha samples) ∧
      (Follows ewma alpha samples ↔ ZeroStays alpha samples) :=
  ⟨follows_iff (fun _ _ => rfl) h1.ne samples, follows_iff (fun _ _ => rfl) h1.ne samples⟩

/-- A mean that is not zero before the last sample. -/
theorem averages_follow_threeOne :
    Follows ema (1 / 10 : ℚ) [3, 1] ∧ Follows ewma (1 / 10) [3, 1] := by
  have hzero : ZeroStays (1 / 10 : ℚ) [3, 1] := by
    intro i x hx hmean
    match i, hx with
    | 0, _ => exact absurd hmean (by decide +kernel)
  obtain ⟨hema, hewma⟩ := averages_follow_iff (by decide +kernel : (1 / 10 : ℚ) < 1) [3, 1]
  exact ⟨hema.mpr hzero, hewma.mpr hzero⟩

/-- After a first sample of zero, the second one moves the average all the way. -/
theorem averages_restart :
    ¬ Follows ema (1 / 10 : ℚ) [0, 1] ∧ ¬ Follows ewma (1 / 10) [0, 1] := by
  constructor
  · intro h
    exact absurd (h.next 0 1 rfl) (by decide +kernel)
  · intro h
    exact absurd (h.next 0 1 rfl) (by decide +kernel)

end RealTimeTrading.Rtts
