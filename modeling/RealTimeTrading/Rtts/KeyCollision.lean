/-
RealTimeTrading.Rtts.KeyCollision — two orders under one key.

A controller is filed under symbol, millisecond and side of its intent,
and a new intent replaces what it finds under its key. Nothing but an
order files a controller (`orderOf_lookup`), so no live one is replaced in
any run exactly when no two intents share millisecond and side: otherwise
the second finds the first, if nothing has finished it in between.
-/
import Mathlib.Data.List.Induction
import RealTimeTrading.Rtts.ControllerRuns
import RealTimeTrading.Rtts.ForcedExit
import RealTimeTrading.Rtts.PositionLoop

namespace RealTimeTrading.Rtts

open Concurrency

/-! ## Keys -/

theorem toList_toString (n : Nat) : (toString n).toList = Nat.toDigits 10 n := Nat.toList_repr

theorem dash_notMem_toString (n : Nat) : '-' ∉ (toString n).toList := by
  intro hmem
  rw [toList_toString] at hmem
  have hdigit := Nat.isDigit_of_mem_toDigits (by decide) (by decide) hmem
  cases hdigit

theorem toString_nat_inj {n n' : Nat} (h : (toString n).toList = (toString n').toList) :
    n = n' := by
  rw [toList_toString, toList_toString] at h
  have hread := congrArg (Nat.ofDigitChars 10 · 0) h
  simpa only [Nat.ofDigitChars_ten_toDigits] using hread

/-- A number between two dashes, and what follows them, can be read back. -/
theorem dashed_inj {symbol side side' : String} {n n' : Nat} (hside : '-' ∉ side.toList)
    (h : symbol ++ "-" ++ toString n ++ "-" ++ side =
      symbol ++ "-" ++ toString n' ++ "-" ++ side') : n = n' ∧ side = side' := by
  have hlist := congrArg String.toList h
  simp only [String.toList_append, List.append_assoc, List.append_cancel_left_eq] at hlist
  obtain ⟨hn, -, hsides⟩ :=
    (List.append_cons_inj_of_notMem (dash_notMem_toString n) hside).mp hlist
  exact ⟨toString_nat_inj hn, String.toList_inj.mp hsides⟩

/-- For one symbol, a key is a millisecond and a side. -/
theorem idempotencyKey_eq_iff {a b : OrderIntent} (h : a.request.symbol = b.request.symbol) :
    idempotencyKey a = idempotencyKey b ↔
      a.timestamp = b.timestamp ∧ a.request.side = b.request.side := by
  constructor
  · intro hkey
    unfold idempotencyKey at hkey
    rw [h] at hkey
    cases ha : a.request.side <;> cases hb : b.request.side <;> rw [ha, hb] at hkey
    all_goals
      obtain ⟨htime, hside⟩ := dashed_inj (by simp) hkey
      first
        | exact ⟨htime, rfl⟩
        | simp at hside
  · rintro ⟨htime, hside⟩
    unfold idempotencyKey
    rw [h, htime, hside]

namespace Controllers

/-! ## Runs -/

/-- No order of the run replaces a controller that is not terminal. -/
def KeepsLive (cfg : Config) (inputs : List ControllerInput) : Prop :=
  ∀ done intent, done ++ [.order intent] <+: inputs →
    ∀ c, (run cfg done).2.controllers.lookup (submitted cfg intent).idempotencyKey = some c →
      c.status.isTerminal = true

/-- While there are orders only, each has a controller that is live. -/
theorem live_after_orders (cfg : Config) (intents : List OrderIntent) {intent : OrderIntent}
    (h : intent ∈ intents) :
    ∃ c, (run cfg (intents.map .order)).2.controllers.lookup (idempotencyKey intent) = some c ∧
      c.status.isTerminal = false := by
  induction intents using List.reverseRecOn with
  | nil => cases h
  | append_singleton intents last ih =>
    have hstep : (run cfg ((intents ++ [last]).map .order)).2.controllers =
        (run cfg (intents.map .order)).2.controllers.insert (idempotencyKey last)
          (submitted cfg last) := by
      rw [List.map_append, List.map_singleton, run_concat]
      rfl
    rw [hstep]
    by_cases hkey : idempotencyKey intent = idempotencyKey last
    · rw [hkey, AList.lookup_insert]
      exact ⟨_, rfl, rfl⟩
    · have hmem : intent ∈ intents := by
        rcases List.mem_append.mp h with hmem | hlast
        · exact hmem
        · exact absurd (congrArg idempotencyKey (List.mem_singleton.mp hlast)) hkey
      rw [AList.lookup_insert_ne hkey]
      exact ih hmem

/-- With one key for each intent, an order finds no controller. -/
theorem keepsLive_of_pairwise (cfg : Config) {intents : List OrderIntent}
    (hkeys : intents.Pairwise fun a b => idempotencyKey a ≠ idempotencyKey b)
    {inputs : List ControllerInput} (horders : ordersOf inputs <+: intents) :
    KeepsLive cfg inputs := by
  intro done intent hdone c hc
  obtain ⟨earlier, hmem, hkey⟩ := orderOf_lookup cfg hc
  obtain ⟨rest, rfl⟩ := hdone
  rw [List.append_assoc, ordersOf_append] at horders
  have hsub := hkeys.sublist horders.sublist
  rw [List.pairwise_append] at hsub
  exact absurd hkey.symm (hsub.2.2 earlier hmem intent List.mem_cons_self)

/-- Fed with nothing but the intents, a repeated key finds a live controller. -/
theorem pairwise_of_keepsLive (cfg : Config) {intents : List OrderIntent}
    (h : ∀ inputs, ordersOf inputs <+: intents → KeepsLive cfg inputs) :
    intents.Pairwise fun a b => idempotencyKey a ≠ idempotencyKey b := by
  induction intents using List.reverseRecOn with
  | nil => exact List.Pairwise.nil
  | append_singleton intents last ih =>
    rw [List.pairwise_append]
    refine ⟨ih fun inputs horders => h inputs (horders.trans (List.prefix_append _ _)),
      List.pairwise_singleton _ _, fun intent hmem b hb heq => ?_⟩
    obtain rfl := List.mem_singleton.mp hb
    obtain ⟨c, hc, hlive⟩ := live_after_orders cfg intents hmem
    rw [heq] at hc
    have hkeeps := h ((intents ++ [b]).map .order)
      ⟨[], by rw [List.append_nil, ordersOf_map_order]⟩
    have hterminal := hkeeps (intents.map .order) b ⟨[], by simp⟩ c hc
    rw [hlive] at hterminal
    cases hterminal

/-- Whatever the controllers hear in between, no live one is replaced by an
intent of the position loop exactly when no two of its intents share
millisecond and side. -/
theorem live_kept_iff (cfg : Config) (events : List PositionInput) :
    (∀ inputs, ordersOf inputs <+: PositionLoop.run cfg events → KeepsLive cfg inputs) ↔
      (PositionLoop.run cfg events).Pairwise fun a b =>
        ¬(a.timestamp = b.timestamp ∧ a.request.side = b.request.side) := by
  have hkeys : (PositionLoop.run cfg events).Pairwise
      (fun a b => idempotencyKey a ≠ idempotencyKey b) ↔
      (PositionLoop.run cfg events).Pairwise fun a b =>
        ¬(a.timestamp = b.timestamp ∧ a.request.side = b.request.side) := by
    refine List.Pairwise.iff_of_mem fun {a b} ha hb => not_congr (idempotencyKey_eq_iff ?_)
    rw [PositionLoop.symbol_of_mem_run ha, PositionLoop.symbol_of_mem_run hb]
  rw [← hkeys]
  exact ⟨pairwise_of_keepsLive cfg, fun h _ => keepsLive_of_pairwise cfg h⟩

end Controllers

namespace Desk

open Controllers

/-- A signal to enter, twice in one millisecond. -/
def twins : List PositionInput :=
  [.signal { calmSignal with decision := .enterSmall },
   .signal { calmSignal with decision := .enterSmall }]

/-- The second order takes the place of the first, which is out. -/
theorem twins_replace_live :
    ¬ ∀ inputs, ordersOf inputs <+: PositionLoop.run {} twins → KeepsLive {} inputs := by
  intro h
  have hkeys := pairwise_of_keepsLive {} h
  have hsame : (PositionLoop.run {} twins).map idempotencyKey =
      ["BTCUSDT-1000-buy", "BTCUSDT-1000-buy"] := by decide +kernel
  rw [← List.pairwise_map, hsame] at hkeys
  simp at hkeys

end Desk

end RealTimeTrading.Rtts
