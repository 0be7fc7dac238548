/-
RealTimeTrading.Concurrency.Observer — a system with an observer beside it.

At any moment of a run the observer may take an input that the shared
state offers. `Watched` records the inputs taken, each with the state it
was taken in; without them it is a run (`Watched.run`), and every input
was taken in a run of its own (`Watched.split`).
-/
import RealTimeTrading.Concurrency.Interleaving

namespace RealTimeTrading.Concurrency

variable {Op : Type} {Res : Op → Type} {σ Job α I : Type}

inductive Watched (S : System Op Res σ Job α) (offers : σ → I → Prop) (s₀ : σ) :
    List (Entry Op Res σ) → Config Op Res σ Job α → List (σ × I) → Prop where
  | init : Watched S offers s₀ [] ⟨s₀, []⟩ []
  | start {tr s ts taken} (j : Job) (h : Watched S offers s₀ tr ⟨s, ts⟩ taken) :
    Watched S offers s₀ tr ⟨s, ts ++ [⟨j, S.code j⟩]⟩ taken
  | step {tr s ts taken} {i : Nat} {j : Job} {o : Op} {k : Res o → Prog Op Res α}
      {r : Res o} {s' : σ}
      (h : Watched S offers s₀ tr ⟨s, ts⟩ taken) (hi : ts[i]? = some ⟨j, .call o k⟩)
      (hs : S.sem o s r s') :
    Watched S offers s₀ (tr ++ [⟨i, s, ⟨o, r⟩, s'⟩]) ⟨s', ts.set i ⟨j, k r⟩⟩ taken
  | take {tr s ts taken} (x : I) (h : Watched S offers s₀ tr ⟨s, ts⟩ taken) (hx : offers s x) :
    Watched S offers s₀ tr ⟨s, ts⟩ (taken ++ [(s, x)])

namespace Watched

variable {S : System Op Res σ Job α} {offers : σ → I → Prop} {s₀ s : σ}
  {tr : List (Entry Op Res σ)} {c : Config Op Res σ Job α} {taken before after : List (σ × I)}
  {x : I}

theorem run (h : Watched S offers s₀ tr c taken) : Run S s₀ tr c := by
  induction h with
  | init => exact .init
  | start j _ ih => exact .start j ih
  | step _ hi hs ih => exact .step ih hi hs
  | take _ _ _ ih => exact ih

/-- A run whose first moment was watched. -/
theorem opening (h : Run S s₀ tr c) (hx : offers s₀ x) : Watched S offers s₀ tr c [(s₀, x)] := by
  induction h with
  | init => exact .take x .init hx
  | start j _ ih => exact .start j ih
  | step _ hi hs ih => exact .step ih hi hs

/-- The observer takes an input at the end. -/
theorem closing (h : Watched S offers s₀ tr c taken) (hx : offers c.shared x) :
    Watched S offers s₀ tr c (taken ++ [(c.shared, x)]) := by
  obtain ⟨s, ts⟩ := c
  exact .take x h hx

/-- The run up to an input that was taken, and how its state is related to the
last one, by any relation that the calls keep. -/
theorem split (R : σ → σ → Prop) (hrefl : ∀ s, R s s) (htrans : ∀ a b c, R a b → R b c → R a c)
    (hstep : ∀ o s r s', S.sem o s r s' → R s s') (h : Watched S offers s₀ tr c taken)
    (hsplit : taken = before ++ (s, x) :: after) :
    offers s x ∧ R s c.shared ∧ ∃ tr' ts, Watched S offers s₀ tr' ⟨s, ts⟩ before := by
  induction h generalizing after with
  | init => exact absurd hsplit (by simp)
  | start j _ ih => exact ih hsplit
  | step _ hi hs ih =>
    obtain ⟨hoffer, hR, hbefore⟩ := ih hsplit
    exact ⟨hoffer, htrans _ _ _ hR (hstep _ _ _ _ hs), hbefore⟩
  | @take tr s' ts taken y h hy ih =>
    rcases Run.split_concat hsplit with ⟨rfl, hlast, rfl⟩ | ⟨after', rfl, hearlier⟩
    · obtain ⟨rfl, rfl⟩ := Prod.mk.inj hlast
      exact ⟨hy, hrefl _, tr, ts, h⟩
    · exact ih hearlier

end Watched

end RealTimeTrading.Concurrency
