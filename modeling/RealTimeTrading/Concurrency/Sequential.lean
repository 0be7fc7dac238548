/-
RealTimeTrading.Concurrency.Sequential — one program on its own.

`Exec` runs a program from a shared state to its result with nothing in
between. It is compositional (`exec_bind`), and it is total when every
operation is (`exec_total`). `Logged` is the same with the list of the
calls performed (`exec_iff_logged`), and a program so executed is a
stretch of a run of the system, whose trace shows these calls
(`Run.logged`).
-/
import RealTimeTrading.Concurrency.Interleaving

namespace RealTimeTrading.Concurrency

variable {Op : Type} {Res : Op → Type} {σ Job α β : Type}

/-- The program, run alone from the first state, returns `a` in the second. -/
def Exec (sem : (o : Op) → σ → Res o → σ → Prop) : Prog Op Res α → σ → α → σ → Prop
  | .ret a, s, b, s' => b = a ∧ s' = s
  | .call o k, s, b, s' => ∃ r t, sem o s r t ∧ Exec sem (k r) t b s'

section Rules

variable {sem : (o : Op) → σ → Res o → σ → Prop} {s s' : σ}

@[simp] theorem exec_call (o : Op) (k : Res o → Prog Op Res α) (b : α) :
    Exec sem (.call o k) s b s' ↔ ∃ r t, sem o s r t ∧ Exec sem (k r) t b s' := Iff.rfl

theorem exec_bind (p : Prog Op Res α) (f : α → Prog Op Res β) (b : β) :
    Exec sem (p >>= f) s b s' ↔ ∃ a t, Exec sem p s a t ∧ Exec sem (f a) t b s' := by
  induction p generalizing s with
  | ret a =>
    constructor
    · exact fun h => ⟨a, s, ⟨rfl, rfl⟩, h⟩
    · rintro ⟨_, _, ⟨rfl, rfl⟩, h⟩
      exact h
  | call o k ih =>
    simp only [Prog.call_bind, exec_call, ih]
    constructor
    · rintro ⟨r, t, hs, a, u, hk, hf⟩
      exact ⟨a, u, ⟨r, t, hs, hk⟩, hf⟩
    · rintro ⟨a, u, ⟨r, t, hs, hk⟩, hf⟩
      exact ⟨r, t, hs, a, u, hk, hf⟩

theorem exec_total (htotal : ∀ o s, ∃ r s', sem o s r s') (p : Prog Op Res α) (s : σ) :
    ∃ a s', Exec sem p s a s' := by
  induction p generalizing s with
  | ret a => exact ⟨a, s, rfl, rfl⟩
  | call o k ih =>
    obtain ⟨r, t, hs⟩ := htotal o s
    obtain ⟨a, s', hk⟩ := ih r t
    exact ⟨a, s', r, t, hs, hk⟩

end Rules

/-- The program, run alone from the first state, performs just these calls and
returns `a` in the second. -/
def Logged (sem : (o : Op) → σ → Res o → σ → Prop) :
    Prog Op Res α → σ → List (Event Op Res) → α → σ → Prop
  | .ret a, s, log, b, s' => log = [] ∧ b = a ∧ s' = s
  | .call o k, s, log, b, s' =>
    ∃ r t rest, log = ⟨o, r⟩ :: rest ∧ sem o s r t ∧ Logged sem (k r) t rest b s'

section Logs

variable {sem : (o : Op) → σ → Res o → σ → Prop} {s s' : σ} {log : List (Event Op Res)}

theorem logged_call (o : Op) (k : Res o → Prog Op Res α) (b : α) :
    Logged sem (.call o k) s log b s' ↔
      ∃ r t rest, log = ⟨o, r⟩ :: rest ∧ sem o s r t ∧ Logged sem (k r) t rest b s' := Iff.rfl

theorem logged_bind (p : Prog Op Res α) (f : α → Prog Op Res β) (b : β) :
    Logged sem (p >>= f) s log b s' ↔ ∃ a t log₁ log₂, log = log₁ ++ log₂ ∧
      Logged sem p s log₁ a t ∧ Logged sem (f a) t log₂ b s' := by
  induction p generalizing s log with
  | ret a =>
    constructor
    · exact fun h => ⟨a, s, [], log, rfl, ⟨rfl, rfl, rfl⟩, h⟩
    · rintro ⟨_, _, _, _, rfl, ⟨rfl, rfl, rfl⟩, h⟩
      exact h
  | call o k ih =>
    simp only [Prog.call_bind, logged_call, ih]
    constructor
    · rintro ⟨r, t, _, rfl, hs, a, u, log₁, log₂, rfl, hk, hf⟩
      exact ⟨a, u, _ :: log₁, log₂, rfl, ⟨r, t, log₁, rfl, hs, hk⟩, hf⟩
    · rintro ⟨a, u, _, log₂, rfl, ⟨r, t, log₁, rfl, hs, hk⟩, hf⟩
      exact ⟨r, t, log₁ ++ log₂, rfl, hs, a, u, log₁, log₂, rfl, hk, hf⟩

theorem exec_iff_logged (p : Prog Op Res α) (b : α) :
    Exec sem p s b s' ↔ ∃ log, Logged sem p s log b s' := by
  induction p generalizing s with
  | ret a =>
    constructor
    · exact fun h => ⟨[], rfl, h⟩
    · exact fun ⟨_, _, h⟩ => h
  | call o k ih =>
    constructor
    · rintro ⟨r, t, hs, hk⟩
      obtain ⟨rest, hk⟩ := (ih r).mp hk
      exact ⟨_, r, t, rest, rfl, hs, hk⟩
    · rintro ⟨_, r, t, rest, rfl, hs, hk⟩
      exact ⟨r, t, hs, (ih r).mpr ⟨rest, hk⟩⟩

/-- What every call keeps, a program keeps. -/
theorem Logged.invariant {P : σ → Prop} (hstep : ∀ o s r s', P s → sem o s r s' → P s')
    {p : Prog Op Res α} {a : α} (h : Logged sem p s log a s') (h0 : P s) : P s' := by
  induction p generalizing s log with
  | ret b =>
    obtain ⟨-, -, rfl⟩ := h
    exact h0
  | call o k ih =>
    obtain ⟨r, t, rest, -, hs, hk⟩ := h
    exact ih r hk (hstep o s r t h0 hs)

/-- The log of a program that issues only calls of one kind has no other. -/
theorem Logged.only {kind : Op → Prop} {p : Prog Op Res α} {a : α} (h : Logged sem p s log a s')
    (hp : p.Only kind) : ∀ e ∈ log, kind e.1 := by
  induction p generalizing s log with
  | ret b =>
    obtain ⟨rfl, -, -⟩ := h
    exact fun e he => absurd he List.not_mem_nil
  | call o k ih =>
    obtain ⟨r, t, rest, rfl, -, hk⟩ := h
    exact List.forall_mem_cons.mpr ⟨hp.1, ih r hk (hp.2 r)⟩

/-- What calls of this kind keep, a program that issues no other keeps. -/
theorem Logged.invariant_only {kind : Op → Prop} {P : σ → Prop}
    (hstep : ∀ o s r s', kind o → P s → sem o s r s' → P s') {p : Prog Op Res α} {a : α}
    (h : Logged sem p s log a s') (hp : p.Only kind) (h0 : P s) : P s' := by
  induction p generalizing s log with
  | ret b =>
    obtain ⟨-, -, rfl⟩ := h
    exact h0
  | call o k ih =>
    obtain ⟨r, t, rest, -, hs, hk⟩ := h
    exact ih r hk (hp.2 r) (hstep o s r t hp.1 h0 hs)

end Logs

namespace Run

variable {S : System Op Res σ Job α} {s₀ s s' : σ} {tr : List (Entry Op Res σ)}

/-- The last thread may run its program to the end, which lengthens the trace by
the log. -/
theorem logged_last {ts : List (Thread Op Res Job α)} {j : Job} {p : Prog Op Res α} {a : α}
    {log : List (Event Op Res)} (hrun : Run S s₀ tr ⟨s, ts ++ [⟨j, p⟩]⟩)
    (h : Logged S.sem p s log a s') :
    ∃ tr', Run S s₀ (tr ++ tr') ⟨s', ts ++ [⟨j, .ret a⟩]⟩ ∧ tr'.map (·.event) = log := by
  induction p generalizing s tr log with
  | ret b =>
    obtain ⟨rfl, rfl, rfl⟩ := h
    exact ⟨[], by rwa [List.append_nil], rfl⟩
  | call o k ih =>
    obtain ⟨r, t, rest, rfl, hs, hk⟩ := h
    have hget : (ts ++ [(⟨j, .call o k⟩ : Thread Op Res Job α)])[ts.length]? =
        some ⟨j, .call o k⟩ := by simp
    have hstep := Run.step hrun hget hs
    rw [List.set_append_right _ _ (Nat.le_refl _), Nat.sub_self, List.set_cons_zero] at hstep
    obtain ⟨tr', hrun', hlog⟩ := ih r hstep hk
    rw [List.append_assoc] at hrun'
    exact ⟨_, hrun', congrArg (List.cons _) hlog⟩

/-- A job executed alone is a stretch of a run. -/
theorem logged {ts : List (Thread Op Res Job α)} (hrun : Run S s₀ tr ⟨s, ts⟩) {j : Job} {a : α}
    {log : List (Event Op Res)} (h : Logged S.sem (S.code j) s log a s') :
    ∃ tr', Run S s₀ (tr ++ tr') ⟨s', ts ++ [⟨j, .ret a⟩]⟩ ∧ tr'.map (·.event) = log :=
  logged_last (Run.start j hrun) h

end Run

end RealTimeTrading.Concurrency
