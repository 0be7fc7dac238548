/-
RealTimeTrading.Concurrency.Relays — tasks that pass on what they are told.

What a task emits on a channel may depend on its state, and yet show the
same as the messages it answers (`emitted_map`). Where one message comes out
for each that goes in, and the sender waits for room, what the two show is
the same sequence, as far as it has come (`Run.relayed`). Relays in a row
make one relay, as prefixes compose.
-/
import RealTimeTrading.Concurrency.Drainage

namespace RealTimeTrading.Concurrency

section Showing

variable {S I O P : Type} {step : S → I → List O × S}

/-- A machine whose outputs show, through `view`, what the inputs alone say. -/
theorem emit_shows {view : O → Option P} {out : I → List P}
    (hout : ∀ s i, (step s i).1.filterMap view = out i) (s : S) (inputs : List I) :
    (emit step s inputs).1.filterMap view = inputs.flatMap out := by
  induction inputs generalizing s with
  | nil => rfl
  | cons i rest ih => rw [emit_cons, List.filterMap_append, hout, ih, List.flatMap_cons]

end Showing

namespace Network

variable {Task Chan Env : Type} {Msg : Chan → Type} {State : Task → Type} {B : Type}
  [DecidableEq Task] [DecidableEq Chan] {N : Network Task Chan Env Msg State}
  {trace : List (Act Chan Env Msg)} {x : Moment Task Chan Msg State}

/-- What a task emits on a channel shows what each message it received says. -/
theorem emitted_map {t : Task} {d : Chan} {g : Msg d → B} {out : Env × (Σ c, Msg c) → List B}
    (hout : ∀ s r, ((N.react t s r).1.filterMap (on d)).map g = out r)
    (trace : List (Act Chan Env Msg)) :
    (N.emitted t d trace).map g = (N.received t trace).flatMap out := by
  unfold emitted alone
  rw [List.map_filterMap]
  refine emit_shows (fun s r => ?_) _ _
  rw [← hout s r, List.map_filterMap]

/-- Of each message on `c` one is made on `d`, of others none, and the two show the same. -/
structure Relays (N : Network Task Chan Env Msg State) (c d : Chan) (f : Msg c → B)
    (g : Msg d → B) : Prop where
  source : N.source d = some (N.target c)
  waits : N.sending d = .waits
  shows : ∀ s r, ((N.react (N.target c) s r).1.filterMap (on d)).map g =
    ((on c r.2).map f).toList

section Relaying

variable {c d : Chan} {f : Msg c → B} {g : Msg d → B}

theorem Relays.emitted (h : Relays N c d f g) (trace : List (Act Chan Env Msg)) :
    (N.emitted (N.target c) d trace).map g = (taken c trace).map f := by
  rw [emitted_map h.shows, ← List.filterMap_eq_flatMap_toList, taken_eq N c, List.map_filterMap]

/-- What has come through a relay is a first part of what has gone in. -/
theorem Run.relayed (hrun : N.Run trace x) (h : Relays N c d f g) :
    (taken d trace).map g <+: (taken c trace).map f := by
  refine ⟨(x.queue d ++ (x.pending (N.target c)).filterMap (on d)).map g, ?_⟩
  rw [← List.map_append, hrun.taken_prefix h.source h.waits, h.emitted]

/-- At rest it is all of it. -/
theorem Run.relayed_of_quiet (hrun : N.Run trace x) (hquiet : Quiet x) (h : Relays N c d f g) :
    (taken d trace).map g = (taken c trace).map f := by
  rw [hrun.taken_of_quiet hquiet h.source h.waits, h.emitted]

end Relaying

end Network

end RealTimeTrading.Concurrency
