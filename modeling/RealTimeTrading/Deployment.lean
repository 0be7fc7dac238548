/-
RealTimeTrading.Deployment — the engine and the control plane, with the hub
between them.

What the gateway announces and what the market pipeline has seen go to the
hub on one bounded channel, and are lost where it is full. The engine is one
of the clients: it reads what is written to its connection, in order, and
comes back as a new client where that breaks.

Whatever the hub does, the engine hears the updates of the gateway in their
order and none twice, so this is a closed loop (`run_loop`), and what is
known of those holds here: if nothing was lost on the way, both sides have
the same position at rest (`rested_agree`).
-/
import RealTimeTrading.ClosedLoop
import RealTimeTrading.ControlPlane.Hub

namespace RealTimeTrading.Deployment

open ClosedLoop (Asked Loop Settled Sided executed ofFills paper)
open Concurrency
open ControlPlane (ExecutionRequest ExecutionUpdate Gw Hub HubAct Job Op Plane PlaneConfig
  PlaneEntry PlaneRun Res Update code sem told)
open ControlPlane.Hub (accepted broadcasts missed written)
open Rtts.Pipeline (Chan Msg Setup State Task Trace network)
open Wire (ControlPlaneExecutionUpdate decodeUpdate encodeUpdate receivedUpdate)

/-! ## The parts together -/

/-- What is offered to the hub. -/
inductive Message where
  | gateway (update : Update)
  | market (event : ControlPlane.MarketEvent)

namespace Message

def update : Message → Option Update
  | .gateway update => some update
  | .market _ => none

/-- What the engine makes of a message. -/
def heard (message : Message) : Option ExecutionUpdate :=
  (message.update.bind executed).filter (Wire.Readable ·)

theorem heard_of_decoded {update : ExecutionUpdate} {payload : ControlPlaneExecutionUpdate}
    (h : decodeUpdate (encodeUpdate update) = some payload) :
    heard (.gateway (.executionUpdate update)) = some update := by
  obtain ⟨hreadable, -⟩ := Wire.decodeUpdate_eq_some_iff.mp h
  exact Option.filter_some_pos (decide_eq_true hreadable)

theorem eq_of_heard {message : Message} {update : ExecutionUpdate}
    (h : message.heard = some update) :
    message = .gateway (.executionUpdate update) ∧
      decodeUpdate (encodeUpdate update) = some (receivedUpdate update) := by
  obtain ⟨hsome, hreadable⟩ := Option.filter_eq_some_iff.mp h
  refine ⟨?_, Wire.decodeUpdate_eq_some_iff.mpr ⟨of_decide_eq_true hreadable, rfl⟩⟩
  obtain ⟨announced, hannounced, hexecuted⟩ := Option.bind_eq_some_iff.mp hsome
  cases message with
  | market event => cases hannounced
  | gateway other =>
    obtain rfl := Option.some.inj hannounced
    cases other with
    | executionUpdate other =>
      obtain rfl := Option.some.inj hexecuted
      rfl
    | _ => cases hexecuted

theorem heard_of_unread {message : Message}
    (h : ∀ update, message = .gateway (.executionUpdate update) →
      decodeUpdate (encodeUpdate update) = none) : message.heard = none := by
  by_contra hsome
  obtain ⟨update, hheard⟩ := Option.ne_none_iff_exists'.mp hsome
  obtain ⟨hmessage, hdecoded⟩ := eq_of_heard hheard
  rw [h update hmessage] at hdecoded
  cases hdecoded

theorem unread_of_heard {message : Message} (h : message.heard = none) :
    ∀ update, message = .gateway (.executionUpdate update) →
      decodeUpdate (encodeUpdate update) = none := by
  rintro update rfl
  by_contra hdecoded
  obtain ⟨payload, hpayload⟩ := Option.ne_none_iff_exists'.mp hdecoded
  rw [heard_of_decoded hpayload] at h
  cases h

theorem filterMap_heard (messages : List Message) :
    messages.filterMap heard =
      ((messages.filterMap update).filterMap executed).filter (Wire.Readable ·) := by
  rw [List.filterMap_filterMap, List.filter_filterMap]
  rfl

end Message

abbrev Feed (Conn : Type) : Type := List (HubAct Conn Message Message)

/-- The engine reads from the connection `link`, and has read so many of its messages. -/
structure Site (Conn : Type) where
  engine : Moment Task Chan Msg State
  plane : PlaneConfig
  hub : Hub Conn Message Message := {}
  link : Option (Conn × Nat) := none

variable {Conn : Type} [DecidableEq Conn]

section Run

variable (setup : Setup) (exp : ℚ → ℚ) (asks : ExecutionRequest → Prop) (p₀ : Plane)
  (capacity : Nat)

/-- The interleavings, with the trace of each part. A call that emits is an offer to the hub. -/
inductive Run : Trace → List PlaneEntry → Feed Conn → Site Conn → Prop
  | init : Run [] [] [] { engine := (network setup).initial, plane := ⟨p₀, []⟩ }
  | engine {trace tr feed s act x} (h : Run trace tr feed s)
      (hstep : (network setup).Step s.engine act x)
      (hown : ∀ payload, act ≠ .arrive Chan.executionFeed payload) :
      Run (trace ++ [act]) tr feed { s with engine := x }
  | submit {trace tr feed s} (req : ExecutionRequest) (h : Run trace tr feed s)
      (hasked : Asked setup asks trace req) :
      Run trace tr feed { s with
        plane := ⟨s.plane.shared,
          s.plane.threads ++ [⟨.submit req, code (paper exp) (.submit req)⟩]⟩ }
  | other {trace tr feed s} (j : Job) (h : Run trace tr feed s) (hother : ∀ req, j ≠ .submit req)
      (hpaper : j.brought = []) :
      Run trace tr feed { s with
        plane := ⟨s.plane.shared, s.plane.threads ++ [⟨j, code (paper exp) j⟩]⟩ }
  | call {trace tr feed s} {i : Nat} {j : Job} {o : Op} {k : Res o → Gw _} {r : Res o} {p : Plane}
      (h : Run trace tr feed s) (hi : s.plane.threads[i]? = some ⟨j, .call o k⟩)
      (hsem : sem (paper exp) o s.plane.shared r p) (hsilent : ∀ update, o ≠ .emit update) :
      Run trace (tr ++ [⟨i, s.plane.shared, ⟨o, r⟩, p⟩]) feed
        { s with plane := ⟨p, s.plane.threads.set i ⟨j, k r⟩⟩ }
  | offer {trace tr feed s hub} {i : Nat} {j : Job} {update : Update} {k : Unit → Gw _} {p : Plane}
      (h : Run trace tr feed s) (hi : s.plane.threads[i]? = some ⟨j, .call (.emit update) k⟩)
      (hstep : Hub.Step capacity some s.hub (.offer (.gateway update)) hub)
      (hp : p = { s.plane.shared with updates := s.plane.shared.updates ++ [update] }) :
      Run trace (tr ++ [⟨i, s.plane.shared, ⟨.emit update, ()⟩, p⟩])
        (feed ++ [.offer (.gateway update)])
        { s with plane := ⟨p, s.plane.threads.set i ⟨j, k ()⟩⟩, hub := hub }
  | refuse {trace tr feed s hub} {i : Nat} {j : Job} {update : Update} {k : Unit → Gw _}
      (h : Run trace tr feed s) (hi : s.plane.threads[i]? = some ⟨j, .call (.emit update) k⟩)
      (hstep : Hub.Step capacity some s.hub (.refuse (.gateway update)) hub) :
      Run trace (tr ++ [⟨i, s.plane.shared, ⟨.emit update, ()⟩, s.plane.shared⟩])
        (feed ++ [.refuse (.gateway update)])
        { s with plane := ⟨s.plane.shared, s.plane.threads.set i ⟨j, k ()⟩⟩, hub := hub }
  | hub {trace tr feed s hub} {act : HubAct Conn Message Message} (h : Run trace tr feed s)
      (hstep : Hub.Step capacity some s.hub act hub)
      (hown : ∀ update, act ≠ .offer (.gateway update) ∧ act ≠ .refuse (.gateway update)) :
      Run trace tr (feed ++ [act]) { s with hub := hub }
  | connect {trace tr feed s hub} {conn : Conn} (h : Run trace tr feed s) (hlink : s.link = none)
      (hstep : Hub.Step capacity some s.hub (.join conn) hub) :
      Run trace tr (feed ++ [.join conn]) { s with hub := hub, link := some (conn, 0) }
  | disconnect {trace tr feed s} (h : Run trace tr feed s) :
      Run trace tr feed { s with link := none }
  | read {trace tr feed s x} {conn : Conn} {n : Nat} {update : ExecutionUpdate}
      {payload : ControlPlaneExecutionUpdate} (h : Run trace tr feed s)
      (hlink : s.link = some (conn, n))
      (hwritten : (written conn feed)[n]? = some (.gateway (.executionUpdate update)))
      (hdecoded : decodeUpdate (encodeUpdate update) = some payload)
      (hstep : (network setup).Step s.engine (.arrive Chan.executionFeed payload) x) :
      Run (trace ++ [.arrive .executionFeed payload]) tr feed
        { s with engine := x, link := some (conn, n + 1) }
  | skip {trace tr feed s} {conn : Conn} {n : Nat} {message : Message} (h : Run trace tr feed s)
      (hlink : s.link = some (conn, n)) (hwritten : (written conn feed)[n]? = some message)
      (hother : ∀ update, message = .gateway (.executionUpdate update) →
        decodeUpdate (encodeUpdate update) = none) :
      Run trace tr feed { s with link := some (conn, n + 1) }

end Run

/-! ## Where the engine is -/

section Reading

variable {A B : Type} {f : A → Option B} {l : List A}

theorem length_filterMap_take_mono {n m : Nat} (h : n ≤ m) :
    ((l.take n).filterMap f).length ≤ ((l.take m).filterMap f).length :=
  ((List.take_sublist_take_left h).filterMap f).length_le

/-- What an element gives comes after what those before it give. -/
theorem filterMap_getElem? {n : Nat} {a : A} {b : B} (h : l[n]? = some a) (hb : f a = some b) :
    (l.filterMap f)[((l.take n).filterMap f).length]? = some b ∧
      ((l.take (n + 1)).filterMap f).length = ((l.take n).filterMap f).length + 1 := by
  have htake : (l.take (n + 1)).filterMap f = (l.take n).filterMap f ++ [b] := by
    rw [List.take_add_one, h, Option.toList_some, filterMap_concat, hb]
    rfl
  constructor
  · obtain ⟨rest, hrest⟩ : (l.take (n + 1)).filterMap f <+: l.filterMap f :=
      (List.take_prefix _ l).filterMap f
    rw [← hrest, htake, List.append_assoc, List.getElem?_append_right le_rfl, Nat.sub_self]
    rfl
  · rw [htake, List.length_append, List.length_singleton]

end Reading

/-- The updates of the gateway among the first `m` messages the hub accepted. -/
def passed (feed : Feed Conn) (m : Nat) : Nat :=
  (((accepted feed).take m).filterMap Message.update).length

omit [DecidableEq Conn] in
theorem passed_mono {feed : Feed Conn} {n m : Nat} (h : n ≤ m) : passed feed n ≤ passed feed m :=
  length_filterMap_take_mono h

omit [DecidableEq Conn] in
theorem passed_concat (feed : Feed Conn) (act : HubAct Conn Message Message) (m : Nat) :
    passed feed m ≤ passed (feed ++ [act]) m := by
  unfold passed accepted
  rw [filterMap_concat, List.take_append, List.filterMap_append, List.length_append]
  exact Nat.le_add_right _ _

omit [DecidableEq Conn] in
theorem length_broadcasts_concat (feed : Feed Conn) (act : HubAct Conn Message Message) :
    (broadcasts some feed).length ≤ (broadcasts some (feed ++ [act])).length := by
  unfold broadcasts
  rw [List.filterMap_append, List.length_append]
  exact Nat.le_add_right _ _

/-- The engine has read `n` messages of this connection, and is not ahead of them. If the
connection missed no broadcast, these are all it has heard. -/
structure Linked (feed : Feed Conn) (conn : Conn) (n read : Nat) (heard : List ExecutionUpdate) :
    Prop where
  joined : .join conn ∈ feed
  behind : read ≤ passed feed (missed some conn feed + n)
  within : n ≤ (written conn feed).length
  whole : missed some conn feed = 0 →
    heard = ((written conn feed).take n).filterMap Message.heard

/-- The hub has of the gateway what is on its channel. -/
structure Follows (capacity : Nat) (feed : Feed Conn) (hub : Hub Conn Message Message)
    (updates : List Update) (link : Option (Conn × Nat)) (read : Nat)
    (heard : List ExecutionUpdate) : Prop where
  run : Hub.Run capacity some feed hub
  offered : (accepted feed).filterMap Message.update = updates
  behind : read ≤ passed feed (broadcasts some feed).length
  silent : broadcasts some feed = [] → heard = []
  linked : ∀ conn n, link = some (conn, n) → Linked feed conn n read heard

theorem Linked.concat {feed : Feed Conn} {conn : Conn} {n read : Nat}
    {heard : List ExecutionUpdate} (h : Linked feed conn n read heard)
    (act : HubAct Conn Message Message) : Linked (feed ++ [act]) conn n read heard := by
  have hmissed : missed some conn (feed ++ [act]) = missed some conn feed :=
    ControlPlane.Hub.missed_concat h.joined act
  refine ⟨List.mem_append_left _ h.joined, ?_, ?_, fun hnone => ?_⟩
  · rw [hmissed]
    exact h.behind.trans (passed_concat feed act _)
  · rw [ControlPlane.Hub.written_concat, List.length_append]
    exact h.within.trans (Nat.le_add_right _ _)
  · rw [h.whole (hmissed ▸ hnone), ControlPlane.Hub.written_concat,
      List.take_append_of_le_length h.within]

namespace Follows

variable {capacity : Nat} {feed : Feed Conn} {hub hub' : Hub Conn Message Message}
  {updates : List Update} {link : Option (Conn × Nat)} {read : Nat}
  {heard : List ExecutionUpdate}

theorem step {act : HubAct Conn Message Message}
    (h : Follows capacity feed hub updates link read heard)
    (hstep : Hub.Step capacity some hub act hub') :
    Follows capacity (feed ++ [act]) hub' (updates ++ (act.accepts.bind Message.update).toList)
      link read heard where
  run := .step h.run hstep
  offered := by
    rw [← h.offered]
    unfold accepted
    rw [filterMap_concat, List.filterMap_append]
    cases act.accepts with
    | none => rfl
    | some message => cases message <;> rfl
  behind := h.behind.trans ((passed_concat feed act _).trans
    (passed_mono (length_broadcasts_concat feed act)))
  silent := by
    intro hnone
    refine h.silent (List.eq_nil_of_length_eq_zero (Nat.le_zero.mp ?_))
    exact (length_broadcasts_concat feed act).trans_eq (congrArg List.length hnone)
  linked := fun conn n hlink => (h.linked conn n hlink).concat act

theorem connect {conn : Conn} (h : Follows capacity feed hub updates link read heard)
    (hstep : Hub.Step capacity some hub (.join conn) hub') :
    Follows capacity (feed ++ [.join conn]) hub' updates (some (conn, 0)) read heard := by
  have hbefore : .join conn ∉ feed := by
    cases hstep with
    | join hnew => exact fun hjoin => hnew ((h.run.accounts.known conn).mpr hjoin)
  have hmissed : missed some conn (feed ++ [.join conn]) = (broadcasts some feed).length :=
    ControlPlane.Hub.missed_join hbefore
  have hafter := h.step hstep
  rw [show (HubAct.accepts (.join conn : HubAct Conn Message Message)) = none from rfl,
    Option.bind_none, Option.toList_none, List.append_nil] at hafter
  refine { hafter with linked := fun conn' n hlink => ?_ }
  obtain ⟨rfl, rfl⟩ := Prod.mk.inj (Option.some.inj hlink)
  refine ⟨List.mem_append_right _ List.mem_cons_self, ?_, Nat.zero_le _, fun hnone => ?_⟩
  · rw [hmissed]
    exact h.behind.trans (passed_concat feed _ _)
  · exact h.silent (List.eq_nil_of_length_eq_zero (hmissed ▸ hnone))

theorem disconnect (h : Follows capacity feed hub updates link read heard) :
    Follows capacity feed hub updates none read heard :=
  { h with linked := fun _ _ hlink => by cases hlink }

/-- What the engine reads next is the message with this number. -/
theorem next {conn : Conn} {n : Nat} {message : Message}
    (h : Follows capacity feed hub updates link read heard)
    (hwritten : (written conn feed)[n]? = some message) :
    missed some conn feed + n < (broadcasts some feed).length ∧
      (accepted feed)[missed some conn feed + n]? = some message := by
  have hget := h.run.accounts.written_getElem? hwritten
  obtain ⟨hlt, -⟩ := List.getElem?_eq_some_iff.mp hget
  obtain ⟨rest, hrest⟩ := h.run.accounts.broadcasts_prefix
  rw [List.filterMap_some] at hrest
  refine ⟨hlt, ?_⟩
  rw [← hrest, List.getElem?_append_left hlt]
  exact hget

theorem whole_next {conn : Conn} {n : Nat} {message : Message}
    (h : Linked feed conn n read heard) (hwritten : (written conn feed)[n]? = some message)
    (hnone : missed some conn feed = 0) :
    heard ++ message.heard.toList = ((written conn feed).take (n + 1)).filterMap Message.heard := by
  rw [List.take_add_one, hwritten, Option.toList_some, filterMap_concat, h.whole hnone]

theorem skip {conn : Conn} {n : Nat} {message : Message}
    (h : Follows capacity feed hub updates (some (conn, n)) read heard)
    (hwritten : (written conn feed)[n]? = some message) (hunread : message.heard = none) :
    Follows capacity feed hub updates (some (conn, n + 1)) read heard := by
  refine { h with linked := fun conn' m hlink => ?_ }
  obtain ⟨rfl, rfl⟩ := Prod.mk.inj (Option.some.inj hlink)
  have hlinked := h.linked conn n rfl
  obtain ⟨hlt, -⟩ := List.getElem?_eq_some_iff.mp hwritten
  refine ⟨hlinked.joined, hlinked.behind.trans (passed_mono (Nat.le_succ _)), hlt, fun hnone => ?_⟩
  rw [← whole_next hlinked hwritten hnone, hunread, Option.toList_none, List.append_nil]

/-- An update that is read lies behind those that were read before. -/
theorem read_next {conn : Conn} {n : Nat} {update : ExecutionUpdate}
    (h : Follows capacity feed hub updates (some (conn, n)) read heard)
    (hwritten : (written conn feed)[n]? = some (.gateway (.executionUpdate update)))
    (hheard : Message.heard (.gateway (.executionUpdate update)) = some update) :
    ∃ i, read ≤ i ∧ updates[i]? = some (.executionUpdate update) ∧
      Follows capacity feed hub updates (some (conn, n + 1)) (i + 1) (heard ++ [update]) := by
  obtain ⟨hlt, hget⟩ := h.next hwritten
  have hlinked := h.linked conn n rfl
  obtain ⟨hupdate, hsucc⟩ := filterMap_getElem? (f := Message.update) hget rfl
  have hpassed : passed feed (missed some conn feed + n) + 1 =
      passed feed (missed some conn feed + (n + 1)) := hsucc.symm
  refine ⟨_, hlinked.behind, h.offered ▸ hupdate,
    { h with behind := ?_, silent := ?_, linked := ?_ }⟩
  · exact hpassed.le.trans (passed_mono hlt)
  · intro hnone
    rw [hnone] at hlt
    exact absurd hlt (Nat.not_lt_zero _)
  · intro conn' m hlink
    obtain ⟨rfl, rfl⟩ := Prod.mk.inj (Option.some.inj hlink)
    obtain ⟨hwithin, -⟩ := List.getElem?_eq_some_iff.mp hwritten
    refine ⟨hlinked.joined, hpassed.le, hwithin, fun hnone => ?_⟩
    rw [← whole_next hlinked hwritten hnone, hheard, Option.toList_some]

end Follows

/-! ## A closed loop -/

section Loop

variable {setup : Setup} {exp : ℚ → ℚ} {asks : ExecutionRequest → Prop} {p₀ : Plane}
  {capacity : Nat} {trace : Trace} {tr : List PlaneEntry} {feed : Feed Conn} {s : Site Conn}

/-- The closed loop behind a deployment, and how far it has read. -/
theorem Run.follows (hnone : p₀.updates = [])
    (h : Run setup exp asks p₀ capacity trace tr feed s) :
    ∃ read heard, Follows capacity feed s.hub s.plane.shared.updates s.link read heard ∧
      ClosedLoop.Run setup exp asks p₀ trace tr ⟨s.engine, s.plane, read, heard⟩ := by
  induction h with
  | init =>
    exact ⟨0, [], ⟨.init, hnone.symm, Nat.zero_le _, fun _ => rfl, fun _ _ hlink => by cases hlink⟩,
      .init⟩
  | engine _ hstep hown ih =>
    obtain ⟨read, heard, hfollows, hloop⟩ := ih
    exact ⟨read, heard, hfollows, hloop.engine hstep hown⟩
  | submit req _ hasked ih =>
    obtain ⟨read, heard, hfollows, hloop⟩ := ih
    exact ⟨read, heard, hfollows, hloop.submit req hasked⟩
  | other j _ hother hpaper ih =>
    obtain ⟨read, heard, hfollows, hloop⟩ := ih
    exact ⟨read, heard, hfollows, hloop.other j hother hpaper⟩
  | @call trace tr feed s i j o k r p _ hi hsem hsilent ih =>
    obtain ⟨read, heard, hfollows, hloop⟩ := ih
    refine ⟨read, heard, ?_, hloop.call hi hsem⟩
    rcases ControlPlane.sem_updates hsem with hsame | ⟨update, rfl, -⟩
    · show Follows capacity feed s.hub p.updates s.link read heard
      rw [hsame]
      exact hfollows
    · exact absurd rfl (hsilent update)
  | offer _ hi hstep hp ih =>
    obtain ⟨read, heard, hfollows, hloop⟩ := ih
    subst hp
    exact ⟨read, heard, hfollows.step hstep, hloop.call hi (.inr rfl)⟩
  | refuse _ hi hstep ih =>
    obtain ⟨read, heard, hfollows, hloop⟩ := ih
    have hafter := hfollows.step hstep
    rw [show (HubAct.accepts (.refuse _ : HubAct Conn Message Message)) = none from rfl,
      Option.bind_none, Option.toList_none, List.append_nil] at hafter
    exact ⟨read, heard, hafter, hloop.call hi (.inl rfl)⟩
  | @hub trace tr feed s hub act _ hstep hown ih =>
    obtain ⟨read, heard, hfollows, hloop⟩ := ih
    have hmarket : act.accepts.bind Message.update = none := by
      cases act with
      | offer message =>
        cases message with
        | gateway update => exact absurd rfl (hown update).1
        | market event => rfl
      | _ => rfl
    have hafter := hfollows.step hstep
    rw [hmarket, Option.toList_none, List.append_nil] at hafter
    exact ⟨read, heard, hafter, hloop⟩
  | connect _ _ hstep ih =>
    obtain ⟨read, heard, hfollows, hloop⟩ := ih
    exact ⟨read, heard, hfollows.connect hstep, hloop⟩
  | disconnect _ ih =>
    obtain ⟨read, heard, hfollows, hloop⟩ := ih
    exact ⟨read, heard, hfollows.disconnect, hloop⟩
  | read _ hlink hwritten hdecoded hstep ih =>
    obtain ⟨read, heard, hfollows, hloop⟩ := ih
    rw [hlink] at hfollows
    obtain ⟨i, hi, hupdate, hafter⟩ :=
      hfollows.read_next hwritten (Message.heard_of_decoded hdecoded)
    exact ⟨i + 1, _, hafter, hloop.hear hi hupdate hdecoded hstep⟩
  | skip _ hlink hwritten hother ih =>
    obtain ⟨read, heard, hfollows, hloop⟩ := ih
    rw [hlink] at hfollows
    exact ⟨read, heard, hfollows.skip hwritten (Message.heard_of_unread hother), hloop⟩

/-- Every deployment is a closed loop of the same two processes: whatever the hub and the
clients do, the engine hears of the gateway's updates in their order, and of none twice. -/
theorem run_loop (setup : Setup) (exp : ℚ → ℚ) (asks : ExecutionRequest → Prop) (p₀ : Plane)
    (hnone : p₀.updates = []) (capacity : Nat) (trace : Trace) (tr : List PlaneEntry)
    (feed : Feed Conn) (s : Site Conn) (h : Run setup exp asks p₀ capacity trace tr feed s) :
    ∃ read heard, ClosedLoop.Run setup exp asks p₀ trace tr ⟨s.engine, s.plane, read, heard⟩ := by
  obtain ⟨read, heard, -, hloop⟩ := h.follows hnone
  exact ⟨read, heard, hloop⟩

/-! ## At rest -/

theorem tells_of_silent {o : Op} (h : ∀ update, o ≠ .emit update) (i : Nat) (p p' : Plane)
    (r : Res o) : PlaneEntry.tells ⟨i, p, ⟨o, r⟩, p'⟩ = none := by
  cases o with
  | emit update => exact absurd rfl (h update)
  | _ => rfl

/-- If the hub had room for all of the gateway, every fill that is announced is on its channel. -/
theorem Run.told_of_room (hnone : p₀.updates = [])
    (h : Run setup exp asks p₀ capacity trace tr feed s)
    (hroom : ∀ update, .refuse (.gateway update) ∉ feed) :
    ofFills (s.plane.shared.updates.filterMap executed) = told tr := by
  induction h with
  | init => exact congrArg (fun updates => ofFills (updates.filterMap executed)) hnone
  | engine _ _ _ ih | submit _ _ _ ih | other _ _ _ _ ih | disconnect _ ih | read _ _ _ _ _ ih
  | skip _ _ _ _ ih => exact ih hroom
  | hub _ _ _ ih | connect _ _ _ ih =>
    exact ih fun update hrefuse => hroom update (List.mem_append_left _ hrefuse)
  | @call trace tr feed s i j o k r p _ _ hsem hsilent ih =>
    rw [ControlPlane.told_concat, tells_of_silent hsilent, Option.toList_none, List.append_nil]
    rcases ControlPlane.sem_updates hsem with hsame | ⟨update, rfl, -⟩
    · show ofFills (p.updates.filterMap executed) = told tr
      rw [hsame]
      exact ih hroom
    · exact absurd rfl (hsilent update)
  | @offer trace tr feed s hub i j update k p _ _ _ hp ih =>
    subst hp
    rw [ControlPlane.told_concat, ← ClosedLoop.ofFills_emitted, filterMap_concat, ofFills,
      List.filter_append]
    exact congrArg (· ++ _)
      (ih fun update hrefuse => hroom update (List.mem_append_left _ hrefuse))
  | @refuse trace tr feed s hub i j update k =>
    exact absurd (List.mem_append_right _ List.mem_cons_self) (hroom update)

/-- All is at rest: nothing was lost, the hub has sent everything, and the engine, which was
there from the first broadcast on, has read it. -/
structure Rested (trace : Trace) (tr : List PlaneEntry) (feed : Feed Conn) (s : Site Conn) :
    Prop where
  quiet : Network.Quiet s.engine
  kept : ∀ fill, .drop Chan.fill fill ∉ trace
  returned : ∀ t ∈ s.plane.threads, ∃ result, t.prog = .ret result
  room : ∀ update, .refuse (.gateway update) ∉ feed
  queue : s.hub.queue = []
  writes : s.hub.writes = []
  linked : ∃ conn ∈ s.hub.clients, s.link = some (conn, (written conn feed).length) ∧
    missed some conn feed = 0
  readable : ∀ update ∈ told tr, Wire.Readable update

/-- A deployment at rest is a settled loop. -/
theorem Rested.settled (h : Rested trace tr feed s) (hnone : p₀.updates = [])
    (hrun : Run setup exp asks p₀ capacity trace tr feed s) :
    ∃ l : Loop, l.engine = s.engine ∧ l.plane = s.plane ∧
      ClosedLoop.Run setup exp asks p₀ trace tr l ∧ Settled trace tr l := by
  obtain ⟨read, heard, hfollows, hloop⟩ := hrun.follows hnone
  obtain ⟨conn, hconn, hlink, hmissed⟩ := h.linked
  have hwritten := hfollows.run.accounts.written_all hconn hmissed h.queue h.writes
  have hheard : heard = (accepted feed).filterMap Message.heard := by
    rw [(hfollows.linked conn _ hlink).whole hmissed, List.take_length, hwritten,
      List.filterMap_some]
  refine ⟨_, rfl, rfl, hloop, h.quiet, h.kept, h.returned, ?_⟩
  calc ofFills heard
      = (ofFills (s.plane.shared.updates.filterMap executed)).filter (Wire.Readable ·) := by
        rw [hheard, Message.filterMap_heard, hfollows.offered]
        exact List.filter_comm ..
    _ = (told tr).filter (Wire.Readable ·) := by rw [hrun.told_of_room hnone h.room]
    _ = told tr := List.filter_eq_self.mpr fun update htold =>
        decide_eq_true (h.readable update htold)

/-- At rest, the engine has the same position in every symbol as the control plane. -/
theorem rested_agree (setup : Setup) (exp : ℚ → ℚ) (asks : ExecutionRequest → Prop) (p₀ : Plane)
    (hnew : p₀.store = .newStore) (hnone : p₀.updates = [])
    (hasks : ∀ req, asks req → Sided req.side) (capacity : Nat) (trace : Trace)
    (tr : List PlaneEntry) (feed : Feed Conn) (s : Site Conn)
    (h : Run setup exp asks p₀ capacity trace tr feed s) (hrested : Rested trace tr feed s)
    {lotSize : ℚ} (hsize : Rtts.Accounting.dust < lotSize)
    (hwhole : ∀ fill ∈ taken Chan.fill trace, Rtts.Accounting.WholeLots lotSize fill.filledSize)
    (symbol : String) :
    ((s.engine.state .position).accounting.positionExposure symbol).netQuantity =
      (s.plane.shared.store.position symbol).size := by
  obtain ⟨l, hengine, hplane, hloop, hsettled⟩ := hrested.settled hnone h
  have hperm := hsettled.booked_perm hnew hnone hloop
  rw [← hengine, ← hplane]
  exact hloop.positions_of_perm hnew hasks hperm hsize hwhole symbol

/-! ## Runs put together -/

/-- Messages that mean nothing to the engine are passed over. -/
theorem Run.skips {x : Moment Task Chan Msg State} {c : PlaneConfig}
    {hub : Hub Conn Message Message} {conn : Conn} (silent : List Message) :
    ∀ before after : List Message, written conn feed = before ++ (silent ++ after) →
      (∀ message ∈ silent, message.heard = none) →
      Run setup exp asks p₀ capacity trace tr feed ⟨x, c, hub, some (conn, before.length)⟩ →
      Run setup exp asks p₀ capacity trace tr feed
        ⟨x, c, hub, some (conn, (before ++ silent).length)⟩ := by
  induction silent with
  | nil =>
    intro before after _ _ h
    rw [List.append_nil]
    exact h
  | cons message rest ih =>
    intro before after hsplit hsilent h
    obtain ⟨hfirst, hrest⟩ := List.forall_mem_cons.mp hsilent
    have hget : (written conn feed)[before.length]? = some message := by
      rw [hsplit, List.getElem?_append_right le_rfl, Nat.sub_self]
      rfl
    have hskip := h.skip rfl hget (Message.unread_of_heard hfirst)
    rw [List.cons_append, List.append_cons] at hsplit
    rw [List.append_cons]
    refine ih _ _ hsplit hrest ?_
    rw [List.length_append, List.length_singleton]
    exact hskip

/-- An engine that is fed with what the first messages of its client mean to it. -/
theorem Run.of_reading {c : PlaneConfig} {hub : Hub Conn Message Message} {conn : Conn}
    (h : Run setup exp asks p₀ capacity [] tr feed
      ⟨(network setup).initial, c, hub, some (conn, 0)⟩)
    {x : Moment Task Chan Msg State} (hx : (network setup).Run trace x) :
    ∀ before after : List Message, written conn feed = before ++ after →
      entered Chan.executionFeed trace = (before.filterMap Message.heard).map receivedUpdate →
      Run setup exp asks p₀ capacity trace tr feed
        ⟨x, c, hub, some (conn, before.length)⟩ := by
  induction hx with
  | init =>
    intro before after hsplit hfed
    have hsilent := List.filterMap_eq_nil_iff.mp (List.map_eq_nil_iff.mp hfed.symm)
    exact Run.skips before [] after hsplit hsilent h
  | @step trace x act y hx hstep ih =>
    intro before after hsplit hfed
    rw [Network.entered_concat] at hfed
    by_cases hfeed : ∃ payload, act = .arrive Chan.executionFeed payload
    · obtain ⟨payload, rfl⟩ := hfeed
      obtain ⟨earlier, last, hheard, hearlier, hlast⟩ := List.append_eq_map_iff.mp hfed
      obtain ⟨update, rfl, hpayload⟩ := List.map_eq_singleton_iff.mp hlast
      obtain rfl : receivedUpdate update = payload := hpayload
      -- the message that is read lies between messages that mean nothing
      obtain ⟨front, back, rfl, rfl, hback⟩ := List.filterMap_eq_append_iff.mp hheard
      obtain ⟨silent, message, rest, rfl, hsilent, hmessage, hrest⟩ :=
        List.filterMap_eq_cons_iff.mp hback
      obtain ⟨rfl, hdecoded⟩ := Message.eq_of_heard hmessage
      have hbefore : (front ++ silent).filterMap Message.heard = front.filterMap Message.heard := by
        rw [List.filterMap_append, List.filterMap_eq_nil_iff.mpr hsilent, List.append_nil]
      have hparts : written conn feed =
          (front ++ silent) ++ (.gateway (.executionUpdate update) :: (rest ++ after)) := by
        rw [hsplit]
        simp only [List.append_assoc, List.cons_append]
      have hearly := ih (front ++ silent) _ hparts (by rw [hbefore]; exact hearlier.symm)
      have hget : (written conn feed)[(front ++ silent).length]? =
          some (.gateway (.executionUpdate update)) := by
        rw [hparts, List.getElem?_append_right le_rfl, Nat.sub_self]
        rfl
      have hread := hearly.read rfl hget hdecoded hstep
      rw [List.append_cons] at hparts
      have hlater := Run.skips rest _ after hparts (List.filterMap_eq_nil_iff.mp hrest) (by
          rw [List.length_append, List.length_singleton]
          exact hread)
      rw [← List.append_cons, List.append_assoc] at hlater
      exact hlater
    · have hown : ∀ payload, act ≠ .arrive Chan.executionFeed payload := fun payload hact =>
        hfeed ⟨payload, hact⟩
      rw [ClosedLoop.enters_own hx hstep hown, Option.toList_none, List.append_nil] at hfed
      exact (ih before after hsplit hfed).engine hstep hown

/-- What is emitted, kept or not. -/
def emits (event : Event Op Res) : Option Update :=
  match event with
  | ⟨.emit update, _⟩ => some update
  | _ => none

def emitted (tr : List PlaneEntry) : List Update := tr.filterMap fun e => emits e.event

theorem length_updates_le (hnone : p₀.updates = []) {c : PlaneConfig}
    (h : PlaneRun (paper exp) p₀ tr c) : c.shared.updates.length ≤ (emitted tr).length := by
  refine Concurrency.Run.induct_shared
    (fun tr p => p.updates.length ≤ (emitted tr).length) ?_ ?_ h
  · rw [hnone]
    exact Nat.zero_le _
  · intro tr p i o r p' hbefore hsem
    rw [emitted, filterMap_concat, List.length_append]
    rcases ControlPlane.sem_updates hsem with hsame | ⟨update, rfl, hadded⟩
    · rw [hsame]
      exact hbefore.trans (Nat.le_add_right _ _)
    · rw [hadded, List.length_append]
      exact Nat.add_le_add_right hbefore 1

/-- A client that comes before all updates are offered. -/
def offers (conn : Conn) (updates : List Update) : Feed Conn :=
  .join conn :: updates.map fun update => .offer (.gateway update)

omit [DecidableEq Conn] in
theorem filterMap_offers {B : Type} {f : HubAct Conn Message Message → Option B} {conn : Conn}
    (hjoin : f (.join conn) = none) (hoffer : ∀ update, f (.offer (.gateway update)) = none)
    (updates : List Update) : (offers conn updates).filterMap f = [] := by
  refine List.filterMap_eq_nil_iff.mpr (List.forall_mem_cons.mpr ⟨hjoin, fun act hact => ?_⟩)
  obtain ⟨update, -, rfl⟩ := List.mem_map.mp hact
  exact hoffer update

theorem missed_offers (conn : Conn) (updates : List Update) :
    missed some conn (offers conn updates) = 0 := by
  have hnone : broadcasts some (offers conn updates) = [] :=
    filterMap_offers rfl (fun _ => rfl) updates
  rw [missed, hnone]
  exact Nat.zero_sub _

/-- The gateway by itself, with the requests of others and the engine for a client, as long as
there is room. -/
theorem Run.of_gateway (setup : Setup) (conn : Conn) (hnone : p₀.updates = []) {c : PlaneConfig}
    (h : PlaneRun (paper exp) p₀ tr c)
    (hjobs : ∀ t ∈ c.threads, ∃ req, t.job = .submit req ∧ asks req)
    (hroom : c.shared.updates.length ≤ capacity) (hkept : emitted tr = c.shared.updates) :
    Run setup exp asks p₀ capacity [] tr (offers conn c.shared.updates)
      ⟨(network setup).initial, c,
        { queue := c.shared.updates.map .gateway, clients := [conn], known := [conn] },
        some (conn, 0)⟩ := by
  induction h with
  | init =>
    rw [hnone]
    exact Run.init.connect rfl (.join List.not_mem_nil)
  | @start tr p ts j h ih =>
    obtain ⟨hbefore, hlast⟩ := List.forall_mem_append.mp hjobs
    obtain ⟨req, hreq, hasks⟩ := hlast _ (List.mem_singleton_self _)
    obtain rfl : j = .submit req := hreq
    exact .submit req (ih hbefore hroom hkept) (.inl hasks)
  | @step tr p ts i j o k r p' h hi hsem ih =>
    have hbefore := jobs_before (fun j => ∃ req, j = .submit req ∧ asks req) hi hjobs
    rw [emitted, filterMap_concat] at hkept
    by_cases hemit : ∃ update, o = .emit update
    · obtain ⟨update, rfl⟩ := hemit
      rcases hsem with rfl | rfl
      · -- an update that is lost is missing on the channel
        have hless : p'.updates.length ≤ (emitted tr).length := length_updates_le hnone h
        have hlength : (emitted tr).length + 1 = p'.updates.length := by
          rw [← congrArg List.length hkept, List.length_append]
          rfl
        omega
      · obtain ⟨hkept, -⟩ := List.append_inj' hkept rfl
        have hmore : p.updates.length < capacity := by
          rw [List.length_append] at hroom
          exact hroom
        rw [offers, List.map_append, List.map_append]
        exact (ih hbefore hmore.le hkept).offer hi
          (.offer _ (by rw [List.length_map]; exact hmore)) rfl
    · have hsilent : ∀ update, o ≠ .emit update := fun update ho => hemit ⟨update, ho⟩
      have hsame : p'.updates = p.updates :=
        (ControlPlane.sem_updates hsem).resolve_right fun ⟨update, ho, _⟩ => hsilent update ho
      have hnothing : emits ⟨o, r⟩ = none := by
        cases o with
        | emit update => exact absurd rfl (hsilent update)
        | _ => rfl
      rw [hnothing, Option.toList_none, List.append_nil, hsame] at hkept
      rw [hsame] at hroom ⊢
      exact (ih hbefore hroom hkept).call hi hsem hsilent

/-- The hub sends what it has to its only client. -/
theorem Run.sent {x : Moment Task Chan Msg State} {c : PlaneConfig} {conn : Conn}
    {link : Option (Conn × Nat)} {messages : List Message} :
    ∀ {feed : Feed Conn}, .join conn ∈ feed →
      Run setup exp asks p₀ capacity trace tr feed
        ⟨x, c, { queue := messages, clients := [conn], known := [conn] }, link⟩ →
      ∃ feed', Run setup exp asks p₀ capacity trace tr feed'
          ⟨x, c, { clients := [conn], known := [conn] }, link⟩ ∧
        written conn feed' = written conn feed ++ messages ∧
        missed some conn feed' = missed some conn feed ∧
        ∀ update, .refuse (.gateway update) ∈ feed' → .refuse (.gateway update) ∈ feed := by
  induction messages with
  | nil => exact fun _ h => ⟨_, h, (List.append_nil _).symm, rfl, fun _ => id⟩
  | cons message rest ih =>
    intro feed hjoin h
    have htake : Hub.Step capacity some
        { queue := message :: rest, clients := [conn], known := [conn] }
        (.take message [conn])
        { queue := rest, clients := [conn], writes := [(conn, message)], known := [conn] } :=
      .take rfl rfl rfl (.refl _)
    have hwrite : Hub.Step capacity some
        { queue := rest, clients := [conn], writes := [(conn, message)], known := [conn] }
        (.write conn message) { queue := rest, clients := [conn], known := [conn] } :=
      .write rfl List.not_mem_nil
    have hsent := (h.hub htake fun update => by simp).hub hwrite fun update => by simp
    have hjoin' := List.mem_append_left [.take message [conn]] hjoin
    obtain ⟨feed', hrun, hwritten, hmissed, hrefused⟩ :=
      ih (List.mem_append_left [.write conn message] hjoin') hsent
    refine ⟨feed', hrun, ?_, ?_, fun update hupdate => ?_⟩
    · rw [hwritten, ControlPlane.Hub.written_concat, ControlPlane.Hub.written_concat]
      simp [HubAct.writes]
    · rw [hmissed, ControlPlane.Hub.missed_concat hjoin', ControlPlane.Hub.missed_concat hjoin]
    · simpa using hrefused update hupdate

end Loop

/-! ## One order of others -/

open ClosedLoop (bought fillActs quoted)
open ControlPlane (playout submit)
open ControlPlane.Desk (expCubic paperWorld)
open Rtts.Pipeline (shipped)

/-- The two updates of an execution on the channel. -/
def pair (updates : List Update) : Option (ExecutionUpdate × ExecutionUpdate) :=
  match updates.filterMap executed with
  | [first, second] => some (first, second)
  | _ => none

/-- Both can be read, the second is on a fill of more than dust, and the channel had room. -/
def Filled (log : List (Event Op Res)) (updates : List Update)
    (x : ExecutionUpdate × ExecutionUpdate) : Prop :=
  Wire.Readable x.1 ∧ Wire.Readable x.2 ∧ x.1.ledger = none ∧
    (∃ duty ∈ x.2.duty, Rtts.Accounting.dust < duty.quantity) ∧ updates.length ≤ 64 ∧
    log.filterMap emits = updates

instance (log : List (Event Op Res)) (updates : List Update)
    (x : ExecutionUpdate × ExecutionUpdate) : Decidable (Filled log updates x) := by
  unfold Filled
  infer_instance

theorem bought_filled :
    (playout expCubic (paperWorld "id-1") (submit false bought) quoted).any (fun x =>
      (pair x.2.2.updates).any fun y => decide (Filled x.1 x.2.2.updates y)) = true := by
  decide +kernel

/-- What the engine does about an update without a fill, and then about one with it. -/
def boughtActs (status payload : ControlPlaneExecutionUpdate) (fill : Wire.FillEvent) : Trace :=
  .arrive .executionFeed status :: .receive .executionFeed status default ::
    .enqueue .controllerExec (Wire.controllerView status) ::
    .receive .controllerExec (Wire.controllerView status) default :: fillActs payload fill

theorem run_boughtActs (first second : ExecutionUpdate) (ledger : ControlPlane.FillLedgerEntry)
    (execution : ControlPlane.ExecutionEvent) :
    let bare := receivedUpdate { first with ledger := none }
    let filled := receivedUpdate { second with ledger := some ledger, execution := some execution }
    let fill := Wire.fillView filled (Wire.receivedLedgerEntry ledger)
      (Wire.receivedEvent execution)
    ∃ x, (network shipped).Run (boughtActs bare filled fill) x ∧ Network.Quiet x := by
  intro bare filled fill
  have hroom : 0 < (network shipped).capacity := by decide
  -- the update without a fill
  have hknown := ((((Network.Run.init (N := network shipped)).step
    (.arrive (c := .executionFeed) bare rfl)).step
    (.receive (c := .executionFeed) default rfl rfl)).step
    (.enqueue (t := .external) (c := .controllerExec) (m := Wire.controllerView bare) rfl
      (by exact hroom))).step (.receive (c := .controllerExec) default rfl rfl)
  -- the fill, on its way to three tasks
  have hsent := ((((hknown.step (.arrive (c := .executionFeed) filled rfl)).step
    (.receive (c := .executionFeed) default rfl rfl)).step
    (.enqueue (t := .external) (c := .controllerExec) (m := Wire.controllerView filled) rfl
      (by exact hroom))).step
    (.enqueue (t := .external) (c := .truthFill) (m := Rtts.Pipeline.truthFill fill) rfl
      (by exact hroom))).step
    (.enqueue (t := .external) (c := .fill) (m := fill.forPosition) rfl (by exact hroom))
  have htaken := ((hsent.step
    (.receive (c := .controllerExec) (m := Wire.controllerView filled) default rfl rfl)).step
    (.receive (c := .truthFill) (m := Rtts.Pipeline.truthFill fill) default rfl rfl)).step
    (.receive (c := .fill) (m := fill.forPosition) default rfl rfl)
  refine ⟨_, htaken, ?_⟩
  constructor
  · intro t
    cases t <;> rfl
  · intro c
    cases c <;> rfl

theorem executed_of_pair {updates : List Update} {first second : ExecutionUpdate}
    (h : pair updates = some (first, second)) : updates.filterMap executed = [first, second] := by
  unfold pair at h
  split at h
  · obtain ⟨rfl, rfl⟩ := Prod.mk.inj (Option.some.inj h)
    assumption
  · cases h

/-- The order is filled, the engine hears of it, and all comes to rest. -/
theorem run_bought : ∃ trace tr feed, ∃ (s : Site Nat), ∃ fill,
    Run shipped expCubic (· = bought) quoted 64 trace tr feed s ∧ Rested trace tr feed s ∧
      taken Chan.fill trace = [fill] ∧ Rtts.Accounting.dust < fill.filledSize := by
  obtain ⟨⟨log, result, p⟩, hplay, hany⟩ := (Option.any_eq_true _ _).mp bought_filled
  obtain ⟨⟨first, second⟩, hpair, hfilled⟩ := (Option.any_eq_true _ _).mp hany
  obtain ⟨hfirst, hsecond, hbare, ⟨duty, hduty, hsize⟩, hroom, hlog⟩ := of_decide_eq_true hfilled
  obtain ⟨tr, hplane, rfl⟩ := ControlPlane.Desk.paper_run hplay
  obtain ⟨hledger, hexecution⟩ := ExecutionUpdate.records_duty hduty
  have hexecuted := executed_of_pair hpair
  have hjobs : ∀ t ∈ [(⟨.submit bought, .ret result⟩ : Thread Op Res Job _)],
      ∃ req, t.job = .submit req ∧ req = bought := List.forall_mem_singleton.mpr ⟨bought, rfl, rfl⟩
  rw [List.filterMap_map] at hlog
  have hgateway := Run.of_gateway shipped 0 rfl hplane hjobs hroom hlog
  have hjoin : .join 0 ∈ offers 0 p.updates := List.mem_cons_self
  have hnothing : written 0 (offers 0 p.updates) = [] :=
    filterMap_offers rfl (fun _ => rfl) p.updates
  obtain ⟨feed, hsent, hwritten, hmissed, hrefused⟩ := hgateway.sent hjoin
  rw [hnothing, List.nil_append] at hwritten
  rw [missed_offers] at hmissed
  have hroom : ∀ update, .refuse (.gateway update) ∉ feed := fun update hrefuse => by
    simpa [offers] using hrefused update hrefuse
  have hheard : (p.updates.map Message.gateway).filterMap Message.heard = [first, second] := by
    rw [Message.filterMap_heard, List.filterMap_map,
      show Message.update ∘ Message.gateway = some from rfl, List.filterMap_some, hexecuted]
    exact List.filter_eq_self.mpr (List.forall_mem_cons.mpr
      ⟨decide_eq_true hfirst, List.forall_mem_singleton.mpr (decide_eq_true hsecond)⟩)
  obtain ⟨x, hx, hquiet⟩ := run_boughtActs first second duty.ledger duty.execution
  have hrun := hsent.of_reading hx _ [] (by rw [hwritten, List.append_nil]) (by
    rw [hheard, show first = { first with ledger := none } by rw [← hbare],
      show second = { second with ledger := some duty.ledger, execution := some duty.execution } by
        rw [← hledger, ← hexecution]]
    rfl)
  refine ⟨_, tr, feed, _, _, hrun, ?_, rfl, hsize⟩
  constructor
  · exact hquiet
  · simp [boughtActs, fillActs]
  · exact List.forall_mem_singleton.mpr ⟨result, rfl⟩
  · exact hroom
  · rfl
  · rfl
  · exact ⟨0, List.mem_cons_self, by rw [hwritten], hmissed⟩
  · intro update htold
    rw [← hrun.told_of_room rfl hroom, hexecuted] at htold
    rcases List.mem_pair.mp (List.mem_of_mem_filter htold) with rfl | rfl
    · exact hfirst
    · exact hsecond

theorem run_loop_bought : ∃ (trace : Trace) (tr : List PlaneEntry) (s : Site Nat) (read : Nat)
    (heard : List ExecutionUpdate), (∃ fill, taken Chan.fill trace = [fill]) ∧
      ClosedLoop.Run shipped expCubic (· = bought) quoted trace tr
        ⟨s.engine, s.plane, read, heard⟩ := by
  obtain ⟨trace, tr, feed, s, fill, hrun, -, htaken, -⟩ := run_bought
  obtain ⟨read, heard, hloop⟩ := run_loop shipped expCubic (· = bought) quoted rfl 64 trace tr feed
    s hrun
  exact ⟨trace, tr, s, read, heard, ⟨fill, htaken⟩, hloop⟩

theorem rested_agree_bought : ∃ s : Site Nat,
    ((s.engine.state .position).accounting.positionExposure "BTCUSDT").netQuantity =
      (s.plane.shared.store.position "BTCUSDT").size := by
  obtain ⟨trace, tr, feed, s, fill, hrun, hrested, htaken, hsize⟩ := run_bought
  refine ⟨s, rested_agree shipped expCubic (· = bought) quoted rfl rfl ?_ 64 trace tr feed s hrun
    hrested hsize (fun other hother => ?_) "BTCUSDT"⟩
  · rintro req rfl
    exact ⟨.buy, rfl⟩
  · rw [htaken] at hother
    obtain rfl := List.mem_singleton.mp hother
    exact ⟨1, by decide, by rw [Nat.cast_one, one_mul]⟩

end RealTimeTrading.Deployment
