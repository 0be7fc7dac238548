/-
RealTimeTrading.ControlPlane.Hub — `api/hub.go`: every update goes to every
websocket client.

Producers offer updates to a bounded channel and drop them where it is full.
`Run` takes them one by one and writes each to the clients there are at that
moment, in whatever order the map lists them; meanwhile clients come and go.
A client whose write fails, or whose reader fails, is removed.

Whatever the interleaving, a client is written an unbroken run of the
updates taken since it came (`delivers`): nothing twice, nothing out of
order, nothing left out as long as it stays.
-/
import Mathlib.Data.List.Nodup
import RealTimeTrading.Concurrency.Emitting

namespace RealTimeTrading.ControlPlane

/-- `writes` is what the broadcast under way has still to write; a connection in
`closed` can no longer be written to, and `known` are all there ever were. -/
structure Hub (Conn Update Payload : Type) where
  queue : List Update := []
  clients : List Conn := []
  writes : List (Conn × Payload) := []
  closed : List Conn := []
  known : List Conn := []
  stopped : Bool := false

/-- One line of a trace. `take` comes with the clients in the order they are met. -/
inductive HubAct (Conn Update Payload : Type) where
  | offer (update : Update)
  | refuse (update : Update)
  | take (update : Update) (met : List Conn)
  | write (conn : Conn) (payload : Payload)
  | fail (conn : Conn) (payload : Payload)
  | join (conn : Conn)
  | leave (conn : Conn)
  | stop

namespace Hub

variable {Conn Update Payload : Type} [DecidableEq Conn]

section Steps

variable (capacity : Nat) (marshal : Update → Option Payload)

/-- An update that cannot be marshalled is written to nobody. -/
def broadcast (update : Update) (met : List Conn) : List (Conn × Payload) :=
  (marshal update).toList.flatMap fun payload => met.map fun conn => (conn, payload)

inductive Step : Hub Conn Update Payload → HubAct Conn Update Payload → Hub Conn Update Payload →
    Prop
  | offer {s} (update : Update) (hroom : s.queue.length < capacity) :
    Step s (.offer update) { s with queue := s.queue ++ [update] }
  | refuse {s} (update : Update) (hfull : capacity ≤ s.queue.length) : Step s (.refuse update) s
  | take {s} {update : Update} {rest : List Update} {met : List Conn} (hrunning : s.stopped = false)
      (hidle : s.writes = []) (hqueue : s.queue = update :: rest) (hmet : met.Perm s.clients) :
    Step s (.take update met) { s with queue := rest, writes := broadcast marshal update met }
  | write {s} {conn : Conn} {payload : Payload} {rest : List (Conn × Payload)}
      (hwrites : s.writes = (conn, payload) :: rest) (hopen : conn ∉ s.closed) :
    Step s (.write conn payload) { s with writes := rest }
  | fail {s} {conn : Conn} {payload : Payload} {rest : List (Conn × Payload)}
      (hwrites : s.writes = (conn, payload) :: rest) :
    Step s (.fail conn payload)
      { s with
        writes := rest
        clients := s.clients.erase conn
        closed := conn :: s.closed }
  | join {s} {conn : Conn} (hnew : conn ∉ s.known) :
    Step s (.join conn) { s with clients := conn :: s.clients, known := conn :: s.known }
  | leave {s} {conn : Conn} (hknown : conn ∈ s.known) :
    Step s (.leave conn)
      { s with clients := s.clients.erase conn, closed := conn :: s.closed }
  | stop {s} (hidle : s.writes = []) :
    Step s .stop { s with clients := [], closed := s.clients ++ s.closed, stopped := true }

inductive Run : List (HubAct Conn Update Payload) → Hub Conn Update Payload → Prop where
  | init : Run [] {}
  | step {trace s a s'} (h : Run trace s) (hstep : Step capacity marshal s a s') :
    Run (trace ++ [a]) s'

end Steps

end Hub

/-! ## Reading a trace -/

namespace HubAct

variable {Conn Update Payload : Type} [DecidableEq Conn]

/-- The update this line puts into the channel. -/
def accepts : HubAct Conn Update Payload → Option Update
  | .offer update => some update
  | _ => none

def takes : HubAct Conn Update Payload → Option Update
  | .take update _ => some update
  | _ => none

/-- What this line starts to broadcast. -/
def starts (marshal : Update → Option Payload) : HubAct Conn Update Payload → Option Payload
  | .take update _ => marshal update
  | _ => none

/-- What this line writes to the client. -/
def writes (conn : Conn) : HubAct Conn Update Payload → Option Payload
  | .write c payload => if c = conn then some payload else none
  | _ => none

end HubAct

namespace Hub

variable {Conn Update Payload : Type} [DecidableEq Conn] {capacity : Nat}
  {marshal : Update → Option Payload} {trace : List (HubAct Conn Update Payload)}
  {s s' : Hub Conn Update Payload}

/-- The updates the channel had room for. -/
def accepted (trace : List (HubAct Conn Update Payload)) : List Update :=
  trace.filterMap (·.accepts)

def takenOf (trace : List (HubAct Conn Update Payload)) : List Update :=
  trace.filterMap (·.takes)

def broadcasts (marshal : Update → Option Payload) (trace : List (HubAct Conn Update Payload)) :
    List Payload :=
  trace.filterMap (·.starts marshal)

/-- What has been written to a client. -/
def written (conn : Conn) (trace : List (HubAct Conn Update Payload)) : List Payload :=
  trace.filterMap (·.writes conn)

/-- The trace since the client came. -/
def since (conn : Conn) : List (HubAct Conn Update Payload) → List (HubAct Conn Update Payload)
  | [] => []
  | .join c :: rest => if c = conn then rest else since conn rest
  | _ :: rest => since conn rest

/-- What the broadcast under way has still to write to a client. -/
def due (conn : Conn) (writes : List (Conn × Payload)) : List Payload :=
  writes.filterMap fun w => if w.1 = conn then some w.2 else none

theorem since_concat {conn : Conn} (h : .join conn ∈ trace) (a : HubAct Conn Update Payload) :
    since conn (trace ++ [a]) = since conn trace ++ [a] := by
  induction trace with
  | nil => cases h
  | cons first rest ih =>
    have hrest : .join conn ≠ first → since conn (rest ++ [a]) = since conn rest ++ [a] := by
      intro hne
      exact ih ((List.mem_cons.mp h).resolve_left hne)
    cases first with
    | join c =>
      rw [List.cons_append, since, since]
      by_cases hc : c = conn
      · rw [if_pos hc, if_pos hc]
      · rw [if_neg hc, if_neg hc]
        exact hrest fun hjoin => hc (HubAct.join.inj hjoin).symm
    | _ => exact hrest nofun

theorem since_join {conn : Conn} (h : .join conn ∉ trace) :
    since conn (trace ++ [.join conn]) = [] := by
  induction trace with
  | nil => exact if_pos rfl
  | cons first rest ih =>
    have hrest := ih fun hmem => h (List.mem_cons_of_mem _ hmem)
    cases first with
    | join c =>
      rw [List.cons_append, since, if_neg, hrest]
      rintro rfl
      exact h List.mem_cons_self
    | _ => exact hrest

/-! ## What a run keeps -/

/-- How the hub comes of its trace. -/
structure Accounts (marshal : Update → Option Payload) (trace : List (HubAct Conn Update Payload))
    (s : Hub Conn Update Payload) : Prop where
  known : ∀ conn, conn ∈ s.known ↔ .join conn ∈ trace
  clients : ∀ conn ∈ s.clients, conn ∈ s.known
  nodup : s.clients.Nodup
  once : (s.writes.map Prod.fst).Nodup
  queued : accepted trace = takenOf trace ++ s.queue
  unknown : ∀ conn, conn ∉ s.known → written conn trace = [] ∧ due conn s.writes = []
  earlier : ∀ conn ∈ s.known,
    written conn trace ++ due conn s.writes <+: broadcasts marshal (since conn trace)
  present : ∀ conn ∈ s.clients,
    written conn trace ++ due conn s.writes = broadcasts marshal (since conn trace)

omit [DecidableEq Conn] in
theorem mem_concat_of_ne (a : HubAct Conn Update Payload) {conn : Conn} (h : a ≠ .join conn) :
    .join conn ∈ trace ++ [a] ↔ .join conn ∈ trace := by
  rw [List.mem_append, List.mem_singleton]
  exact or_iff_left fun hjoin => h hjoin.symm

theorem written_concat (conn : Conn) (trace : List (HubAct Conn Update Payload))
    (a : HubAct Conn Update Payload) :
    written conn (trace ++ [a]) = written conn trace ++ (a.writes conn).toList :=
  Concurrency.filterMap_concat _ trace a

omit [DecidableEq Conn] in
theorem broadcasts_concat (marshal : Update → Option Payload)
    (trace : List (HubAct Conn Update Payload)) (a : HubAct Conn Update Payload) :
    broadcasts marshal (trace ++ [a]) = broadcasts marshal trace ++ (a.starts marshal).toList :=
  Concurrency.filterMap_concat _ trace a

theorem broadcasts_since {conn : Conn} (h : .join conn ∈ trace) (a : HubAct Conn Update Payload) :
    broadcasts marshal (since conn (trace ++ [a])) =
      broadcasts marshal (since conn trace) ++ (a.starts marshal).toList := by
  rw [since_concat h, broadcasts_concat]

theorem due_cons (conn c : Conn) (payload : Payload) (rest : List (Conn × Payload)) :
    due conn ((c, payload) :: rest) = (if c = conn then [payload] else []) ++ due conn rest := by
  unfold due
  by_cases hc : c = conn
  · simp [hc]
  · simp [hc]

theorem due_of_notMem {conn : Conn} {writes : List (Conn × Payload)}
    (h : conn ∉ writes.map Prod.fst) : due conn writes = [] := by
  refine List.filterMap_eq_nil_iff.mpr fun w hw => if_neg ?_
  rintro rfl
  exact h (List.mem_map_of_mem hw)

/-- Each client a broadcast meets has it coming once. -/
theorem due_met {met : List Conn} (hnodup : met.Nodup) (conn : Conn) (payload : Payload) :
    due conn (met.map fun c => (c, payload)) = if conn ∈ met then [payload] else [] := by
  induction met with
  | nil => rfl
  | cons c rest ih =>
    obtain ⟨hfresh, hrest⟩ := List.nodup_cons.mp hnodup
    rw [List.map_cons, due_cons, ih hrest]
    by_cases hc : c = conn
    · subst hc
      rw [if_pos rfl, if_neg hfresh, if_pos List.mem_cons_self, List.append_nil]
    · rw [if_neg hc, List.nil_append]
      simp only [List.mem_cons, Ne.symm hc, false_or]

theorem accounts_initial (marshal : Update → Option Payload) :
    Accounts marshal ([] : List (HubAct Conn Update Payload)) {} where
  known _ := iff_of_false List.not_mem_nil List.not_mem_nil
  clients _ h := absurd h List.not_mem_nil
  nodup := List.nodup_nil
  once := List.nodup_nil
  queued := rfl
  unknown _ _ := ⟨rfl, rfl⟩
  earlier _ h := absurd h List.not_mem_nil
  present _ h := absurd h List.not_mem_nil

/-- A line that writes and broadcasts nothing, and after which no client is new. -/
theorem Accounts.quiet (h : Accounts marshal trace s) {a : HubAct Conn Update Payload}
    (hstarts : a.starts marshal = none) (hwrites : ∀ conn, a.writes conn = none)
    (hjoin : ∀ conn, a ≠ .join conn) (hknown : s'.known = s.known) (hsame : s'.writes = s.writes)
    (hclients : s'.clients.Sublist s.clients)
    (hqueued : accepted (trace ++ [a]) = takenOf (trace ++ [a]) ++ s'.queue) :
    Accounts marshal (trace ++ [a]) s' := by
  have hwritten : ∀ conn, written conn (trace ++ [a]) = written conn trace := fun conn => by
    rw [written_concat, hwrites, Option.toList_none, List.append_nil]
  have hsince : ∀ conn ∈ s.known, broadcasts marshal (since conn (trace ++ [a])) =
      broadcasts marshal (since conn trace) := fun conn hconn => by
    rw [broadcasts_since ((h.known conn).mp hconn), hstarts, Option.toList_none, List.append_nil]
  refine ⟨fun conn => ?_, fun conn hconn => ?_, hclients.nodup h.nodup, hsame ▸ h.once, hqueued,
    fun conn hconn => ?_, fun conn hconn => ?_, fun conn hconn => ?_⟩
  · rw [hknown, mem_concat_of_ne a (hjoin conn)]
    exact h.known conn
  · exact hknown ▸ h.clients conn (hclients.subset hconn)
  · rw [hwritten, hsame]
    exact h.unknown conn (hknown ▸ hconn)
  · rw [hknown] at hconn
    rw [hwritten, hsame, hsince conn hconn]
    exact h.earlier conn hconn
  · have hclient := hclients.subset hconn
    rw [hwritten, hsame, hsince conn (h.clients conn hclient)]
    exact h.present conn hclient

omit [DecidableEq Conn] in
theorem fst_broadcast (update : Update) (met : List Conn) :
    (broadcast marshal update met).map Prod.fst = if (marshal update).isSome then met else [] := by
  unfold broadcast
  cases marshal update with
  | none => rfl
  | some payload =>
    rw [Option.toList_some, List.flatMap_singleton, List.map_map]
    exact List.map_id met

/-- A broadcast is due to the clients it meets, if it can be marshalled. -/
theorem due_broadcast {met : List Conn} (hnodup : met.Nodup) (conn : Conn) (update : Update) :
    due conn (broadcast marshal update met) =
      if conn ∈ met then (marshal update).toList else [] := by
  unfold broadcast
  cases marshal update with
  | none => rw [Option.toList_none, ite_self]; rfl
  | some payload => rw [Option.toList_some, List.flatMap_singleton, due_met hnodup]

theorem Accounts.take (h : Accounts marshal trace s) {update : Update} {rest : List Update}
    {met : List Conn} (hidle : s.writes = []) (hqueue : s.queue = update :: rest)
    (hmet : met.Perm s.clients) :
    Accounts marshal (trace ++ [.take update met])
      { s with queue := rest, writes := broadcast marshal update met } := by
  have hnodup : met.Nodup := hmet.nodup_iff.mpr h.nodup
  have hwritten : ∀ conn, written conn (trace ++ [.take update met]) = written conn trace :=
    fun conn => (written_concat conn trace _).trans (List.append_nil _)
  have hsince : ∀ conn ∈ s.known,
      broadcasts marshal (since conn (trace ++ [.take update met])) =
        broadcasts marshal (since conn trace) ++ (marshal update).toList := fun conn hconn =>
    broadcasts_since ((h.known conn).mp hconn) _
  have hdone : ∀ conn, due conn s.writes = [] := fun conn => by rw [hidle]; rfl
  have hearlier : ∀ conn ∈ s.known, written conn trace <+: broadcasts marshal (since conn trace) :=
    fun conn hconn => by
      have hprefix := h.earlier conn hconn
      rwa [hdone, List.append_nil] at hprefix
  have hpresent : ∀ conn ∈ s.clients, written conn trace = broadcasts marshal (since conn trace) :=
    fun conn hconn => by
      have hwhole := h.present conn hconn
      rwa [hdone, List.append_nil] at hwhole
  refine ⟨fun conn => ?_, h.clients, h.nodup, ?_, ?_, fun conn hconn => ?_, fun conn hconn => ?_,
    fun conn hconn => ?_⟩
  · exact (h.known conn).trans (mem_concat_of_ne (.take update met) nofun).symm
  · dsimp only
    rw [fst_broadcast]
    split
    · exact hnodup
    · exact List.nodup_nil
  · have hqueued := h.queued
    rw [hqueue] at hqueued
    unfold accepted takenOf at hqueued ⊢
    rw [Concurrency.filterMap_concat, Concurrency.filterMap_concat, hqueued]
    simp [HubAct.accepts, HubAct.takes]
  · have hstranger : conn ∉ met := fun hmem => hconn (h.clients conn (hmet.subset hmem))
    rw [hwritten]
    dsimp only
    rw [due_broadcast hnodup, if_neg hstranger]
    exact ⟨(h.unknown conn hconn).1, rfl⟩
  · rw [hwritten, hsince conn hconn]
    dsimp only
    rw [due_broadcast hnodup]
    split
    · rename_i hmem
      refine ⟨[], ?_⟩
      rw [List.append_nil, hpresent conn (hmet.subset hmem)]
    · rw [List.append_nil]
      exact (hearlier conn hconn).trans (List.prefix_append _ _)
  · rw [hwritten, hsince conn (h.clients conn hconn), hpresent conn hconn]
    dsimp only
    rw [due_broadcast hnodup, if_pos (hmet.mem_iff.mpr hconn)]

/-- What is due to each client once the first write is over. -/
theorem Accounts.due_rest (h : Accounts marshal trace s) {conn : Conn} {payload : Payload}
    {rest : List (Conn × Payload)} (hwrites : s.writes = (conn, payload) :: rest) :
    due conn s.writes = [payload] ∧ due conn rest = [] ∧
      (∀ c, c ≠ conn → due c s.writes = due c rest) ∧ (rest.map Prod.fst).Nodup := by
  have honce := h.once
  rw [hwrites, List.map_cons, List.nodup_cons] at honce
  have hrest : due conn rest = [] := due_of_notMem honce.1
  refine ⟨?_, hrest, fun c hc => ?_, honce.2⟩
  · rw [hwrites, due_cons, if_pos rfl, hrest, List.append_nil]
  · rw [hwrites, due_cons, if_neg (Ne.symm hc), List.nil_append]

theorem Accounts.write (h : Accounts marshal trace s) {conn : Conn} {payload : Payload}
    {rest : List (Conn × Payload)} (hwrites : s.writes = (conn, payload) :: rest) :
    Accounts marshal (trace ++ [.write conn payload]) { s with writes := rest } := by
  obtain ⟨hself, hrest, hothers, honce⟩ := h.due_rest hwrites
  have hmoved : ∀ c, written c (trace ++ [.write conn payload]) ++ due c rest =
      written c trace ++ due c s.writes := by
    intro c
    rw [written_concat, HubAct.writes]
    by_cases hc : c = conn
    · subst hc
      rw [if_pos rfl, hself, hrest, List.append_nil]
      rfl
    · rw [if_neg (Ne.symm hc), hothers c hc, Option.toList_none, List.append_nil]
  have hsince : ∀ c ∈ s.known, broadcasts marshal (since c (trace ++ [.write conn payload])) =
      broadcasts marshal (since c trace) := fun c hc =>
    (broadcasts_since ((h.known c).mp hc) _).trans (List.append_nil _)
  refine ⟨fun c => ?_, h.clients, h.nodup, honce, ?_, fun c hc => ?_, fun c hc => ?_,
    fun c hc => ?_⟩
  · exact (h.known c).trans (mem_concat_of_ne (.write conn payload) nofun).symm
  · have hqueued := h.queued
    unfold accepted takenOf at hqueued ⊢
    rw [Concurrency.filterMap_concat, Concurrency.filterMap_concat, hqueued]
    simp [HubAct.accepts, HubAct.takes]
  · have hnothing := hmoved c
    rw [(h.unknown c hc).1, (h.unknown c hc).2, List.append_nil] at hnothing
    exact List.append_eq_nil_iff.mp hnothing
  · rw [hsince c hc]
    dsimp only
    rw [hmoved]
    exact h.earlier c hc
  · rw [hsince c (h.clients c hc)]
    dsimp only
    rw [hmoved]
    exact h.present c hc

/-- A client that could not be written to is owed nothing any more. -/
theorem Accounts.fail (h : Accounts marshal trace s) {conn : Conn} {payload : Payload}
    {rest : List (Conn × Payload)} (hwrites : s.writes = (conn, payload) :: rest) :
    Accounts marshal (trace ++ [.fail conn payload])
      { s with
        writes := rest
        clients := s.clients.erase conn
        closed := conn :: s.closed } := by
  obtain ⟨-, hrest, hothers, honce⟩ := h.due_rest hwrites
  have hwritten : ∀ c, written c (trace ++ [.fail conn payload]) = written c trace := fun c =>
    (written_concat c trace _).trans (List.append_nil _)
  have hsince : ∀ c ∈ s.known, broadcasts marshal (since c (trace ++ [.fail conn payload])) =
      broadcasts marshal (since c trace) := fun c hc =>
    (broadcasts_since ((h.known c).mp hc) _).trans (List.append_nil _)
  refine ⟨fun c => ?_, fun c hc => h.clients c (List.mem_of_mem_erase hc), h.nodup.erase conn,
    honce, ?_, fun c hc => ?_, fun c hc => ?_, fun c hc => ?_⟩
  · exact (h.known c).trans (mem_concat_of_ne (.fail conn payload) nofun).symm
  · have hqueued := h.queued
    unfold accepted takenOf at hqueued ⊢
    rw [Concurrency.filterMap_concat, Concurrency.filterMap_concat, hqueued]
    simp [HubAct.accepts, HubAct.takes]
  · obtain ⟨hnothing, hdue⟩ := h.unknown c hc
    rw [hwrites, due_cons] at hdue
    exact ⟨(hwritten c).trans hnothing, (List.append_eq_nil_iff.mp hdue).2⟩
  · have hearlier := h.earlier c hc
    rw [hwritten, hsince c hc]
    dsimp only
    by_cases hself : c = conn
    · subst hself
      rw [hrest, List.append_nil]
      exact (List.prefix_append _ _).trans hearlier
    · rwa [← hothers c hself]
  · obtain ⟨hself, hclient⟩ := h.nodup.mem_erase_iff.mp hc
    rw [hwritten, hsince c (h.clients c hclient)]
    dsimp only
    rw [← hothers c hself]
    exact h.present c hclient

/-- A client that comes is owed what is broadcast from now on. -/
theorem Accounts.join (h : Accounts marshal trace s) {conn : Conn} (hnew : conn ∉ s.known) :
    Accounts marshal (trace ++ [.join conn])
      { s with clients := conn :: s.clients, known := conn :: s.known } := by
  have hfresh : .join conn ∉ trace := fun hjoin => hnew ((h.known conn).mpr hjoin)
  obtain ⟨hnothing, hdue⟩ := h.unknown conn hnew
  have hwritten : ∀ c, written c (trace ++ [.join conn]) = written c trace := fun c =>
    (written_concat c trace _).trans (List.append_nil _)
  have hsince : ∀ c ∈ s.known, broadcasts marshal (since c (trace ++ [.join conn])) =
      broadcasts marshal (since c trace) := fun c hc =>
    (broadcasts_since ((h.known c).mp hc) _).trans (List.append_nil _)
  have hnow : written conn (trace ++ [.join conn]) ++ due conn s.writes =
      broadcasts marshal (since conn (trace ++ [.join conn])) := by
    rw [hwritten, hnothing, hdue, since_join hfresh]
    rfl
  refine ⟨fun c => ?_, fun c hc => ?_, ?_, h.once, ?_, fun c hc => ?_, fun c hc => ?_,
    fun c hc => ?_⟩
  · rw [List.mem_cons, List.mem_append, List.mem_singleton, h.known c, HubAct.join.injEq, or_comm]
  · exact List.mem_cons.mpr ((List.mem_cons.mp hc).imp_right (h.clients c))
  · exact List.nodup_cons.mpr ⟨fun hclient => hnew (h.clients conn hclient), h.nodup⟩
  · have hqueued := h.queued
    unfold accepted takenOf at hqueued ⊢
    rw [Concurrency.filterMap_concat, Concurrency.filterMap_concat, hqueued]
    simp [HubAct.accepts, HubAct.takes]
  · rw [hwritten]
    exact h.unknown c fun hmem => hc (List.mem_cons_of_mem _ hmem)
  · rcases List.mem_cons.mp hc with rfl | hknown
    · exact hnow ▸ List.prefix_refl _
    · rw [hwritten, hsince c hknown]
      exact h.earlier c hknown
  · rcases List.mem_cons.mp hc with rfl | hclient
    · exact hnow
    · rw [hwritten, hsince c (h.clients c hclient)]
      exact h.present c hclient

theorem Accounts.step (h : Accounts marshal trace s) {a : HubAct Conn Update Payload}
    (hstep : Step capacity marshal s a s') : Accounts marshal (trace ++ [a]) s' := by
  have hsame : accepted trace = takenOf trace ++ s.queue := h.queued
  cases hstep with
  | offer update hroom =>
    refine h.quiet rfl (fun _ => rfl) (fun _ => nofun) rfl rfl (List.Sublist.refl _) ?_
    unfold accepted takenOf at hsame ⊢
    rw [Concurrency.filterMap_concat, Concurrency.filterMap_concat, hsame]
    simp [HubAct.accepts, HubAct.takes]
  | refuse update hfull =>
    refine h.quiet rfl (fun _ => rfl) (fun _ => nofun) rfl rfl (List.Sublist.refl _) ?_
    unfold accepted takenOf at hsame ⊢
    rw [Concurrency.filterMap_concat, Concurrency.filterMap_concat, hsame]
    simp [HubAct.accepts, HubAct.takes]
  | take hrunning hidle hqueue hmet => exact h.take hidle hqueue hmet
  | write hwrites hopen => exact h.write hwrites
  | fail hwrites => exact h.fail hwrites
  | join hnew => exact h.join hnew
  | leave hknown =>
    refine h.quiet rfl (fun _ => rfl) (fun _ => nofun) rfl rfl List.erase_sublist ?_
    unfold accepted takenOf at hsame ⊢
    rw [Concurrency.filterMap_concat, Concurrency.filterMap_concat, hsame]
    simp [HubAct.accepts, HubAct.takes]
  | stop hidle =>
    refine h.quiet rfl (fun _ => rfl) (fun _ => nofun) rfl rfl (List.nil_sublist _) ?_
    unfold accepted takenOf at hsame ⊢
    rw [Concurrency.filterMap_concat, Concurrency.filterMap_concat, hsame]
    simp [HubAct.accepts, HubAct.takes]

theorem Run.accounts (h : Run capacity marshal trace s) : Accounts marshal trace s := by
  induction h with
  | init => exact accounts_initial marshal
  | step _ hstep ih => exact ih.step hstep

/-! ## What a client is written -/

theorem since_suffix (conn : Conn) (trace : List (HubAct Conn Update Payload)) :
    since conn trace <:+ trace := by
  induction trace with
  | nil => exact List.suffix_refl _
  | cons first rest ih =>
    have hrest : since conn rest <:+ first :: rest := ih.trans (List.suffix_cons first rest)
    cases first with
    | join c =>
      rw [since]
      split
      · exact List.suffix_cons _ rest
      · exact hrest
    | _ => exact hrest

omit [DecidableEq Conn] in
/-- What is broadcast is what is taken, but for what cannot be marshalled. -/
theorem broadcasts_eq (marshal : Update → Option Payload)
    (trace : List (HubAct Conn Update Payload)) :
    broadcasts marshal trace = (takenOf trace).filterMap marshal := by
  unfold broadcasts takenOf
  rw [List.filterMap_filterMap]
  refine congrArg (trace.filterMap ·) (funext fun a => ?_)
  cases a <;> rfl

theorem Accounts.ordered (h : Accounts marshal trace s) (conn : Conn) :
    written conn trace <+: broadcasts marshal (since conn trace) := by
  by_cases hknown : conn ∈ s.known
  · exact (List.prefix_append _ _).trans (h.earlier conn hknown)
  · rw [(h.unknown conn hknown).1]
    exact List.nil_prefix

theorem Accounts.broadcasts_prefix (h : Accounts marshal trace s) :
    broadcasts marshal trace <+: (accepted trace).filterMap marshal := by
  rw [broadcasts_eq, h.queued]
  exact (List.prefix_append _ _).filterMap marshal

/-- How many broadcasts had begun when the client came. -/
def missed (marshal : Update → Option Payload) (conn : Conn)
    (trace : List (HubAct Conn Update Payload)) : Nat :=
  (broadcasts marshal trace).length - (broadcasts marshal (since conn trace)).length

theorem missed_concat {conn : Conn} (h : .join conn ∈ trace) (a : HubAct Conn Update Payload) :
    missed marshal conn (trace ++ [a]) = missed marshal conn trace := by
  unfold missed broadcasts
  rw [since_concat h, List.filterMap_append, List.filterMap_append, List.length_append,
    List.length_append, Nat.add_sub_add_right]

theorem missed_join {conn : Conn} (h : .join conn ∉ trace) :
    missed marshal conn (trace ++ [.join conn]) = (broadcasts marshal trace).length := by
  unfold missed
  rw [since_join h]
  show (broadcasts marshal (trace ++ [.join conn])).length - 0 = _
  unfold broadcasts
  rw [Nat.sub_zero, Concurrency.filterMap_concat]
  exact congrArg List.length (List.append_nil _)

/-- What a client is written are the broadcasts after those it missed. -/
theorem Accounts.written_getElem? (h : Accounts marshal trace s) {conn : Conn} {n : Nat}
    {payload : Payload} (hwritten : (written conn trace)[n]? = some payload) :
    (broadcasts marshal trace)[missed marshal conn trace + n]? = some payload := by
  obtain ⟨hn, -⟩ := List.getElem?_eq_some_iff.mp hwritten
  obtain ⟨after, hafter⟩ := h.ordered conn
  obtain ⟨before, hbefore⟩ : broadcasts marshal (since conn trace) <:+ broadcasts marshal trace :=
    (since_suffix conn trace).filterMap _
  have hmissed : missed marshal conn trace = before.length := by
    unfold missed
    rw [← hbefore, List.length_append, Nat.add_sub_cancel_right]
  rw [hmissed, ← hbefore, List.getElem?_append_right (Nat.le_add_right _ _),
    Nat.add_sub_cancel_left, ← hafter, List.getElem?_append_left hn]
  exact hwritten

/-- Once all is sent, a client that missed nothing was written all that was accepted. -/
theorem Accounts.written_all (h : Accounts marshal trace s) {conn : Conn}
    (hconn : conn ∈ s.clients) (hmissed : missed marshal conn trace = 0) (hqueue : s.queue = [])
    (hwrites : s.writes = []) : written conn trace = (accepted trace).filterMap marshal := by
  have hsince : broadcasts marshal (since conn trace) = broadcasts marshal trace :=
    List.IsSuffix.eq_of_length_le ((since_suffix conn trace).filterMap _)
      (Nat.le_of_sub_eq_zero hmissed)
  have hwritten := h.present conn hconn
  rw [hwrites, hsince, broadcasts_eq] at hwritten
  rw [h.queued, hqueue, List.append_nil, ← hwritten]
  exact (List.append_nil _).symm

/-- The clients of a run, and what they were written. -/
structure Delivers (marshal : Update → Option Payload) (trace : List (HubAct Conn Update Payload))
    (s : Hub Conn Update Payload) : Prop where
  ordered : ∀ conn, written conn trace <+: broadcasts marshal (since conn trace)
  unbroken : ∀ conn, written conn trace <:+: (accepted trace).filterMap marshal
  complete : ∀ conn ∈ s.clients, s.writes = [] →
    written conn trace = broadcasts marshal (since conn trace)

/-- However clients come and go, what each is written is an unbroken stretch of the updates
the channel had room for: from the first taken after it came, and all of them while it stays. -/
theorem delivers (h : Run capacity marshal trace s) : Delivers marshal trace s := by
  have haccounts := h.accounts
  have hordered := haccounts.ordered
  refine ⟨hordered, fun conn => ?_, fun conn hconn hidle => ?_⟩
  · have hsince : broadcasts marshal (since conn trace) <:+ broadcasts marshal trace :=
      (since_suffix conn trace).filterMap _
    exact (hordered conn).isInfix.trans
      (hsince.isInfix.trans haccounts.broadcasts_prefix.isInfix)
  · have hwhole := haccounts.present conn hconn
    rw [hidle] at hwhole
    exact (List.append_nil _).symm.trans hwhole

/-- A client comes between two updates, and is written the second. -/
def latecomer : List (HubAct Nat Nat Nat) :=
  [.join 0, .offer 10, .take 10 [0], .write 0 10, .join 1, .offer 11, .take 11 [0, 1],
    .write 0 11, .write 1 11]

theorem run_latecomer : Run 256 some latecomer { clients := [1, 0], known := [1, 0] } :=
  Run.init
    |>.step (.join (by decide))
    |>.step (.offer 10 (by decide))
    |>.step (.take rfl rfl rfl (.refl _))
    |>.step (.write rfl (by decide))
    |>.step (.join (by decide))
    |>.step (.offer 11 (by decide))
    |>.step (.take rfl rfl rfl (.swap _ _ _))
    |>.step (.write rfl (by decide))
    |>.step (.write rfl (by decide))

theorem delivers_latecomer : Delivers some latecomer { clients := [1, 0], known := [1, 0] } :=
  delivers run_latecomer

end Hub

end RealTimeTrading.ControlPlane
