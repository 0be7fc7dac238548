/-
RealTimeTrading.Rtts.Routing — which controller an execution update is for.

`orderLookup` only grows: an order enters its key, and an update that
found its controller enters its order id and its client key. Where every
order id belongs to one client key and is no other order's key, `Sound`
holds of all entries: each leads to the key it is, or to the key of the
order whose id it is. So an update reaches the controller of its client
key or none.
-/
import RealTimeTrading.Rtts.ControllerRuns
import RealTimeTrading.Rtts.ForcedExit
import RealTimeTrading.Rtts.Naming

namespace RealTimeTrading.Rtts

open Concurrency

namespace Controllers

/-! ## Order ids and client keys -/

/-- The client key an input gives to an order id. -/
def ControllerInput.keyFor (orderId : String) : ControllerInput → Option String
  | .execution update => if update.orderId = orderId then update.idempotencyKey else none
  | .order _ | .market _ => none

/-- The client key of an order id; without any, the order id itself. -/
def clientKey (inputs : List ControllerInput) (orderId : String) : String :=
  (inputs.findSome? (ControllerInput.keyFor orderId)).getD orderId

/-- The key is that of an intent, or an update has it as its client key. -/
def NamesKey (key : String) : ControllerInput → Prop
  | .order intent => idempotencyKey intent = key
  | .execution update => update.idempotencyKey = some key
  | .market _ => False

/-- Every order id is paired with one client key, and is no other order's key. -/
structure Paired (inputs : List ControllerInput) : Prop where
  paired : ∀ u u', .execution u ∈ inputs → .execution u' ∈ inputs → u.orderId = u'.orderId →
    ∀ key key', u.idempotencyKey = some key → u'.idempotencyKey = some key' → key = key'
  apart : ∀ u, .execution u ∈ inputs → ∀ input ∈ inputs, NamesKey u.orderId input →
    ∀ u', .execution u' ∈ inputs → u'.orderId = u.orderId →
      ∀ key, u'.idempotencyKey = some key → key = u.orderId

/-- `owner` gives every order id its client key. -/
structure Owned (owner : String → String) (inputs : List ControllerInput) : Prop where
  client : ∀ u, .execution u ∈ inputs → ∀ key, u.idempotencyKey = some key → owner u.orderId = key
  apart : ∀ u, .execution u ∈ inputs → ∀ input ∈ inputs, NamesKey u.orderId input →
    owner u.orderId = u.orderId

theorem mem_of_findSome?_keyFor {inputs : List ControllerInput} {orderId key : String}
    (h : inputs.findSome? (ControllerInput.keyFor orderId) = some key) :
    ∃ u, .execution u ∈ inputs ∧ u.orderId = orderId ∧ u.idempotencyKey = some key := by
  obtain ⟨input, hmem, hkey⟩ := List.exists_of_findSome?_eq_some h
  cases input with
  | execution u =>
    simp only [ControllerInput.keyFor] at hkey
    split at hkey
    · exact ⟨u, hmem, ‹_›, hkey⟩
    · cases hkey
  | order intent => cases hkey
  | market update => cases hkey

theorem Paired.owned {inputs : List ControllerInput} (h : Paired inputs) :
    Owned (clientKey inputs) inputs where
  client u hu key hkey := by
    unfold clientKey
    cases hfound : inputs.findSome? (ControllerInput.keyFor u.orderId) with
    | none =>
      have hnone := List.findSome?_eq_none_iff.mp hfound _ hu
      simp [ControllerInput.keyFor, hkey] at hnone
    | some key' =>
      obtain ⟨u', hu', hid, hkey'⟩ := mem_of_findSome?_keyFor hfound
      exact h.paired u' u hu' hu hid key' key hkey' hkey
  apart u hu input hinput hnames := by
    unfold clientKey
    cases hfound : inputs.findSome? (ControllerInput.keyFor u.orderId) with
    | none => rfl
    | some key =>
      obtain ⟨u', hu', hid, hkey⟩ := mem_of_findSome?_keyFor hfound
      exact h.apart u hu input hinput hnames u' hu' hid key hkey

/-! ## The lookup map -/

@[simp] theorem orderLookup_onMarket (cfg : Config) (update : MarketUpdate) (s : Controllers) :
    (onMarket cfg update s).2.orderLookup = s.orderLookup := by
  unfold onMarket
  dsimp only
  generalize ((s.controllers.entries.filter fun e =>
    decide (e.2.symbol = cfg.symbol) && !e.2.status.isTerminal).map (·.1)) = keys
  have hfold : ∀ x : Sent × Controllers,
      (keys.foldl (fun x key => onMarketKey update key x) x).2.orderLookup = x.2.orderLookup := by
    induction keys with
    | nil => exact fun _ => rfl
    | cons key rest ih =>
      intro x
      rw [List.foldl_cons, ih]
      unfold onMarketKey
      split <;> rfl
  exact hfold ({}, s)

theorem orderLookup_onExecution {s : Controllers} {update : ExecutionControllerEvent}
    {key : String} {c : ExecutionController} (h : s.addressee update = some (key, c)) :
    (onExecution update s).2.orderLookup = learn update key s.orderLookup := by
  obtain ⟨key', hkey, hc⟩ := Option.bind_eq_some_iff.mp h
  obtain ⟨c', hlookup, hpair⟩ := Option.map_eq_some_iff.mp hc
  obtain ⟨rfl, rfl⟩ := Prod.mk.inj hpair
  simp only [onExecution, hkey, hlookup]
  split <;> rfl

theorem lookup_learn {update : ExecutionControllerEvent} {key : String}
    {orderLookup : HashMap String String}
    (hclient : ∀ clientKey, update.idempotencyKey = some clientKey → clientKey = key)
    (x : String) :
    (learn update key orderLookup).lookup x =
      if x = update.orderId ∨ update.idempotencyKey = some x then some key
      else orderLookup.lookup x := by
  unfold learn
  dsimp only
  cases hkey : update.idempotencyKey with
  | none =>
    dsimp only
    by_cases hx : x = update.orderId
    · rw [hx, AList.lookup_insert, if_pos (Or.inl rfl)]
    · rw [AList.lookup_insert_ne hx, if_neg (by simpa using hx)]
  | some clientKey =>
    obtain rfl := hclient clientKey hkey
    dsimp only
    by_cases hx : x = clientKey
    · rw [hx, AList.lookup_insert, if_pos (Or.inr rfl)]
    · rw [AList.lookup_insert_ne hx]
      by_cases hid : x = update.orderId
      · rw [hid, AList.lookup_insert, if_pos (Or.inl rfl)]
      · rw [AList.lookup_insert_ne hid, if_neg]
        rintro (hid' | hsome)
        · exact hid hid'
        · exact hx (Option.some.inj hsome).symm

/-! ## Sound entries -/

/-- What the maps hold after `done`, the order ids of `inputs` being owned so. -/
structure Sound (owner : String → String) (inputs done : List ControllerInput)
    (s : Controllers) : Prop where
  entry : ∀ x key, s.orderLookup.lookup x = some key →
    (∃ intent ∈ ordersOf done, idempotencyKey intent = key) ∧
      (x = key ∨ (∃ u, .execution u ∈ inputs ∧ u.orderId = x) ∧ owner x = key)
  filed : ∀ key c, s.controllers.lookup key = some c → s.orderLookup.lookup key = some key

section Sound

variable {owner : String → String} {inputs done : List ControllerInput} {s : Controllers}
  {cfg : Config} {update : ExecutionControllerEvent}

theorem sound_start (owner : String → String) (inputs : List ControllerInput) :
    Sound owner inputs [] {} where
  entry x key h := by cases h
  filed key c h := by cases h

/-- An intent's key owns itself. -/
theorem Owned.order (hown : Owned owner inputs) (hdone : done <+: inputs)
    (hupdate : .execution update ∈ inputs)
    (h : ∃ intent ∈ ordersOf done, idempotencyKey intent = update.orderId) :
    owner update.orderId = update.orderId := by
  obtain ⟨intent, hmem, hkey⟩ := h
  exact hown.apart update hupdate _ (hdone.subset (mem_ordersOf.mp hmem)) hkey

/-- An update leads to the key that owns its order id, or to none. -/
theorem Sound.resolve (hs : Sound owner inputs done s) (hown : Owned owner inputs)
    (hdone : done <+: inputs) (hupdate : .execution update ∈ inputs) {key : String}
    (h : resolveControllerKey update s.orderLookup = some key) : key = owner update.orderId := by
  unfold resolveControllerKey at h
  cases hid : s.orderLookup.lookup update.orderId with
  | some key' =>
    rw [hid, Option.some_or] at h
    obtain rfl := Option.some.inj h
    obtain ⟨horder, hself | ⟨-, howner⟩⟩ := hs.entry _ _ hid
    · rw [← hself] at horder ⊢
      exact (hown.order hdone hupdate horder).symm
    · exact howner.symm
  | none =>
    rw [hid, Option.none_or] at h
    obtain ⟨clientKey, hclient, hkey⟩ := Option.bind_eq_some_iff.mp h
    have howner := hown.client update hupdate clientKey hclient
    obtain ⟨-, hself | ⟨⟨u, hu, hux⟩, hother⟩⟩ := hs.entry _ _ hkey
    · rw [howner, hself]
    · have hapart := hown.apart u hu _ hupdate (by rw [hux]; exact hclient)
      rw [howner, ← hother, ← hux, hapart]

theorem Sound.addressee (hs : Sound owner inputs done s) (hown : Owned owner inputs)
    (hdone : done <+: inputs) (hupdate : .execution update ∈ inputs) {key : String}
    {c : ExecutionController} (h : s.addressee update = some (key, c)) :
    key = owner update.orderId ∧ s.controllers.lookup key = some c := by
  obtain ⟨key', hkey, hc⟩ := Option.bind_eq_some_iff.mp h
  obtain ⟨c', hlookup, hpair⟩ := Option.map_eq_some_iff.mp hc
  obtain ⟨rfl, rfl⟩ := Prod.mk.inj hpair
  exact ⟨hs.resolve hown hdone hupdate hkey, hlookup⟩

/-- The controller is found if the update names it, or its order id is known. -/
theorem Sound.addressee_known (hs : Sound owner inputs done s) (hown : Owned owner inputs)
    (hdone : done <+: inputs) (hupdate : .execution update ∈ inputs) {c : ExecutionController}
    (hc : s.controllers.lookup (owner update.orderId) = some c)
    (hknown : update.idempotencyKey.isSome = true ∨
      s.orderLookup.lookup update.orderId = some (owner update.orderId)) :
    s.addressee update = some (owner update.orderId, c) := by
  have hlookup := hs.filed _ c hc
  have hfound : (resolveControllerKey update s.orderLookup).isSome = true := by
    unfold resolveControllerKey
    rcases hknown with hclient | hid
    · obtain ⟨key, hkey⟩ := Option.isSome_iff_exists.mp hclient
      rw [hkey, Option.bind_some, ← hown.client update hupdate key hkey, hlookup]
      cases s.orderLookup.lookup update.orderId <;> rfl
    · rw [hid]
      rfl
  obtain ⟨key, hkey⟩ := Option.isSome_iff_exists.mp hfound
  obtain rfl := hs.resolve hown hdone hupdate hkey
  unfold Controllers.addressee
  rw [hkey, Option.bind_some, hc]
  rfl

theorem Sound.addressee_none (hs : Sound owner inputs done s) (hown : Owned owner inputs)
    (hdone : done <+: inputs) (hupdate : .execution update ∈ inputs)
    (hnone : s.controllers.lookup (owner update.orderId) = none) : s.addressee update = none := by
  cases hfound : s.addressee update with
  | none => rfl
  | some found =>
    obtain ⟨key, c⟩ := found
    obtain ⟨rfl, hc⟩ := hs.addressee hown hdone hupdate hfound
    rw [hnone] at hc
    cases hc

/-- What an update that found its controller leaves in the lookup map. -/
theorem Sound.lookup_learn (hs : Sound owner inputs done s) (hown : Owned owner inputs)
    (hdone : done <+: inputs) (hupdate : .execution update ∈ inputs) {key : String}
    {c : ExecutionController} (h : s.addressee update = some (key, c)) (x : String) :
    (onExecution update s).2.orderLookup.lookup x =
      if x = update.orderId ∨ update.idempotencyKey = some x then some key
      else s.orderLookup.lookup x := by
  rw [orderLookup_onExecution h]
  refine Controllers.lookup_learn (fun clientKey hclient => ?_) x
  rw [(hs.addressee hown hdone hupdate h).1]
  exact (hown.client update hupdate clientKey hclient).symm

theorem Sound.order (hs : Sound owner inputs done s) (intent : OrderIntent) :
    Sound owner inputs (done ++ [.order intent]) (onOrder cfg intent s).2 where
  entry x key h := by
    rw [ordersOf_append]
    by_cases hx : x = idempotencyKey intent
    · have hkey : some (idempotencyKey intent) = some key := by
        rw [← h, hx]
        exact (AList.lookup_insert s.orderLookup).symm
      obtain rfl := Option.some.inj hkey
      exact ⟨⟨intent, List.mem_append_right _ (List.mem_singleton_self _), rfl⟩, Or.inl hx⟩
    · obtain ⟨⟨earlier, hmem, hkey⟩, hx'⟩ :=
        hs.entry x key ((AList.lookup_insert_ne hx).symm.trans h)
      exact ⟨⟨earlier, List.mem_append_left _ hmem, hkey⟩, hx'⟩
  filed key c h := by
    change (s.orderLookup.insert (idempotencyKey intent) (idempotencyKey intent)).lookup key = _
    by_cases hkey : key = idempotencyKey intent
    · rw [hkey, AList.lookup_insert]
    · rw [AList.lookup_insert_ne hkey]
      exact hs.filed key c ((AList.lookup_insert_ne hkey).symm.trans h)

theorem Sound.execution (hs : Sound owner inputs done s) (hown : Owned owner inputs)
    (hdone : done ++ [.execution update] <+: inputs) :
    Sound owner inputs (done ++ [.execution update]) (onExecution update s).2 := by
  have hbefore : done <+: inputs := (List.prefix_append _ _).trans hdone
  have hupdate : .execution update ∈ inputs :=
    hdone.subset (List.mem_append_right _ (List.mem_singleton_self _))
  have horders : ordersOf (done ++ [.execution update]) = ordersOf done := by
    rw [ordersOf_append]
    exact List.append_nil _
  cases hfound : s.addressee update with
  | none =>
    rw [onExecution_of_none hfound]
    exact ⟨by rw [horders]; exact hs.entry, hs.filed⟩
  | some found =>
    obtain ⟨key, c⟩ := found
    obtain ⟨hkey, hc⟩ := hs.addressee hown hbefore hupdate hfound
    have hlearn := hs.lookup_learn hown hbefore hupdate hfound
    refine ⟨fun x key' hx => ?_, fun key' c' hc' => ?_⟩
    · rw [horders]
      rw [hlearn] at hx
      split at hx
      · rename_i hnew
        obtain rfl := Option.some.inj hx
        refine ⟨(hs.entry _ _ (hs.filed key c hc)).1, ?_⟩
        rcases hnew with rfl | hclient
        · exact Or.inr ⟨⟨update, hupdate, rfl⟩, hkey.symm⟩
        · rw [hkey]
          exact Or.inl (hown.client update hupdate x hclient).symm
      · exact hs.entry x key' hx
    · have hold : s.orderLookup.lookup key' = some key' := by
        have hstep : (step {} s (.execution update)).2.controllers.lookup key' = some c' := hc'
        rcases step_lookup hstep with
          hold | ⟨intent, hin, -⟩ | ⟨u, c, -, hold, -⟩ | ⟨u, c, hin, -⟩
        · exact hs.filed key' c' hold
        · cases hin
        · exact hs.filed key' c hold
        · cases hin
      rw [hlearn, hold]
      split
      · rename_i hnew
        rw [hkey]
        rcases hnew with rfl | hclient
        · exact congrArg some (hown.order hbefore hupdate (hs.entry _ _ hold).1)
        · exact congrArg some (hown.client update hupdate key' hclient)
      · rfl

theorem Sound.market (hs : Sound owner inputs done s) (update : MarketUpdate) :
    Sound owner inputs (done ++ [.market update]) (onMarket cfg update s).2 := by
  have horders : ordersOf (done ++ [.market update]) = ordersOf done := by
    rw [ordersOf_append]
    exact List.append_nil _
  refine ⟨fun x key h => ?_, fun key c hc => ?_⟩
  · rw [orderLookup_onMarket] at h
    rw [horders]
    exact hs.entry x key h
  · rw [orderLookup_onMarket]
    have hstep : (step cfg s (.market update)).2.controllers.lookup key = some c := hc
    rcases step_lookup hstep with
      hold | ⟨intent, hin, -⟩ | ⟨u, c, hin, -⟩ | ⟨u, c, -, hold, -⟩
    · exact hs.filed key _ hold
    · cases hin
    · cases hin
    · exact hs.filed key c hold

theorem sound_run (cfg : Config) (hown : Owned owner inputs) (hdone : done <+: inputs) :
    Sound owner inputs done (run cfg done).2 := by
  induction done using List.reverseRecOn with
  | nil => exact sound_start owner inputs
  | append_singleton done input ih =>
    have hbefore := ih ((List.prefix_append _ _).trans hdone)
    rw [run_concat]
    cases input with
    | order intent => exact hbefore.order intent
    | execution update => exact hbefore.execution hown hdone
    | market update => exact hbefore.market update

/-- An order id that leads to its owner goes on doing so. -/
theorem Sound.keeps (hs : Sound owner inputs done s) (hown : Owned owner inputs)
    {input : ControllerInput} (hdone : done ++ [input] <+: inputs)
    {u : ExecutionControllerEvent} (hu : .execution u ∈ inputs)
    (h : s.orderLookup.lookup u.orderId = some (owner u.orderId)) :
    (step cfg s input).2.orderLookup.lookup u.orderId = some (owner u.orderId) := by
  have hinput : input ∈ inputs :=
    hdone.subset (List.mem_append_right _ (List.mem_singleton_self _))
  have hbefore : done <+: inputs := (List.prefix_append _ _).trans hdone
  cases input with
  | order intent =>
    change (s.orderLookup.insert (idempotencyKey intent) (idempotencyKey intent)).lookup _ = _
    by_cases hkey : u.orderId = idempotencyKey intent
    · rw [hown.apart u hu _ hinput hkey.symm, hkey, AList.lookup_insert]
    · rw [AList.lookup_insert_ne hkey, h]
  | execution update =>
    simp only [step]
    cases hfound : s.addressee update with
    | none => rw [onExecution_of_none hfound, h]
    | some found =>
      obtain ⟨key, c⟩ := found
      obtain ⟨hkey, -⟩ := hs.addressee hown hbefore hinput hfound
      rw [hs.lookup_learn hown hbefore hinput hfound, h]
      split
      · rename_i hnew
        rcases hnew with hid | hclient
        · rw [hkey, hid]
        · rw [hkey, hown.client update hinput _ hclient, hown.apart u hu _ hinput hclient]
      · rfl
  | market update =>
    simp only [step]
    rw [orderLookup_onMarket, h]

/-- An earlier update of this order id found its controller. -/
def Heard (cfg : Config) (inputs : List ControllerInput) (orderId : String) : Prop :=
  ∃ before u, before ++ [.execution u] <+: inputs ∧ u.orderId = orderId ∧
    ((run cfg before).2.addressee u).isSome = true

theorem lookup_of_heard (hown : Owned owner inputs) (hdone : done <+: inputs) {orderId : String}
    (h : Heard cfg done orderId) :
    (run cfg done).2.orderLookup.lookup orderId = some (owner orderId) := by
  obtain ⟨before, u, hheard, rfl, hfound⟩ := h
  have hu : .execution u ∈ inputs :=
    hdone.subset (hheard.subset (List.mem_append_right _ (List.mem_singleton_self _)))
  induction done using List.reverseRecOn with
  | nil => simp at hheard
  | append_singleton done input ih =>
    have hbefore : done <+: inputs := (List.prefix_append _ _).trans hdone
    have hsound := sound_run cfg hown hbefore
    rw [run_concat]
    rcases List.prefix_concat_iff.mp hheard with heq | hearlier
    · obtain ⟨rfl, hinput⟩ := List.append_inj' heq rfl
      obtain rfl := List.singleton_inj.mp hinput
      obtain ⟨⟨key, c⟩, haddressee⟩ := Option.isSome_iff_exists.mp hfound
      simp only [step]
      rw [hsound.lookup_learn hown hbefore hu haddressee, if_pos (Or.inl rfl),
        (hsound.addressee hown hbefore hu haddressee).1]
    · exact hsound.keeps hown hdone hu (ih hbefore hearlier)

end Sound

/-! ## Updates -/

/-- How an update is routed after these inputs, `key` being its client key. -/
structure Routed (cfg : Config) (inputs : List ControllerInput) (update : ExecutionControllerEvent)
    (key : String) : Prop where
  client : ∀ clientKey, update.idempotencyKey = some clientKey → clientKey = key
  /-- It is applied to the controller under its key, or to none. -/
  only : ∀ k c, (run cfg inputs).2.addressee update = some (k, c) → k = key
  created : ∀ c, (run cfg inputs).2.controllers.lookup key = some c → c.idempotencyKey = key ∧
    ∃! intent, intent ∈ ordersOf inputs ∧ idempotencyKey intent = key
  /-- It reaches that controller if it names the key, or its order id is known. -/
  reached : ∀ c, (run cfg inputs).2.controllers.lookup key = some c →
    update.idempotencyKey.isSome = true ∨ Heard cfg inputs update.orderId →
    (run cfg inputs).2.addressee update = some (key, c)
  /-- There it is taken in: a controller that is done is removed, any other decides and stays. -/
  applied : ∀ c, (run cfg inputs).2.addressee update = some (key, c) →
    (step cfg (run cfg inputs).2 (.execution update)).2.controllers.lookup key =
      if (c.onExecutionEvent update).status.isTerminal then none
      else some ((c.onExecutionEvent update).evaluateAndConvert update.eventTs).2
  others : ∀ other, other ≠ key →
    (step cfg (run cfg inputs).2 (.execution update)).2.controllers.lookup other =
      (run cfg inputs).2.controllers.lookup other
  /-- Without a controller under its key it changes nothing. -/
  absent : (run cfg inputs).2.controllers.lookup key = none →
    step cfg (run cfg inputs).2 (.execution update) = ({}, (run cfg inputs).2)

theorem filed_run (cfg : Config) (inputs : List ControllerInput) :
    (run cfg inputs).2.AllNamed fun _ => True := by
  induction inputs using List.reverseRecOn with
  | nil => exact fun key c h => by cases h
  | append_singleton inputs input ih =>
    rw [run_concat]
    exact ih.step fun _ _ => trivial

/-- Each update goes to the controller of its client key, whether it names the
key or not; the other controllers are as they were. -/
theorem updates_routed (cfg : Config) {inputs : List ControllerInput}
    {update : ExecutionControllerEvent}
    (hkeys : (ordersOf inputs).Pairwise fun a b => idempotencyKey a ≠ idempotencyKey b)
    (hpaired : Paired (inputs ++ [.execution update])) :
    Routed cfg inputs update (clientKey (inputs ++ [.execution update]) update.orderId) := by
  have hown := hpaired.owned
  have hdone : inputs <+: inputs ++ [.execution update] := List.prefix_append _ _
  have hupdate : .execution update ∈ inputs ++ [.execution update] :=
    List.mem_append_right _ (List.mem_singleton_self _)
  have hsound := sound_run cfg hown hdone
  have honly : ∀ k c, (run cfg inputs).2.addressee update = some (k, c) →
      k = clientKey (inputs ++ [.execution update]) update.orderId :=
    fun k c h => (hsound.addressee hown hdone hupdate h).1
  refine ⟨fun key hkey => (hown.client update hupdate key hkey).symm, honly, ?_, ?_, ?_, ?_, ?_⟩
  · intro c hc
    obtain ⟨intent, hmem, hkey⟩ := orderOf_lookup cfg hc
    refine ⟨(filed_run cfg inputs _ c hc).filed, intent, ⟨hmem, hkey.symm⟩, ?_⟩
    rintro other ⟨hother, hsame⟩
    by_contra hne
    have : Std.Symm fun a b : OrderIntent => idempotencyKey a ≠ idempotencyKey b :=
      ⟨fun _ _ => Ne.symm⟩
    exact hkeys.forall hother hmem hne (hsame.trans hkey)
  · intro c hc hknown
    exact hsound.addressee_known hown hdone hupdate hc
      (hknown.imp_right (lookup_of_heard hown hdone))
  · intro c hc
    simp only [step]
    rw [(onExecution_of_some hc).2.2]
    split
    · exact AList.lookup_erase _ _
    · exact AList.lookup_insert _
  · intro other hother
    simp only [step]
    cases hfound : (run cfg inputs).2.addressee update with
    | none => rw [onExecution_of_none hfound]
    | some found =>
      obtain ⟨key, c⟩ := found
      have hne : other ≠ key := by
        rw [honly key c hfound]
        exact hother
      rw [(onExecution_of_some hfound).2.2]
      split
      · exact AList.lookup_erase_ne hne
      · exact AList.lookup_insert_ne hne
  · exact fun hnone => onExecution_of_none (hsound.addressee_none hown hdone hupdate hnone)

end Controllers

namespace Desk

open Controllers

def buyIntent : OrderIntent := intent {} .buy 1 false calmSignal {}

def sellIntent : OrderIntent := intent {} .sell 1 false calmSignal {}

def acknowledged : ExecutionControllerEvent where
  orderId := "o-1"
  idempotencyKey := some "BTCUSDT-1000-buy"
  symbol := "BTCUSDT"
  status := .ack
  filledQtyDelta := 0
  cumulativeFilledQty := 0
  remainingQty := 1
  partialFillRatio := 0
  slippageBps := 0
  competitionFlag := .none
  latencyUs := 900
  eventTs := 1001

/-- The same order, named by its id alone. -/
def partlyFilled : ExecutionControllerEvent :=
  { acknowledged with
    idempotencyKey := none
    status := .partially
    filledQtyDelta := 0.4
    cumulativeFilledQty := 0.4
    remainingQty := 0.6
    partialFillRatio := 0.4 }

/-- Two orders out, one of them acknowledged. -/
def twoOut : List ControllerInput := [.order buyIntent, .order sellIntent, .execution acknowledged]

theorem twoOut_paired : Paired (twoOut ++ [.execution partlyFilled]) := by
  have hbuy : idempotencyKey buyIntent = "BTCUSDT-1000-buy" := by decide +kernel
  have hsell : idempotencyKey sellIntent = "BTCUSDT-1000-sell" := by decide +kernel
  have hmem : ∀ u, .execution u ∈ twoOut ++ [.execution partlyFilled] →
      u = acknowledged ∨ u = partlyFilled := by
    intro u hu
    simpa [twoOut] using hu
  have hid : ∀ u, .execution u ∈ twoOut ++ [.execution partlyFilled] → u.orderId = "o-1" := by
    intro u hu
    rcases hmem u hu with rfl | rfl <;> rfl
  refine ⟨fun u u' hu hu' _ key key' hkey hkey' => ?_, fun u hu input hinput hnames => ?_⟩
  · rcases hmem u hu with rfl | rfl <;> rcases hmem u' hu' with rfl | rfl <;>
      simp_all [acknowledged, partlyFilled]
  · rw [hid u hu] at hnames
    simp [twoOut] at hinput
    rcases hinput with rfl | rfl | rfl | rfl <;>
      simp_all [NamesKey, acknowledged, partlyFilled]

theorem updates_routed_partlyFilled :
    Routed {} twoOut partlyFilled
      (clientKey (twoOut ++ [.execution partlyFilled]) partlyFilled.orderId) :=
  updates_routed {} (by
    have hkeys : (ordersOf twoOut).map idempotencyKey =
        ["BTCUSDT-1000-buy", "BTCUSDT-1000-sell"] := by decide +kernel
    rw [← List.pairwise_map, hkeys]
    decide) twoOut_paired

end Desk

end RealTimeTrading.Rtts
