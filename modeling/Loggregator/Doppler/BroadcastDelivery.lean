import Loggregator.Doppler.SinkLifecycle

/-!
# What a broadcast delivers

A broadcast offers its message to some of the registered wrappers. Their channels are open and
distinct, so the sends do not get in each other's way: `offer` says what they do to all the
channels at once, from what the channels held before the first of them.
-/

namespace Loggregator.Doppler.SinkRegistry

open Lib

namespace Channels

/-- A message can be sent on the channel without waiting. -/
def room (cs : Channels) (c : Chan) : Bool :=
  decide ((cs.channel c).queue.length < (cs.channel c).capacity)

/-- One copy of the message on each of the wrappers' channels that has room. -/
def offer (cs : Channels) (msg : Events.Envelope) (ws : List SinkWrapper) : Channels :=
  { cs with
    channel := fun c =>
      if c ∈ ws.map SinkWrapper.inputChan ∧ cs.room c = true then
        { cs.channel c with queue := (cs.channel c).queue ++ [msg] }
      else cs.channel c }

/-- How many of the wrappers' channels are full. -/
def full (cs : Channels) (ws : List SinkWrapper) : Nat :=
  ws.countP (fun w => !cs.room w.inputChan)

/-- How many messages the wrappers' channels hold. -/
def queued (cs : Channels) (ws : List SinkWrapper) : Nat :=
  (ws.map (fun w => (cs.channel w.inputChan).queue.length)).sum

section Offer

variable {cs : Channels} {msg : Events.Envelope} {w : SinkWrapper} {ws ws' : List SinkWrapper}

@[simp] theorem offer_closed : (cs.offer msg ws).closed = cs.closed := rfl

@[simp] theorem offer_nil : cs.offer msg [] = cs := by
  simp [offer]

@[simp] theorem full_nil : cs.full [] = 0 := rfl

theorem offer_channel (cs : Channels) (msg : Events.Envelope) (ws : List SinkWrapper) (c : Chan) :
    (cs.offer msg ws).channel c =
      if c ∈ ws.map SinkWrapper.inputChan ∧ cs.room c = true then
        { cs.channel c with queue := (cs.channel c).queue ++ [msg] }
      else cs.channel c :=
  rfl

theorem offer_channel_of_not_mem {c : Chan} (hc : c ∉ ws.map SinkWrapper.inputChan) :
    (cs.offer msg ws).channel c = cs.channel c := by
  rw [offer_channel, if_neg (fun h => hc h.1)]

theorem room_offer {c : Chan} (hc : c ∉ ws.map SinkWrapper.inputChan) :
    (cs.offer msg ws).room c = cs.room c := by
  rw [room, room, offer_channel_of_not_mem hc]

/-- Offers on different channels are one offer. -/
theorem offer_offer
    (hdisjoint : (ws.map SinkWrapper.inputChan).Disjoint (ws'.map SinkWrapper.inputChan)) :
    (cs.offer msg ws).offer msg ws' = cs.offer msg (ws ++ ws') := by
  have hchannel : ∀ c, ((cs.offer msg ws).offer msg ws').channel c =
      (cs.offer msg (ws ++ ws')).channel c := by
    intro c
    rw [offer_channel, offer_channel _ _ (ws ++ ws'), List.map_append]
    by_cases hws : c ∈ ws.map SinkWrapper.inputChan
    · rw [if_neg (fun h => hdisjoint hws h.1), offer_channel]
      simp [hws]
    · rw [room_offer hws, offer_channel_of_not_mem hws]
      simp [hws]
  unfold offer at hchannel ⊢
  simp only [Channels.mk.injEq, and_true]
  exact funext hchannel

theorem full_offer
    (hdisjoint : (ws.map SinkWrapper.inputChan).Disjoint (ws'.map SinkWrapper.inputChan)) :
    (cs.offer msg ws).full ws' = cs.full ws' := by
  unfold full
  refine List.countP_congr (fun w hw => ?_)
  rw [room_offer (fun h => hdisjoint h (List.mem_map_of_mem hw))]

theorem full_append : cs.full (ws ++ ws') = cs.full ws + cs.full ws' := List.countP_append

/-- Each offered copy is queued or was offered to a full channel. -/
theorem queued_offer (cs : Channels) (msg : Events.Envelope) (ws : List SinkWrapper) :
    (cs.offer msg ws).queued ws + cs.full ws = cs.queued ws + ws.length := by
  have hsub : ∀ ws', ws' ⊆ ws →
      (cs.offer msg ws).queued ws' + cs.full ws' = cs.queued ws' + ws'.length := by
    intro ws' hsub
    induction ws' with
    | nil => rfl
    | cons w ws' ih =>
      have hw : w.inputChan ∈ ws.map SinkWrapper.inputChan :=
        List.mem_map_of_mem (hsub List.mem_cons_self)
      have ih := ih (fun x hx => hsub (List.mem_cons_of_mem _ hx))
      simp only [queued, full, List.map_cons, List.sum_cons, List.countP_cons,
        List.length_cons] at ih ⊢
      rw [offer_channel]
      cases hroom : cs.room w.inputChan <;> simp [hw] <;> omega
  exact hsub ws (fun _ h => h)

end Offer

end Channels

/-! ## The loops of sends -/

/-- A send on an open channel. -/
theorem trySend_eq {cs : Channels} {w : SinkWrapper} (hopen : w.inputChan ∉ cs.closed)
    (msg : Events.Envelope) : cs.trySend w.inputChan msg =
      .ok (cs.room w.inputChan, cs.offer msg [w]) := by
  have hchannel : (cs.offer msg [w]).channel = fun c =>
      if c = w.inputChan ∧ cs.room w.inputChan = true then
        { cs.channel w.inputChan with queue := (cs.channel w.inputChan).queue ++ [msg] }
      else cs.channel c := by
    funext c
    by_cases hc : c = w.inputChan
    · subst hc
      simp [Channels.offer_channel]
    · simp [Channels.offer_channel, hc]
  unfold Channels.trySend
  rw [if_neg hopen]
  split
  · next hroom =>
    have hroom : cs.room w.inputChan = true := decide_eq_true hroom
    simp only [hroom, and_true] at hchannel
    rw [hroom, Channels.set]
    exact congrArg (fun channel => Except.ok (true, (⟨channel, cs.closed⟩ : Channels)))
      hchannel.symm
  · next hroom =>
    have hroom : cs.room w.inputChan = false := decide_eq_false hroom
    simp only [hroom, Bool.false_eq_true, and_false, if_false] at hchannel
    rw [hroom]
    exact congrArg (fun channel => Except.ok (false, (⟨channel, cs.closed⟩ : Channels)))
      hchannel.symm

/-- The registry after a message was offered to these wrappers, with the drops under
`sinks.dropped` or, for an error, under `sinks.errors.dropped`. -/
def Registry.offer (r : Registry) (error : Bool) (msg : Events.Envelope) (ws : List SinkWrapper) :
    Registry :=
  { r with
    channels := r.channels.offer msg ws
    dropped := r.dropped + if error then 0 else r.channels.full ws
    errorsDropped := r.errorsDropped + if error then r.channels.full ws else 0 }

section Sends

variable {r : Registry} {w : SinkWrapper} {ws : List SinkWrapper}

theorem send_eq (hopen : w.inputChan ∉ r.channels.closed) (msg : Events.Envelope) :
    r.send msg w = .ok (r.offer false msg [w]) := by
  rw [Registry.send, trySend_eq hopen]
  cases hroom : r.channels.room w.inputChan <;>
    simp [Registry.offer, Channels.full, hroom, Except.map]

theorem sendError_eq (hopen : w.inputChan ∉ r.channels.closed) (msg : Events.Envelope) :
    r.sendError msg w = .ok (r.offer true msg [w]) := by
  rw [Registry.sendError, trySend_eq hopen]
  cases hroom : r.channels.room w.inputChan <;>
    simp [Registry.offer, Channels.full, hroom, Except.map]

/-- Sends on different channels are one offer. -/
theorem Registry.offer_offer {error : Bool} {msg : Events.Envelope} {ws' : List SinkWrapper}
    (hdisjoint : (ws.map SinkWrapper.inputChan).Disjoint (ws'.map SinkWrapper.inputChan)) :
    (r.offer error msg ws).offer error msg ws' = r.offer error msg (ws ++ ws') := by
  simp only [Registry.offer, Channels.offer_offer hdisjoint, Channels.full_offer hdisjoint,
    Channels.full_append]
  cases error <;> simp [Nat.add_assoc]

/-- A loop of sends on open, distinct channels. -/
theorem foldlM_offer {error : Bool} {msg : Events.Envelope}
    {send : Registry → SinkWrapper → Except Panic Registry}
    (hsend : ∀ r w, w.inputChan ∉ r.channels.closed → send r w = .ok (r.offer error msg [w]))
    (hopen : ∀ w ∈ ws, w.inputChan ∉ r.channels.closed)
    (hnodup : (ws.map SinkWrapper.inputChan).Nodup) :
    ws.foldlM send r = .ok (r.offer error msg ws) := by
  induction ws generalizing r with
  | nil =>
    rw [List.foldlM_nil]
    simp [Registry.offer, pure, Except.pure]
  | cons w ws ih =>
    obtain ⟨hw, hnodup⟩ := List.nodup_cons.mp hnodup
    rw [List.foldlM_cons, hsend r w (hopen w List.mem_cons_self)]
    have hrest := ih (r := r.offer error msg [w])
      (fun w' hw' => hopen w' (List.mem_cons_of_mem _ hw')) hnodup
    refine hrest.trans ?_
    rw [Registry.offer_offer, List.singleton_append]
    simpa using hw

end Sends

/-! ## Who is offered a message -/

/-- The wrappers of an application's sinks. -/
def Registry.appWrappers (r : Registry) (appId : GoString) : List SinkWrapper :=
  Dict.values ((r.apps.lookup appId).getD ∅)

/-- Those of them whose sinks receive errors. -/
def Registry.errorWrappers (r : Registry) (other : Sink → Bool) (appId : GoString) :
    List SinkWrapper :=
  (r.appWrappers appId).filter (fun w => shouldReceiveErrors other w.sink)

theorem Registry.errorWrappers_sublist (r : Registry) (other : Sink → Bool) (appId : GoString) :
    (r.errorWrappers other appId).Sublist (r.appWrappers appId) :=
  List.filter_sublist

/-- The wrappers that are chosen in the firehose groups. -/
def Registry.firehoseWrappers (r : Registry) (rand : GoString → Nat) : List SinkWrapper :=
  r.firehoses.entries.filterMap (fun p => randomWrapper p.2 (rand p.1))

/-- A group that is not empty has a random wrapper. -/
theorem randomWrapper_of_nonempty {group : FirehoseGroup} (hne : group.entries ≠ []) (n : Nat) :
    ∃ w, randomWrapper group n = some w ∧ w ∈ Dict.values group := by
  have hpos : 0 < (Dict.values group).length := by
    rw [Dict.values, List.length_map]
    exact List.length_pos_iff.mpr hne
  refine ⟨_, List.getElem?_eq_getElem (Nat.mod_lt n hpos), List.getElem_mem _⟩

/-- One member of each group is chosen. -/
theorem forall₂_firehoseWrappers {l : List (Sigma fun _ : GoString => FirehoseGroup)}
    (hne : ∀ p ∈ l, p.2.entries ≠ []) (rand : GoString → Nat) :
    List.Forall₂ (fun p w => w ∈ Dict.values p.2) l
      (l.filterMap (fun p => randomWrapper p.2 (rand p.1))) := by
  induction l with
  | nil => exact List.Forall₂.nil
  | cons p l ih =>
    obtain ⟨w, hw, hmem⟩ := randomWrapper_of_nonempty (hne p List.mem_cons_self) (rand p.1)
    simp only [List.filterMap_cons, hw]
    exact List.Forall₂.cons hmem (ih (fun q hq => hne q (List.mem_cons_of_mem _ hq)))

theorem firehoseWrappers_sublist (l : List (Sigma fun _ : GoString => FirehoseGroup))
    (rand : GoString → Nat) :
    (l.filterMap (fun p => randomWrapper p.2 (rand p.1))).Sublist
      (l.flatMap (fun p => Dict.values p.2)) := by
  induction l with
  | nil => exact List.Sublist.refl _
  | cons p l ih =>
    rw [List.flatMap_cons]
    cases hw : randomWrapper p.2 (rand p.1) with
    | none =>
      simp only [List.filterMap_cons, hw]
      exact ih.trans (List.sublist_append_right _ _)
    | some w =>
      simp only [List.filterMap_cons, hw]
      rw [← List.singleton_append]
      exact (List.singleton_sublist.mpr (List.mem_of_getElem? hw)).append ih

section Kept

variable {st : State}

/-- The channels of all that a broadcast can offer its message to. -/
theorem Kept.offered_nodup (hk : Kept st) (rand : GoString → Nat) (appId : GoString) :
    ((st.registry.appWrappers appId ++ st.registry.firehoseWrappers rand).map
      SinkWrapper.inputChan).Nodup := by
  have hnodup := hk.chans_nodup.of_append_right
  have hregs : st.registry.registrations.map Registration.chan =
      (Dict.flatValues st.registry.apps ++ Dict.flatValues st.registry.firehoses).map
        SinkWrapper.inputChan := by
    simp [Registry.registrations, Registration.chan, Function.comp_def]
  rw [hregs] at hnodup
  have hperm := ((Dict.flatValues_perm st.registry.apps appId).append_right
    (Dict.flatValues st.registry.firehoses)).map SinkWrapper.inputChan
  refine (hperm.nodup_iff.mp hnodup).sublist (List.Sublist.map _ ?_)
  exact (List.sublist_append_left _ _).append (firehoseWrappers_sublist _ rand)

theorem Kept.app_open (hk : Kept st) {appId : GoString} {w : SinkWrapper}
    (hw : w ∈ st.registry.appWrappers appId) : w.inputChan ∉ st.registry.channels.closed := by
  unfold Registry.appWrappers at hw
  cases hg : st.registry.apps.lookup appId with
  | none =>
    rw [hg] at hw
    cases hw
  | some group =>
    rw [hg] at hw
    exact hk.not_closed (Kept.group_app hg hw)

theorem Kept.firehose_open (hk : Kept st) {rand : GoString → Nat} {w : SinkWrapper}
    (hw : w ∈ st.registry.firehoseWrappers rand) :
    w.inputChan ∉ st.registry.channels.closed :=
  hk.not_closed (mem_registrations_firehose
    ((firehoseWrappers_sublist _ rand).subset hw))

end Kept

theorem broadcastMessageToFirehoses_eq (r : Registry) (rand : GoString → Nat)
    (msg : Events.Envelope) : r.broadcastMessageToFirehoses rand msg =
      (r.firehoseWrappers rand).foldlM (fun r w => r.send msg w) r := by
  unfold Registry.firehoseWrappers Registry.broadcastMessageToFirehoses
  rw [List.foldlM_filterMap]
  congr 1
  funext r p
  cases randomWrapper p.2 (rand p.1) <;> rfl

theorem broadcastErrorMessage_eq (r : Registry) (other : Sink → Bool) (group : AppGroup)
    (msg : Events.Envelope) : r.broadcastErrorMessage other group msg =
      ((Dict.values group).filter (fun w => shouldReceiveErrors other w.sink)).foldlM
        (fun r w => r.sendError msg w) r := by
  rw [List.foldlM_filter]
  rfl

section Kept

variable {st : State}

theorem Kept.offer_disjoint (hk : Kept st) (rand : GoString → Nat) {appId : GoString}
    {ws : List SinkWrapper} (hws : ws.Sublist (st.registry.appWrappers appId)) :
    (ws.map SinkWrapper.inputChan).Disjoint
      ((st.registry.firehoseWrappers rand).map SinkWrapper.inputChan) := by
  have hnodup := hk.offered_nodup rand appId
  rw [List.map_append] at hnodup
  exact fun c hc => List.disjoint_of_nodup_append hnodup ((hws.map _).subset hc)

/-- The two loops of a broadcast. -/
theorem Kept.offers (hk : Kept st) {error : Bool} (rand : GoString → Nat) {appId : GoString}
    {ws : List SinkWrapper} (hws : ws.Sublist (st.registry.appWrappers appId))
    {msg : Events.Envelope} {send : Registry → SinkWrapper → Except Panic Registry}
    (hsend : ∀ r w, w.inputChan ∉ r.channels.closed → send r w = .ok (r.offer error msg [w])) :
    (ws.foldlM send st.registry >>= fun r => r.broadcastMessageToFirehoses rand msg) =
      .ok ((st.registry.offer error msg ws).offer false msg
        (st.registry.firehoseWrappers rand)) := by
  have hnodup := hk.offered_nodup rand appId
  rw [List.map_append] at hnodup
  rw [foldlM_offer hsend (fun w hw => hk.app_open (hws.subset hw))
    (hnodup.of_append_left.sublist (hws.map _))]
  change Registry.broadcastMessageToFirehoses _ rand msg = _
  rw [broadcastMessageToFirehoses_eq]
  exact foldlM_offer (fun r w hopen => send_eq hopen msg) (fun w hw => hk.firehose_open hw)
    hnodup.of_append_right

theorem Kept.broadcast_eq (hk : Kept st) (rand : GoString → Nat) (appId : GoString)
    (msg : Events.Envelope) : st.registry.broadcast rand appId msg =
      .ok ((st.registry.offer false msg (st.registry.appWrappers appId)).offer false msg
        (st.registry.firehoseWrappers rand)) := by
  rw [← hk.offers rand (List.Sublist.refl _) (fun r w hopen => send_eq hopen msg)]
  unfold Registry.broadcast Registry.appWrappers
  cases st.registry.apps.lookup appId <;> rfl

theorem Kept.broadcastError_eq (hk : Kept st) (other : Sink → Bool) (rand : GoString → Nat)
    (appId : GoString) (msg : Events.Envelope) : st.registry.broadcastError other rand appId msg =
      .ok ((st.registry.offer true msg (st.registry.errorWrappers other appId)).offer false msg
        (st.registry.firehoseWrappers rand)) := by
  rw [← hk.offers rand (st.registry.errorWrappers_sublist other appId)
    (fun r w hopen => sendError_eq hopen msg)]
  unfold Registry.broadcastError Registry.errorWrappers Registry.appWrappers
  cases hg : st.registry.apps.lookup appId with
  | none => rfl
  | some group =>
    simp only [broadcastErrorMessage_eq]
    rfl

/-- The sinks of an application are those that were registered for it and not removed. -/
theorem Kept.mem_appWrappers (hk : Kept st) (appId : GoString) (w : SinkWrapper) :
    w ∈ st.registry.appWrappers appId ↔ ⟨.app, w⟩ ∈ st.ledger.live ∧ w.sink.appID = appId := by
  have hlive : ⟨.app, w⟩ ∈ st.ledger.live ↔
      ∃ a i, (st.registry.apps.lookup a).bind (fun group => group.lookup i) = some w := by
    rw [← hk.held.mem_iff, Registry.registrations, List.mem_append, ← Dict.mem_flatValues]
    simp
  rw [hlive, Registry.appWrappers, Dict.mem_values]
  constructor
  · rintro ⟨i, hi⟩
    cases hg : st.registry.apps.lookup appId with
    | none =>
      rw [hg] at hi
      cases hi
    | some group =>
      rw [hg] at hi
      exact ⟨⟨appId, i, by rw [hg]; exact hi⟩, (hk.apps.placed appId group i w hg hi).1⟩
  · rintro ⟨⟨a, i, hw⟩, rfl⟩
    obtain ⟨group, hg, hi⟩ := Option.bind_eq_some_iff.mp hw
    rw [(hk.apps.placed a group i w hg hi).1, hg]
    exact ⟨i, hi⟩

end Kept

/-- A message was offered to sinks of an application and of firehoses. The channels with room have
one more copy of it and no other channel is changed. The drops are counted, those of an error's
application sinks on their own, and each offered copy is queued or counted. -/
structure Delivers (error : Bool) (msg : Events.Envelope) (toApp toFirehoses : List SinkWrapper)
    (r r' : Registry) : Prop where
  copied : ∀ w ∈ toApp ++ toFirehoses, r.channels.room w.inputChan = true →
    r'.channels.channel w.inputChan =
      { r.channels.channel w.inputChan with
        queue := (r.channels.channel w.inputChan).queue ++ [msg] }
  unchanged : ∀ c, (∀ w ∈ toApp ++ toFirehoses, r.channels.room w.inputChan = true →
    w.inputChan ≠ c) → r'.channels.channel c = r.channels.channel c
  dropped : r'.dropped = r.dropped + r.channels.full toFirehoses +
    if error then 0 else r.channels.full toApp
  errorsDropped : r'.errorsDropped =
    r.errorsDropped + if error then r.channels.full toApp else 0
  accounted : r'.channels.queued (toApp ++ toFirehoses) + r'.dropped + r'.errorsDropped =
    r.channels.queued (toApp ++ toFirehoses) + r.dropped + r.errorsDropped +
      (toApp ++ toFirehoses).length
  same : r.Same r'

theorem delivers_offer {r : Registry} (error : Bool) (msg : Events.Envelope)
    {toApp toFirehoses : List SinkWrapper}
    (hdisjoint : (toApp.map SinkWrapper.inputChan).Disjoint
      (toFirehoses.map SinkWrapper.inputChan)) :
    Delivers error msg toApp toFirehoses r
      ((r.offer error msg toApp).offer false msg toFirehoses) := by
  have hchannels : ((r.offer error msg toApp).offer false msg toFirehoses).channels =
      r.channels.offer msg (toApp ++ toFirehoses) := Channels.offer_offer hdisjoint
  have hfull : (r.offer error msg toApp).channels.full toFirehoses =
      r.channels.full toFirehoses := Channels.full_offer hdisjoint
  have hdropped : ((r.offer error msg toApp).offer false msg toFirehoses).dropped =
      r.dropped + r.channels.full toFirehoses + if error then 0 else r.channels.full toApp := by
    rw [Registry.offer, hfull]
    simp only [Registry.offer, Bool.false_eq_true, if_false]
    omega
  have herrors : ((r.offer error msg toApp).offer false msg toFirehoses).errorsDropped =
      r.errorsDropped + if error then r.channels.full toApp else 0 := rfl
  refine ⟨?_, ?_, hdropped, herrors, ?_, rfl, rfl, rfl⟩
  · intro w hw hroom
    rw [hchannels, Channels.offer_channel, if_pos ⟨List.mem_map_of_mem hw, hroom⟩]
  · intro c hc
    rw [hchannels, Channels.offer_channel, if_neg]
    rintro ⟨hmem, hroom⟩
    obtain ⟨w, hw, rfl⟩ := List.mem_map.mp hmem
    exact hc w hw hroom rfl
  · have hqueued := Channels.queued_offer r.channels msg (toApp ++ toFirehoses)
    rw [Channels.full_append] at hqueued
    rw [hdropped, herrors, hchannels]
    cases error <;> simp only [Bool.false_eq_true, if_false, if_true] <;> omega

/-- In every state that the calls reach, `Broadcast` delivers its message to the sinks of the
application and one member of each firehose group, and `BroadcastError` to those of the
application's sinks that receive errors and one member of each group. -/
theorem broadcast_delivers (st : State) (hst : Reachable step Fresh (.ok {}) (.ok st))
    (other : Sink → Bool) (rand : GoString → Nat) (appId : GoString) (msg : Events.Envelope) :
    (∀ w, w ∈ st.registry.appWrappers appId ↔
      ⟨.app, w⟩ ∈ st.ledger.live ∧ w.sink.appID = appId) ∧
    List.Forall₂ (fun p w => w ∈ Dict.values p.2) st.registry.firehoses.entries
      (st.registry.firehoseWrappers rand) ∧
    ((st.registry.appWrappers appId ++ st.registry.firehoseWrappers rand).map
      SinkWrapper.inputChan).Nodup ∧
    (∃ r', st.registry.broadcast rand appId msg = .ok r' ∧
      Delivers false msg (st.registry.appWrappers appId) (st.registry.firehoseWrappers rand)
        st.registry r') ∧
    (∃ r', st.registry.broadcastError other rand appId msg = .ok r' ∧
      Delivers true msg (st.registry.errorWrappers other appId)
        (st.registry.firehoseWrappers rand) st.registry r') := by
  obtain ⟨st', heq, hk⟩ := kept_of_reachable hst
  cases heq
  have hnonempty : ∀ p ∈ st.registry.firehoses.entries, p.2.entries ≠ [] := fun p hp =>
    hk.firehoses.nonempty p.1 p.2 (AList.mem_lookup_iff.mpr hp)
  exact ⟨hk.mem_appWrappers appId, forall₂_firehoseWrappers hnonempty rand,
    hk.offered_nodup rand appId,
    ⟨_, hk.broadcast_eq rand appId msg,
      delivers_offer false msg (hk.offer_disjoint rand (List.Sublist.refl _))⟩,
    ⟨_, hk.broadcastError_eq other rand appId msg,
      delivers_offer true msg (hk.offer_disjoint rand
        (st.registry.errorWrappers_sublist other appId))⟩⟩

/-- Two sinks of an application, one of them with room, and two sinks of a firehose group. -/
theorem broadcast_delivers_two_of_three :
    let msg : Events.Envelope := { eventType := .logMessage }
    let calls : List Action :=
      [.registerAppSink 0 ⟨0, str "app", str "a", .dumpSink⟩,
       .registerAppSink 1 ⟨1, str "app", str "b", .syslogSink⟩,
       .registerFirehoseSink 2 ⟨2, str "sub", str "c", .websocketSink⟩,
       .registerFirehoseSink 3 ⟨3, str "sub", str "d", .websocketSink⟩,
       .consume 0 ⟨2, [msg]⟩, .consume 3 ⟨1, []⟩]
    ∃ st r', run (guarded step Fresh) (.ok {}) calls = some (.ok st) ∧
      (st.registry.appWrappers (str "app")).map SinkWrapper.inputChan = [1, 0] ∧
      (st.registry.firehoseWrappers (fun _ => 2)).map SinkWrapper.inputChan = [3] ∧
      st.registry.broadcast (fun _ => 2) (str "app") msg = .ok r' ∧ r'.dropped = 1 ∧
      Delivers false msg (st.registry.appWrappers (str "app"))
        (st.registry.firehoseWrappers (fun _ => 2)) st.registry r' := by
  intro msg calls
  have hrun : (run (guarded step Fresh) (.ok {}) calls).map (fun s =>
      match s with
      | .ok st => some ((st.registry.appWrappers (str "app")).map SinkWrapper.inputChan,
          (st.registry.firehoseWrappers (fun _ => 2)).map SinkWrapper.inputChan,
          st.registry.dropped, st.registry.channels.full (st.registry.appWrappers (str "app")),
          st.registry.channels.full (st.registry.firehoseWrappers (fun _ => 2)))
      | .error _ => none) = some (some ([1, 0], [3], 0, 1, 0)) := by decide +kernel
  obtain ⟨s, hs, hfinal⟩ := Option.map_eq_some_iff.mp hrun
  have hreach := Reachable.refl.of_guarded hs
  cases s with
  | error _ => cases hfinal
  | ok st =>
    simp only [Option.some.injEq, Prod.mk.injEq] at hfinal
    obtain ⟨hdown, hfirehoses, hdropped, happ, hfull⟩ := hfinal
    obtain ⟨-, -, -, ⟨r', hcall, hdelivers⟩, -⟩ :=
      broadcast_delivers st hreach (fun _ => false) (fun _ => 2) (str "app") msg
    refine ⟨st, r', hs, hdown, hfirehoses, hcall, ?_, hdelivers⟩
    rw [hdelivers.dropped, hdropped, happ, hfull]
    rfl

end Loggregator.Doppler.SinkRegistry
