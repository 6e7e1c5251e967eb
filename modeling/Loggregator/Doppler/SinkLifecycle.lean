import Loggregator.Doppler.SinkRegistry

/-!
# The life of a registration

The registry holds exactly the registrations of the ledger that are not removed, each in the
group of its application or subscription and under its identifier, and the closed channels are
exactly those of the removed registrations. The channels of the ledger are pairwise distinct, so
no operation panics.

`register_spec`, `delete_spec` and `deleteGroups_spec` say what the operations do to the wrappers
of a map of groups; the registry has two such maps.
-/

namespace Loggregator.Doppler.SinkRegistry

open Lib

/-- No group is empty, and each wrapper stands under its sink's identifier in the group of its
sink's application id. -/
structure WellFormed (groups : Dict GoString AppGroup) : Prop where
  nonempty : ∀ a group, groups.lookup a = some group → group.entries ≠ []
  placed : ∀ a group i w, groups.lookup a = some group → group.lookup i = some w →
    w.sink.appID = a ∧ w.sink.identifier = i

section Groups

variable {groups : Dict GoString AppGroup} {cs : Channels}

theorem wellFormed_empty : WellFormed ∅ := by
  constructor <;> intros <;> simp_all

section

variable (h : WellFormed groups)
include h

theorem WellFormed.erase (a : GoString) : WellFormed (groups.erase a) := by
  constructor
  · intro b group hb
    rw [Dict.lookup_erase_ite] at hb
    split at hb
    · cases hb
    · exact h.nonempty b group hb
  · intro b group i w hb hw
    rw [Dict.lookup_erase_ite] at hb
    split at hb
    · cases hb
    · exact h.placed b group i w hb hw

theorem WellFormed.insert {a : GoString} {group : AppGroup} (hne : group.entries ≠ [])
    (hplaced : ∀ i w, group.lookup i = some w → w.sink.appID = a ∧ w.sink.identifier = i) :
    WellFormed (groups.insert a group) := by
  constructor
  · intro b group' hb
    rw [Dict.lookup_insert_ite] at hb
    split at hb
    · cases hb
      exact hne
    · exact h.nonempty b group' hb
  · intro b group' i w hb hw
    rw [Dict.lookup_insert_ite] at hb
    split at hb
    · next heq =>
      cases hb
      rw [heq]
      exact hplaced i w hw
    · exact h.placed b group' i w hb hw

theorem WellFormed.putGroup {a : GoString} {group : AppGroup}
    (hplaced : ∀ i w, group.lookup i = some w → w.sink.appID = a ∧ w.sink.identifier = i) :
    WellFormed (groups.putGroup a group) := by
  unfold Dict.putGroup
  split
  · exact h.erase a
  · next hempty => exact h.insert (fun hnil => hempty (by rw [hnil]; rfl)) hplaced

/-- The group of an application, or the new one. -/
theorem WellFormed.group (a : GoString) :
    ∀ i w, ((groups.lookup a).getD ∅).lookup i = some w →
      w.sink.appID = a ∧ w.sink.identifier = i := by
  intro i w hw
  cases ha : groups.lookup a with
  | none =>
    rw [ha] at hw
    simp at hw
  | some group =>
    rw [ha] at hw
    exact h.placed a group i w ha hw

/-- The wrappers of a sink's strings are the one that the lookup finds. -/
theorem WellFormed.filter_key (sink : Sink) (P : SinkWrapper → Bool)
    (hP : ∀ w, P w = true ↔ w.sink.key = sink.key) :
    ((Dict.flatValues groups).filter P).Perm
        (((groups.lookup sink.appID).getD ∅).lookup sink.identifier).toList ∧
      ((Dict.flatValues groups).filter (fun w => !P w)).Perm
        (Dict.values (((groups.lookup sink.appID).getD ∅).erase sink.identifier) ++
          Dict.flatValues (groups.erase sink.appID)) := by
  have hgroup := h.group sink.appID
  have hperm := Dict.flatValues_perm groups sink.appID
  generalize (groups.lookup sink.appID).getD ∅ = group at hgroup hperm ⊢
  -- nothing else has these strings
  have hothers : ∀ w ∈ Dict.flatValues (groups.erase sink.appID), P w = false := by
    intro w hw
    obtain ⟨a, i, hai⟩ := Dict.mem_flatValues.mp hw
    obtain ⟨group', hg', hw'⟩ := Option.bind_eq_some_iff.mp hai
    rw [Bool.eq_false_iff, ne_eq, hP]
    intro hkey
    rw [Dict.lookup_erase_ite] at hg'
    split at hg'
    · cases hg'
    · next hne =>
      have := (h.placed a group' i w hg' hw').1
      simp only [Sink.key, Prod.mk.injEq] at hkey
      exact hne (this.symm.trans hkey.1)
  have hrest : ∀ w ∈ Dict.values (group.erase sink.identifier), P w = false := by
    intro w hw
    obtain ⟨i, hi⟩ := Dict.mem_values.mp hw
    rw [Bool.eq_false_iff, ne_eq, hP]
    intro hkey
    rw [Dict.lookup_erase_ite] at hi
    split at hi
    · cases hi
    · next hne =>
      simp only [Sink.key, Prod.mk.injEq] at hkey
      exact hne ((hgroup i w hi).2.symm.trans hkey.2)
  have hall : ∀ w ∈ Dict.values (group.erase sink.identifier) ++
      Dict.flatValues (groups.erase sink.appID), P w = false := by
    intro w hw
    exact (List.mem_append.mp hw).elim (hrest w) (hothers w)
  have hnone := List.filter_eq_nil_iff.mpr (fun w hw => Bool.eq_false_iff.mp (hall w hw))
  have hkeep := List.filter_eq_self.mpr (fun w hw => Bool.not_eq_eq_eq_not.mpr (hall w hw))
  cases hw : group.lookup sink.identifier with
  | none =>
    have hsame : Dict.values (group.erase sink.identifier) = Dict.values group := by
      rw [Dict.values, Dict.values, Dict.entries_erase_of_lookup hw]
    rw [hsame] at hnone hkeep ⊢
    refine ⟨?_, ?_⟩
    · have := hperm.filter P
      rwa [hnone] at this
    · have := hperm.filter (fun w => !P w)
      rwa [hkeep] at this
  | some w =>
    have hfound : P w = true := by
      have := hgroup _ _ hw
      rw [hP, Sink.key, Sink.key, this.1, this.2]
    have hperm' := hperm.trans ((Dict.values_perm_of_lookup hw).append_right _)
    rw [List.cons_append] at hperm'
    refine ⟨?_, ?_⟩
    · have := hperm'.filter P
      rwa [List.filter_cons_of_pos hfound, hnone] at this
    · have := hperm'.filter (fun w => !P w)
      rwa [List.filter_cons_of_neg (by simp [hfound]), hkeep] at this

/-- A registration adds its wrapper, or fails and changes nothing. -/
theorem register_spec (c : Chan) (sink : Sink) :
    WellFormed (register groups c sink).2 ∧
      (Dict.flatValues (register groups c sink).2).Perm
        ((if (register groups c sink).1 then [⟨c, sink⟩] else []) ++ Dict.flatValues groups) := by
  have hgroup := h.group sink.appID
  have hperm := Dict.flatValues_perm groups sink.appID
  unfold register
  generalize (groups.lookup sink.appID).getD ∅ = group at hgroup hperm ⊢
  cases hw : group.lookup sink.identifier with
  | some w =>
    have hadd : AppGroup.addSink group sink c = (false, group) := by rw [AppGroup.addSink, hw]
    simp only [hadd]
    refine ⟨h.insert ?_ hgroup, ?_⟩
    · intro hnil
      rw [Dict.lookup_of_isEmpty (by rw [hnil]; rfl)] at hw
      cases hw
    · simp only [Bool.false_eq_true, if_false, List.nil_append, Dict.flatValues_insert]
      exact hperm.symm
  | none =>
    have hadd : AppGroup.addSink group sink c = (true, group.insert sink.identifier ⟨c, sink⟩) := by
      rw [AppGroup.addSink, hw]
    simp only [hadd]
    refine ⟨h.insert (by simp [AList.entries_insert]) ?_, ?_⟩
    · intro i w hi
      rw [Dict.lookup_insert_ite] at hi
      split at hi
      · next heq =>
        cases hi
        exact ⟨rfl, heq.symm⟩
      · exact hgroup i w hi
    · simp only [if_true, Dict.flatValues_insert, Dict.values_insert, List.cons_append,
        List.nil_append]
      rw [Dict.values, Dict.entries_erase_of_lookup hw]
      exact hperm.symm.cons _

end

theorem removeSink_of_none {group : AppGroup} {sink : Sink}
    (hw : group.lookup sink.identifier = none) :
    removeSink group sink cs = .ok (false, group.erase sink.identifier, cs) := by
  rw [removeSink, AppGroup.removeSink, hw]
  rfl

theorem removeSink_of_some {group : AppGroup} {sink : Sink} {w : SinkWrapper}
    (hw : group.lookup sink.identifier = some w) (hopen : w.inputChan ∉ cs.closed) :
    removeSink group sink cs = .ok (true, group.erase sink.identifier,
      { cs with closed := cs.closed ++ [w.inputChan] }) := by
  rw [removeSink, AppGroup.removeSink, hw]
  simp only [Option.map_some, Channels.close, if_neg hopen]
  rfl

/-- A removal closes the channel of the wrapper with the sink's strings, if there is one. -/
theorem delete_spec (h : WellFormed groups) (sink : Sink) (P : SinkWrapper → Bool)
    (hP : ∀ w, P w = true ↔ w.sink.key = sink.key)
    (hopen : ∀ w ∈ Dict.flatValues groups, w.inputChan ∉ cs.closed) :
    ∃ removed groups' cs', delete groups sink cs = .ok (removed, groups', cs') ∧
      WellFormed groups' ∧
      (Dict.flatValues groups').Perm ((Dict.flatValues groups).filter (fun w => !P w)) ∧
      cs'.closed.Perm
        (cs.closed ++ ((Dict.flatValues groups).filter P).map SinkWrapper.inputChan) := by
  obtain ⟨hfound, hkept⟩ := h.filter_key sink P hP
  unfold delete
  cases hg : groups.lookup sink.appID with
  | none =>
    rw [hg] at hfound hkept
    refine ⟨false, groups, cs, rfl, h, ?_, ?_⟩
    · have hsame : Dict.flatValues (groups.erase sink.appID) = Dict.flatValues groups := by
        rw [Dict.flatValues, Dict.flatValues, Dict.entries_erase_of_lookup hg]
      rw [hsame] at hkept
      exact hkept.symm
    · have : (Dict.flatValues groups).filter P = [] := hfound.eq_nil
      rw [this, List.map_nil, List.append_nil]
  | some group =>
    rw [hg, Option.getD_some] at hfound hkept
    have hplaced := fun i w => h.placed sink.appID group i w hg
    have hwf : WellFormed (groups.putGroup sink.appID (group.erase sink.identifier)) := by
      refine h.putGroup ?_
      intro i w hi
      rw [Dict.lookup_erase_ite] at hi
      split at hi
      · cases hi
      · exact hplaced i w hi
    rw [← Dict.flatValues_putGroup] at hkept
    cases hw : group.lookup sink.identifier with
    | none =>
      rw [hw] at hfound
      simp only [removeSink_of_none hw]
      refine ⟨_, _, _, rfl, hwf, hkept.symm, ?_⟩
      have : (Dict.flatValues groups).filter P = [] := hfound.eq_nil
      rw [this, List.map_nil, List.append_nil]
    | some w =>
      rw [hw] at hfound
      have hnot : w.inputChan ∉ cs.closed :=
        hopen w (Dict.mem_flatValues.mpr ⟨sink.appID, sink.identifier, by rw [hg]; exact hw⟩)
      simp only [removeSink_of_some hw hnot]
      refine ⟨_, _, _, rfl, hwf, hkept.symm, ?_⟩
      rw [List.perm_singleton.mp hfound]
      exact List.Perm.refl _

/-- A removal reports whether there was a wrapper with the sink's strings. -/
theorem delete_removed (h : WellFormed groups) {sink : Sink} {P : SinkWrapper → Bool}
    (hP : ∀ w, P w = true ↔ w.sink.key = sink.key) {removed : Bool}
    {groups' : Dict GoString AppGroup} {cs' : Channels}
    (hdelete : delete groups sink cs = .ok (removed, groups', cs')) :
    ((Dict.flatValues groups).filter P).length = removed.toNat := by
  rw [(h.filter_key sink P hP).1.length_eq]
  unfold delete at hdelete
  cases hg : groups.lookup sink.appID with
  | none =>
    rw [hg] at hdelete
    cases hdelete
    simp
  | some group =>
    rw [hg] at hdelete
    simp only [removeSink, AppGroup.removeSink] at hdelete
    rw [Option.getD_some]
    cases hw : group.lookup sink.identifier with
    | none =>
      rw [hw] at hdelete
      cases hdelete
      rfl
    | some w =>
      rw [hw] at hdelete
      simp only [Option.map_some, Channels.close] at hdelete
      split at hdelete <;> cases hdelete
      rfl

theorem removeAllSinks_spec {group : AppGroup}
    (hplaced : ∀ i w, group.lookup i = some w → w.sink.identifier = i)
    (hdistinct : (cs.closed ++ (Dict.values group).map SinkWrapper.inputChan).Nodup) :
    removeAllSinks group cs = .ok (∅, { cs with
      closed := cs.closed ++ (Dict.values group).map SinkWrapper.inputChan }) := by
  unfold removeAllSinks
  -- the visit always is at the first entry that is left
  obtain ⟨l, hl⟩ : ∃ l, group.entries = l := ⟨_, rfl⟩
  rw [hl]
  induction l generalizing group cs with
  | nil =>
    have hempty : group = ∅ := AList.ext hl
    simp only [hempty, Dict.values, AList.empty_entries, List.map_nil, List.append_nil]
    rfl
  | cons p l ih =>
    obtain ⟨i, w⟩ := p
    have hlook := Dict.lookup_of_entries_cons hl
    have herase := Dict.entries_erase_of_cons hl
    have hvalues : Dict.values group = w :: Dict.values (group.erase i) := by
      rw [Dict.values, hl, Dict.values, herase, List.map_cons]
    rw [hvalues, List.map_cons] at hdistinct ⊢
    have hnot : w.inputChan ∉ cs.closed := by
      intro hmem
      exact List.disjoint_of_nodup_append hdistinct hmem List.mem_cons_self
    obtain rfl : w.sink.identifier = i := hplaced i w hlook
    rw [List.foldlM_cons, removeVisited]
    simp only [hlook, removeSink_of_some hlook hnot]
    refine (ih ?_ ?_ herase).trans ?_
    · intro j w' hj
      rw [Dict.lookup_erase_ite] at hj
      split at hj
      · cases hj
      · exact hplaced j w' hj
    · rwa [List.append_assoc]
    · rw [List.append_assoc]
      rfl

/-- A loop of `DeleteAll` closes the channels of all its wrappers, in the order of the visit. -/
theorem deleteGroups_spec (h : WellFormed groups) (cs : Channels)
    (hdistinct : (cs.closed ++ (Dict.flatValues groups).map SinkWrapper.inputChan).Nodup) :
    deleteGroups groups cs = .ok (∅, { cs with
      closed := cs.closed ++ (Dict.flatValues groups).map SinkWrapper.inputChan }) := by
  unfold deleteGroups
  obtain ⟨l, hl⟩ : ∃ l, groups.entries = l := ⟨_, rfl⟩
  rw [hl]
  induction l generalizing groups cs with
  | nil =>
    have hempty : groups = ∅ := AList.ext hl
    simp only [hempty, Dict.flatValues, AList.empty_entries, List.flatMap_nil, List.map_nil,
      List.append_nil]
    rfl
  | cons p l ih =>
    obtain ⟨a, group⟩ := p
    have hlook := Dict.lookup_of_entries_cons hl
    have herase := Dict.entries_erase_of_cons hl
    have hvalues : Dict.flatValues groups =
        Dict.values group ++ Dict.flatValues (groups.erase a) := by
      rw [Dict.flatValues, hl, Dict.flatValues, herase, List.flatMap_cons]
    rw [hvalues, List.map_append, ← List.append_assoc] at hdistinct ⊢
    have hall := removeAllSinks_spec (fun i w hi => (h.placed a group i w hlook hi).2)
      hdistinct.of_append_left
    rw [List.foldlM_cons, deleteVisited]
    simp only [hlook, hall]
    exact ih (h.erase a) _ hdistinct herase

end Groups

/-! ## Registry and ledger -/

/-- The registrations that the registry holds. -/
def Registry.registrations (r : Registry) : List Registration :=
  (Dict.flatValues r.apps).map (Registration.mk .app) ++
    (Dict.flatValues r.firehoses).map (Registration.mk .firehose)

/-- The registry agrees with the ledger. -/
structure Kept (st : State) : Prop where
  apps : WellFormed st.registry.apps
  firehoses : WellFormed st.registry.firehoses
  held : st.registry.registrations.Perm st.ledger.live
  closed : st.registry.channels.closed.Perm (st.ledger.removed.map Registration.chan)
  distinct : ((st.ledger.live ++ st.ledger.removed).map Registration.chan).Nodup
  given : ∀ reg ∈ st.ledger.live ++ st.ledger.removed, reg.chan ∈ st.given

section Kept

variable {st : State} {r' : Registry}

theorem kept_initial : Kept {} :=
  ⟨wellFormed_empty, wellFormed_empty, List.Perm.refl _, List.Perm.refl _, List.nodup_nil, by simp⟩

theorem Kept.chans_nodup (hk : Kept st) :
    (st.registry.channels.closed ++ st.registry.registrations.map Registration.chan).Nodup := by
  have hdistinct := hk.distinct
  rw [List.map_append] at hdistinct
  have hperm := hk.closed.append (hk.held.map Registration.chan)
  exact (hperm.trans List.perm_append_comm).nodup_iff.mpr hdistinct

/-- A channel that the registry holds is open. -/
theorem Kept.not_closed (hk : Kept st) {reg : Registration}
    (hreg : reg ∈ st.registry.registrations) : reg.chan ∉ st.registry.channels.closed :=
  fun hclosed => List.disjoint_of_nodup_append hk.chans_nodup hclosed
    (List.mem_map_of_mem hreg)

variable {r : Registry} {w : SinkWrapper} {appId : GoString}

theorem mem_registrations_app (hw : w ∈ Dict.flatValues r.apps) : ⟨.app, w⟩ ∈ r.registrations :=
  List.mem_append_left _ (List.mem_map_of_mem hw)

theorem mem_registrations_firehose (hw : w ∈ Dict.flatValues r.firehoses) :
    ⟨.firehose, w⟩ ∈ r.registrations :=
  List.mem_append_right _ (List.mem_map_of_mem hw)

theorem Kept.register (hk : Kept st) {kind : Kind} {ok : Bool} (hfresh : w.inputChan ∉ st.given)
    (happs : WellFormed r'.apps) (hfirehoses : WellFormed r'.firehoses)
    (hheld : r'.registrations.Perm
      ((if ok then [⟨kind, w⟩] else []) ++ st.registry.registrations))
    (hclosed : r'.channels.closed = st.registry.channels.closed) :
    Kept ⟨r', st.ledger.register kind w ok, w.inputChan :: st.given⟩ := by
  have hgiven : ∀ reg ∈ st.ledger.live ++ st.ledger.removed,
      reg.chan ∈ w.inputChan :: st.given := fun reg hreg =>
    List.mem_cons_of_mem _ (hk.given reg hreg)
  cases ok with
  | false =>
    exact ⟨happs, hfirehoses, hheld.trans hk.held, by rw [hclosed]; exact hk.closed, hk.distinct,
      hgiven⟩
  | true =>
    have hmiddle : (st.ledger.live ++ [Registration.mk kind w] ++ st.ledger.removed).Perm
        (Registration.mk kind w :: (st.ledger.live ++ st.ledger.removed)) := by
      rw [List.append_assoc, List.singleton_append]
      exact List.perm_middle
    refine ⟨happs, hfirehoses, ?_, by rw [hclosed]; exact hk.closed, ?_, ?_⟩
    · exact (hheld.trans (hk.held.cons _)).trans (List.perm_append_singleton _ _).symm
    · refine (hmiddle.map Registration.chan).nodup_iff.mpr ?_
      rw [List.map_cons, List.nodup_cons]
      refine ⟨?_, hk.distinct⟩
      intro hmem
      obtain ⟨reg, hreg, heq⟩ := List.mem_map.mp hmem
      have hgiven := hk.given reg hreg
      rw [heq] at hgiven
      exact hfresh hgiven
    · intro reg hreg
      rcases List.mem_cons.mp (hmiddle.mem_iff.mp hreg) with rfl | hreg
      · exact List.mem_cons_self
      · exact hgiven reg hreg

theorem Kept.remove (hk : Kept st) (P : Registration → Bool) (happs : WellFormed r'.apps)
    (hfirehoses : WellFormed r'.firehoses)
    (hheld : r'.registrations.Perm (st.registry.registrations.filter (fun reg => !P reg)))
    (hclosed : r'.channels.closed.Perm (st.registry.channels.closed ++
      (st.registry.registrations.filter P).map Registration.chan)) :
    Kept { st with registry := r', ledger := st.ledger.remove P } := by
  have hmoved : (st.ledger.live.filter (fun reg => !P reg) ++
      (st.ledger.removed ++ st.ledger.live.filter P)).Perm
      (st.ledger.live ++ st.ledger.removed) := by
    have hsplit := (List.filter_append_perm P st.ledger.live)
    refine List.Perm.trans ?_ (hsplit.append_right st.ledger.removed)
    refine (List.Perm.append_left _ List.perm_append_comm).trans ?_
    rw [← List.append_assoc]
    exact List.Perm.append_right _ List.perm_append_comm
  refine ⟨happs, hfirehoses, hheld.trans (hk.held.filter _), ?_, ?_, ?_⟩
  · refine hclosed.trans ?_
    simp only [Ledger.remove, List.map_append]
    exact hk.closed.append ((hk.held.filter P).map _)
  · exact (hmoved.map Registration.chan).nodup_iff.mpr hk.distinct
  · intro reg hreg
    exact hk.given reg (hmoved.mem_iff.mp hreg)

/-- Only what the channels hold is changed. -/
theorem Kept.sends (hk : Kept st) (happs : r'.apps = st.registry.apps)
    (hfirehoses : r'.firehoses = st.registry.firehoses)
    (hclosed : r'.channels.closed = st.registry.channels.closed) :
    Kept { st with registry := r' } := by
  refine ⟨?_, ?_, ?_, ?_, hk.distinct, hk.given⟩
  · rw [happs]
    exact hk.apps
  · rw [hfirehoses]
    exact hk.firehoses
  · rw [Registry.registrations, happs, hfirehoses]
    exact hk.held
  · rw [hclosed]
    exact hk.closed

theorem Kept.registerAppSink (hk : Kept st) {c : Chan} (hfresh : c ∉ st.given) (sink : Sink) :
    Kept ⟨(st.registry.registerAppSink c sink).2,
      st.ledger.register .app ⟨c, sink⟩ (st.registry.registerAppSink c sink).1,
      c :: st.given⟩ := by
  unfold Registry.registerAppSink
  split
  · exact hk.register hfresh hk.apps hk.firehoses (List.Perm.refl _) rfl
  · obtain ⟨hwf, hperm⟩ := register_spec hk.apps c sink
    refine hk.register hfresh hwf hk.firehoses ?_ rfl
    simp only [Registry.registrations]
    refine ((hperm.map _).append_right _).trans ?_
    rw [List.map_append, List.append_assoc]
    split <;> exact List.Perm.refl _

theorem Kept.registerFirehoseSink (hk : Kept st) {c : Chan} (hfresh : c ∉ st.given) (sink : Sink) :
    Kept ⟨(st.registry.registerFirehoseSink c sink).2,
      st.ledger.register .firehose ⟨c, sink⟩ (st.registry.registerFirehoseSink c sink).1,
      c :: st.given⟩ := by
  unfold Registry.registerFirehoseSink
  split
  · exact hk.register hfresh hk.apps hk.firehoses (List.Perm.refl _) rfl
  · obtain ⟨hwf, hperm⟩ := register_spec hk.firehoses c sink
    refine hk.register hfresh hk.apps hwf ?_ rfl
    simp only [Registry.registrations]
    refine ((hperm.map _).append_left _).trans ?_
    rw [List.map_append, ← List.append_assoc, ← List.append_assoc]
    refine List.Perm.append_right _ (List.perm_append_comm.trans ?_)
    split <;> exact List.Perm.refl _

/-- The registrations that `CloseAndDelete` means, and the others. -/
theorem filter_meant_app (r : Registry) (sink : Sink) :
    r.registrations.filter (Registration.Meant .app sink) =
        ((Dict.flatValues r.apps).filter (fun w => decide (w.sink.key = sink.key))).map
          (Registration.mk .app) ∧
      r.registrations.filter (fun reg => !reg.Meant .app sink) =
        ((Dict.flatValues r.apps).filter (fun w => !decide (w.sink.key = sink.key))).map
          (Registration.mk .app) ++
        (Dict.flatValues r.firehoses).map (Registration.mk .firehose) := by
  constructor
  · have hnone : Registration.Meant .app sink ∘ Registration.mk .firehose = fun _ => false := rfl
    rw [Registry.registrations, List.filter_append, List.filter_map, List.filter_map, hnone,
      List.filter_false, List.map_nil, List.append_nil]
    rfl
  · have hall : (fun reg => !Registration.Meant .app sink reg) ∘ Registration.mk .firehose =
      fun _ => true := rfl
    rw [Registry.registrations, List.filter_append, List.filter_map, List.filter_map, hall,
      List.filter_true]
    rfl

/-- The registrations that `CloseAndDeleteFirehose` means, and the others. -/
theorem filter_meant_firehose (r : Registry) (sink : Sink) :
    r.registrations.filter (Registration.Meant .firehose sink) =
        ((Dict.flatValues r.firehoses).filter (fun w => decide (w.sink.key = sink.key))).map
          (Registration.mk .firehose) ∧
      r.registrations.filter (fun reg => !reg.Meant .firehose sink) =
        (Dict.flatValues r.apps).map (Registration.mk .app) ++
        ((Dict.flatValues r.firehoses).filter (fun w => !decide (w.sink.key = sink.key))).map
          (Registration.mk .firehose) := by
  constructor
  · have hnone : Registration.Meant .firehose sink ∘ Registration.mk .app = fun _ => false := rfl
    rw [Registry.registrations, List.filter_append, List.filter_map, List.filter_map, hnone,
      List.filter_false, List.map_nil, List.nil_append]
    rfl
  · have hall : (fun reg => !Registration.Meant .firehose sink reg) ∘ Registration.mk .app =
      fun _ => true := rfl
    rw [Registry.registrations, List.filter_append, List.filter_map, List.filter_map, hall,
      List.filter_true]
    rfl

theorem Kept.closeAndDelete (hk : Kept st) (sink : Sink) :
    ∃ removed r', st.registry.closeAndDelete sink = .ok (removed, r') ∧
      Kept { st with
        registry := r', ledger := st.ledger.remove (Registration.Meant .app sink) } := by
  obtain ⟨removed, apps, cs, hdelete, hwf, hheld, hclosed⟩ :=
    delete_spec hk.apps sink (fun w => decide (w.sink.key = sink.key)) (by simp)
      (fun w hw => hk.not_closed (mem_registrations_app hw))
  refine ⟨removed, { st.registry with apps := apps, channels := cs }, ?_,
    hk.remove _ hwf hk.firehoses ?_ ?_⟩
  · rw [Registry.closeAndDelete, hdelete]
    rfl
  · rw [(filter_meant_app st.registry sink).2]
    exact (hheld.map _).append_right _
  · rw [(filter_meant_app st.registry sink).1, List.map_map]
    exact hclosed

theorem Kept.closeAndDeleteFirehose (hk : Kept st) (sink : Sink) :
    ∃ removed r', st.registry.closeAndDeleteFirehose sink = .ok (removed, r') ∧
      Kept { st with
        registry := r', ledger := st.ledger.remove (Registration.Meant .firehose sink) } := by
  obtain ⟨removed, firehoses, cs, hdelete, hwf, hheld, hclosed⟩ :=
    delete_spec hk.firehoses sink (fun w => decide (w.sink.key = sink.key)) (by simp)
      (fun w hw => hk.not_closed (mem_registrations_firehose hw))
  refine ⟨removed, { st.registry with firehoses := firehoses, channels := cs }, ?_,
    hk.remove _ hk.apps hwf ?_ ?_⟩
  · rw [Registry.closeAndDeleteFirehose, hdelete]
    rfl
  · rw [(filter_meant_firehose st.registry sink).2]
    exact (hheld.map _).append_left _
  · rw [(filter_meant_firehose st.registry sink).1, List.map_map]
    exact hclosed

theorem Kept.deleteAll (hk : Kept st) :
    ∃ r', st.registry.deleteAll = .ok r' ∧
      Kept { st with registry := r', ledger := st.ledger.remove (fun _ => true) } := by
  have hdistinct := hk.chans_nodup
  rw [Registry.registrations, List.map_append, List.map_map, List.map_map,
    ← List.append_assoc] at hdistinct
  have happs := deleteGroups_spec hk.apps _ hdistinct.of_append_left
  have hfirehoses := deleteGroups_spec hk.firehoses ⟨st.registry.channels.channel,
    st.registry.channels.closed ++
      (Dict.flatValues st.registry.apps).map SinkWrapper.inputChan⟩ hdistinct
  refine ⟨{ st.registry with
    apps := ∅
    firehoses := ∅
    channels := ⟨st.registry.channels.channel, st.registry.channels.closed ++
      (Dict.flatValues st.registry.apps).map SinkWrapper.inputChan ++
      (Dict.flatValues st.registry.firehoses).map SinkWrapper.inputChan⟩ }, ?_,
    hk.remove _ wellFormed_empty wellFormed_empty ?_ ?_⟩
  · simp only [Registry.deleteAll, happs, bind, Except.bind, hfirehoses]
    rfl
  · simp [Registry.registrations, Dict.flatValues]
  · rw [List.filter_true, Registry.registrations, List.map_append, List.map_map, List.map_map,
      ← List.append_assoc]
    exact List.Perm.refl _

/-- A non-blocking send on an open channel. -/
theorem trySend_ok {cs : Channels} {c : Chan} (hopen : c ∉ cs.closed) (msg : Events.Envelope) :
    ∃ sent cs', cs.trySend c msg = .ok (sent, cs') ∧ cs'.closed = cs.closed := by
  rw [Channels.trySend, if_neg hopen]
  split
  · exact ⟨true, _, rfl, rfl⟩
  · exact ⟨false, cs, rfl, rfl⟩

/-- The sends of a broadcast leave the groups and the closed channels alone. -/
def Registry.Same (r r' : Registry) : Prop :=
  r'.apps = r.apps ∧ r'.firehoses = r.firehoses ∧ r'.channels.closed = r.channels.closed

theorem send_ok (hopen : w.inputChan ∉ r.channels.closed) (msg : Events.Envelope) :
    ∃ r', r.send msg w = .ok r' ∧ r.Same r' := by
  obtain ⟨sent, cs', hsend, hclosed⟩ := trySend_ok hopen msg
  rw [Registry.send, hsend]
  exact ⟨_, rfl, rfl, rfl, hclosed⟩

theorem sendError_ok (hopen : w.inputChan ∉ r.channels.closed) (msg : Events.Envelope) :
    ∃ r', r.sendError msg w = .ok r' ∧ r.Same r' := by
  obtain ⟨sent, cs', hsend, hclosed⟩ := trySend_ok hopen msg
  rw [Registry.sendError, hsend]
  exact ⟨_, rfl, rfl, rfl, hclosed⟩

theorem Registry.Same.trans {r₁ r₂ r₃ : Registry} (h : r₁.Same r₂) (h' : r₂.Same r₃) :
    r₁.Same r₃ :=
  ⟨h'.1.trans h.1, h'.2.1.trans h.2.1, h'.2.2.trans h.2.2⟩

theorem Registry.Same.rfl : r.Same r := ⟨Eq.refl _, Eq.refl _, Eq.refl _⟩

/-- A loop of sends to wrappers of the registry, with a choice for each turn of where to send. -/
theorem Kept.foldlM_send (hk : Kept st) {α : Type} {f : Registry → α → Except Panic Registry}
    {l : List α} (hr : st.registry.Same r)
    (hturn : ∀ r, st.registry.Same r → ∀ a ∈ l, f r a = .ok r ∨
      ∃ reg ∈ st.registry.registrations, ∃ msg,
        f r a = r.send msg reg.wrapper ∨ f r a = r.sendError msg reg.wrapper) :
    ∃ r', l.foldlM f r = .ok r' ∧ st.registry.Same r' := by
  refine foldlM_ok (fun r hr a ha => ?_) hr
  rcases hturn r hr a ha with heq | ⟨reg, hreg, msg, heq⟩
  · exact ⟨r, heq, hr⟩
  · have hopen : reg.wrapper.inputChan ∉ r.channels.closed := by
      rw [hr.2.2]
      exact hk.not_closed hreg
    rcases heq with heq | heq
    · obtain ⟨r', hsend, hsame⟩ := send_ok hopen msg
      exact ⟨r', heq.trans hsend, hr.trans hsame⟩
    · obtain ⟨r', hsend, hsame⟩ := sendError_ok hopen msg
      exact ⟨r', heq.trans hsend, hr.trans hsame⟩

theorem Kept.group_app {group : AppGroup} (hg : st.registry.apps.lookup appId = some group)
    (hw : w ∈ Dict.values group) :
    ⟨.app, w⟩ ∈ st.registry.registrations := by
  obtain ⟨i, hi⟩ := Dict.mem_values.mp hw
  exact mem_registrations_app (Dict.mem_flatValues.mpr ⟨appId, i, by rw [hg]; exact hi⟩)

variable (hk : Kept st)
include hk

theorem Kept.broadcastMessage {group : AppGroup} (hg : st.registry.apps.lookup appId = some group)
    (msg : Events.Envelope) :
    ∃ r', st.registry.broadcastMessage group msg = .ok r' ∧ st.registry.Same r' :=
  hk.foldlM_send .rfl (fun _ _ _ hw => Or.inr ⟨_, Kept.group_app hg hw, msg, Or.inl rfl⟩)

theorem Kept.broadcastErrorMessage (other : Sink → Bool) {group : AppGroup}
    (hg : st.registry.apps.lookup appId = some group) (msg : Events.Envelope) :
    ∃ r', st.registry.broadcastErrorMessage other group msg = .ok r' ∧ st.registry.Same r' := by
  refine hk.foldlM_send .rfl (fun r _ w hw => ?_)
  by_cases herr : shouldReceiveErrors other w.sink = true
  · exact Or.inr ⟨_, Kept.group_app hg hw, msg, Or.inr (by rw [if_pos herr])⟩
  · exact Or.inl (by rw [if_neg herr])

theorem Kept.broadcastMessageToFirehoses (rand : GoString → Nat) (msg : Events.Envelope)
    (hr : st.registry.Same r) :
    ∃ r', r.broadcastMessageToFirehoses rand msg = .ok r' ∧ st.registry.Same r' := by
  unfold Registry.broadcastMessageToFirehoses
  rw [hr.2.1]
  refine hk.foldlM_send hr (fun r _ p hp => ?_)
  cases hw : randomWrapper p.2 (rand p.1) with
  | none => exact Or.inl rfl
  | some w =>
    obtain ⟨i, hi⟩ := Dict.mem_values.mp (List.mem_of_getElem? hw)
    have hmem : w ∈ Dict.flatValues st.registry.firehoses :=
      Dict.mem_flatValues.mpr ⟨p.1, i, by rw [AList.mem_lookup_iff.mpr hp]; exact hi⟩
    exact Or.inr ⟨_, mem_registrations_firehose hmem, msg, Or.inl rfl⟩

theorem Kept.broadcast (rand : GoString → Nat) (appId : GoString) (msg : Events.Envelope) :
    ∃ r', st.registry.broadcast rand appId msg = .ok r' ∧ st.registry.Same r' := by
  unfold Registry.broadcast
  cases hg : st.registry.apps.lookup appId with
  | none => exact hk.broadcastMessageToFirehoses rand msg .rfl
  | some group =>
    obtain ⟨r₁, happ, hsame⟩ := hk.broadcastMessage hg msg
    simp only [happ]
    exact hk.broadcastMessageToFirehoses rand msg hsame

theorem Kept.broadcastError (other : Sink → Bool) (rand : GoString → Nat) (appId : GoString)
    (msg : Events.Envelope) :
    ∃ r', st.registry.broadcastError other rand appId msg = .ok r' ∧ st.registry.Same r' := by
  unfold Registry.broadcastError
  cases hg : st.registry.apps.lookup appId with
  | none => exact hk.broadcastMessageToFirehoses rand msg .rfl
  | some group =>
    obtain ⟨r₁, happ, hsame⟩ := hk.broadcastErrorMessage other hg msg
    simp only [happ]
    exact hk.broadcastMessageToFirehoses rand msg hsame

/-- No call panics, and each keeps the agreement with the ledger. -/
theorem Kept.apply {a : Action} (hfresh : Fresh (.ok st) a) :
    ∃ st', st.apply a = .ok st' ∧ Kept st' := by
  cases a with
  | registerAppSink c sink => exact ⟨_, rfl, hk.registerAppSink hfresh sink⟩
  | registerFirehoseSink c sink => exact ⟨_, rfl, hk.registerFirehoseSink hfresh sink⟩
  | closeAndDelete sink =>
    obtain ⟨removed, r', hcall, hk'⟩ := hk.closeAndDelete sink
    exact ⟨_, by rw [State.apply, hcall]; rfl, hk'⟩
  | closeAndDeleteFirehose sink =>
    obtain ⟨removed, r', hcall, hk'⟩ := hk.closeAndDeleteFirehose sink
    exact ⟨_, by rw [State.apply, hcall]; rfl, hk'⟩
  | deleteAll =>
    obtain ⟨r', hcall, hk'⟩ := hk.deleteAll
    exact ⟨_, by rw [State.apply, hcall]; rfl, hk'⟩
  | broadcast rand appId msg =>
    obtain ⟨r', hcall, happs, hfirehoses, hclosed⟩ := hk.broadcast rand appId msg
    exact ⟨_, by rw [State.apply, hcall]; rfl, hk.sends happs hfirehoses hclosed⟩
  | broadcastError other rand appId msg =>
    obtain ⟨r', hcall, happs, hfirehoses, hclosed⟩ := hk.broadcastError other rand appId msg
    exact ⟨_, by rw [State.apply, hcall]; rfl, hk.sends happs hfirehoses hclosed⟩
  | consume c ch => exact ⟨_, rfl, hk.sends rfl rfl rfl⟩

end Kept

theorem kept_of_reachable {s : Except Panic State}
    (hs : Reachable step Fresh (.ok {}) s) : ∃ st, s = .ok st ∧ Kept st := by
  refine hs.invariant (P := fun s => ∃ st, s = .ok st ∧ Kept st) ⟨{}, rfl, kept_initial⟩ ?_
  rintro _ a s' ⟨st, rfl, hk⟩ hfresh hstep
  obtain ⟨st', hcall, hk'⟩ := hk.apply hfresh
  rw [step, hcall] at hstep
  cases hstep
  exact ⟨st', rfl, hk'⟩

/-- The life of the registrations in a state of the registry. -/
structure State.Lifecycle (st : State) : Prop where
  apps : WellFormed st.registry.apps
  firehoses : WellFormed st.registry.firehoses
  /-- The registry holds the registrations that succeeded and were not removed. -/
  held : st.registry.registrations.Perm st.ledger.live
  distinct : (st.registry.registrations.map Registration.chan).Nodup
  not_closed : ∀ reg ∈ st.registry.registrations, reg.chan ∉ st.registry.channels.closed
  /-- Channels of removed registrations were closed once, and no others were. -/
  closed : ∀ c, st.registry.channels.closed.count c =
    if c ∈ st.ledger.removed.map Registration.chan then 1 else 0

/-- No run of calls panics when every register call is given a fresh channel, and every state of
it has the lifecycle. -/
theorem registry_lifecycle {s : Except Panic State} (hs : Reachable step Fresh (.ok {}) s) :
    ∃ st, s = .ok st ∧ st.Lifecycle := by
  obtain ⟨st, rfl, hk⟩ := kept_of_reachable hs
  have hnodup := hk.chans_nodup
  refine ⟨st, rfl, hk.apps, hk.firehoses, hk.held, hnodup.of_append_right,
    fun _ hreg => hk.not_closed hreg, ?_⟩
  intro c
  split
  · next hmem =>
    exact List.count_eq_one_of_mem hnodup.of_append_left (hk.closed.mem_iff.mpr hmem)
  · next hnot => exact List.count_eq_zero_of_not_mem (fun hmem => hnot (hk.closed.mem_iff.mp hmem))

/-- Two sinks of an application, one of which is registered again, and a sink of a firehose. One
is removed, a message is broadcast and the rest is deleted. -/
def registryCalls : List Action :=
  let sink : Sink := ⟨0, str "app", str "a", .dumpSink⟩
  [.registerAppSink 0 sink, .registerAppSink 1 ⟨1, str "app", str "b", .syslogSink⟩,
   .registerAppSink 2 sink, .registerFirehoseSink 3 ⟨2, str "sub", str "", .websocketSink⟩,
   .consume 0 ⟨1, []⟩, .broadcast (fun _ => 0) (str "app") { eventType := .logMessage },
   .closeAndDelete sink, .closeAndDelete sink,
   .broadcastError (fun _ => true) (fun _ => 5) (str "app") { eventType := .logMessage },
   .deleteAll]

theorem registryCalls_lifecycle :
    ∃ st, run (guarded step Fresh) (.ok {}) registryCalls = some (.ok st) ∧
      st.registry.channels.closed = [0, 1, 3] ∧ st.registry.dropped = 3 ∧ st.Lifecycle := by
  have hrun : (run (guarded step Fresh) (.ok {}) registryCalls).map (fun s =>
      match s with
      | .ok st => some (st.registry.channels.closed, st.registry.dropped)
      | .error _ => none) = some (some ([0, 1, 3], 3)) := by decide
  obtain ⟨s, hs, hfinal⟩ := Option.map_eq_some_iff.mp hrun
  obtain ⟨st, rfl, hlife⟩ := registry_lifecycle (Reachable.refl.of_guarded hs)
  simp only [Option.some.injEq, Prod.mk.injEq] at hfinal
  exact ⟨st, hs, hfinal.1, hfinal.2, hlife⟩

end Loggregator.Doppler.SinkRegistry
