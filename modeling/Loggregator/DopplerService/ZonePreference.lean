import Loggregator.DopplerService.Finder
import Loggregator.Lib.Path
import Mathlib.Data.List.Perm.Subperm

/-!
# The preferred zone of a finder

`sendEvent` of `dopplerservice/finder.go` takes the dopplers whose key has the name of the
preferred zone as a prefix, and all dopplers if it found no address there. The name of a zone may
be a prefix of another one, and addresses for gRPC do not count when it decides that it found none.
So the dopplers that it takes, the scope, need not be those of the zone.
-/

namespace Loggregator.DopplerService

open Lib

/-! ## Addresses of dopplers -/

/-- The zone in a key of the form `zone/job/index`. -/
def zoneOf (doppler : GoString) : GoString := doppler.takeWhile (fun c => c != Path.sep)

/-- The addresses of all dopplers of a visit. -/
def addrsOf (visit : Visit) : List GoString := visit.flatMap (fun p => p.2)

/-- The doppler has an address of a recognised protocol. -/
def Contributes (p : Sigma fun _ : GoString => List GoString) : Prop :=
  ∃ addr ∈ p.2, (protocolOf addr).isSome

instance (p : Sigma fun _ : GoString => List GoString) : Decidable (Contributes p) :=
  inferInstanceAs (Decidable (∃ addr ∈ p.2, _))

/-- The number of addresses in an event. -/
def Event.size (e : Event) : Nat :=
  e.grpcDopplers.length + e.udpDopplers.length + e.tlsDopplers.length + e.tcpDopplers.length

/-- Every address of the first event is one of the second, counted as often as it occurs. -/
structure Event.Within (e e' : Event) : Prop where
  grpc : e.grpcDopplers.Subperm e'.grpcDopplers
  udp : e.udpDopplers.Subperm e'.udpDopplers
  tls : e.tlsDopplers.Subperm e'.tlsDopplers
  tcp : e.tcpDopplers.Subperm e'.tcpDopplers

namespace Event

variable {e e' e'' : Event}

theorem Same.symm (h : e.Same e') : e'.Same e :=
  ⟨h.grpc.symm, h.udp.symm, h.tls.symm, h.tcp.symm⟩

theorem Same.within (h : e.Same e') : e.Within e' :=
  ⟨h.grpc.subperm, h.udp.subperm, h.tls.subperm, h.tcp.subperm⟩

theorem Within.trans (h : e.Within e') (h' : e'.Within e'') : e.Within e'' :=
  ⟨h.grpc.trans h'.grpc, h.udp.trans h'.udp, h.tls.trans h'.tls, h.tcp.trans h'.tcp⟩

theorem Within.size_le (h : e.Within e') : e.size ≤ e'.size := by
  have hgrpc := h.grpc.length_le
  have hudp := h.udp.length_le
  have htls := h.tls.length_le
  have htcp := h.tcp.length_le
  unfold size
  omega

end Event

section EventOf

variable (f : Finder)

theorem size_eventOf (addrs : List GoString) :
    (f.eventOf addrs).size = addrs.countP (fun a => (protocolOf a).isSome) := by
  induction addrs with
  | nil => rfl
  | cons a addrs ih =>
    rw [Event.size] at ih ⊢
    simp only [Finder.eventOf, List.length_map] at ih ⊢
    rw [List.countP_cons, ← ih]
    rcases hproto : protocolOf a with _ | _ | _ | _ | _ <;> simp [hproto] <;> omega

/-- Addresses of no recognised protocol leave no trace. -/
theorem eventOf_append {addrs addrs' : List GoString} (h : ∀ a ∈ addrs', protocolOf a = none) :
    f.eventOf (addrs ++ addrs') = f.eventOf addrs := by
  have hnone : ∀ p, addrs'.filter (fun a => protocolOf a = some p) = [] := by
    intro p
    rw [List.filter_eq_nil_iff]
    intro a ha
    simp [h a ha]
  simp [Finder.eventOf, hnone]

theorem empty_eventOf_iff (addrs : List GoString) :
    (f.eventOf addrs).empty = true ↔
      ∀ a ∈ addrs, protocolOf a = none ∨ protocolOf a = some .ws := by
  simp only [Event.empty, Finder.eventOf, Bool.and_eq_true, List.isEmpty_iff, List.map_eq_nil_iff,
    List.filter_eq_nil_iff, decide_eq_true_eq]
  constructor
  · rintro ⟨⟨hudp, htcp⟩, htls⟩ a ha
    cases hproto : protocolOf a with
    | none => exact .inl rfl
    | some p =>
      cases p with
      | udp => exact absurd hproto (hudp a ha)
      | tcp => exact absurd hproto (htcp a ha)
      | tls => exact absurd hproto (htls a ha)
      | ws => exact .inr rfl
  · intro hall
    refine ⟨⟨?_, ?_⟩, ?_⟩ <;>
    · intro a ha hproto
      rcases hall a ha with h | h <;> rw [hproto] at h <;> cases h

theorem addrsOf_perm (visit : Visit) (q : (Sigma fun _ : GoString => List GoString) → Bool) :
    (addrsOf visit).Perm (addrsOf (visit.filter q) ++ addrsOf (visit.filter (fun p => !q p))) := by
  rw [addrsOf, addrsOf, addrsOf, ← List.flatMap_append]
  exact (List.filter_append_perm q visit).symm.flatMap_right _

variable {visit : Visit} {q : (Sigma fun _ : GoString => List GoString) → Bool}

/-- Dopplers that contribute nothing may be left out. -/
theorem eventOf_filter_same (h : ∀ p ∈ visit, Contributes p → q p = true) :
    (f.eventOf (addrsOf (visit.filter q))).Same (f.eventOf (addrsOf visit)) := by
  have hnone : ∀ a ∈ addrsOf (visit.filter (fun p => !q p)), protocolOf a = none := by
    intro a ha
    obtain ⟨p, hp, ha⟩ := List.mem_flatMap.mp ha
    obtain ⟨hp, hq⟩ := List.mem_filter.mp hp
    rw [← Option.not_isSome_iff_eq_none]
    intro hsome
    rw [h p hp ⟨a, ha, hsome⟩] at hq
    cases hq
  rw [← eventOf_append f hnone]
  exact eventOf_same f (addrsOf_perm visit q).symm

/-- If an event is not larger than that of some of its dopplers, the others contribute nothing. -/
theorem of_size_le (h : (f.eventOf (addrsOf visit)).size ≤
    (f.eventOf (addrsOf (visit.filter q))).size) : ∀ p ∈ visit, Contributes p → q p = true := by
  have hparts := (addrsOf_perm visit q).countP_eq (fun a => (protocolOf a).isSome)
  rw [List.countP_append] at hparts
  rw [size_eventOf, size_eventOf, hparts] at h
  rintro p hp ⟨a, ha, hsome⟩
  rw [← Bool.not_eq_false]
  intro hq
  have hmem : a ∈ addrsOf (visit.filter (fun p => !q p)) :=
    List.mem_flatMap.mpr ⟨p, List.mem_filter.mpr ⟨hp, by rw [hq]; rfl⟩, ha⟩
  have hpos : 0 < (addrsOf (visit.filter (fun p => !q p))).countP
      (fun a => (protocolOf a).isSome) := List.countP_pos_iff.mpr ⟨a, hmem, hsome⟩
  omega

theorem eventOf_within_iff :
    (f.eventOf (addrsOf visit)).Within (f.eventOf (addrsOf (visit.filter q))) ↔
      ∀ p ∈ visit, Contributes p → q p = true :=
  ⟨fun h => of_size_le f h.size_le, fun h => (eventOf_filter_same f h).symm.within⟩

theorem eventOf_same_iff :
    (f.eventOf (addrsOf (visit.filter q))).Same (f.eventOf (addrsOf visit)) ↔
      ∀ p ∈ visit, Contributes p → q p = true :=
  ⟨fun h => of_size_le f h.symm.within.size_le, eventOf_filter_same f⟩

end EventOf

/-! ## The scope -/

namespace Finder

variable (f : Finder) (visit : Visit)

/-- No doppler with the prefix has an address for udp, tcp or tls. -/
def FallsBack : Prop :=
  ∀ p ∈ visit, hasPrefix p.1 f.preferredDopplerZone = true →
    ∀ addr ∈ p.2, protocolOf addr = none ∨ protocolOf addr = some .ws

instance : Decidable (f.FallsBack visit) :=
  inferInstanceAs (Decidable (∀ p ∈ visit, _ → ∀ addr ∈ p.2, _))

/-- The dopplers whose addresses `sendEvent` takes. -/
def InScope (p : Sigma fun _ : GoString => List GoString) : Prop :=
  f.FallsBack visit ∨ hasPrefix p.1 f.preferredDopplerZone = true

instance (p : Sigma fun _ : GoString => List GoString) : Decidable (f.InScope visit p) :=
  inferInstanceAs (Decidable (_ ∨ _))

/-- Some doppler of the preferred zone contributes. -/
def ZoneContributes : Prop :=
  ∃ p ∈ visit, zoneOf p.1 = f.preferredDopplerZone ∧ Contributes p

instance : Decidable (f.ZoneContributes visit) :=
  inferInstanceAs (Decidable (∃ p ∈ visit, _ ∧ _))

/-- The addresses of the dopplers of the preferred zone. -/
def zoneAddrs : List GoString :=
  addrsOf (visit.filter (fun p => decide (zoneOf p.1 = f.preferredDopplerZone)))

/-- If the preferred zone contributes, every address comes from there, and otherwise the event
has the addresses of all dopplers. -/
structure ZoneLaw (e : Event) : Prop where
  preferred : f.ZoneContributes visit → e.Within (f.eventOf (f.zoneAddrs visit))
  otherwise : ¬ f.ZoneContributes visit → e.Same (f.eventOf (addrsOf visit))

end Finder

theorem hasPrefix_of_zoneOf {doppler zone : GoString} (h : zoneOf doppler = zone) :
    hasPrefix doppler zone = true := by
  rw [hasPrefix, List.isPrefixOf_iff_prefix, ← h]
  exact List.takeWhile_prefix _

section Scope

variable {f : Finder} {visit : Visit}

theorem fallsBack_iff :
    (f.eventWithPrefix f.preferredDopplerZone visit).empty = true ↔ f.FallsBack visit := by
  rw [eventWithPrefix_eq, empty_eventOf_iff]
  simp only [addrsWithPrefix, List.mem_flatMap, List.mem_filter, Finder.FallsBack]
  constructor
  · intro h p hp hprefix a ha
    exact h a ⟨p, ⟨hp, hprefix⟩, ha⟩
  · rintro h a ⟨p, ⟨hp, hprefix⟩, ha⟩
    exact h p hp hprefix a ha

/-- The event of `sendEvent` has the addresses of the scope. -/
theorem eventFor_eq (f : Finder) (visit : Visit) :
    ∃ q : (Sigma fun _ : GoString => List GoString) → Bool,
      (∀ p, q p = true ↔ f.InScope visit p) ∧
      f.eventFor visit = f.eventOf (addrsOf (visit.filter q)) := by
  unfold Finder.eventFor
  by_cases hback : (f.eventWithPrefix f.preferredDopplerZone visit).empty = true
  · refine ⟨fun _ => true, fun p => ?_, ?_⟩
    · exact iff_of_true rfl (.inl (fallsBack_iff.mp hback))
    · rw [if_pos hback, eventWithPrefix_eq]
      rfl
  · refine ⟨fun p => hasPrefix p.1 f.preferredDopplerZone, fun p => ?_, ?_⟩
    · rw [Finder.InScope, or_iff_right (mt fallsBack_iff.mpr hback)]
    · rw [if_neg hback, eventWithPrefix_eq]
      rfl

/-- The law for the event of a visit, by the dopplers in the scope. -/
theorem zoneLaw_eventFor_iff (f : Finder) (visit : Visit) :
    f.ZoneLaw visit (f.eventFor visit) ↔
      (f.ZoneContributes visit → ∀ p ∈ visit, Contributes p → f.InScope visit p →
        zoneOf p.1 = f.preferredDopplerZone) ∧
      (¬ f.ZoneContributes visit → ∀ p ∈ visit, Contributes p → f.InScope visit p) := by
  obtain ⟨q, hq, hevent⟩ := eventFor_eq f visit
  -- a doppler of the zone is in the scope
  have hzone : f.zoneAddrs visit = addrsOf ((visit.filter q).filter
      (fun p => decide (zoneOf p.1 = f.preferredDopplerZone))) := by
    rw [Finder.zoneAddrs, List.filter_filter]
    congr 1
    refine List.filter_congr (fun p _ => ?_)
    by_cases hp : zoneOf p.1 = f.preferredDopplerZone
    · simp [hp, (hq p).mpr (.inr (hasPrefix_of_zoneOf hp))]
    · simp [hp]
  have hpreferred : (f.eventFor visit).Within (f.eventOf (f.zoneAddrs visit)) ↔
      ∀ p ∈ visit, Contributes p → f.InScope visit p → zoneOf p.1 = f.preferredDopplerZone := by
    rw [hevent, hzone, eventOf_within_iff]
    simp only [List.mem_filter, hq, decide_eq_true_eq, and_imp]
    exact ⟨fun h p hp hc hs => h p hp hs hc, fun h p hp hs hc => h p hp hc hs⟩
  have hotherwise : (f.eventFor visit).Same (f.eventOf (addrsOf visit)) ↔
      ∀ p ∈ visit, Contributes p → f.InScope visit p := by
    rw [hevent, eventOf_same_iff]
    simp only [hq]
  rw [← hpreferred, ← hotherwise]
  exact ⟨fun h => ⟨h.preferred, h.otherwise⟩, fun h => ⟨h.1, h.2⟩⟩

theorem Finder.ZoneLaw.of_same {e e' : Event} (h : f.ZoneLaw visit e) (hsame : e'.Same e) :
    f.ZoneLaw visit e' :=
  ⟨fun hzone => hsame.within.trans (h.preferred hzone),
    fun hzone => hsame.trans (h.otherwise hzone)⟩

end Scope

/-- For every list of protocols, every name of the preferred zone and all contents of the maps,
the event of `sendEvent` obeys the preference exactly if no doppler of another zone contributes to
its scope when the zone contributes, and all dopplers that contribute are in its scope when the
zone does not. The scope are the dopplers whose key has the name as a prefix, or all if none of
these has an address other than for gRPC. -/
theorem zone_preference_iff (f : Finder) (maps : Maps) {chosen : Dict GoString (List GoString)}
    (hchosen : f.chooseAddrs maps = .ok chosen) {e : Event} (he : f.Current maps e) :
    f.ZoneLaw chosen.entries e ↔
      (f.ZoneContributes chosen.entries →
        ∀ p ∈ chosen.entries, Contributes p → f.InScope chosen.entries p →
          zoneOf p.1 = f.preferredDopplerZone) ∧
      (¬ f.ZoneContributes chosen.entries →
        ∀ p ∈ chosen.entries, Contributes p → f.InScope chosen.entries p) := by
  have hsame : e.Same (f.eventFor chosen.entries) := by
    obtain ⟨e', he', hsame⟩ := he
    rw [Finder.event, hchosen] at he'
    cases he'
    exact hsame
  rw [← zoneLaw_eventFor_iff]
  exact ⟨fun h => h.of_same hsame.symm, fun h => h.of_same hsame⟩

/-- A finder that prefers the zone `z1`. -/
def zoneFinder : Finder where
  legacyPort := 3457
  grpcPort := 8082
  protocols := [str "udp"]
  preferredDopplerZone := str "z1"

/-- A doppler of `z1` and one of another zone, each with one address. -/
def twoDopplers (addr other otherAddr : GoString) : Maps where
  metaEndpoints := ((∅ : Dict GoString (List GoString)).insert (str "z1/doppler/0") [addr]).insert
    other [otherAddr]

def otherZone : Maps :=
  twoDopplers (str "udp://10.0.0.1:3457") (str "z2/doppler/0") (str "udp://10.0.0.2:3457")

theorem zone_preference_otherZone :
    ∃ e, zoneFinder.event otherZone = .ok e ∧ e.udpDopplers = [str "10.0.0.1:3457"] ∧
      zoneFinder.ZoneLaw otherZone.metaEndpoints.entries e := by
  have hcurrent : zoneFinder.Current otherZone
      (zoneFinder.eventFor otherZone.metaEndpoints.entries) := ⟨_, rfl, .refl _⟩
  exact ⟨_, rfl, by decide, (zone_preference_iff zoneFinder otherZone rfl hcurrent).mpr (by decide)⟩

/-- The other zone has the preferred one as a prefix. -/
def longerZone : Maps :=
  twoDopplers (str "udp://10.0.0.1:3457") (str "z10/doppler/0") (str "udp://10.0.0.9:3457")

/-- The addresses are for gRPC only. -/
def grpcOnly : Maps :=
  twoDopplers (str "ws://10.0.0.1:8081") (str "z2/doppler/0") (str "ws://10.0.0.2:8081")

/-- The address of a doppler in `z10` is taken for one in `z1`, and a doppler of `z1` that has an
address for gRPC only is not enough for its zone to be preferred. -/
theorem zone_preference_fails :
    (∃ e, zoneFinder.event longerZone = .ok e ∧
      e.udpDopplers = [str "10.0.0.9:3457", str "10.0.0.1:3457"] ∧
      ¬ zoneFinder.ZoneLaw longerZone.metaEndpoints.entries e) ∧
    ∃ e, zoneFinder.event grpcOnly = .ok e ∧
      e.grpcDopplers = [str "10.0.0.2:8082", str "10.0.0.1:8082"] ∧
      ¬ zoneFinder.ZoneLaw grpcOnly.metaEndpoints.entries e := by
  constructor
  · refine ⟨_, rfl, by decide, ?_⟩
    intro hlaw
    exact absurd ((zoneLaw_eventFor_iff _ _).mp hlaw) (by decide)
  · refine ⟨_, rfl, by decide, ?_⟩
    intro hlaw
    exact absurd ((zoneLaw_eventFor_iff _ _).mp hlaw) (by decide)

end Loggregator.DopplerService
