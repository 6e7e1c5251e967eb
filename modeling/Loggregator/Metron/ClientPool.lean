import Loggregator.Lib.Bytes
import Loggregator.Plumbing.Envelope
import Loggregator.Plumbing.Pool

/-!
# The client pools of metron

`metron/internal/clientpool`: `ClientPool.Write` starts at a random connection and tries one after
the other until a write succeeds. The two versions of the package differ in what they write.

The index of the connection is computed with the machine's integers, as in `Pool.fetchClient`, so
the three loops share their indices. For a seed at the end of the range the sum wraps around and
the loop leaves the slice; for every other seed it goes round the connections once.
-/

namespace Loggregator.Metron.ClientPool

open Lib Lib.RoundRobin

variable {μ σ : Type}

/-- The interface `Conn`: what `Write` does to the world, and nil or an error. -/
structure Conn (μ σ : Type) where
  write : μ → σ → Option GoString × σ

/-- A call of `Write` of the connection with this index, and what it returned. -/
structure Attempt where
  idx : Int64
  err : Option GoString
  deriving DecidableEq

/-- What the pool's `Write` returns, or the index with which it leaves the slice. -/
inductive Result where
  | panic (idx : Int64)
  | returned (err : Option GoString)
  deriving DecidableEq

/-- The calls of a `Write`, its result and the world after it. -/
structure Outcome (σ : Type) where
  attempts : List Attempt
  result : Result
  world : σ

def unableToWrite : GoString := str "unable to write to any dopplers"

/-- The loop of `Write` over these indices. -/
def tryConns (conns : List (Conn μ σ)) (msg : μ) : List Int64 → σ → Outcome σ
  | [], world => { attempts := [], result := .returned (some unableToWrite), world := world }
  | idx :: rest, world =>
    if InRange conns.length idx then
      match conns[idx.toInt.toNat]? with
      | none => { attempts := [], result := .panic idx, world := world }
      | some conn =>
        match conn.write msg world with
        | (none, world') =>
          { attempts := [⟨idx, none⟩], result := .returned none, world := world' }
        | (some err, world') =>
          let o := tryConns conns msg rest world'
          { o with attempts := ⟨idx, some err⟩ :: o.attempts }
    else { attempts := [], result := .panic idx, world := world }

/-- `Write` of a pool, by the number that `rand.Int` returned. -/
def write (conns : List (Conn μ σ)) (seed : Nat) (msg : μ) (world : σ) : Outcome σ :=
  tryConns conns msg (indices conns.length seed) world

/-- `ClientPool.Write` of `clientpool/v1`. -/
def V1.write (conns : List (Conn GoString σ)) (seed : Nat) (msg : GoString) (world : σ) :
    Outcome σ :=
  ClientPool.write conns seed msg world

/-- `ClientPool.Write` of `clientpool/v2`. -/
def V2.write (conns : List (Conn (List V2.Envelope) σ)) (seed : Nat)
    (msgs : List V2.Envelope) (world : σ) : Outcome σ :=
  ClientPool.write conns seed msgs world

/-! ## One loop -/

/-- The loop stays in the slice, stops at the first success and returns an error only after all
the indices. -/
structure Outcome.Thorough (idxs : List Int64) (o : Outcome σ) : Prop where
  stays : ∀ idx, o.result ≠ .panic idx
  inOrder : o.attempts.map Attempt.idx <+: idxs
  stops : o.result = .returned none → ∃ earlier idx,
    o.attempts = earlier ++ [⟨idx, none⟩] ∧ ∀ a ∈ earlier, a.err ≠ none
  fails : ∀ err, o.result = .returned (some err) →
    err = unableToWrite ∧ o.attempts.map Attempt.idx = idxs ∧ ∀ a ∈ o.attempts, a.err ≠ none

/-- A failed attempt comes before the others. -/
theorem Outcome.Thorough.cons {idxs : List Int64} {o : Outcome σ} (ho : o.Thorough idxs)
    (idx : Int64) (err : GoString) :
    { o with attempts := ⟨idx, some err⟩ :: o.attempts : Outcome σ }.Thorough (idx :: idxs) := by
  have hcons {earlier : List Attempt} (herrs : ∀ a ∈ earlier, a.err ≠ none) :
      ∀ a ∈ Attempt.mk idx (some err) :: earlier, a.err ≠ none :=
    List.forall_mem_cons.mpr ⟨Option.some_ne_none err, herrs⟩
  refine ⟨ho.stays, (List.prefix_cons_inj idx).mpr ho.inOrder, ?_, ?_⟩
  · intro hnil
    obtain ⟨earlier, last, hattempts, herrs⟩ := ho.stops hnil
    exact ⟨⟨idx, some err⟩ :: earlier, last, by rw [hattempts, List.cons_append], hcons herrs⟩
  · intro e he
    obtain ⟨htext, hall, herrs⟩ := ho.fails e he
    exact ⟨htext, by rw [List.map_cons, hall], hcons herrs⟩

theorem thorough_tryConns (conns : List (Conn μ σ)) (msg : μ) {idxs : List Int64}
    (h : ∀ idx ∈ idxs, InRange conns.length idx) (world : σ) :
    (tryConns conns msg idxs world).Thorough idxs := by
  induction idxs generalizing world with
  | nil =>
    refine ⟨fun idx => by simp [tryConns], List.nil_prefix, by simp [tryConns], ?_⟩
    intro err herr
    simp only [tryConns, Result.returned.injEq, Option.some.injEq] at herr
    exact ⟨herr.symm, rfl, by simp [tryConns]⟩
  | cons idx rest ih =>
    have hrange := h idx (List.mem_cons_self ..)
    have hget : idx.toInt.toNat < conns.length := by
      obtain ⟨hnonneg, hlt⟩ := hrange
      omega
    rw [tryConns, if_pos hrange, List.getElem?_eq_getElem hget]
    cases hwrite : (conns[idx.toInt.toNat]).write msg world with
    | mk err world' =>
      cases err with
      | none =>
        simp only [hwrite]
        exact ⟨nofun, by simp, fun _ => ⟨[], idx, rfl, nofun⟩, nofun⟩
      | some err =>
        simp only [hwrite]
        exact (ih (fun j hj => h j (List.mem_cons_of_mem _ hj)) world').cons idx err

/-! ## All the connections -/

/-- The indices are the places of the slice in the order of a rotation, and so the loops try
every connection exactly once before they give up. -/
structure VisitsAll (n seed : Nat) : Prop where
  inRange : ∀ idx ∈ indices n seed, InRange n idx
  rotation : ∃ k, indices n seed = ((List.range n).rotate k).map Int64.ofNat
  writesV1 : ∀ (σ : Type) (conns : List (Conn GoString σ)) (msg : GoString) (world : σ),
    conns.length = n → (V1.write conns seed msg world).Thorough (indices n seed)
  writesV2 : ∀ (σ : Type) (conns : List (Conn (List V2.Envelope) σ))
    (msgs : List V2.Envelope) (world : σ),
    conns.length = n → (V2.write conns seed msgs world).Thorough (indices n seed)
  fetches : ∀ (views : Nat → Plumbing.Pool.State) (clients : Nat),
    Plumbing.Pool.Successive n views →
    (∀ idx, Plumbing.Pool.fetchClient n seed views (some clients) ≠ .panic idx) ∧
    (Plumbing.Pool.fetchClient n seed views (some clients) = .client none →
      ∀ k < n, (views 0).slot (clients, k) = none)

section

variable {n seed : Nat}

theorem thorough_write (hfits : Fits n seed) (hn : n < 2 ^ 63) (hseed : seed < 2 ^ 63)
    (conns : List (Conn μ σ)) (hlength : conns.length = n) (msg : μ) (world : σ) :
    (write conns seed msg world).Thorough (indices n seed) := by
  subst hlength
  apply thorough_tryConns
  intro idx hidx
  obtain ⟨i, hi, rfl⟩ := List.mem_map.mp hidx
  exact inRange_of_fits hfits hn hseed (List.mem_range.mp hi)

/-- Every place is one of the indices. -/
theorem exists_index (hfits : Fits n seed) (hn : n < 2 ^ 63) (hseed : seed < 2 ^ 63) {k : Nat}
    (hk : k < n) : ∃ i < n, (index n seed i).toInt.toNat = k := by
  have hplace : Int64.ofNat k ∈ (List.range n).map Int64.ofNat :=
    List.mem_map.mpr ⟨k, List.mem_range.mpr hk, rfl⟩
  obtain ⟨i, hi, hik⟩ := List.mem_map.mp ((perm_indices hfits hn hseed).mem_iff.mpr hplace)
  refine ⟨i, List.mem_range.mp hi, ?_⟩
  rw [hik, Int64.toInt_ofNat_of_lt (hk.trans hn), Int.toNat_natCast]

open Plumbing.Pool in
theorem fetchClient_of_fits (hfits : Fits n seed) (hn : n < 2 ^ 63) (hseed : seed < 2 ^ 63)
    {views : Nat → State} (clients : Nat) (hviews : Successive n views) :
    (∀ idx, fetchClient n seed views (some clients) ≠ .panic idx) ∧
    (fetchClient n seed views (some clients) = .client none →
      ∀ k < n, (views 0).slot (clients, k) = none) := by
  constructor
  · apply fetchFrom_ne_panic
    intro i hi
    exact inRange_of_fits hfits hn hseed (List.mem_range.mp hi)
  · intro hnil k hk
    obtain ⟨i, hi, rfl⟩ := exists_index hfits hn hseed hk
    exact hviews.empty (slot_eq_none_of_fetchFrom hnil i (List.mem_range.mpr hi))

end

/-- The loops visit every connection exactly for the seeds with which no sum wraps around, or
only the last one and onto the first place. -/
theorem visitsAll_iff (n seed : Nat) (hn : n < 2 ^ 63) (hseed : seed < 2 ^ 63) :
    VisitsAll n seed ↔
      seed + n ≤ 2 ^ 63 ∨ seed + n = 2 ^ 63 + 1 ∧ n ∣ 2 ^ 63 := by
  constructor
  · intro h
    apply fits_of_inRange hn hseed
    intro i hi
    exact h.inRange _ (List.mem_map.mpr ⟨i, List.mem_range.mpr hi, rfl⟩)
  · intro hfits
    refine ⟨?_, ⟨seed, indices_of_fits hfits hn hseed⟩, ?_, ?_, ?_⟩
    · intro idx hidx
      obtain ⟨i, hi, rfl⟩ := List.mem_map.mp hidx
      exact inRange_of_fits hfits hn hseed (List.mem_range.mp hi)
    · intro σ conns msg world hlength
      exact thorough_write hfits hn hseed conns hlength msg world
    · intro σ conns msgs world hlength
      exact thorough_write hfits hn hseed conns hlength msgs world
    · intro views clients hviews
      exact fetchClient_of_fits hfits hn hseed clients hviews

theorem visitsAll_two : VisitsAll 2 (2 ^ 63 - 1) :=
  (visitsAll_iff 2 (2 ^ 63 - 1) (by decide) (by decide)).mpr (Or.inr (by decide))

/-- A connection that cannot be written to. -/
def broken : Conn μ Unit := ⟨fun _ _ => (some (str "EOF"), ())⟩

/-- With three connections and the largest seed the second index is negative. -/
theorem leaves_slice_three :
    ¬ VisitsAll 3 (2 ^ 63 - 1) ∧ indices 3 (2 ^ 63 - 1) = [1, -2, -1] ∧
    (V1.write [broken, broken, broken] (2 ^ 63 - 1) (str "m") ()).result = .panic (-2) ∧
    (V2.write [broken, broken, broken] (2 ^ 63 - 1) [] ()).result = .panic (-2) ∧
    Plumbing.Pool.fetchClient 3 (2 ^ 63 - 1) (fun _ => {}) (some 0) = .panic (-2) := by
  have hindices : indices 3 (2 ^ 63 - 1) = [1, -2, -1] := by decide
  refine ⟨?_, hindices, by decide, by decide, by decide⟩
  intro h
  have hrange : InRange 3 (-2) := h.inRange (-2) (by rw [hindices]; decide)
  exact absurd hrange (by decide)

end Loggregator.Metron.ClientPool
