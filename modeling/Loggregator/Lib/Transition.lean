import Mathlib.Data.List.Basic
import Mathlib.Data.List.Induction

/-!
# Systems that take steps

A system is a partial step function: `step s a = none` says that the action `a` is not enabled
in the state `s`. `run` executes a list of actions. `Reachable step ok s₀` are the states of
the runs from `s₀` in which every action meets the condition `ok` at the state where it is
taken; without a condition, `ok` is `Always`.
-/

namespace Loggregator.Lib

universe u v

variable {σ : Type u} {ℓ : Type v}

/-- Execute a list of actions. -/
def run (step : σ → ℓ → Option σ) : σ → List ℓ → Option σ
  | s, [] => some s
  | s, a :: as => (step s a).bind (fun s' => run step s' as)

/-- The condition that every action meets. -/
def Always (_ : σ) (_ : ℓ) : Prop := True

instance (s : σ) (a : ℓ) : Decidable (Always s a) := isTrue trivial

/-- The states that can be reached by actions that meet a condition. -/
inductive Reachable (step : σ → ℓ → Option σ) (ok : σ → ℓ → Prop) (s₀ : σ) : σ → Prop where
  | refl : Reachable step ok s₀ s₀
  | tail {s s' : σ} {a : ℓ} : Reachable step ok s₀ s → ok s a → step s a = some s' →
      Reachable step ok s₀ s'

variable {step : σ → ℓ → Option σ} {ok : σ → ℓ → Prop} {s₀ s s' : σ}

/-- What holds initially and is kept by every step that meets the condition holds in every
reachable state. -/
theorem Reachable.invariant {P : σ → Prop} (hs : Reachable step ok s₀ s) (h₀ : P s₀)
    (hstep : ∀ s a s', P s → ok s a → step s a = some s' → P s') : P s := by
  induction hs with
  | refl => exact h₀
  | tail _ hok hs ih => exact hstep _ _ _ ih hok hs

/-- A condition can be replaced by another one that it implies in the states reached. -/
theorem Reachable.mono {ok' : σ → ℓ → Prop} (hs : Reachable step ok s₀ s)
    (h : ∀ s a, Reachable step ok s₀ s → ok s a → ok' s a) : Reachable step ok' s₀ s := by
  induction hs with
  | refl => exact .refl
  | tail hs hok hstep ih => exact .tail ih (h _ _ hs hok) hstep

theorem run_cons {a : ℓ} {as : List ℓ} {s₁ : σ} (ha : step s a = some s₁) :
    run step s (a :: as) = run step s₁ as := by
  rw [run, ha, Option.bind_some]

/-- A run that is executed leads to a reachable state. -/
theorem Reachable.of_run {as : List ℓ} (hs : Reachable step Always s₀ s)
    (hrun : run step s as = some s') : Reachable step Always s₀ s' := by
  induction as generalizing s with
  | nil =>
    cases hrun
    exact hs
  | cons a as ih =>
    cases ha : step s a with
    | none => rw [run, ha, Option.bind_none] at hrun; cases hrun
    | some s₁ =>
      rw [run_cons ha] at hrun
      exact ih (hs.tail trivial ha) hrun

/-- The system that takes only the steps that meet the condition. -/
def guarded (step : σ → ℓ → Option σ) (ok : σ → ℓ → Prop) [∀ s a, Decidable (ok s a)] (s : σ)
    (a : ℓ) : Option σ :=
  if ok s a then step s a else none

theorem Reachable.of_guarded [∀ s a, Decidable (ok s a)] {as : List ℓ}
    (hs : Reachable step ok s₀ s) (hrun : run (guarded step ok) s as = some s') :
    Reachable step ok s₀ s' := by
  induction as generalizing s with
  | nil =>
    cases hrun
    exact hs
  | cons a as ih =>
    rw [run, guarded] at hrun
    split at hrun
    · next hok =>
      cases ha : step s a with
      | none => rw [ha] at hrun; cases hrun
      | some s₁ =>
        rw [ha, Option.bind_some] at hrun
        exact ih (hs.tail hok ha) hrun
    · cases hrun

section Outcome

variable {β : Type*} {f : σ → β} {b : β} {as : List ℓ}

/-- A run of which the outcome is known leads to a reachable state with that outcome. -/
theorem exists_reachable_of_run (h : (run step s₀ as).map f = some b) :
    ∃ s, Reachable step Always s₀ s ∧ f s = b := by
  obtain ⟨s, hs, hf⟩ := Option.map_eq_some_iff.mp h
  exact ⟨s, Reachable.refl.of_run hs, hf⟩

theorem exists_reachable_of_guarded [∀ s a, Decidable (ok s a)]
    (h : (run (guarded step ok) s₀ as).map f = some b) :
    ∃ s, Reachable step ok s₀ s ∧ f s = b := by
  obtain ⟨s, hs, hf⟩ := Option.map_eq_some_iff.mp h
  exact ⟨s, Reachable.refl.of_guarded hs, hf⟩

end Outcome

/-! ## The history of a run -/

theorem run_append (s : σ) (as bs : List ℓ) :
    run step s (as ++ bs) = (run step s as).bind (fun s' => run step s' bs) := by
  induction as generalizing s with
  | nil => rfl
  | cons a as ih =>
    rw [List.cons_append, run, run, Option.bind_assoc]
    congr 1
    funext s'
    exact ih s'

theorem run_concat (s : σ) (as : List ℓ) (a : ℓ) :
    run step s (as ++ [a]) = (run step s as).bind (fun s' => step s' a) := by
  rw [run_append]
  congr 1
  funext s'
  exact Option.bind_fun_some _

/-- What holds of the empty run and is kept by every further action holds of every run. -/
theorem run_invariant {P : List ℓ → σ → Prop} (h₀ : P [] s₀)
    (hstep : ∀ as s a s', run step s₀ as = some s → P as s → step s a = some s' →
      P (as ++ [a]) s') {as : List ℓ} (hrun : run step s₀ as = some s) : P as s := by
  induction as using List.reverseRecOn generalizing s with
  | nil =>
    cases hrun
    exact h₀
  | append_singleton as a ih =>
    rw [run_concat] at hrun
    obtain ⟨s₁, hs₁, ha⟩ := Option.bind_eq_some_iff.mp hrun
    exact hstep as s₁ a s hs₁ (ih hs₁) ha

/-- At some point of the run an action was taken for which `Q` holds: of the run up to it, of
the state that it was taken in, and of the action. -/
def Happened (step : σ → ℓ → Option σ) (s₀ : σ) (Q : List ℓ → σ → ℓ → Prop)
    (as : List ℓ) : Prop :=
  ∃ as₁ a as₂ s, as = as₁ ++ a :: as₂ ∧ run step s₀ as₁ = some s ∧ Q as₁ s a

variable {Q : List ℓ → σ → ℓ → Prop} {i : Nat}

theorem Happened.concat {as : List ℓ} (h : Happened step s₀ Q as) (b : ℓ) :
    Happened step s₀ Q (as ++ [b]) := by
  obtain ⟨as₁, a, as₂, s, rfl, hs, hQ⟩ := h
  exact ⟨as₁, a, as₂ ++ [b], s, by rw [List.append_assoc, List.cons_append], hs, hQ⟩

theorem Happened.last {as : List ℓ} {a : ℓ} (hs : run step s₀ as = some s) (hQ : Q as s a) :
    Happened step s₀ Q (as ++ [a]) :=
  ⟨as, a, [], s, rfl, hs, hQ⟩

theorem happened_concat_iff {as : List ℓ} {a : ℓ} (hs : run step s₀ as = some s) :
    Happened step s₀ Q (as ++ [a]) ↔ Happened step s₀ Q as ∨ Q as s a := by
  constructor
  · rintro ⟨as₁, b, as₂, s₁, heq, hs₁, hQ⟩
    rcases List.eq_nil_or_concat as₂ with rfl | ⟨as₂, last, rfl⟩
    · obtain ⟨rfl, hlast⟩ := List.append_inj' heq rfl
      cases hlast
      rw [hs] at hs₁
      cases hs₁
      exact Or.inr hQ
    · rw [List.concat_eq_append, ← List.cons_append, ← List.append_assoc] at heq
      exact Or.inl ⟨as₁, b, as₂, s₁, (List.append_inj' heq rfl).1, hs₁, hQ⟩
  · rintro (h | hQ)
    · exact h.concat a
    · exact Happened.last hs hQ

/-! ## Records of events -/

/-- Of every event of a record and of those before it `Q` holds. -/
def EachTime {α : Type u} (Q : List α → α → Prop) (l : List α) : Prop :=
  ∀ before a after, l = before ++ a :: after → Q before a

theorem EachTime.nil {α : Type u} {Q : List α → α → Prop} : EachTime Q [] := by
  intro before a after h
  cases before <;> cases h

theorem EachTime.concat {α : Type u} {Q : List α → α → Prop} {l : List α} (h : EachTime Q l)
    {a : α} (ha : Q l a) : EachTime Q (l ++ [a]) := by
  intro before b after heq
  rcases List.eq_nil_or_concat after with rfl | ⟨after, last, rfl⟩
  · obtain ⟨rfl, hlast⟩ := List.append_inj' heq rfl
    cases hlast
    exact ha
  · rw [List.concat_eq_append, ← List.cons_append, ← List.append_assoc] at heq
    exact h before b after (List.append_inj' heq rfl).1

theorem eachTime_concat_iff {α : Type u} {Q : List α → α → Prop} {l : List α} {a : α} :
    EachTime Q (l ++ [a]) ↔ EachTime Q l ∧ Q l a := by
  constructor
  · intro h
    refine ⟨?_, h l a [] rfl⟩
    intro before b after heq
    exact h before b (after ++ [a]) (by rw [heq, List.append_assoc, List.cons_append])
  · rintro ⟨h, ha⟩
    exact h.concat ha

/-- An event that happens only when it has not happened before happens at most once. -/
theorem EachTime.count_le_one {α : Type u} [DecidableEq α] {Q : List α → α → Prop} {l : List α}
    (h : EachTime Q l) {a : α} (ha : ∀ before, Q before a → a ∉ before) : l.count a ≤ 1 := by
  by_cases hmem : a ∈ l
  · obtain ⟨before, after, rfl⟩ := List.append_of_mem hmem
    have hbefore := ha before (h before a after rfl)
    have hafter : a ∉ after := by
      intro hlater
      obtain ⟨middle, after, rfl⟩ := List.append_of_mem hlater
      refine ha _ (h (before ++ a :: middle) a after (by simp)) ?_
      simp
    have hcount : (before ++ a :: after).count a = 1 := by
      rw [List.count_append, List.count_cons_self, List.count_eq_zero.mpr hbefore,
        List.count_eq_zero.mpr hafter]
    exact Nat.le_of_eq hcount
  · rw [List.count_eq_zero.mpr hmem]
    exact Nat.zero_le 1

/-! ## Results -/

theorem ok_of_map {ε : Type u} {α β : Type v} {x : Except ε α} {f : α → β} {b : β}
    (h : x.map f = .ok b) : ∃ a, x = .ok a ∧ f a = b := by
  cases x with
  | error e => cases h
  | ok a => exact ⟨a, rfl, Except.ok.inj h⟩

theorem ok_of_bind {ε : Type u} {α β : Type v} {x : Except ε α} {f : α → Except ε β} {b : β}
    (h : x >>= f = .ok b) : ∃ a, x = .ok a ∧ f a = .ok b := by
  cases x with
  | error e => cases h
  | ok a => exact ⟨a, rfl, h⟩

/-! ## Loops -/

/-- A loop that can fail does not, and keeps an invariant, when each of its turns does so. -/
theorem foldlM_ok {ε : Type u} {σ α : Type v} {f : σ → α → Except ε σ} {P : σ → Prop}
    {l : List α} (hturn : ∀ s, P s → ∀ a ∈ l, ∃ s', f s a = .ok s' ∧ P s') {s : σ} (hs : P s) :
    ∃ s', l.foldlM f s = .ok s' ∧ P s' := by
  induction l generalizing s with
  | nil => exact ⟨s, rfl, hs⟩
  | cons a l ih =>
    obtain ⟨s₁, hf, hs₁⟩ := hturn s hs a List.mem_cons_self
    obtain ⟨s', hl, hs'⟩ := ih (fun s hs b hb => hturn s hs b (List.mem_cons_of_mem _ hb)) hs₁
    refine ⟨s', ?_, hs'⟩
    rw [List.foldlM_cons, hf]
    exact hl

/-- What every turn of a loop keeps holds at its end. -/
theorem foldlM_invariant {ε : Type u} {σ α : Type v} {f : σ → α → Except ε σ} {P : σ → Prop}
    (hturn : ∀ s a s', P s → f s a = .ok s' → P s') {l : List α} {s s' : σ} (hs : P s)
    (h : l.foldlM f s = .ok s') : P s' := by
  induction l generalizing s with
  | nil =>
    cases h
    exact hs
  | cons a l ih =>
    rw [List.foldlM_cons] at h
    cases hf : f s a with
    | error e =>
      rw [hf] at h
      cases h
    | ok s₁ =>
      rw [hf] at h
      exact ih (hturn s a s₁ hs hf) h

/-! ## Threads -/

/-- The threads after one of them has gone on. -/
theorem getElem?_set_cases {α : Type u} {l : List α} {j : Nat} {y z : α}
    (h : (l.set i y)[j]? = some z) : (j = i ∧ z = y) ∨ (j ≠ i ∧ l[j]? = some z) := by
  by_cases hij : i = j
  · subst hij
    rw [List.getElem?_set_self' ] at h
    obtain ⟨x, -, hx⟩ := Option.map_eq_some_iff.mp h
    exact Or.inl ⟨rfl, hx.symm⟩
  · rw [List.getElem?_set_ne hij] at h
    exact Or.inr ⟨Ne.symm hij, h⟩

/-- A thread goes on that has no result, before or after. -/
theorem filterMap_set_none {α : Type u} {β : Type v} {f : α → Option β} {l : List α} {a : α} (b : α)
    (h : l[i]? = some a) (hold : f a = none) (hnew : f b = none) :
    (l.set i b).filterMap f = l.filterMap f := by
  induction l generalizing i with
  | nil => rfl
  | cons x l ih =>
    cases i with
    | zero =>
      cases h
      simp [hold, hnew]
    | succ i =>
      rw [List.set_cons_succ, List.filterMap_cons, List.filterMap_cons, ih h]

/-- A thread goes on and has its result then. -/
theorem filterMap_set_some {α : Type u} {β : Type v} {f : α → Option β} {l : List α} {a : α} (b : α)
    {c : β} (h : l[i]? = some a) (hold : f a = none) (hnew : f b = some c) :
    ((l.set i b).filterMap f).Perm (l.filterMap f ++ [c]) := by
  induction l generalizing i with
  | nil => cases h
  | cons x l ih =>
    cases i with
    | zero =>
      cases h
      rw [List.set_cons_zero, List.filterMap_cons_some hnew, List.filterMap_cons_none hold]
      exact (List.perm_append_singleton c _).symm
    | succ i =>
      rw [List.set_cons_succ, List.filterMap_cons, List.filterMap_cons]
      cases f x with
      | none => exact ih h
      | some y => exact (ih h).cons y

/-- One element of a list is replaced. -/
theorem countP_set_add {α : Type u} {p : α → Bool} {l : List α} {a : α} (b : α) (h : l[i]? = some a)
    : (l.set i b).countP p + (p a).toNat = l.countP p + (p b).toNat := by
  induction l generalizing i with
  | nil => cases h
  | cons x l ih =>
    cases i with
    | zero =>
      cases h
      cases ha : p a <;> cases hb : p b <;> simp [ha, hb]
    | succ i =>
      have hrest := ih h
      simp only [List.set_cons_succ, List.countP_cons]
      omega

/-- When one thread of a list goes on, a property that it hands down is still met by some
thread. -/
theorem exists_mem_set {α : Type u} {l : List α} {x y : α} {Q : α → Prop} (hi : l[i]? = some x)
    (h : ∃ z ∈ l, Q z) (hxy : Q x → Q y) : ∃ z ∈ l.set i y, Q z := by
  obtain ⟨z, hz, hQ⟩ := h
  obtain ⟨j, hj⟩ := List.getElem?_of_mem hz
  by_cases hij : i = j
  · subst hij
    rw [hi] at hj
    cases hj
    exact ⟨y, List.mem_set (List.getElem?_eq_some_iff.mp hi).1 y, hxy hQ⟩
  · refine ⟨z, List.mem_of_getElem? (i := j) ?_, hQ⟩
    rw [List.getElem?_set_ne hij, hj]

/-! ## Computations that may fail -/

/-- The computation returns a value. -/
def Completes {ε : Type u} {α : Type v} (x : Except ε α) : Prop := ∃ a, x = .ok a

section Completes

variable {ε : Type u} {α β : Type v}

theorem completes_ok (a : α) : Completes (.ok a : Except ε α) := ⟨a, rfl⟩

theorem not_completes_error (e : ε) : ¬ Completes (.error e : Except ε α) := by
  rintro ⟨a, h⟩
  cases h

variable {x : Except ε α}

theorem completes_bind {g : α → Except ε β} :
    Completes (x >>= g) ↔ ∃ a, x = .ok a ∧ Completes (g a) := by
  cases x with
  | error e => exact iff_of_false (not_completes_error e) (by rintro ⟨a, h, -⟩; cases h)
  | ok a => exact ⟨fun h => ⟨a, rfl, h⟩, by rintro ⟨a', h, hg⟩; cases h; exact hg⟩

/-- What follows always returns. -/
theorem completes_bind_of_forall {g : α → Except ε β} (h : ∀ a, Completes (g a)) :
    Completes (x >>= g) ↔ Completes x := by
  rw [completes_bind]
  constructor
  · rintro ⟨a, ha, -⟩
    exact ⟨a, ha⟩
  · rintro ⟨a, ha⟩
    exact ⟨a, ha, h a⟩

theorem completes_map {g : α → β} : Completes (x.map g) ↔ Completes x := by
  cases x with
  | error e => exact iff_of_false (not_completes_error e) (not_completes_error e)
  | ok a => exact iff_of_true (completes_ok (g a)) (completes_ok a)

/-- A loop whose turns return or not whatever the state. -/
theorem completes_foldlM_of_forall {g : β → α → Except ε β} {P : α → Prop}
    (h : ∀ b a, Completes (g b a) ↔ P a) {b₀ : β} {l : List α} :
    Completes (l.foldlM g b₀) ↔ ∀ a ∈ l, P a := by
  induction l generalizing b₀ with
  | nil => exact iff_of_true (completes_ok b₀) (by simp)
  | cons a l ih =>
    rw [List.foldlM_cons, completes_bind, List.forall_mem_cons]
    constructor
    · rintro ⟨b, hb, hrest⟩
      exact ⟨(h b₀ a).mp ⟨b, hb⟩, ih.mp hrest⟩
    · rintro ⟨ha, hrest⟩
      obtain ⟨b, hb⟩ := (h b₀ a).mpr ha
      exact ⟨b, hb, ih.mpr hrest⟩

/-- A loop returns exactly if each of its turns does, from the state reached before it. -/
theorem completes_foldlM {g : β → α → Except ε β} {b₀ : β} {l : List α} :
    Completes (l.foldlM g b₀) ↔
      ∀ before a after b, l = before ++ a :: after → before.foldlM g b₀ = .ok b →
        Completes (g b a) := by
  induction l using List.reverseRecOn with
  | nil =>
    refine iff_of_true (completes_ok b₀) ?_
    intro before a after b h
    cases before <;> cases h
  | append_singleton l last ih =>
    rw [List.foldlM_append, completes_bind]
    constructor
    · rintro ⟨b₁, hl, hlast⟩ before a after b heq hb
      rcases List.eq_nil_or_concat after with rfl | ⟨after, z, rfl⟩
      · obtain ⟨rfl, hlasts⟩ := List.append_inj' heq rfl
        cases hlasts
        rw [hl] at hb
        cases hb
        rw [List.foldlM_cons, completes_bind] at hlast
        obtain ⟨b', hb', -⟩ := hlast
        exact ⟨b', hb'⟩
      · rw [List.concat_eq_append, ← List.cons_append, ← List.append_assoc] at heq
        exact ih.mp ⟨b₁, hl⟩ before a after b (List.append_inj' heq rfl).1 hb
    · intro h
      have hl : Completes (l.foldlM g b₀) := by
        refine ih.mpr (fun before a after b heq hb => h before a (after ++ [last]) b ?_ hb)
        rw [heq, List.append_assoc, List.cons_append]
      obtain ⟨b, hb⟩ := hl
      obtain ⟨b', hb'⟩ := h l last [] b rfl hb
      refine ⟨b, hb, b', ?_⟩
      rw [List.foldlM_cons, hb']
      rfl

end Completes

end Loggregator.Lib
