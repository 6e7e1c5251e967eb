import Loggregator.Lib.Bytes

/-!
# Slash-separated paths

The package `path`: `Clean`, `Dir` and `Base`. `dir_absolute` and `base_absolute` are the laws for
a rooted path of proper elements.
-/

namespace Loggregator.Lib.Path

/-- The separator. -/
def sep : UInt8 := 47

/-- One element of `Clean`, for the elements that stand before it, the last one first. -/
def cleanElem (rooted : Bool) (before : List GoString) (e : GoString) : List GoString :=
  if e = [] ∨ e = str "." then before
  else if e = str ".." then
    match before with
    | [] => if rooted then [] else [e]
    | top :: rest => if top = str ".." then e :: before else rest
  else e :: before

/-- `path.Clean`. -/
def clean (p : GoString) : GoString :=
  let rooted := p.head? = some sep
  let out := [sep].intercalate ((p.splitOn sep).foldl (cleanElem rooted) []).reverse
  if rooted then sep :: out else if out = [] then str "." else out

/-- `path.Dir`. -/
def dir (p : GoString) : GoString := clean (p.reverse.dropWhile (fun c => c != sep)).reverse

/-- `path.Base`. -/
def base (p : GoString) : GoString :=
  if p = [] then str "."
  else
    let last := ((p.reverse.dropWhile (fun c => c == sep)).takeWhile (fun c => c != sep)).reverse
    if last = [] then [sep] else last

/-- An element that `Clean` leaves alone. -/
@[mk_iff]
structure Element (e : GoString) : Prop where
  ne_nil : e ≠ []
  sep_notMem : sep ∉ e
  ne_dot : e ≠ str "."
  ne_dots : e ≠ str ".."

instance (e : GoString) : Decidable (Element e) :=
  decidable_of_iff' _ (element_iff e)

/-- The rooted path of these elements. -/
def absolute (es : List GoString) : GoString := es.flatMap (fun e => sep :: e)

variable {es : List GoString}

theorem intercalate_eq_absolute (h : es ≠ []) :
    sep :: [sep].intercalate es = absolute es := by
  induction es with
  | nil => exact absurd rfl h
  | cons e es ih =>
    cases es with
    | nil => simp [absolute]
    | cons e' es =>
      rw [List.intercalate_cons_cons, List.append_assoc, List.singleton_append, ih (by simp)]
      rfl

theorem splitOn_absolute (hes : ∀ e ∈ es, sep ∉ e) :
    (absolute es).splitOn sep = [] :: es := by
  cases es with
  | nil => rfl
  | cons e es =>
    have hjoin : absolute (e :: es) = [sep].intercalate ([] :: e :: es) := by
      rw [List.intercalate_cons_cons, List.nil_append, List.singleton_append,
        intercalate_eq_absolute (by simp)]
    rw [hjoin, List.splitOn_intercalate _ _ (by simp)]
    rw [List.forall_mem_cons]
    exact ⟨by simp, hes⟩

theorem foldl_cleanElem (hes : ∀ e ∈ es, Element e) (rooted : Bool) (before : List GoString) :
    es.foldl (cleanElem rooted) before = es.reverse ++ before := by
  induction es generalizing before with
  | nil => rfl
  | cons e es ih =>
    obtain ⟨he, hes⟩ := List.forall_mem_cons.mp hes
    have hkeep : cleanElem rooted before e = e :: before := by
      unfold cleanElem
      rw [if_neg (by simp [he.ne_nil, he.ne_dot]), if_neg he.ne_dots]
    rw [List.foldl_cons, hkeep, ih hes, List.reverse_cons, List.append_assoc,
      List.singleton_append]

theorem dropWhile_append_sep {name rest : GoString} (h : sep ∉ name) :
    (name ++ sep :: rest).dropWhile (fun c => c != sep) = sep :: rest := by
  rw [List.dropWhile_append_of_pos, List.dropWhile_cons_of_neg (by simp)]
  intro c hc
  rw [bne_iff_ne]
  rintro rfl
  exact h hc

/-- The directory of a rooted path. -/
theorem dir_absolute (hne : es ≠ []) (hes : ∀ e ∈ es, Element e) {name : GoString}
    (hname : sep ∉ name) : dir (absolute es ++ sep :: name) = absolute es := by
  have hreverse : (absolute es ++ sep :: name).reverse =
      name.reverse ++ sep :: (absolute es).reverse := by
    simp
  -- the directory still has its last separator
  have hslash : (sep :: (absolute es).reverse).reverse = absolute (es ++ [[]]) := by
    simp [absolute]
  have hroot : (absolute (es ++ [[]])).head? = some sep := by
    cases es with
    | nil => exact absurd rfl hne
    | cons e es => rfl
  have hseps : ∀ e ∈ es ++ [[]], sep ∉ e := by
    intro e he
    rcases List.mem_append.mp he with he | he
    · exact (hes e he).sep_notMem
    · cases List.mem_singleton.mp he
      simp
  rw [dir, hreverse, dropWhile_append_sep (by simpa using hname), hslash, clean]
  simp only [hroot, splitOn_absolute hseps, decide_true, if_true, List.foldl_cons,
    List.foldl_append, List.foldl_nil, foldl_cleanElem hes]
  simp only [cleanElem, true_or, if_true, List.append_nil, List.reverse_reverse]
  exact intercalate_eq_absolute hne

/-- The last element of a rooted path. -/
theorem base_absolute (es : List GoString) {e : GoString} (he : Element e) :
    base (absolute es ++ sep :: e) = e := by
  have hlast : ((absolute es ++ sep :: e).reverse.dropWhile (fun c => c == sep)) =
      e.reverse ++ sep :: (absolute es).reverse := by
    rw [List.reverse_append, List.reverse_cons, List.append_assoc, List.singleton_append]
    obtain ⟨c, t, hct⟩ : ∃ c t, e.reverse = c :: t :=
      List.exists_cons_of_ne_nil (by simpa using he.ne_nil)
    rw [hct, List.cons_append, List.dropWhile_cons_of_neg]
    rw [beq_iff_eq]
    rintro rfl
    apply he.sep_notMem
    rw [← List.mem_reverse, hct]
    exact List.mem_cons_self
  have htake : (e.reverse ++ sep :: (absolute es).reverse).takeWhile (fun c => c != sep) =
      e.reverse := by
    rw [List.takeWhile_append_of_pos, List.takeWhile_cons_of_neg (by simp), List.append_nil]
    intro c hc
    rw [bne_iff_ne]
    rintro rfl
    exact he.sep_notMem (List.mem_reverse.mp hc)
  rw [base, if_neg (by simp), hlast, htake, List.reverse_reverse]
  exact if_neg he.ne_nil

end Loggregator.Lib.Path
